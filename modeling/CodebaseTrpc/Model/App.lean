import CodebaseTrpc.Model.Controller

/-! `app.ts`: the route of the Stripe webhook, with `middlewares/billing.middleware.ts` in front of
the handler. Express 4 calls an async handler and does not look at its promise. -/
namespace CodebaseTrpc

/-- How the handling of an HTTP request ends. -/
inductive HttpEnd where
  | answered (status : StatusCodes)
  /-- Nothing is sent, and the rejection reaches the process. -/
  | unhandledRejection (e : Err)
  deriving DecidableEq, Repr

structure BillingRequest where
  /-- `req.headers['stripe-signature']` -/
  signature : Option String
  body : String
  billingEvent : Option BillingEvent := none
  deriving DecidableEq, Repr

/-- `stripe.webhooks.constructEvent(body, signature, secret)`, which throws on a bad signature. -/
abbrev ConstructEvent := String → String → String → Except String BillingEvent

def verifyStripeWebhookSignatureMiddleware (constructEvent : ConstructEvent)
    (stripeWebhookSecret : String) (req : BillingRequest)
    (next : BillingRequest → Promise HttpEnd) : Promise HttpEnd :=
  match truthyText req.signature with
  | none => pure (.answered .badRequest)
  | some signature =>
    match constructEvent req.body signature stripeWebhookSecret with
    | .error _ => pure (.answered .badRequest)
    | .ok event => next { req with billingEvent := some event }

def BillingRequest.processBillingWebhookHandler (req : BillingRequest) : Promise Unit :=
  match req.billingEvent with
  | none => .throw (.error "req.billingEvent is missing in processBillingWebhookHandler")
  | some billingEvent => CodebaseTrpc.processBillingWebhookHandler billingEvent

/-- What becomes of a request whose async handler answers 200 as its last step: neither Express
nor the `try` around `next()` awaits the promise. -/
def callAsyncHandler (handler : Promise Unit) : Promise HttpEnd :=
  (handler.bind fun _ => .pure (.answered .ok)).tryCatch fun e => .pure (.unhandledRejection e)

/-- `app.post('/webhooks/stripe', ...)` -/
def postWebhooksStripe (constructEvent : ConstructEvent) (stripeWebhookSecret : String)
    (req : BillingRequest) : Promise HttpEnd :=
  verifyStripeWebhookSignatureMiddleware constructEvent stripeWebhookSecret req fun req =>
    callAsyncHandler req.processBillingWebhookHandler

end CodebaseTrpc
