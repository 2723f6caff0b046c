import CodebaseTrpc.Model.BillingService

/-! `controllers/billing.controller.ts`: Stripe events that passed the signature check. -/
namespace CodebaseTrpc

/-- A Stripe reference: an id, or the object in its place. -/
inductive Expandable where
  | id (id : String)
  | object (id : String)
  deriving DecidableEq, Repr

/-- `typeof subscription === 'string' ? subscription : subscription?.id`, kept if truthy. -/
def subscriptionIdOf : Option Expandable → Option String
  | none => none
  | some (.id id) => if id = "" then none else some id
  | some (.object id) => if id = "" then none else some id

structure LineItem where
  subscription : Option Expandable := none
  /-- `pricing?.price_details?.price` -/
  price : Option String := none
  /-- `period.end`, in seconds. -/
  periodEnd : ℕ
  deriving DecidableEq, Repr

structure Invoice where
  customerEmail : Option String
  customer : Option String
  /-- `parent?.subscription_details?.subscription` -/
  parentSubscription : Option Expandable
  /-- `lines.data`; `none` when the invoice carries no lines object. -/
  lines : Option (List LineItem)
  deriving DecidableEq, Repr

structure SubscriptionItem where
  /-- In seconds. -/
  currentPeriodEnd : Option ℕ
  /-- `price?.id` -/
  priceId : Option String
  deriving DecidableEq, Repr

structure Subscription where
  id : String
  status : String
  cancelAt : Option ℕ := none
  items : List SubscriptionItem
  deriving DecidableEq, Repr

inductive BillingEvent where
  | invoicePaid (invoice : Invoice)
  | invoicePaymentFailed (invoice : Invoice)
  | subscriptionUpdated (subscription : Subscription)
  | subscriptionDeleted (subscription : Subscription)
  | other (type : String)
  deriving DecidableEq, Repr

def invoicePaid (paidInvoice : Invoice) : Promise Unit :=
  match paidInvoice.lines with
  | none => .throw (.typeError "Cannot read properties of undefined")
  | some [] => pure ()
  | some (lineItem :: _) =>
    match subscriptionIdOf paidInvoice.parentSubscription with
    | none => .throw (.error "invoice.paid: Subscription missing from invoice")
    | some subscriptionId =>
      match truthyText lineItem.price with
      | none => .throw (.error "invoice.paid: Price ID missing from invoice line item")
      | some externalPriceId => do
        match ← getProductByExternalPriceId externalPriceId with
        | none => pure ()  -- logged
        | some product =>
          if lineItem.periodEnd = 0 then
            .throw (.error "invoice.paid: Period end missing from invoice line item")
          else
            registerUserBilling
              { userEmail := paidInvoice.customerEmail.getD ""
                productId := product.id
                externalCustomerId := paidInvoice.customer
                externalSubscriptionId := subscriptionId
                expiresAt := lineItem.periodEnd }

def invoicePaymentFailed (failedInvoice : Invoice) : Promise Unit :=
  let subscription := do (← (← failedInvoice.lines).head?).subscription
  match subscriptionIdOf subscription with
  | none => .throw (.error "invoice.payment_failed: Subscription missing from invoice line item")
  | some subscriptionId => updateBillingOnPaymentFailed subscriptionId

def subscriptionUpdated (updatedSubscription : Subscription) : Promise Unit :=
  let item := updatedSubscription.items.head?
  match truthy (do (← item).currentPeriodEnd) with
  | none => .throw (.error "subscription.updated: Subscription item missing current_period_end")
  | some currentPeriodEnd => do
    let expiresAt := match truthy updatedSubscription.cancelAt with
      | some cancelAt => unixTimestampToDate cancelAt
      | none => unixTimestampToDate currentPeriodEnd
    let productId ← do
      match truthyText (do (← item).priceId) with
      | none => pure none
      | some priceId => do
        let product ← getProductByExternalPriceId priceId
        pure (product.map Product.id)
    updateBillingOnSubscriptionUpdated
      { externalSubscriptionId := updatedSubscription.id
        productId
        status := some updatedSubscription.status
        currentPeriodEnd := expiresAt }

/-- Resolves when the event is answered with 200 `{ received: true }`. -/
def processBillingWebhookHandler : BillingEvent → Promise Unit
  | .invoicePaid invoice => invoicePaid invoice
  | .invoicePaymentFailed invoice => invoicePaymentFailed invoice
  | .subscriptionUpdated subscription => subscriptionUpdated subscription
  | .subscriptionDeleted subscription => updateBillingOnSubscriptionDeleted subscription.id
  | .other _ => pure ()

end CodebaseTrpc
