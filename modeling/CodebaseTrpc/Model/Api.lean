import CodebaseTrpc.Model.Controller
import CodebaseTrpc.Model.EmailService

/-! The tRPC middlewares and routers, and the one request handler they make. -/
namespace CodebaseTrpc
variable (P : Packages)

def tokenPrefix : List Char := "Bearer ".toList

/-- The token of an authorization header, with or without its prefix. -/
def tokenOf (authHeader : String) : String :=
  if tokenPrefix.isPrefixOf authHeader.toList then
    String.ofList (authHeader.toList.drop tokenPrefix.length)
  else authHeader

def unauthorized (message : String) : Err := .trpc .unauthorized message

def authMiddleware (authHeader : Option String) : Promise User :=
  match truthyText authHeader with
  | none => .throw (unauthorized "No authorization token provided")
  | some authHeader =>
    let token := tokenOf authHeader
    (do
      verifyJwtToken P token
      let decoded ← decodeJwtToken P token
      match ← getUserById decoded.userId with
      | none => .throw (unauthorized "User not found")
      | some user => pure user : Promise User).tryCatch fun error =>
        match error with
        | .trpc code message => .throw (.trpc code message)
        | error => .throw (unauthorized error.message)

/-- No router is behind this one. `user` is `ctx.user`. -/
def billingMiddleware : Option User → Promise Unit
  | none => .throw (unauthorized "Authentication required")
  | some user =>
    (do
      match ← getBillingByUserId user.id with
      | none => .throw (.trpc .notFound "User billing not found")
      | some userBilling => do
        let now ← dateNow
        if userBilling.expiresAt < now then
          .throw (.trpc .paymentRequired "User billing has expired")
        else pure () : Promise Unit).tryCatch fun error =>
        match error with
        | .trpc code message => .throw (.trpc code message)
        | error => .throw (.trpc .internalServerError error.message)

def verifiedEmailMiddleware (user : User) : Promise User :=
  if user.emailVerified then pure user
  else .throw (.trpc .forbidden "Please verify your email before making a purchase")

/-- `length` of a JavaScript string. -/
def jsLength (s : String) : ℕ :=
  s.toList.foldl (fun n c => n + if c.toNat < 65536 then 1 else 2) 0

/-- An input that its zod schema refuses is answered before the resolver runs. -/
def inputRefused : Err := .trpc .badRequest "Input validation failed"

def ageValid (age : ℤ) : Prop := 0 < age ∧ age ≤ 9007199254740991
instance (age : ℤ) : Decidable (ageValid age) := by unfold ageValid; infer_instance

def loginSchema (input : LoginInput) : Prop :=
  P.isEmail input.email = true ∧ 1 ≤ jsLength input.password
def signupSchema (input : SignupInput) : Prop :=
  3 ≤ jsLength input.fullName ∧ P.isEmail input.email = true ∧ 1 ≤ jsLength input.phone ∧
    1 ≤ jsLength input.password ∧ ageValid input.age
def updateUserSchema (input : UpdateUserInput) : Prop :=
  (∀ n ∈ input.fullName, 3 ≤ jsLength n) ∧ (∀ e ∈ input.email, P.isEmail e = true) ∧
    (∀ p ∈ input.phone, 1 ≤ jsLength p) ∧ (∀ a ∈ input.age, ageValid a) ∧ input ≠ {}
def verifyEmailChangeSchema (code : String) : Prop :=
  code.toList.length = 6 ∧ code.toList.all Char.isDigit = true
def createCheckoutSessionSchema (input : CreateCheckoutSessionInput) : Prop :=
  1 ≤ jsLength input.priceId ∧ P.isUrl input.successUrl = true ∧ P.isUrl input.cancelUrl = true

instance (input : LoginInput) : Decidable (loginSchema P input) := by
  unfold loginSchema; infer_instance
instance (input : SignupInput) : Decidable (signupSchema P input) := by
  unfold signupSchema; infer_instance
instance (input : UpdateUserInput) : Decidable (updateUserSchema P input) := by
  unfold updateUserSchema; infer_instance
instance (code : String) : Decidable (verifyEmailChangeSchema code) := by
  unfold verifyEmailChangeSchema; infer_instance
instance (input : CreateCheckoutSessionInput) :
    Decidable (createCheckoutSessionSchema P input) := by
  unfold createCheckoutSessionSchema; infer_instance

structure UserBilling where
  hasSubscription : Bool
  billing : Option Billing
  externalPriceId : Option String
  deriving DecidableEq, Repr

def getUserBilling (user : User) : Promise UserBilling := do
  let billing ← getBillingByUserId user.id
  let product ← match truthyText (billing.map Billing.productId) with
    | none => pure none
    | some productId => getProductById productId
  pure
    { hasSubscription := billing.any (·.status = "active")
      billing
      externalPriceId := product.bind Product.externalPriceId }

def createCheckoutSession (input : CreateCheckoutSessionInput) (user : User) :
    Promise (String × String) := do
  match ← getProductByExternalPriceId input.priceId with
  | none => .throw (.trpc .notFound "Product not found for the given price ID")
  | some product =>
    match truthyText product.externalPriceId, truthyText product.externalProductId with
    | some price, some _ => do
      -- Reuse the customer to avoid creating duplicates on resubscription
      let billing ← getBillingByUserId user.id
      let customer := truthyText (billing.map Billing.externalCustomerId)
      .act
        (fun w => { w with checkouts := w.checkouts ++
          [{ sessionId := w.env.sessionId
             customer
             customerEmail := if customer.isSome then none else some user.email
             priceId := price
             productId := product.id }] })
        fun w => match w.env.stripe with
          | .rejected message => .throw (.error message)
          | .created => match truthyText w.env.sessionUrl with
            | none => .throw (.trpc .internalServerError "Checkout URL not available")
            | some url => .pure (w.env.sessionId, url)
    | _, _ => .throw (.trpc .badRequest "This product is not available for purchase")

def createCustomerPortalSession (returnUrl : String) (user : User) : Promise String := do
  match ← getBillingByUserId user.id with
  | none => .throw (.trpc .notFound "User billing not found")
  | some billing =>
    if billing.externalCustomerId = "" then .throw (.trpc .notFound "Stripe customer not found")
    else
      .act
        (fun w => { w with portals := w.portals ++
          [{ customer := billing.externalCustomerId, returnUrl }] })
        fun w => match w.env.stripe with
          | .rejected message => .throw (.error message)
          | .created => .pure w.env.portalUrl

/-- A request to the server: a tRPC call with its authorization header where the procedure
reads one, or a webhook delivery. -/
inductive Request where
  | google (credential : String)
  | login (input : LoginInput)
  | signup (input : SignupInput)
  | refresh (refreshToken : String)
  | logout (auth : Option String)
  | verifyEmail (token : String)
  | resendVerificationEmail (auth : Option String)
  | forgotPassword (email : String)
  | resetPassword (token newPassword : String)
  | getUserById (auth : Option String)
  | updateUserById (auth : Option String) (input : UpdateUserInput)
  | requestEmailChange (auth : Option String) (newEmail : String)
  | verifyEmailChange (auth : Option String) (code : String)
  | getUserBilling (auth : Option String)
  | createCheckoutSession (auth : Option String) (input : CreateCheckoutSessionInput)
  | createCustomerPortalSession (auth : Option String) (returnUrl : String)
  | webhook (event : BillingEvent)
  deriving DecidableEq, Repr

inductive Reply where
  | tokens (response : LoginResponse)
  | profile (profile : Option UserProfile)
  | billing (billing : UserBilling)
  | session (id url : String)
  | portal (url : String)
  | success
  deriving DecidableEq, Repr

/-- `.input(schema)` before the resolver. -/
def validated {α : Type} (schema : Prop) [Decidable schema] (resolve : Promise α) : Promise α :=
  if schema then resolve else .throw inputRefused

/-- The routers: middlewares first, then the input schema, then the resolver. -/
def handle : Request → Promise Reply
  | .google credential => validated (1 ≤ jsLength credential) do
      return .tokens (← authenticateWithGoogle P)
  | .login input => validated (loginSchema P input) do
      return .tokens (← authenticateUser P input)
  | .signup input => validated (signupSchema P input) do
      return .profile (some (← registerUser P input))
  | .refresh refreshToken => validated (1 ≤ jsLength refreshToken) do
      return .tokens (← refreshAccessToken P refreshToken)
  | .logout auth => do
      let user ← authMiddleware P auth
      revokeUserRefreshToken user.id
      return .success
  | .verifyEmail token => do
      verifyUserEmail P token
      return .success
  | .resendVerificationEmail auth => do
      let user ← authMiddleware P auth
      resendVerificationEmail P user.id
      return .success
  | .forgotPassword email => validated (P.isEmail email = true) do
      forgotPassword P email
      return .success
  | .resetPassword token newPassword => validated (8 ≤ jsLength newPassword) do
      resetPassword P token newPassword
      return .success
  | .getUserById auth => do
      let user ← authMiddleware P auth
      return .profile (← getUserProfile user.id)
  | .updateUserById auth input => do
      let user ← authMiddleware P auth
      validated (updateUserSchema P input) do
        return .profile (some (← updateUserProfile user.id input))
  | .requestEmailChange auth newEmail => do
      let user ← authMiddleware P auth
      validated (P.isEmail newEmail = true) do
        requestEmailChange P user.id newEmail
        return .success
  | .verifyEmailChange auth code => do
      let user ← authMiddleware P auth
      validated (verifyEmailChangeSchema code) do
        return .profile (some (← verifyEmailChange P user.id code))
  | .getUserBilling auth => do
      let user ← authMiddleware P auth
      return .billing (← getUserBilling user)
  | .createCheckoutSession auth input => do
      let user ← authMiddleware P auth
      let user ← verifiedEmailMiddleware user
      validated (createCheckoutSessionSchema P input) do
        let session ← createCheckoutSession input user
        return .session session.1 session.2
  | .createCustomerPortalSession auth returnUrl => do
      let user ← authMiddleware P auth
      let user ← verifiedEmailMiddleware user
      validated (P.isUrl returnUrl = true) do
        return .portal (← createCustomerPortalSession returnUrl user)
  | .webhook event => do
      processBillingWebhookHandler event
      return .success

end CodebaseTrpc
