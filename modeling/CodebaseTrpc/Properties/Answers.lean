import CodebaseTrpc.Invariants.Writers
import CodebaseTrpc.Properties.TenantIsolation
import CodebaseTrpc.Spec.Served

/-! What a request can be answered, whatever other requests write between the steps of its own. A
reply is about the user that its token names, the user whose credentials it presents, or the user
that it added; an error was the case in a world that it saw, or tells of a lost statement. -/
namespace CodebaseTrpc
variable {P : Packages}

/-- Both tokens are the user's. -/
def LoginResponse.Names (P : Packages) (tokens : LoginResponse) (userId : String) : Prop :=
  bearerOf P tokens.accessToken = some userId ∧ bearerOf P tokens.refreshToken = some userId

/-- The credentials of the request are those of the user; `Seen` are the worlds that it sees. -/
def Request.SignsIn (P : Packages) (Seen : World → Prop) (u : User) : Request → Prop
  | .login input => u.email = input.email ∧ P.compareSync input.password u.passwordHash = true
  | .refresh token => P.jwt.authentic token = true ∧ u.refreshToken = some token
  | .google _ => ∃ v payload, Seen v ∧ GooglePayload P v payload ∧ u.googleId = some payload.sub
  | _ => False

/-- The request is a signup, and this is the user that its own statement inserted. -/
def Request.Adds (P : Packages) (Seen : World → Prop) (userId : String) : Request → Prop
  | .signup input => ∃ v env product row db, Seen v ∧
      insertUser (signupUser P input env product) v v.db = .ok (row, db) ∧ Seen { v with db } ∧
      row.id = userId
  | _ => False

/-- What a reply may tell. -/
def Request.Answers (P : Packages) (Seen : World → Prop) (request : Request) : Reply → Prop
  | .tokens tokens => ∃ w u, Seen w ∧ u ∈ w.db.users ∧ request.SignsIn P Seen u ∧
      tokens.Names P u.id
  | .profile profile => ∀ p ∈ profile, (request.subject P = some p.id ∨ request.Adds P Seen p.id) ∧
      ∃ w u, Seen w ∧ u ∈ w.db.users ∧ p = removeUserSensitive u
  | .billing billing => ∀ row ∈ billing.billing, request.subject P = some row.userId ∧
      ∃ w, Seen w ∧ row ∈ w.db.billings
  | .portal url => ∃ auth returnUrl w row v,
      request = .createCustomerPortalSession auth returnUrl ∧ Seen w ∧ row ∈ w.db.billings ∧
      request.subject P = some row.userId ∧ Seen v ∧ v.env.portalUrl = url ∧
      Seen { v with portals := v.portals ++ [{ customer := row.externalCustomerId, returnUrl }] }
  | .session _ _ | .success => True

/-- The input passes its schema. -/
def Request.Valid (P : Packages) : Request → Prop
  | .google credential => 1 ≤ jsLength credential
  | .login input => loginSchema P input
  | .signup input => signupSchema P input
  | .refresh token => 1 ≤ jsLength token
  | .forgotPassword email => P.isEmail email = true
  | .resetPassword _ newPassword => 8 ≤ jsLength newPassword
  | .updateUserById _ input => updateUserSchema P input
  | .requestEmailChange _ newEmail => P.isEmail newEmail = true
  | .verifyEmailChange _ code => verifyEmailChangeSchema code
  | .createCheckoutSession _ input => createCheckoutSessionSchema P input
  | .createCustomerPortalSession _ returnUrl => P.isUrl returnUrl = true
  | _ => True

/-- The requests behind `verifiedEmailMiddleware`. -/
def Request.Purchases : Request → Prop
  | .createCheckoutSession _ _ | .createCustomerPortalSession _ _ => True
  | _ => False

/-- The token that is the input of a request. -/
def Request.tokenInput : Request → Option String
  | .refresh token | .verifyEmail token | .resetPassword token _ => some token
  | _ => none

/-- What a mailed link must be for, and what any other token is told. -/
def Request.link : Request → Option (TokenPurpose × String)
  | .verifyEmail _ => some (.emailVerification, "Invalid verification token")
  | .resetPassword _ _ => some (.passwordReset, "Invalid reset token")
  | _ => none

/-- What is told when the mail of the request is not accepted. -/
def Request.mailError : Request → Option String
  | .resendVerificationEmail _ => some "Failed to send verification email"
  | .forgotPassword _ => some "Failed to send password reset email"
  | .requestEmailChange _ _ => some "Failed to send verification code"
  | _ => none

/-- The request saw a world with a row of the user, and one without. -/
def Gone (Seen : World → Prop) (userId : String) : Prop :=
  (∃ v u, Seen v ∧ u ∈ v.db.users ∧ u.id = userId) ∧
    ∃ w, Seen w ∧ Rows.lookup User.id userId w.db.users = none

/-- What the statements and the procedures tell of such a row. -/
def goneErrors : List Err :=
  [noRowReturned, noPendingEmailChange, .custom "User not found" .notFound,
    .custom "Failed to retrieve user profile" .internalServerError,
    .custom "Failed to fetch updated profile" .internalServerError]

/-- In a world that the request saw, this is the row of the user that its token names. -/
structure OwnRow (P : Packages) (Seen : World → Prop) (request : Request) (w : World) (u : User) :
    Prop where
  seen : Seen w
  mem : u ∈ w.db.users
  own : request.subject P = some u.id

/-- The rows that a request puts together from its input and would leave in the users table. All
other updates write columns that no constraint speaks of. -/
inductive Request.Stores (P : Packages) (Seen : World → Prop) (w : World) :
    Request → List User → Prop
  | signup {input : SignupInput} {env : Environment} {product : Product} :
      Stores P Seen w (.signup input)
        (w.db.users ++ [(signupUser P input env product).row w.env.uuid w.env.now])
  | google {credential : String} {v : World} {payload : TGoogleTokenPayload} {env : Environment}
      {product : Product} (hv : Seen v) (hp : GooglePayload P v payload) :
      Stores P Seen w (.google credential)
        (w.db.users ++ [(googleUser P payload env product).row w.env.uuid w.env.now])
  | link {credential id : String} {v : World} {payload : TGoogleTokenPayload} (hv : Seen v)
      (hp : GooglePayload P v payload) : Stores P Seen w (.google credential)
        (Rows.update User.id id ((linkGoogle payload.sub).apply w.env.now) w.db.users)
  | password {token newPassword salt id : String}
      (hs : Request.subject P (.resetPassword token newPassword) = some id) :
      Stores P Seen w (.resetPassword token newPassword) (Rows.update User.id id
        ((storePassword (P.hashSync salt newPassword)).apply w.env.now) w.db.users)
  | profile {auth : Option String} {input : UpdateUserInput} {id : String}
      (hs : Request.subject P (.updateUserById auth input) = some id) :
      Stores P Seen w (.updateUserById auth input)
        (Rows.update User.id id (input.updates.apply w.env.now) w.db.users)
  | email {auth : Option String} {code newEmail id : String}
      (hs : Request.subject P (.verifyEmailChange auth code) = some id) :
      Stores P Seen w (.verifyEmailChange auth code)
        (Rows.update User.id id ((changeEmail newEmail).apply w.env.now) w.db.users)

/-- Why a code cannot be entered, by the row of the user. -/
inductive ChangeRefused (P : Packages) (Seen : World → Prop) (u : User) : Err → Prop
  | unasked (h : truthyText u.emailVerificationToken = none) :
      ChangeRefused P Seen u noPendingEmailChange
  | dead {token : String} {w : World} (hs : u.emailVerificationToken = some token) (hw : Seen w)
      (h : ¬ Live P token w.env.now) : ChangeRefused P Seen u (tokenError P token)
  | unreadable {token : String} (hs : u.emailVerificationToken = some token)
      (h : P.jwt.decode token = none) :
      ChangeRefused P Seen u (.typeError "Cannot read properties of null")
  /-- It is the token of a verification link, say. -/
  | otherPurpose {token : String} {t : Token} (hs : u.emailVerificationToken = some token)
      (ht : P.jwt.decode token = some t) (h : t.purpose ≠ some .emailChange) :
      ChangeRefused P Seen u (badRequest "Invalid token purpose")
  | incomplete {token : String} {t : Token} (hs : u.emailVerificationToken = some token)
      (ht : P.jwt.decode token = some t)
      (h : truthyText t.code = none ∨ truthyText t.newEmail = none ∨ t.attempts = none) :
      ChangeRefused P Seen u (badRequest "Invalid verification data")
  | spent {token : String} {t : Token} {n : ℕ} (hs : u.emailVerificationToken = some token)
      (ht : P.jwt.decode token = some t) (hn : t.attempts = some n)
      (h : maxVerificationAttempts ≤ n) :
      ChangeRefused P Seen u (badRequest "Too many failed attempts. Please request a new code")
  | taken {token newEmail : String} {t : Token} {w : World} {v : User}
      (hs : u.emailVerificationToken = some token) (ht : P.jwt.decode token = some t)
      (hn : t.newEmail = some newEmail) (hw : Seen w) (hv : v ∈ w.db.users)
      (he : v.email = newEmail) (hne : v.id ≠ u.id) :
      ChangeRefused P Seen u (.custom "This email is already in use" .conflict)

/-- Why a tRPC call fails. `Lost` is whether a statement of the call may be lost. -/
inductive Refusal (P : Packages) (Seen : World → Prop) (Lost : Prop) : Request → Err → Prop
  | input {request : Request} (h : ¬ request.Valid P) : Refusal P Seen Lost request inputRefused
  | lost {request : Request} (hl : Lost) : Refusal P Seen Lost request connectionLost
  /-- `authMiddleware` looks its user up, and tells any failure as its own. -/
  | headerLost {request : Request} {auth : Option String} (hh : request.header = some auth)
      (hl : Lost) : Refusal P Seen Lost request (unauthorized connectionLost.message)
  | header {request : Request} {auth : Option String} {message : String} {w : World}
      (hh : request.header = some auth) (hw : Seen w) (h : ∀ u, ¬ Authenticates P w auth u) :
      Refusal P Seen Lost request (unauthorized message)
  | unverified {request : Request} {w : World} {u : User} (hp : request.Purchases)
      (hu : OwnRow P Seen request w u) (hv : u.emailVerified = false) :
      Refusal P Seen Lost request
        (.trpc .forbidden "Please verify your email before making a purchase")
  | noToken {request : Request} (ht : request.tokenInput = some "") :
      Refusal P Seen Lost request tokenRequired
  | dead {request : Request} {token : String} {w : World} (ht : request.tokenInput = some token)
      (hw : Seen w) (h : ¬ Live P token w.env.now) :
      Refusal P Seen Lost request (tokenError P token)
  | unreadable {request : Request} {token : String} (ht : request.tokenInput = some token)
      (h : P.jwt.decode token = none) :
      Refusal P Seen Lost request (.typeError "Cannot read properties of null")
  /-- A mailed link of another kind, or of a user that there is not. -/
  | otherLink {request : Request} {token message : String} {purpose : TokenPurpose} {t : Token}
      (ht : request.tokenInput = some token) (hl : request.link = some (purpose, message))
      (hd : P.jwt.decode token = some t)
      (h : t.purpose ≠ some purpose ∨
        ∃ w, Seen w ∧ Rows.lookup User.id t.userId w.db.users = none) :
      Refusal P Seen Lost request (.custom message .badRequest)
  | replaced {token : String} {w : World} {u : User}
      (hu : OwnRow P Seen (.verifyEmail token) w u)
      (h : u.emailVerificationToken ≠ some token) : Refusal P Seen Lost (.verifyEmail token)
        (.custom "Invalid or expired verification token" .badRequest)
  | credentials {input : LoginInput} {w : World} (hw : Seen w)
      (h : ∀ u, Rows.lookup User.email input.email w.db.users = some u →
        P.compareSync input.password u.passwordHash = false) :
      Refusal P Seen Lost (.login input) wrongCredentials
  | notGoogle {credential : String} {w : World} (hw : Seen w) (h : w.env.google = .rejected) :
      Refusal P Seen Lost (.google credential) (.custom "Invalid Google token" .unauthorized)
  | emptyTicket {credential : String} {w : World} (hw : Seen w)
      (h : w.env.google = .ticket none) :
      Refusal P Seen Lost (.google credential) (.custom "Empty token payload" .unauthorized)
  | badTicket {credential : String} {w : World} {payload : TicketPayload}
      {messages : List String} (hw : Seen w) (h : w.env.google = .ticket (some payload))
      (hm : googleTokenPayloadSchema P payload = .error messages) :
      Refusal P Seen Lost (.google credential) (.zodValidation messages)
  | notHeld {token : String} {w : World} (hw : Seen w)
      (h : Rows.lookup User.refreshToken (some token) w.db.users = none) :
      Refusal P Seen Lost (.refresh token) (.custom "Invalid refresh token" .unauthorized)
  | alreadyVerified {auth : Option String} {w : World} {u : User}
      (hu : OwnRow P Seen (.resendVerificationEmail auth) w u) (hv : u.emailVerified = true) :
      Refusal P Seen Lost (.resendVerificationEmail auth)
        (.custom "Email already verified" .badRequest)
  | unsent {request : Request} {message : String} {w : World}
      (hm : request.mailError = some message) (hw : Seen w) (h : w.env.mail ≠ .accepted) :
      Refusal P Seen Lost request (.custom message .internalServerError)
  | sameEmail {auth : Option String} {newEmail : String} {w : World} {u : User}
      (hu : OwnRow P Seen (.requestEmailChange auth newEmail) w u) (he : u.email = newEmail) :
      Refusal P Seen Lost (.requestEmailChange auth newEmail)
        (badRequest "New email must be different from current email")
  | taken {auth : Option String} {newEmail : String} {w : World} {v : User} (hw : Seen w)
      (hv : v ∈ w.db.users) (he : v.email = newEmail) :
      Refusal P Seen Lost (.requestEmailChange auth newEmail)
        (.custom "This email is already in use" .conflict)
  | change {auth : Option String} {code : String} {w : World} {u : User} {e : Err}
      (hu : OwnRow P Seen (.verifyEmailChange auth code) w u) (h : ChangeRefused P Seen u e) :
      Refusal P Seen Lost (.verifyEmailChange auth code) e
  | noProduct {auth : Option String} {input : CreateCheckoutSessionInput} {w : World} (hw : Seen w)
      (h : Rows.lookup Product.externalPriceId (some input.priceId) w.db.products = none) :
      Refusal P Seen Lost (.createCheckoutSession auth input)
        (.trpc .notFound "Product not found for the given price ID")
  | notForSale {auth : Option String} {input : CreateCheckoutSessionInput} {w : World}
      {product : Product} (hw : Seen w) (hp : product ∈ w.db.products)
      (hprice : product.externalPriceId = some input.priceId)
      (h : truthyText product.externalPriceId = none ∨
        truthyText product.externalProductId = none) :
      Refusal P Seen Lost (.createCheckoutSession auth input)
        (.trpc .badRequest "This product is not available for purchase")
  | noUrl {auth : Option String} {input : CreateCheckoutSessionInput} {w : World} (hw : Seen w)
      (h : truthyText w.env.sessionUrl = none) :
      Refusal P Seen Lost (.createCheckoutSession auth input)
        (.trpc .internalServerError "Checkout URL not available")
  | stripe {request : Request} {message : String} {w : World} (hp : request.Purchases) (hw : Seen w)
      (h : w.env.stripe = .rejected message) : Refusal P Seen Lost request (.error message)
  | noBilling {auth : Option String} {returnUrl userId : String} {w : World}
      (hs : Request.subject P (.createCustomerPortalSession auth returnUrl) = some userId)
      (hw : Seen w) (h : Rows.lookup Billing.userId userId w.db.billings = none) :
      Refusal P Seen Lost (.createCustomerPortalSession auth returnUrl)
        (.trpc .notFound "User billing not found")
  | noCustomer {auth : Option String} {returnUrl : String} {w : World} {billing : Billing}
      (hs : Request.subject P (.createCustomerPortalSession auth returnUrl) = some billing.userId)
      (hw : Seen w) (hb : billing ∈ w.db.billings) (h : billing.externalCustomerId = "") :
      Refusal P Seen Lost (.createCustomerPortalSession auth returnUrl)
        (.trpc .notFound "Stripe customer not found")
  | gone {request : Request} {userId : String} {e : Err} (h : Gone Seen userId)
      (he : e ∈ goneErrors) : Refusal P Seen Lost request e
  | noFreeTier {request : Request} {w : World} (hr : request.OpensSession ∨ request.Joins)
      (hw : Seen w) (h : w.freeTier = none) : Refusal P Seen Lost request freeTierNotFound
  /-- The email is taken, say, or a text is too long for its column. -/
  | constraint {request : Request} {w : World} {users : List User} (hw : Seen w)
      (hs : request.Stores P Seen w users) (h : ¬ Constraints users w.db.products w.db.billings) :
      Refusal P Seen Lost request constraintViolated

end CodebaseTrpc
