import Mathlib.Data.Int.Notation
import Mathlib.Data.Nat.Notation
import Mathlib.Data.List.Nodup
import Mathlib.Tactic.Simps.Basic

/-! Rows, tokens, inputs and errors of the back end. Instants are milliseconds since the
epoch unless a name says seconds; ids and token texts are strings, as in the source. -/
namespace CodebaseTrpc

def millisecondsPerSecond : ℕ := 1000
def emailChangeCooldownMs : ℕ := 60000
def emailChangeTokenExpirationMinutes : ℕ := 15
def maxVerificationAttempts : ℕ := 5
def verificationCodeMin : ℕ := 100000
def verificationCodeMax : ℕ := 999999

/-- The last instant a JavaScript `Date` has. -/
def maxTimestamp : ℕ := 8640000000000000

/-- `unixTimestampToDate`. Past `maxTimestamp` the result is an `Invalid Date`, which no statement
stores. -/
def unixTimestampToDate (unixTimestamp : ℕ) : ℕ := unixTimestamp * millisecondsPerSecond

/-- A number that is present and not zero. -/
def truthy : Option ℕ → Option ℕ
  | some (n + 1) => some (n + 1)
  | _ => none

/-- A text that is present and not empty. -/
def truthyText : Option String → Option String
  | none => none
  | some text => if text = "" then none else some text

theorem truthyText_of_ne {text : String} (h : text ≠ "") : truthyText (some text) = some text := by
  simp [truthyText, h]

structure User where
  id : String
  email : String
  fullName : String
  phone : String
  age : ℤ
  passwordHash : String
  refreshToken : Option String
  googleId : Option String
  emailVerified : Bool
  emailVerificationToken : Option String
  currentProductId : Option String
  createdAt : ℕ
  updatedAt : ℕ
  deriving DecidableEq, Repr, Inhabited

structure UserProfile where
  id : String
  email : String
  fullName : String
  age : ℤ
  phone : String
  emailVerified : Bool
  deriving DecidableEq, Repr

structure Product where
  id : String
  name : String
  description : String
  priceInCents : ℤ
  externalProductId : Option String
  externalPriceId : Option String
  active : Bool
  isFreeTier : Bool
  maxProjects : Option ℤ
  deriving DecidableEq, Repr

structure Billing where
  id : String
  userId : String
  productId : String
  externalSubscriptionId : String
  externalCustomerId : String
  status : String
  expiresAt : ℕ
  createdAt : ℕ
  updatedAt : ℕ
  deriving DecidableEq, Repr, Inhabited

/-- A key of a partial-update object: left out or `undefined`, or carrying a value.
`null` is the value `none` of a nullable column. -/
inductive Patch (α : Type) where
  | undefined
  | set (value : α)
  deriving DecidableEq, Repr

/-- A column after an update that carries the key. -/
def Patch.apply {α : Type} : Patch α → α → α
  | .undefined, old => old
  | .set value, _ => value

@[simp] theorem Patch.apply_undefined {α : Type} (old : α) :
    Patch.undefined.apply old = old := rfl
@[simp] theorem Patch.apply_set {α : Type} (value old : α) :
    (Patch.set value).apply old = value := rfl

/-- The `updates` argument of `updateUserById`. -/
structure UserUpdates where
  email : Patch String := .undefined
  fullName : Patch String := .undefined
  phone : Patch String := .undefined
  age : Patch ℤ := .undefined
  passwordHash : Patch String := .undefined
  refreshToken : Patch (Option String) := .undefined
  googleId : Patch (Option String) := .undefined
  emailVerified : Patch Bool := .undefined
  emailVerificationToken : Patch (Option String) := .undefined
  currentProductId : Patch (Option String) := .undefined
  deriving DecidableEq, Repr

/-- The row after `UPDATE users SET ...`; `updated_at` is always written. -/
@[simps]
def UserUpdates.apply (updates : UserUpdates) (now : ℕ) (user : User) : User where
  id := user.id
  email := updates.email.apply user.email
  fullName := updates.fullName.apply user.fullName
  phone := updates.phone.apply user.phone
  age := updates.age.apply user.age
  passwordHash := updates.passwordHash.apply user.passwordHash
  refreshToken := updates.refreshToken.apply user.refreshToken
  googleId := updates.googleId.apply user.googleId
  emailVerified := updates.emailVerified.apply user.emailVerified
  emailVerificationToken := updates.emailVerificationToken.apply user.emailVerificationToken
  currentProductId := updates.currentProductId.apply user.currentProductId
  createdAt := user.createdAt
  updatedAt := now

structure CreateUserInput where
  fullName : String
  email : String
  passwordHash : String
  age : ℤ
  phone : String
  googleId : Option String := none
  emailVerified : Option Bool := none
  emailVerificationToken : Option String := none
  currentProductId : Option String := none
  deriving DecidableEq, Repr

/-- The row inserted for a `CreateUserInput`, with the column defaults of the migration. -/
@[simps]
def CreateUserInput.row (input : CreateUserInput) (id : String) (now : ℕ) : User where
  id := id
  email := input.email
  fullName := input.fullName
  phone := input.phone
  age := input.age
  passwordHash := input.passwordHash
  refreshToken := none
  googleId := input.googleId
  emailVerified := input.emailVerified.getD false
  emailVerificationToken := input.emailVerificationToken
  currentProductId := input.currentProductId
  createdAt := now
  updatedAt := now

/-- `externalCustomerId` is cast from a nullable field of the invoice. -/
structure CreateBilling where
  userId : String
  productId : String
  externalSubscriptionId : String
  externalCustomerId : Option String
  status : String
  expiresAt : ℕ
  deriving DecidableEq, Repr

/-- The `updates` argument of `updateBillingById`. -/
structure BillingUpdates where
  productId : Patch String := .undefined
  externalSubscriptionId : Patch String := .undefined
  externalCustomerId : Patch (Option String) := .undefined
  status : Patch String := .undefined
  expiresAt : Patch ℕ := .undefined
  deriving DecidableEq, Repr

/-- The row after `UPDATE billings SET ...`, or none where `NULL` is refused. -/
def BillingUpdates.applyTo (updates : BillingUpdates) (now : ℕ) (billing : Billing) :
    Option Billing :=
  match updates.externalCustomerId.apply (some billing.externalCustomerId) with
  | none => none
  | some externalCustomerId => some
    { id := billing.id
      userId := billing.userId
      productId := updates.productId.apply billing.productId
      externalSubscriptionId := updates.externalSubscriptionId.apply billing.externalSubscriptionId
      externalCustomerId
      status := updates.status.apply billing.status
      expiresAt := updates.expiresAt.apply billing.expiresAt
      createdAt := billing.createdAt
      updatedAt := now }

structure UpdateUserBillingInput where
  userEmail : String
  productId : String
  externalCustomerId : Option String
  externalSubscriptionId : String
  expiresAt : ℕ
  deriving DecidableEq, Repr

inductive TokenPurpose where
  | emailVerification
  | passwordReset
  | emailChange
  deriving DecidableEq, Repr

/-- The payload of a JWT; `iat` and `exp` are seconds. -/
structure Token where
  userId : String
  purpose : Option TokenPurpose := none
  code : Option String := none
  newEmail : Option String := none
  attempts : Option ℕ := none
  iat : Option ℕ := none
  exp : Option ℕ := none
  deriving DecidableEq, Repr, Inhabited

inductive StatusCodes where
  | ok | created | noContent | badRequest | unauthorized | notFound | notAcceptable
  | conflict | forbidden | preconditionFailed | unprocessable | internalServerError
  deriving DecidableEq, Repr

inductive TrpcCode where
  | badRequest | unauthorized | forbidden | notFound | paymentRequired | internalServerError
  deriving DecidableEq, Repr

/-- What a promise of the back end can be rejected with. -/
inductive Err where
  | custom (message : String) (statusCode : StatusCodes)
  | zodValidation (messages : List String)
  | error (message : String)
  | typeError (message : String)
  | trpc (code : TrpcCode) (message : String)
  /-- The database refused a statement or lost it. -/
  | database (message : String)
  deriving DecidableEq, Repr

/-- `error.message` -/
def Err.message : Err → String
  | .custom message _ => message
  | .zodValidation _ => "Validation failed"
  | .error message => message
  | .typeError message => message
  | .trpc _ message => message
  | .database message => message

structure LoginInput where
  email : String
  password : String
  deriving DecidableEq, Repr

structure SignupInput where
  fullName : String
  email : String
  phone : String
  password : String
  age : ℤ
  deriving DecidableEq, Repr

structure UpdateUserInput where
  fullName : Option String := none
  email : Option String := none
  phone : Option String := none
  age : Option ℤ := none
  deriving DecidableEq, Repr

structure LoginResponse where
  accessToken : String
  refreshToken : String
  deriving DecidableEq, Repr

structure CreateCheckoutSessionInput where
  priceId : String
  successUrl : String
  cancelUrl : String
  deriving DecidableEq, Repr

end CodebaseTrpc
