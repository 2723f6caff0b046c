import CodebaseTrpc.Async.Program
import CodebaseTrpc.Store.Rows
import CodebaseTrpc.Model.Types

/-! The database with its constraints, the surroundings of the process, and the
statements and transactions that `knex` runs. -/
namespace CodebaseTrpc

/-- `table.string` columns are `varchar(255)`, `table.integer` is a signed 32-bit column. -/
def User.Fits (u : User) : Prop :=
  u.email.length ≤ 255 ∧ u.fullName.length ≤ 255 ∧ u.phone.length ≤ 255 ∧
    u.passwordHash.length ≤ 255 ∧ (∀ g ∈ u.googleId, g.length ≤ 255) ∧
    -2147483648 ≤ u.age ∧ u.age ≤ 2147483647

instance (u : User) : Decidable u.Fits := by unfold User.Fits; infer_instance

/-- The strings from Stripe are `varchar(255)` too, and `expires_at` takes no `Invalid Date`. -/
def Billing.Fits (b : Billing) : Prop :=
  b.externalSubscriptionId.length ≤ 255 ∧ b.externalCustomerId.length ≤ 255 ∧
    b.status.length ≤ 255 ∧ b.expiresAt ≤ maxTimestamp

instance (b : Billing) : Decidable b.Fits := by unfold Billing.Fits; infer_instance

/-- The constraints of the three migrations. -/
structure Constraints (users : List User) (products : List Product)
    (billings : List Billing) : Prop where
  users_id : (users.map User.id).Nodup
  users_email : (users.map User.email).Nodup
  users_google : (users.filterMap User.googleId).Nodup
  users_fit : ∀ u ∈ users, u.Fits
  products_id : (products.map Product.id).Nodup
  /-- The partial unique index `idx_products_single_free_tier`. -/
  products_free : ((products.filter Product.isFreeTier).map Product.isFreeTier).Nodup
  billings_id : (billings.map Billing.id).Nodup
  billings_user : ∀ b ∈ billings, ∃ u ∈ users, u.id = b.userId
  billings_product : ∀ b ∈ billings, ∃ p ∈ products, p.id = b.productId
  billings_fit : ∀ b ∈ billings, b.Fits

theorem constraints_iff {users : List User} {products : List Product} {billings : List Billing} :
    Constraints users products billings ↔
      (users.map User.id).Nodup ∧ (users.map User.email).Nodup ∧
      (users.filterMap User.googleId).Nodup ∧ (∀ u ∈ users, u.Fits) ∧
      (products.map Product.id).Nodup ∧
      ((products.filter Product.isFreeTier).map Product.isFreeTier).Nodup ∧
      (billings.map Billing.id).Nodup ∧ (∀ b ∈ billings, ∃ u ∈ users, u.id = b.userId) ∧
      (∀ b ∈ billings, ∃ p ∈ products, p.id = b.productId) ∧ ∀ b ∈ billings, b.Fits :=
  ⟨fun h => ⟨h.1, h.2, h.3, h.4, h.5, h.6, h.7, h.8, h.9, h.10⟩,
    fun ⟨h1, h2, h3, h4, h5, h6, h7, h8, h9, h10⟩ => ⟨h1, h2, h3, h4, h5, h6, h7, h8, h9, h10⟩⟩

instance (users : List User) (products : List Product) (billings : List Billing) :
    Decidable (Constraints users products billings) := decidable_of_iff' _ constraints_iff

/-- A database satisfies its constraints by construction. -/
structure Db where
  users : List User
  products : List Product
  billings : List Billing
  sound : Constraints users products billings

/-- The tables a statement would leave, unless a constraint refuses them. -/
def Db.store? (users : List User) (products : List Product) (billings : List Billing) :
    Option Db :=
  if h : Constraints users products billings then some ⟨users, products, billings, h⟩ else none

/-- How the mail service answers a `fetch`. A 2xx answer whose body cannot be read counts as a
failure: `response.json()` rejects like the `fetch` itself, though the mail may be out. -/
inductive MailReply where
  | accepted
  | errorStatus (message : String)
  | networkFailure (message : String)
  deriving DecidableEq, Repr

/-- The mails the back end sends, with the secret their text carries. -/
inductive Mail where
  | verification (recipient fullName verificationToken : String)
  | passwordReset (recipient fullName resetToken : String)
  | emailChangeCode (recipient fullName code : String)
  deriving DecidableEq, Repr

structure TicketPayload where
  sub : Option String
  email : Option String
  name : Option String
  deriving DecidableEq, Repr

/-- What `client.verifyIdToken` does with the presented credential. -/
inductive GoogleReply where
  | rejected
  | ticket (payload : Option TicketPayload)
  deriving DecidableEq, Repr

/-- How Stripe answers a call that creates a session: with the session, or by rejecting. -/
inductive StripeReply where
  | created
  | rejected (message : String)
  deriving DecidableEq, Repr

/-- What the process reads from outside: clock, random draws, and the answers of the mail
service, of Google and of Stripe. -/
structure Environment where
  now : ℕ
  mail : MailReply
  google : GoogleReply
  /-- `gen_random_uuid()` for the next inserted row. -/
  uuid : String
  randomPassword : String
  salt : String
  /-- `Math.random()`, scaled to the range of verification codes. -/
  random : Fin (verificationCodeMax - verificationCodeMin + 1)
  stripe : StripeReply
  /-- Id and url of the next checkout session. -/
  sessionId : String
  sessionUrl : Option String
  /-- Url of the next portal session. -/
  portalUrl : String
  now_valid : now ≤ maxTimestamp := by decide
  deriving DecidableEq, Repr

/-- What a token was signed for; the code keeps it in names only. -/
inductive TokenKind where
  | access
  | refresh
  | purpose (p : TokenPurpose)
  deriving DecidableEq, Repr, Inhabited

/-- One signature made: its use, its payload and the text handed out. -/
structure Issued where
  kind : TokenKind
  payload : Token
  text : String
  deriving DecidableEq, Repr, Inhabited

/-- A `stripe.checkout.sessions.create` call, answered or rejected: an existing customer, or the
email for a new one. -/
structure CheckoutSession where
  sessionId : String
  customer : Option String
  customerEmail : Option String
  priceId : String
  productId : String
  deriving DecidableEq, Repr

/-- A `stripe.billingPortal.sessions.create` call, answered or rejected. -/
structure PortalSession where
  customer : String
  returnUrl : String
  deriving DecidableEq, Repr

/-- The store the programs act on. `trx` is the view of an open transaction; `issued`, `outbox`,
`checkouts` and `portals` record what was signed, mailed and sent to Stripe. -/
structure World where
  db : Db
  trx : Option Db := none
  env : Environment
  issued : List Issued := []
  outbox : List (Mail × MailReply) := []
  checkouts : List CheckoutSession := []
  portals : List PortalSession := []

/-- A promise of the back end. -/
abbrev Promise := Async World Err

/-- The connection a statement runs on: `trx || knex`. -/
inductive Conn where
  | knex
  | trx
  deriving DecidableEq, Repr

def World.view (w : World) : Conn → Db
  | .knex => w.db
  | .trx => w.trx.getD w.db

def World.put (w : World) (db : Db) : Conn → World
  | .knex => { w with db }
  | .trx => { w with trx := some db }

def connectionLost : Err := .database "Connection terminated unexpectedly"

/-- A `SELECT` on the pool. -/
def select {α : Type} (query : Db → α) : Promise α :=
  .stmt id (fun w => .pure (query w.db)) (.throw connectionLost)

/-- An `INSERT` or `UPDATE ... RETURNING`. A refused statement changes nothing. -/
def write {α : Type} (conn : Conn) (statement : World → Db → Except Err (α × Db)) : Promise α :=
  .stmt
    (fun w => match statement w (w.view conn) with
      | .ok (_, db) => w.put db conn
      | .error _ => w)
    (fun w => match statement w (w.view conn) with
      | .ok (a, _) => .pure a
      | .error e => .throw e)
    (.throw connectionLost)

/-- `db.transaction(callback)`: committed iff the callback resolves, and seen by others as
one step. -/
def transaction {α : Type} (callback : Promise α) : Promise α :=
  .atomically
    (.act (fun w => { w with trx := some w.db }) fun _ =>
      (callback.bind fun a =>
        .stmt (fun w => { w with db := w.trx.getD w.db, trx := none }) (fun _ => .pure a)
          (.throw connectionLost)).tryCatch fun e =>
        .act (fun w => { w with trx := none }) fun _ => .throw e)
    .pure .throw

/-- `Date.now()` -/
def dateNow : Promise ℕ := .act id fun w => .pure w.env.now

/-- Read the surroundings. -/
def surroundings : Promise Environment := .act id fun w => .pure w.env

end CodebaseTrpc
