import CodebaseTrpc.Spec.EmailChange
import CodebaseTrpc.Spec.Gate

/-! The columns of a user row, and which of them a request may write: the ones of the row that
its token names, and the ones of a row that it looks up. -/
namespace CodebaseTrpc

/-- The columns that an update of a user can name. -/
inductive Column where
  | email | fullName | phone | age | passwordHash | refreshToken | googleId
  | emailVerified | emailVerificationToken | currentProductId
  deriving DecidableEq, Repr

/-- The rows agree in the column. -/
def Column.Same (u u' : User) : Column → Prop
  | .email => u'.email = u.email
  | .fullName => u'.fullName = u.fullName
  | .phone => u'.phone = u.phone
  | .age => u'.age = u.age
  | .passwordHash => u'.passwordHash = u.passwordHash
  | .refreshToken => u'.refreshToken = u.refreshToken
  | .googleId => u'.googleId = u.googleId
  | .emailVerified => u'.emailVerified = u.emailVerified
  | .emailVerificationToken => u'.emailVerificationToken = u.emailVerificationToken
  | .currentProductId => u'.currentProductId = u.currentProductId

theorem Column.Same.refl (c : Column) (u : User) : c.Same u u := by cases c <;> rfl

theorem Column.Same.trans {c : Column} {u v x : User} (h : c.Same u v) (h' : c.Same v x) :
    c.Same u x := by
  cases c <;> exact Eq.trans h' h

/-- The update carries the key of the column. -/
def UserUpdates.Writes (updates : UserUpdates) : Column → Prop
  | .email => updates.email ≠ .undefined
  | .fullName => updates.fullName ≠ .undefined
  | .phone => updates.phone ≠ .undefined
  | .age => updates.age ≠ .undefined
  | .passwordHash => updates.passwordHash ≠ .undefined
  | .refreshToken => updates.refreshToken ≠ .undefined
  | .googleId => updates.googleId ≠ .undefined
  | .emailVerified => updates.emailVerified ≠ .undefined
  | .emailVerificationToken => updates.emailVerificationToken ≠ .undefined
  | .currentProductId => updates.currentProductId ≠ .undefined

/-- A column whose key is left out keeps its value. -/
theorem UserUpdates.same_apply {updates : UserUpdates} {c : Column} (h : ¬ updates.Writes c)
    (now : ℕ) (u : User) : c.Same u (updates.apply now u) := by
  cases c <;> simp only [Writes, not_not] at h <;> simp [Column.Same, h]

section Writes
variable {c : Column}

@[simp] theorem writes_setProduct {productId : String} :
    (setProduct productId).Writes c ↔ c = .currentProductId := by
  cases c <;> simp [UserUpdates.Writes, setProduct]

@[simp] theorem writes_storeRefresh {token : String} :
    (storeRefresh token).Writes c ↔ c = .refreshToken := by
  cases c <;> simp [UserUpdates.Writes, storeRefresh]

@[simp] theorem writes_linkGoogle {sub : String} :
    (linkGoogle sub).Writes c ↔ c = .googleId ∨ c = .emailVerified := by
  cases c <;> simp [UserUpdates.Writes, linkGoogle]

@[simp] theorem writes_storePending {token : String} :
    (storePending token).Writes c ↔ c = .emailVerificationToken := by
  cases c <;> simp [UserUpdates.Writes, storePending]

@[simp] theorem writes_keepRefresh : ¬ keepRefresh.Writes c := by
  cases c <;> simp [UserUpdates.Writes, keepRefresh]

@[simp] theorem writes_markVerified : markVerified.Writes c ↔ c = .emailVerified := by
  cases c <;> simp [UserUpdates.Writes, markVerified]

@[simp] theorem writes_storePassword {hash : String} :
    (storePassword hash).Writes c ↔ c = .passwordHash := by
  cases c <;> simp [UserUpdates.Writes, storePassword]

@[simp] theorem writes_changeEmail {newEmail : String} : (changeEmail newEmail).Writes c ↔
    c ∈ [.email, .googleId, .emailVerified, .emailVerificationToken] := by
  cases c <;> simp [UserUpdates.Writes, changeEmail]

end Writes

/-- The user that a token names, if its signature is good. -/
def bearerOf (P : Packages) (token : String) : Option String :=
  if P.jwt.authentic token then (P.jwt.decode token).map Token.userId else none

/-- The user that the token of a request names. -/
def Request.subject (P : Packages) : Request → Option String
  | .logout auth | .resendVerificationEmail auth | .getUserById auth | .updateUserById auth _
  | .requestEmailChange auth _ | .verifyEmailChange auth _ | .getUserBilling auth
  | .createCheckoutSession auth _ | .createCustomerPortalSession auth _ =>
      (truthyText auth).bind fun header => bearerOf P (tokenOf header)
  | .verifyEmail token | .resetPassword token _ => bearerOf P token
  | _ => none

/-- The columns a request may write in the row that its token names. -/
def Request.OwnColumn : Request → Column → Prop
  | .verifyEmail _, c => c = .emailVerified
  | .resendVerificationEmail _, c => c = .emailVerificationToken
  | .resetPassword _ _, c => c = .passwordHash
  | .updateUserById _ input, c => input.updates.Writes c
  | .requestEmailChange _ _, c => c = .emailVerificationToken
  | .verifyEmailChange _ _, c => c ∈ [.email, .googleId, .emailVerified, .emailVerificationToken]
  | _, _ => False

/-- The request finds a row of the user by what it presents: by credentials, by the subject or the
email of a Google account, by a refresh token, or by the email or the subscription of an event.
`Seen` are the worlds that it sees. -/
def Request.Finds (P : Packages) (Seen : World → Prop) (id : String) : Request → Prop
  | .google _ => ∃ v payload w u, Seen v ∧ GooglePayload P v payload ∧ Seen w ∧ u ∈ w.db.users ∧
      u.id = id ∧ (u.googleId = some payload.sub ∨ u.email = payload.email)
  | .login input => ∃ w u, Seen w ∧ u ∈ w.db.users ∧ u.id = id ∧ u.email = input.email ∧
      P.compareSync input.password u.passwordHash = true
  | .refresh token => P.jwt.authentic token = true ∧
      ∃ w u, Seen w ∧ u ∈ w.db.users ∧ u.id = id ∧ u.refreshToken = some token
  | .webhook (.invoicePaid invoice) => ∃ w u, Seen w ∧ u ∈ w.db.users ∧ u.id = id ∧
      u.email = invoice.customerEmail.getD ""
  | .webhook (.subscriptionUpdated subscription) | .webhook (.subscriptionDeleted subscription) =>
      ∃ w b, Seen w ∧ b ∈ w.db.billings ∧ b.userId = id ∧ b.externalSubscriptionId = subscription.id
  | _ => False

/-- The columns a request may write in a row that it finds. -/
def Request.FoundColumn : Request → Column → Prop
  | .google _, c => c ∈ [.googleId, .emailVerified, .currentProductId, .refreshToken]
  | .login _, c => c ∈ [.currentProductId, .refreshToken]
  | .refresh _, c => c ∈ [.currentProductId, .refreshToken]
  | .webhook _, c => c = .currentProductId
  | _, _ => False

/-- The request may write the column of the user's row. -/
def Request.MayWrite (P : Packages) (Seen : World → Prop) (request : Request) (id : String)
    (c : Column) : Prop :=
  (request.subject P = some id ∧ request.OwnColumn c) ∨
    (request.Finds P Seen id ∧ request.FoundColumn c)

/-- The requests that can add a user. -/
def Request.Joins : Request → Prop
  | .google _ | .signup _ => True
  | _ => False

/-- The requests that can write the billings table. -/
def Request.Bills : Request → Prop
  | .webhook _ => True
  | _ => False

end CodebaseTrpc
