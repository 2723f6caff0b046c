import CodebaseTrpc.Spec.EmailChange
import CodebaseTrpc.Spec.Server

/-! What a rejected request for a code or a link leaves of the one sent before. Both flows store
the new secret first and mail it then. -/
namespace CodebaseTrpc
variable {P : Packages} {w w' : World} {userId newEmail : String} {e : Err}

/-- The account exists, and the address is nobody's. -/
def Requestable (w : World) (userId newEmail : String) : Prop :=
  (∃ u ∈ w.db.users, u.id = userId) ∧ ∀ v ∈ w.db.users, v.email ≠ newEmail

/-- The account exists and is not verified yet. -/
def Resendable (w : World) (userId : String) : Prop :=
  ∃ u ∈ w.db.users, u.id = userId ∧ u.emailVerified = false

/-- The row of the user has `token` pending, and nothing else changed. -/
structure Replaced (w w' : World) (userId token : String) : Prop where
  users : w'.db.users = Rows.update User.id userId
    (fun u => { u with emailVerificationToken := some token, updatedAt := w.env.now }) w.db.users
  products : w'.db.products = w.db.products
  billings : w'.db.billings = w.db.billings

def changeToken (P : Packages) (w : World) (userId newEmail : String) : String :=
  P.jwt.sign (changePayload userId newEmail (codeOf w.env) w.env.now)

def verificationTokenOf (P : Packages) (w : World) (userId : String) : String :=
  P.jwt.sign (verificationPayload userId w.env.now)

theorem replaced_issueCode (P : Packages) (w : World) (u : User) (newEmail : String) :
    Replaced w (w.issueCode P u newEmail) u.id (changeToken P w u.id newEmail) :=
  ⟨issueCode_users .., issueCode_products .., issueCode_billings ..⟩

theorem replaced_issueVerification (P : Packages) (w : World) (u : User) :
    Replaced w (w.issueVerification P u) u.id (verificationTokenOf P w u.id) :=
  ⟨issueVerification_users .., issueVerification_products .., issueVerification_billings ..⟩

theorem Replaced.users_eq_iff {token : String} (h : Replaced w w' userId token) :
    w'.db.users = w.db.users ↔ ∀ u ∈ w.db.users, u.id = userId →
      u.emailVerificationToken = some token ∧ u.updatedAt = w.env.now := by
  rw [h.users]
  constructor
  · intro hsame u hu hid
    have hrow := List.map_inj_left.mp (hsame.trans (List.map_id _).symm) u hu
    rw [if_pos hid, id] at hrow
    exact ⟨(congrArg User.emailVerificationToken hrow).symm,
      (congrArg User.updatedAt hrow).symm⟩
  · intro hrows
    refine (List.map_congr_left fun u hu => ?_).trans (List.map_id _)
    split_ifs with hid
    · obtain ⟨htoken, hat⟩ := hrows u hu hid
      rw [← htoken, ← hat]
      rfl
    · rfl

/-- A sender reports an error only where the mail service did not accept the mail. -/
theorem delivery_error {message : String} (h : w.delivery message = .error e) :
    w.env.mail ≠ .accepted ∧ e = .custom message .internalServerError := by
  unfold World.delivery at h
  cases hmail : w.env.mail with
  | accepted =>
    rw [hmail] at h
    cases h
  | errorStatus text =>
    rw [hmail] at h
    cases h
    simp
  | networkFailure text =>
    rw [hmail] at h
    cases h
    simp

theorem requestEmailChange_rejected
    (h : (requestEmailChange P userId newEmail).run w = (.error e, w')) :
    (¬ Requestable w userId newEmail ∧ w' = w) ∨
      (Requestable w userId newEmail ∧ w.env.mail ≠ .accepted ∧
        e = .custom "Failed to send verification code" .internalServerError ∧
        Replaced w w' userId (changeToken P w userId newEmail)) := by
  by_cases hok : Requestable w userId newEmail
  · obtain ⟨⟨u, hu, rfl⟩, hfree⟩ := hok
    rw [run_requestEmailChange hu hfree] at h
    obtain ⟨hdelivery, rfl⟩ := Prod.mk.inj h
    obtain ⟨hmail, he⟩ := delivery_error hdelivery
    exact .inr ⟨⟨⟨u, hu, rfl⟩, hfree⟩, hmail, he, replaced_issueCode P w u newEmail⟩
  · rcases run_requestEmailChange_cases h with ⟨-, hw⟩ | ⟨u, hu, -, hfree, -⟩
    · exact .inl ⟨hok, hw⟩
    · exact absurd ⟨⟨u, Rows.lookup_mem hu, Rows.lookup_key hu⟩, Rows.lookup_eq_none.mp hfree⟩ hok

theorem resendVerificationEmail_rejected
    (h : (resendVerificationEmail P userId).run w = (.error e, w')) :
    (¬ Resendable w userId ∧ w' = w) ∨
      (Resendable w userId ∧ w.env.mail ≠ .accepted ∧
        e = .custom "Failed to send verification email" .internalServerError ∧
        Replaced w w' userId (verificationTokenOf P w userId)) := by
  by_cases hok : Resendable w userId
  · obtain ⟨u, hu, rfl, hv⟩ := hok
    rw [run_resendVerificationEmail hu hv] at h
    obtain ⟨hdelivery, rfl⟩ := Prod.mk.inj h
    obtain ⟨hmail, he⟩ := delivery_error hdelivery
    exact .inr ⟨⟨u, hu, rfl, hv⟩, hmail, he, replaced_issueVerification P w u⟩
  · rcases run_resendVerificationEmail_cases h with ⟨-, hw⟩ | ⟨u, hu, hv, -⟩
    · exact .inl ⟨hok, hw⟩
    · exact absurd ⟨u, Rows.lookup_mem hu, Rows.lookup_key hu, hv⟩ hok

/-- A call that rejects before it writes leaves everything as it was. One that rejects because
the mail service failed leaves the new secret in the row of the user, and nothing else changed;
so the row is as it was only if it held that secret, written at that instant. -/
theorem rejected_request_replaces (P : Packages) (w w' : World) (userId : String) (e : Err) :
    (∀ newEmail, (requestEmailChange P userId newEmail).run w = (.error e, w') →
      (¬ Requestable w userId newEmail ∧ w' = w) ∨
      (Requestable w userId newEmail ∧ w.env.mail ≠ .accepted ∧
        e = .custom "Failed to send verification code" .internalServerError ∧
        Replaced w w' userId (changeToken P w userId newEmail))) ∧
    ((resendVerificationEmail P userId).run w = (.error e, w') →
      (¬ Resendable w userId ∧ w' = w) ∨
      (Resendable w userId ∧ w.env.mail ≠ .accepted ∧
        e = .custom "Failed to send verification email" .internalServerError ∧
        Replaced w w' userId (verificationTokenOf P w userId))) ∧
    ∀ token, Replaced w w' userId token → (w'.db.users = w.db.users ↔
      ∀ u ∈ w.db.users, u.id = userId →
        u.emailVerificationToken = some token ∧ u.updatedAt = w.env.now) :=
  ⟨fun _ => requestEmailChange_rejected, resendVerificationEmail_rejected,
    fun _ => Replaced.users_eq_iff⟩

namespace Sample

/-- Ann has her link; then the mail service goes down. -/
def mailDown : World := { signedIn with
  env := { envAfter 60 with mail := .errorStatus "service unavailable" } }

/-- Her request for a code at another address. -/
def codeRequest : Promise Unit := requestEmailChange packages (buyer mailDown).id "new@mail"

def unsent : Err := .custom "Failed to send verification code" .internalServerError

set_option maxRecDepth 10000 in
theorem mailDown_facts :
    (codeRequest.run mailDown).1 = .error unsent ∧
    (codeRequest.run mailDown).2.db.users ≠ mailDown.db.users ∧
    (∃ u ∈ mailDown.db.users, u.id = (buyer mailDown).id) ∧
    (∀ v ∈ mailDown.db.users, v.email ≠ "new@mail") ∧
    ((verifyUserEmail packages verificationToken.text).run mailDown).1.toOption = some () ∧
    ((verifyUserEmail packages verificationToken.text).run (codeRequest.run mailDown).2).1 =
      .error (.custom "Invalid or expired verification token" .badRequest) := by decide +kernel

end Sample

/-- Ann's row has the code that she never got, and the link that she did get is refused. -/
theorem rejected_request_replaces_ann :
    Replaced Sample.mailDown (Sample.codeRequest.run Sample.mailDown).2
      (Sample.buyer Sample.mailDown).id (changeToken Sample.packages Sample.mailDown
        (Sample.buyer Sample.mailDown).id "new@mail") ∧
    ((verifyUserEmail Sample.packages Sample.verificationToken.text).run
      (Sample.codeRequest.run Sample.mailDown).2).1 =
      .error (.custom "Invalid or expired verification token" .badRequest) := by
  obtain ⟨hr, -, hu, hfree, -, hlink⟩ := Sample.mailDown_facts
  obtain ⟨hrequest, -⟩ := rejected_request_replaces Sample.packages Sample.mailDown
    (Sample.codeRequest.run Sample.mailDown).2 (Sample.buyer Sample.mailDown).id Sample.unsent
  rcases hrequest "new@mail" (Prod.ext hr rfl) with ⟨hno, -⟩ | ⟨-, -, -, hreplaced⟩
  · exact absurd ⟨hu, hfree⟩ hno
  · exact ⟨hreplaced, hlink⟩

/-- A rejected request changes the row. -/
theorem rejected_request_writes : ¬ ∀ (P : Packages) (w w' : World) (userId newEmail : String)
    (e : Err), (requestEmailChange P userId newEmail).run w = (.error e, w') ∨
      (resendVerificationEmail P userId).run w = (.error e, w') → w'.db.users = w.db.users := by
  intro h
  obtain ⟨hr, hne, -⟩ := Sample.mailDown_facts
  exact hne (h Sample.packages Sample.mailDown _ _ "new@mail" _ (.inl (Prod.ext hr rfl)))

end CodebaseTrpc
