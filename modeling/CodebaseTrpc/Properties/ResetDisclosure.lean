import CodebaseTrpc.Spec.Server

/-! What the reply to a password-reset request says about the account: the same request, with and
without a user of that email. -/
namespace CodebaseTrpc
variable {P : Packages} {w w₁ w₂ : World} {email : String}

/-- The second database has no user with the email, and is the first one otherwise. -/
structure OnlyUser (email : String) (w₁ w₂ : World) : Prop where
  env : w₂.env = w₁.env
  present : ∃ u ∈ w₁.db.users, u.email = email
  users : w₂.db.users = w₁.db.users.filter fun u => u.email ≠ email
  products : w₂.db.products = w₁.db.products
  billings : w₂.db.billings = w₁.db.billings.filter fun b =>
    ∀ u ∈ w₁.db.users, u.id = b.userId → u.email ≠ email

/-- The request is answered in the same way in both worlds. -/
def RepliesAlike (P : Packages) (email : String) (w₁ w₂ : World) : Prop :=
  ∀ r₁ w₁' r₂ w₂', (handle P (.forgotPassword email)).Exec w₁ r₁ w₁' →
    (handle P (.forgotPassword email)).Exec w₂ r₂ w₂' → r₁ = r₂

/-- How a reset request is answered. -/
def resetReply (P : Packages) (email : String) (w : World) : Except Err Reply :=
  if P.isEmail email = true then
    match Rows.lookup User.email email w.db.users with
    | none => .ok .success
    | some _ => (w.delivery "Failed to send password reset email").map fun _ => .success
  else .error inputRefused

theorem exec_forgotPassword {r : Except Err Reply} {w' : World}
    (h : (handle P (.forgotPassword email)).Exec w r w') : r = resetReply P email w := by
  replace h := (Async.exec_iff_run (awaits_handle P (by simp))).mp h
  simp only [handle, validated] at h
  unfold resetReply
  split_ifs at h ⊢
  · rcases run_return_cases h with ⟨e, hr, rfl⟩ | ⟨_, hr, rfl⟩ <;>
      rcases run_forgotPassword_cases hr with ⟨hl, hok, -⟩ | ⟨u, hl, hok, -⟩ <;> simp only [hl]
    · cases hok
    · rw [← hok]
      rfl
    · rw [← hok]
      rfl
  · exact (Prod.mk.inj h).1.symm

theorem repliesAlike_iff : RepliesAlike P email w₁ w₂ ↔
    resetReply P email w₁ = resetReply P email w₂ := by
  constructor
  · intro h
    have hx := fun w => Async.exec_run (handle P (.forgotPassword email)) w
    rw [← exec_forgotPassword (hx w₁), ← exec_forgotPassword (hx w₂)]
    exact h _ _ _ _ (hx w₁) (hx w₂)
  · intro h r₁ _ r₂ _ h₁ h₂
    rw [exec_forgotPassword h₁, exec_forgotPassword h₂, h]

theorem OnlyUser.absent (h : OnlyUser email w₁ w₂) :
    Rows.lookup User.email email w₂.db.users = none := by
  rw [Rows.lookup_eq_none, h.users]
  intro u hu
  simpa using (List.mem_filter.mp hu).2

/-- The account shows in the reply unless the mail goes out or the schema refuses the email. -/
theorem reset_discreet_iff (h : OnlyUser email w₁ w₂) :
    RepliesAlike P email w₁ w₂ ↔ P.isEmail email = false ∨ w₁.env.mail = .accepted := by
  obtain ⟨u, hu, he⟩ := h.present
  obtain ⟨v, hv⟩ := Rows.exists_lookup User.email hu he
  rw [repliesAlike_iff]
  simp only [resetReply, h.absent, hv, World.delivery]
  cases P.isEmail email with
  | false => simp
  | true => cases w₁.env.mail <;> simp [Except.map]

namespace Sample

/-- The mail service is down. -/
def outage : Environment := { env with mail := .errorStatus "rate limited" }

/-- With Ann's account, and before it. -/
def known : World := { signedIn with env := outage }
def unknown : World := { start with env := outage }

theorem onlyUser_signedIn : OnlyUser ann.email signedIn start where
  env := by decide +kernel
  present := by decide +kernel
  users := by decide +kernel
  products := by decide +kernel
  billings := by decide +kernel

theorem onlyUser_outage : OnlyUser ann.email known unknown where
  env := rfl
  present := onlyUser_signedIn.present
  users := onlyUser_signedIn.users
  products := onlyUser_signedIn.products
  billings := onlyUser_signedIn.billings

end Sample

theorem reset_discreet_iff_mailed :
    RepliesAlike Sample.packages Sample.ann.email Sample.signedIn Sample.start :=
  (reset_discreet_iff Sample.onlyUser_signedIn).mpr (.inr (by decide +kernel))

/-- While the mail service fails, the error tells that Ann has an account. -/
theorem reset_tells_outage : ¬ ∀ email w₁ w₂, OnlyUser email w₁ w₂ →
    RepliesAlike Sample.packages email w₁ w₂ := by
  intro h
  have hreply := repliesAlike_iff.mp (h _ _ _ Sample.onlyUser_outage)
  have hne : (resetReply Sample.packages Sample.ann.email Sample.known).isOk ≠
      (resetReply Sample.packages Sample.ann.email Sample.unknown).isOk := by decide +kernel
  exact hne (congrArg Except.isOk hreply)

end CodebaseTrpc
