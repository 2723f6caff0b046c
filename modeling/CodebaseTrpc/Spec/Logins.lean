import CodebaseTrpc.Spec.Frames

/-! What a user logs in with: the email, the Google account and the password. Few requests write
any of these. -/
namespace CodebaseTrpc
variable {P : Packages} {w w' : World}

/-- A row before and after a request that leaves the logins alone. -/
structure SameLogin (u u' : User) : Prop where
  id : u'.id = u.id
  email : u'.email = u.email
  googleId : u'.googleId = u.googleId
  passwordHash : u'.passwordHash = u.passwordHash

theorem SameLogin.refl (u : User) : SameLogin u u := ⟨rfl, rfl, rfl, rfl⟩

theorem SameLogin.trans {u v x : User} (h : SameLogin u v) (h' : SameLogin v x) : SameLogin u x :=
  ⟨h'.id.trans h.id, h'.email.trans h.email, h'.googleId.trans h.googleId,
    h'.passwordHash.trans h.passwordHash⟩

/-- The requests that may write a login. -/
def Request.WritesLogin : Request → Prop
  | .google _ | .signup _ | .resetPassword _ _ | .updateUserById _ _
  | .verifyEmailChange _ _ => True
  | _ => False

/-- An update of columns that no one logs in with. -/
theorem sameLogin_of_quiet {updates : UserUpdates} (h : updates.Quiet) (now : ℕ) (u : User) :
    SameLogin u (updates.apply now u) :=
  ⟨rfl, by simp [h.email], by simp [h.googleId], by simp [h.passwordHash]⟩

theorem sameLogin_openSession (userId : String) :
    List.Forall₂ SameLogin w.db.users (w.openSession P userId).db.users :=
  rows_openSession userId SameLogin.refl (fun _ _ _ => SameLogin.trans)
    (fun u _ => sameLogin_of_quiet {} _ u) fun u _ => sameLogin_of_quiet {} _ u

theorem sameLogin_issueVerification (user : User) :
    List.Forall₂ SameLogin w.db.users (w.issueVerification P user).db.users :=
  rows_issueVerification user SameLogin.refl fun u _ _ => sameLogin_of_quiet {} _ u

theorem Effect.sameLogin {request : Request} {reply : Except Err Reply}
    (h : Effect P w request reply w') (hreq : ¬ request.WritesLogin) :
    List.Forall₂ SameLogin w.db.users w'.db.users := by
  have hrefl := Rows.forall₂_refl SameLogin.refl w.db.users
  have hupdate : ∀ (id : String) (updates : UserUpdates), updates.Quiet →
      List.Forall₂ SameLogin w.db.users (w.exec (updateUser id updates)).db.users :=
    fun id updates hq => rows_updateUser SameLogin.refl fun u _ _ => sameLogin_of_quiet hq _ u
  cases h with
  | none => exact hrefl
  | login => exact sameLogin_openSession _
  | refresh => exact sameLogin_openSession _
  | logout => exact hupdate _ _ {}
  | verifyEmail => exact hupdate _ _ {}
  | resendVerificationEmail => exact sameLogin_issueVerification _
  | forgotPassword => exact hrefl
  | requestEmailChange =>
    exact rows_issueCode _ _ SameLogin.refl fun u _ _ => sameLogin_of_quiet {} _ u
  | createCheckoutSession => exact hrefl
  | createCustomerPortalSession => exact hrefl
  | webhook hb => exact rows_billed SameLogin.refl hb fun u p => sameLogin_of_quiet {} _ u
  | _ => exact absurd trivial hreq

end CodebaseTrpc
