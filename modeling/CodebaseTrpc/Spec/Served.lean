import CodebaseTrpc.Spec.Frames

/-! What serving a request does to each row of the users table: which requests write a refresh
token or a password hash, and what they write there. -/
namespace CodebaseTrpc
variable {P : Packages} {w w' : World}

/-- The requests that start a session. -/
def Request.OpensSession : Request → Prop
  | .google _ | .login _ | .refresh _ => True
  | _ => False

/-- A row before and after the request was served. -/
structure Served (P : Packages) (w : World) (request : Request) (u u' : User) : Prop where
  id : u'.id = u.id
  refreshToken : u'.refreshToken = u.refreshToken ∨ (request.OpensSession ∧
    u'.refreshToken = some (P.jwt.sign (refreshPayload u.id w.env.now)))
  passwordHash : u'.passwordHash = u.passwordHash ∨ ∃ token newPassword t,
    request = .resetPassword token newPassword ∧ opens P token w.env.now t ∧
      t.purpose = some .passwordReset ∧ t.userId = u.id ∧
        u'.passwordHash = P.hashSync w.env.salt newPassword

/-- A row that the request added. -/
def Joined (P : Packages) (w : World) (u : User) : Prop :=
  u.refreshToken = none ∨ u.refreshToken = some (P.jwt.sign (refreshPayload u.id w.env.now))

section Served
variable {request : Request}

theorem Served.refl (u : User) : Served P w request u u := ⟨rfl, .inl rfl, .inl rfl⟩

theorem Served.trans {u v x : User} (h : Served P w request u v) (h' : Served P w request v x) :
    Served P w request u x where
  id := h'.id.trans h.id
  refreshToken := by
    rcases h'.refreshToken with ht | ⟨hreq, ht⟩
    · rw [ht]
      exact h.refreshToken
    · exact .inr ⟨hreq, h.id ▸ ht⟩
  passwordHash := by
    rcases h'.passwordHash with hp | ⟨token, newPassword, t, hreq, ht, hpur, hid, hp⟩
    · rw [hp]
      exact h.passwordHash
    · exact .inr ⟨token, newPassword, t, hreq, ht, hpur, h.id ▸ hid, hp⟩

theorem Joined.served {u u' : User} (h : Joined P w u) (h' : Served P w request u u') :
    Joined P w u' := by
  rcases h'.refreshToken with ht | ⟨-, ht⟩
  · unfold Joined
    rw [ht, h'.id]
    exact h
  · exact .inr (h'.id ▸ ht)

/-- An update of neither column. -/
theorem served_of_quiet {updates : UserUpdates} (hr : updates.refreshToken = .undefined)
    (hp : updates.passwordHash = .undefined) (now : ℕ) (u : User) :
    Served P w request u (updates.apply now u) :=
  ⟨rfl, .inl (by simp [hr]), .inl (by simp [hp])⟩

theorem served_openSession {userId : String} (hreq : request.OpensSession)
    (henv : w'.env = w.env) : List.Forall₂ (Served P w request) w'.db.users
      (w'.openSession P userId).db.users := by
  refine rows_openSession userId Served.refl (fun _ _ _ => Served.trans) (fun u p => ?_)
    fun u hid => ?_
  · exact served_of_quiet rfl rfl _ u
  · refine ⟨rfl, .inr ⟨hreq, ?_⟩, .inl rfl⟩
    rw [henv, ← hid]
    rfl

theorem served_resolved {payload : TGoogleTokenPayload} {u : User}
    (h : Resolved P w payload u w') :
    Rows.Evolved (Served P w request) (Joined P w) w.db.users w'.db.users := by
  cases h with
  | known _ => exact .of_forall₂ (Rows.forall₂_refl Served.refl _)
  | linked _ _ _ => exact .of_forall₂ (rows_updateUser Served.refl fun v _ _ =>
      served_of_quiet rfl rfl _ v)
  | created _ _ _ hw =>
    rw [hw]
    exact .append Served.refl (.inl rfl)

end Served

/-- Every row after a request is a row from before it, served, or was added by it. -/
theorem Effect.served {request : Request} {reply : Except Err Reply}
    (h : Effect P w request reply w') :
    Rows.Evolved (Served P w request) (Joined P w) w.db.users w'.db.users := by
  have hupdate : ∀ (id : String) (updates : UserUpdates), updates.refreshToken = .undefined →
      updates.passwordHash = .undefined → Rows.Evolved (Served P w request) (Joined P w)
        w.db.users (w.exec (updateUser id updates)).db.users :=
    fun id updates hr hp => .of_forall₂ (rows_updateUser Served.refl fun v _ _ =>
      served_of_quiet hr hp _ v)
  have hverification : ∀ (v : World) (u : User), v.env = w.env →
      List.Forall₂ (Served P w request) v.db.users (v.issueVerification P u).db.users :=
    fun v u henv => rows_issueVerification u Served.refl fun x _ _ => served_of_quiet rfl rfl _ x
  cases h with
  | none => exact .of_forall₂ (Rows.forall₂_refl Served.refl _)
  | google _ hres =>
    exact (served_resolved hres).forall₂ (served_openSession trivial hres.env)
      (fun _ _ _ => Served.trans) fun _ _ => Joined.served
  | googleStopped _ hres => exact served_resolved hres
  | login => exact .of_forall₂ (served_openSession trivial rfl)
  | refresh => exact .of_forall₂ (served_openSession trivial rfl)
  | signup _ hrow =>
    refine Rows.Evolved.forall₂ ?_ (hverification _ _ (by simp)) (fun _ _ _ => Served.trans)
      fun _ _ => Joined.served
    rw [hrow]
    exact .append Served.refl (.inl rfl)
  | logout => exact hupdate _ _ rfl rfl
  | verifyEmail => exact hupdate _ _ rfl rfl
  | resendVerificationEmail => exact .of_forall₂ (hverification _ _ rfl)
  | forgotPassword => exact .of_forall₂ (Rows.forall₂_refl Served.refl _)
  | @resetPassword token newPassword t u ht hp hu hrow =>
    refine .of_forall₂ (rows_updateUser Served.refl fun v _ hid => ?_)
    refine ⟨rfl, .inl rfl, .inr ⟨token, newPassword, t, rfl, ht, hp, ?_, rfl⟩⟩
    exact (Rows.lookup_key hu).symm.trans hid.symm
  | updateUserById => exact hupdate _ _ rfl rfl
  | requestEmailChange =>
    exact .of_forall₂ (rows_issueCode _ _ Served.refl fun x _ _ => served_of_quiet rfl rfl _ x)
  | emailChanged => exact hupdate _ _ rfl rfl
  | codeWrong _ _ _ _ hd _ =>
    exact .of_forall₂ (rows_drifted Served.refl hd fun u u' _ _ hdr =>
      ⟨hdr.id, .inl hdr.refreshToken, .inl hdr.passwordHash⟩)
  | createCheckoutSession => exact .of_forall₂ (Rows.forall₂_refl Served.refl _)
  | createCustomerPortalSession => exact .of_forall₂ (Rows.forall₂_refl Served.refl _)
  | webhook hb =>
    exact .of_forall₂ (rows_billed Served.refl hb fun u p => served_of_quiet rfl rfl _ u)

end CodebaseTrpc
