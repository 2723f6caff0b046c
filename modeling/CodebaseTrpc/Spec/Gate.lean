import CodebaseTrpc.Spec.Auth

/-! What the authorization header of a request is worth. -/
namespace CodebaseTrpc
variable {P : Packages} {w w' : World} {auth : Option String}

/-- The header carries a live token, and the user of its payload exists. -/
def Authenticates (P : Packages) (w : World) (auth : Option String) (u : User) : Prop :=
  ∃ header t, truthyText auth = some header ∧ opens P (tokenOf header) w.env.now t ∧
    Rows.lookup User.id t.userId w.db.users = some u

theorem Authenticates.mem {u : User} (h : Authenticates P w auth u) : u ∈ w.db.users := by
  obtain ⟨_, _, _, _, h⟩ := h
  exact Rows.lookup_mem h

theorem Authenticates.unique {auth : Option String} {u v : User} (h : Authenticates P w auth u)
    (h' : Authenticates P w auth v) : v = u := by
  obtain ⟨header, t, hh, ht, hu⟩ := h
  obtain ⟨header', t', hh', ht', hv⟩ := h'
  cases hh.symm.trans hh'
  cases ht.2.2.symm.trans ht'.2.2
  exact Option.some.inj (hv.symm.trans hu)

/-- The guarded part of `authMiddleware`. -/
def authenticate (P : Packages) (token : String) : Promise User :=
  (verifyJwtToken P token).bind fun _ => (decodeJwtToken P token).bind fun decoded =>
    (getUserById decoded.userId).bind fun
      | none => .throw (unauthorized "User not found")
      | some user => .pure user

theorem run_authenticate_cases {token : String} {r : Except Err User}
    (h : (authenticate P token).run w = (r, w')) :
    Refused w r w' ∨ ∃ u t, r = .ok u ∧ w' = w ∧ opens P token w.env.now t ∧
      Rows.lookup User.id t.userId w.db.users = some u := by
  replace h := run_verify_decode P h
  rcases h with ⟨e, rfl, rfl⟩ | ⟨t, ht, h⟩
  · exact .inl ⟨⟨e, rfl⟩, rfl⟩
  rcases run_found_cases (run_getUserById ..) rfl h with h | ⟨u, hu, h⟩
  · exact .inl h
  obtain ⟨rfl, rfl⟩ := Prod.mk.inj h
  exact .inr ⟨u, t, rfl, rfl, ht, hu⟩

/-- Every rejection of the middleware is an `UNAUTHORIZED`. -/
theorem authMiddleware_eq (header : String) (h : header ≠ "") :
    authMiddleware P (some header) = (authenticate P (tokenOf header)).tryCatch fun error =>
      match error with
      | .trpc code message => .throw (.trpc code message)
      | error => .throw (unauthorized error.message) := by
  simp only [authMiddleware, truthyText_of_ne h]
  refine congrArg (Async.tryCatch · _) ?_
  rfl

theorem run_authMiddleware_cases {r : Except Err User}
    (h : (authMiddleware P auth).run w = (r, w')) :
    Refused w r w' ∨ ∃ u, r = .ok u ∧ w' = w ∧ Authenticates P w auth u := by
  cases hh : truthyText auth with
  | none => simp only [authMiddleware, hh] at h; exact .inl (refused h)
  | some header =>
    obtain ⟨rfl, hne⟩ := truthyText_eq_some hh
    rw [authMiddleware_eq header hne, Async.run_tryCatch] at h
    rcases hr : (authenticate P (tokenOf header)).run w with ⟨o, w₁⟩
    rw [hr] at h
    rcases run_authenticate_cases hr with ⟨⟨e, rfl⟩, rfl⟩ | ⟨u, t, rfl, rfl, ht, hu⟩
    · dsimp only at h
      split at h <;> exact .inl (refused h)
    · obtain ⟨rfl, rfl⟩ := Prod.mk.inj h
      exact .inr ⟨u, rfl, rfl, header, t, hh, ht, hu⟩

/-- From the user that the middleware passes on. -/
theorem authenticates_of_run {auth : Option String} {u : User}
    (h : ((authMiddleware P auth).run w).1.toOption = some u) : Authenticates P w auth u := by
  rcases hr : (authMiddleware P auth).run w with ⟨e | v, w₁⟩ <;> rw [hr] at h <;> cases h
  rcases run_authMiddleware_cases hr with ⟨⟨_, he⟩, -⟩ | ⟨_, hok, -, hu⟩
  · cases he
  · cases hok
    exact hu

theorem run_authMiddleware_ok {u : User} (h : Authenticates P w auth u) :
    (authMiddleware P auth).run w = (.ok u, w) := by
  obtain ⟨header, t, hh, ht, hu⟩ := h
  obtain ⟨rfl, hne⟩ := truthyText_eq_some hh
  rw [authMiddleware_eq header hne, Async.run_tryCatch, authenticate, run_verify_decode_ok P ht,
    Async.run_bind_ok (run_getUserById ..), hu]
  rfl

end CodebaseTrpc
