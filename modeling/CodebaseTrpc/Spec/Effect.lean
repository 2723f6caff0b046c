import CodebaseTrpc.Spec.Drift
import CodebaseTrpc.Spec.Gate
import CodebaseTrpc.Spec.Webhooks

/-! Everything a request can do, in one relation: what later invariants are derived from. -/
namespace CodebaseTrpc
variable {P : Packages} {w w' : World}

/-- A request that may succeed without an effect. -/
def Request.MayIdle : Request → Prop
  | .verifyEmail _ | .forgotPassword _ | .getUserById _ | .getUserBilling _
  | .webhook _ => True
  | _ => False

/-- The effect of one request on the world `w`: its reply and the world after it. -/
inductive Effect (P : Packages) (w : World) : Request → Except Err Reply → World → Prop
  | none {request : Request} {reply : Except Err Reply}
      (h : (∃ e, reply = .error e) ∨ request.MayIdle) : Effect P w request reply w
  | google {credential : String} {payload : TGoogleTokenPayload} {u : User} {w₁ : World}
      (hpay : GooglePayload P w payload) (hres : Resolved P w payload u w₁) :
      Effect P w (.google credential) (.ok (.tokens (sessionTokens P u.id w.env.now)))
        (w₁.openSession P u.id)
  /-- The account was found or linked, and its session could not be settled. -/
  | googleStopped {credential : String} {payload : TGoogleTokenPayload} {u : User} {w₁ : World}
      {e : Err} (hpay : GooglePayload P w payload) (hres : Resolved P w payload u w₁) :
      Effect P w (.google credential) (.error e) w₁
  | login {input : LoginInput} {u : User}
      (hu : Rows.lookup User.email input.email w.db.users = some u)
      (hpw : P.compareSync input.password u.passwordHash = true) :
      Effect P w (.login input) (.ok (.tokens (sessionTokens P u.id w.env.now)))
        (w.openSession P u.id)
  | signup {input : SignupInput} {product : Product} {profile : UserProfile}
      (hproduct : w.freeTier = some product)
      (hrow : (w.exec (insertUser (signupUser P input w.env product))).db.users = w.db.users ++
        [(signupUser P input w.env product).row w.env.uuid w.env.now]) :
      Effect P w (.signup input) (.ok (.profile (some profile)))
        ((w.exec (insertUser (signupUser P input w.env product))).issueVerification P
          ((signupUser P input w.env product).row w.env.uuid w.env.now))
  | refresh {token : String} {u : User} (hlive : Live P token w.env.now)
      (hu : Rows.lookup User.refreshToken (some token) w.db.users = some u) :
      Effect P w (.refresh token) (.ok (.tokens (sessionTokens P u.id w.env.now)))
        (w.openSession P u.id)
  | logout {auth : Option String} {u : User} (hauth : Authenticates P w auth u) :
      Effect P w (.logout auth) (.ok .success) (w.exec (updateUser u.id keepRefresh))
  | verifyEmail {token : String} {t : Token} {u : User} (ht : opens P token w.env.now t)
      (hp : t.purpose = some .emailVerification)
      (hu : Rows.lookup User.id t.userId w.db.users = some u)
      (hstored : u.emailVerificationToken = some token) (hv : u.emailVerified = false) :
      Effect P w (.verifyEmail token) (.ok .success) (w.exec (updateUser u.id markVerified))
  | resendVerificationEmail {auth : Option String} {u : User} {reply : Except Err Reply}
      (hauth : Authenticates P w auth u) (hv : u.emailVerified = false) :
      Effect P w (.resendVerificationEmail auth) reply (w.issueVerification P u)
  | forgotPassword {email : String} {u : User} {reply : Except Err Reply}
      (hu : Rows.lookup User.email email w.db.users = some u) :
      Effect P w (.forgotPassword email) reply (w.issueReset P u)
  | resetPassword {token newPassword : String} {t : Token} {u : User}
      (ht : opens P token w.env.now t) (hp : t.purpose = some .passwordReset)
      (hu : Rows.lookup User.id t.userId w.db.users = some u)
      (hrow :
        (w.exec (updateUser u.id (storePassword (P.hashSync w.env.salt newPassword)))).db.users =
        Rows.update User.id u.id ((storePassword (P.hashSync w.env.salt newPassword)).apply
          w.env.now) w.db.users) :
      Effect P w (.resetPassword token newPassword) (.ok .success)
        (w.exec (updateUser u.id (storePassword (P.hashSync w.env.salt newPassword))))
  | updateUserById {auth : Option String} {input : UpdateUserInput} {u : User}
      {profile : UserProfile} (hauth : Authenticates P w auth u)
      (hinput : updateUserSchema P input)
      (hrow : (w.exec (updateUser u.id input.updates)).db.users =
        Rows.update User.id u.id (input.updates.apply w.env.now) w.db.users) :
      Effect P w (.updateUserById auth input) (.ok (.profile (some profile)))
        (w.exec (updateUser u.id input.updates))
  | requestEmailChange {auth : Option String} {newEmail : String} {u : User}
      {reply : Except Err Reply} (hauth : Authenticates P w auth u) (hne : u.email ≠ newEmail)
      (hfree : Rows.lookup User.email newEmail w.db.users = .none) :
      Effect P w (.requestEmailChange auth newEmail) reply (w.issueCode P u newEmail)
  | emailChanged {auth : Option String} {code token newEmail : String} {u : User} {t : Token}
      {profile : UserProfile} (hauth : Authenticates P w auth u)
      (hp : PendingChange P w u token t) (hcode : t.code = some code)
      (hready : Ready t newEmail) (hfree : ¬ Blocked w u.id newEmail)
      (hrow : (w.exec (updateUser u.id (changeEmail newEmail))).db.users =
        Rows.update User.id u.id ((changeEmail newEmail).apply w.env.now) w.db.users) :
      Effect P w (.verifyEmailChange auth code) (.ok (.profile (some profile)))
        (w.exec (updateUser u.id (changeEmail newEmail)))
  /-- A wrong code: counted, and the change goes on unless the address is blocked. -/
  | codeWrong {auth : Option String} {code token newEmail : String} {u : User} {t : Token}
      {reply : Except Err Reply} {w' : World} (hauth : Authenticates P w auth u)
      (hp : PendingChange P w u token t) (hcode : t.code ≠ some code)
      (hready : Ready t newEmail) (hdrift : Drifted P w u.id t w')
      (hblocked : Blocked w u.id newEmail → (∃ e, reply = .error e) ∧
        (w' = w ∨ ∃ iat, t.iat = some iat ∧ w' = w.countAttempt P u.id t iat)) :
      Effect P w (.verifyEmailChange auth code) reply w'
  | createCheckoutSession {auth : Option String} {input : CreateCheckoutSessionInput} {u : User}
      {reply : Except Err Reply} {session : CheckoutSession} (hauth : Authenticates P w auth u) :
      Effect P w (.createCheckoutSession auth input) reply
        { w with checkouts := w.checkouts ++ [session] }
  | createCustomerPortalSession {auth : Option String} {returnUrl : String} {u : User}
      {reply : Except Err Reply} {session : PortalSession} (hauth : Authenticates P w auth u) :
      Effect P w (.createCustomerPortalSession auth returnUrl) reply
        { w with portals := w.portals ++ [session] }
  | webhook {event : BillingEvent} {db : Db} (h : Billed w event db) :
      Effect P w (.webhook event) (.ok .success) { w with db }

section Plumbing
variable {α β : Type} {p : Promise α} {r : Except Err β}

theorem run_validated_cases {schema : Prop} [Decidable schema] {r : Except Err α}
    (h : (validated schema p).run w = (r, w')) :
    Refused w r w' ∨ (schema ∧ p.run w = (r, w')) := by
  unfold validated at h
  split_ifs at h with hs
  · exact .inr ⟨hs, h⟩
  · exact .inl (refused h)

/-- A resolver that wraps the value of its service. -/
theorem run_return_cases {g : α → β}
    (h : (p.bind fun a => .pure (g a)).run w = (r, w')) :
    (∃ e, p.run w = (.error e, w') ∧ r = .error e) ∨
      ∃ a, p.run w = (.ok a, w') ∧ r = .ok (g a) := by
  replace h := Async.run_bind_cases h
  rcases h with h | ⟨a, t, hp, h⟩
  · exact .inl h
  · obtain ⟨rfl, rfl⟩ := Prod.mk.inj h
    exact .inr ⟨a, hp, rfl⟩

/-- The same from what a service does, whose refusal is the resolver's. -/
theorem run_service_cases {g : α → β} {Q : Except Err α → World → Prop}
    (hp : ∀ {o w₁}, p.run w = (o, w₁) → Refused w o w₁ ∨ Q o w₁)
    (h : (p.bind fun a => .pure (g a)).run w = (r, w')) :
    Refused w r w' ∨ ∃ o, Q o w' ∧ r = o.map g := by
  rcases run_return_cases h with ⟨e, hr, rfl⟩ | ⟨a, hr, rfl⟩
  · exact (hp hr).imp (fun href => ⟨⟨e, rfl⟩, href.2⟩) fun hq => ⟨_, hq, rfl⟩
  · rcases hp hr with ⟨⟨_, heq⟩, -⟩ | hq
    · cases heq
    · exact .inr ⟨_, hq, rfl⟩

/-- A procedure behind `authMiddleware`. -/
theorem run_protected_cases {auth : Option String} {f : User → Promise β}
    (h : ((authMiddleware P auth).bind f).run w = (r, w')) :
    Refused w r w' ∨ ∃ u, Authenticates P w auth u ∧ (f u).run w = (r, w') := by
  replace h := run_then_cases run_authMiddleware_cases h
  rcases h with h | ⟨u, _, ⟨rfl, ha⟩, h⟩
  · exact .inl h
  · exact .inr ⟨u, ha, h⟩

theorem run_verifiedEmailMiddleware_cases {u : User} {f : User → Promise β}
    (h : ((verifiedEmailMiddleware u).bind f).run w = (r, w')) :
    Refused w r w' ∨ (f u).run w = (r, w') := by
  unfold verifiedEmailMiddleware at h
  split_ifs at h
  · exact .inr h
  · exact .inl (refused h)

end Plumbing

theorem Effect.refused {request : Request} {reply : Except Err Reply}
    (h : Refused w reply w') : Effect P w request reply w' := by
  obtain ⟨he, rfl⟩ := h
  exact .none (.inl he)

theorem effect_google {credential : String} {reply : Except Err Reply}
    (h : (handle P (.google credential)).run w = (reply, w')) :
    Effect P w (.google credential) reply w' := by
  rcases run_validated_cases h with h | ⟨-, h⟩
  · exact .refused h
  rcases run_service_cases run_authenticateWithGoogle_cases h with
    h | ⟨_, ⟨payload, u, w₁, hpay, hres, ⟨⟨e, rfl⟩, rfl⟩ | ⟨rfl, rfl⟩⟩, rfl⟩
  · exact .refused h
  · exact .googleStopped hpay hres
  · rw [hres.env]
    exact .google hpay hres

theorem effect_login {input : LoginInput} {reply : Except Err Reply}
    (h : (handle P (.login input)).run w = (reply, w')) :
    Effect P w (.login input) reply w' := by
  rcases run_validated_cases h with h | ⟨-, h⟩
  · exact .refused h
  rcases run_service_cases run_authenticateUser_cases h with
    h | ⟨_, ⟨u, hu, hpw, rfl, rfl⟩, rfl⟩
  · exact .refused h
  · exact .login hu hpw

theorem effect_refresh {token : String} {reply : Except Err Reply}
    (h : (handle P (.refresh token)).run w = (reply, w')) :
    Effect P w (.refresh token) reply w' := by
  rcases run_validated_cases h with h | ⟨-, h⟩
  · exact .refused h
  rcases run_service_cases run_refreshAccessToken_cases h with
    h | ⟨_, ⟨u, _, hl, hu, rfl, rfl⟩, rfl⟩
  · exact .refused h
  · exact .refresh hl hu

theorem effect_logout {auth : Option String} {reply : Except Err Reply}
    (h : (handle P (.logout auth)).run w = (reply, w')) :
    Effect P w (.logout auth) reply w' := by
  rcases run_protected_cases h with h | ⟨u, ha, h⟩
  · exact .refused h
  rcases run_return_cases h with ⟨e, hr, rfl⟩ | ⟨a, hr, rfl⟩ <;>
    rw [run_revokeUserRefreshToken (lookup_of_mem ha.mem)] at hr <;>
    obtain ⟨hok, rfl⟩ := Prod.mk.inj hr
  · cases hok
  · exact .logout ha

theorem effect_signup {input : SignupInput} {reply : Except Err Reply}
    (h : (handle P (.signup input)).run w = (reply, w')) :
    Effect P w (.signup input) reply w' := by
  rcases run_validated_cases h with h | ⟨-, h⟩
  · exact .refused h
  rcases run_service_cases run_registerUser_cases h with
    h | ⟨_, ⟨product, profile, hp, hrow, rfl, rfl⟩, rfl⟩
  · exact .refused h
  · exact .signup hp hrow

theorem effect_verifyEmail {token : String} {reply : Except Err Reply}
    (h : (handle P (.verifyEmail token)).run w = (reply, w')) :
    Effect P w (.verifyEmail token) reply w' := by
  rcases run_service_cases run_verifyUserEmail_cases h with
    h | ⟨_, ⟨t, u, ht, hp, hu, hs, rfl, ⟨-, rfl⟩ | ⟨hv, rfl⟩⟩, rfl⟩
  · exact .refused h
  · exact .none (.inr trivial)
  · exact .verifyEmail ht hp hu hs hv

theorem effect_resendVerificationEmail {auth : Option String} {reply : Except Err Reply}
    (h : (handle P (.resendVerificationEmail auth)).run w = (reply, w')) :
    Effect P w (.resendVerificationEmail auth) reply w' := by
  rcases run_protected_cases h with h | ⟨u, ha, h⟩
  · exact .refused h
  rcases run_service_cases run_resendVerificationEmail_cases h with
    h | ⟨_, ⟨u', hu', hv, -, rfl⟩, -⟩
  · exact .refused h
  · cases (lookup_of_mem ha.mem).symm.trans hu'
    exact .resendVerificationEmail ha hv

theorem effect_forgotPassword {email : String} {reply : Except Err Reply}
    (h : (handle P (.forgotPassword email)).run w = (reply, w')) :
    Effect P w (.forgotPassword email) reply w' := by
  rcases run_validated_cases h with h | ⟨-, h⟩
  · exact .refused h
  rcases run_return_cases h with ⟨e, hr, rfl⟩ | ⟨a, hr, rfl⟩ <;>
    rcases run_forgotPassword_cases hr with ⟨-, -, rfl⟩ | ⟨u, hu, -, rfl⟩
  · exact .none (.inr trivial)
  · exact .forgotPassword hu
  · exact .none (.inr trivial)
  · exact .forgotPassword hu

theorem effect_resetPassword {token newPassword : String} {reply : Except Err Reply}
    (h : (handle P (.resetPassword token newPassword)).run w = (reply, w')) :
    Effect P w (.resetPassword token newPassword) reply w' := by
  rcases run_validated_cases h with h | ⟨-, h⟩
  · exact .refused h
  rcases run_service_cases run_resetPassword_cases h with
    h | ⟨_, ⟨t, u, ht, hp, hu, rfl, rfl, hrow⟩, rfl⟩
  · exact .refused h
  · exact .resetPassword ht hp hu hrow

theorem effect_updateUserById {auth : Option String} {input : UpdateUserInput}
    {reply : Except Err Reply} (h : (handle P (.updateUserById auth input)).run w = (reply, w')) :
    Effect P w (.updateUserById auth input) reply w' := by
  rcases run_protected_cases h with h | ⟨u, ha, h⟩
  · exact .refused h
  rcases run_validated_cases h with h | ⟨hin, h⟩
  · exact .refused h
  rcases run_service_cases run_updateUserProfile_cases h with
    h | ⟨_, ⟨u', _, rfl, rfl, hrow⟩, rfl⟩
  · exact .refused h
  · exact .updateUserById ha hin hrow

theorem effect_requestEmailChange {auth : Option String} {newEmail : String}
    {reply : Except Err Reply}
    (h : (handle P (.requestEmailChange auth newEmail)).run w = (reply, w')) :
    Effect P w (.requestEmailChange auth newEmail) reply w' := by
  rcases run_protected_cases h with h | ⟨u, ha, h⟩
  · exact .refused h
  rcases run_validated_cases h with h | ⟨-, h⟩
  · exact .refused h
  rcases run_service_cases run_requestEmailChange_cases h with
    h | ⟨_, ⟨u', hu', hne, hfree, -, rfl⟩, -⟩
  · exact .refused h
  · cases (lookup_of_mem ha.mem).symm.trans hu'
    exact .requestEmailChange ha hne hfree

theorem exec_protected_cases {α : Type} {auth : Option String} {f : User → Promise α}
    {r : Except Err α} (h : ((authMiddleware P auth).bind f).Exec w r w') :
    Refused w r w' ∨ ∃ u, Authenticates P w auth u ∧ (f u).Exec w r w' := by
  replace h := (Async.exec_bind (awaits_authMiddleware P auth)).mp h
  rcases h with ⟨e, hu, rfl⟩ | ⟨u, t, hu, hf⟩
  · rcases run_authMiddleware_cases hu with h | ⟨_, h, -⟩
    · exact .inl ⟨⟨e, rfl⟩, h.2⟩
    · cases h
  · rcases run_authMiddleware_cases hu with ⟨⟨_, he⟩, -⟩ | ⟨_, hok, rfl, ha⟩
    · cases he
    · cases hok
      exact .inr ⟨u, ha, hf⟩

/-- What an execution of `verifyEmailChange` did: nothing, the change with the right code, or
the two unordered effects of a wrong one. -/
theorem exec_verifyEmailChange_effect {u : User} {code : String} {r : Except Err UserProfile}
    (hu : u ∈ w.db.users) (h : (verifyEmailChange P u.id code).Exec w r w') :
    Refused w r w' ∨ ∃ token t newEmail, PendingChange P w u token t ∧
      Ready t newEmail ∧
      ((t.code = some code ∧ ¬ Blocked w u.id newEmail ∧ (∃ profile, r = .ok profile) ∧
          w' = w.exec (updateUser u.id (changeEmail newEmail)) ∧
          w'.db.users = Rows.update User.id u.id ((changeEmail newEmail).apply w.env.now)
            w.db.users) ∨
        (t.code ≠ some code ∧ Drifted P w u.id t w' ∧ (Blocked w u.id newEmail →
          (∃ e, r = .error e) ∧
            (w' = w ∨ ∃ iat, t.iat = some iat ∧ w' = w.countAttempt P u.id t iat)))) := by
  have hlook := lookup_of_mem hu
  rcases exec_verifyEmailChange_cases h with h | ⟨u', token, t, hu', hp, h⟩
  · exact .inl h
  cases hlook.symm.trans hu'
  rcases exec_checkedChange_cases h with h | ⟨newEmail, hready, hx⟩
  · exact .inl h
  by_cases hcode : t.code = some code
  · -- the check is settled from the start: only the change runs
    have hrun := Async.exec_spawn_settled (verifyEmailChangeCode_settled P u.id (.inr hcode))
      (awaits_applyEmailChange ..) hx
    by_cases hb : Blocked w u.id newEmail
    · obtain ⟨he, rfl⟩ := exec_spawn_blocked hb hx
      obtain ⟨o, ho⟩ := verifyEmailChangeCode_settled P u.id (.inr hcode)
      rw [ho] at hrun ⊢
      exact .inl ⟨he, by cases o <;> rfl⟩
    · obtain ⟨profile, hok⟩ := run_applyEmailChange hu hb
      obtain ⟨db, hdb⟩ := updateUser_unblocked hu hb
      rw [hok] at hrun
      obtain ⟨rfl, rfl⟩ := Prod.mk.inj hrun
      exact .inr ⟨token, t, newEmail, hp, hready,
        .inl ⟨hcode, hb, ⟨profile, rfl⟩, rfl, exec_updateUser_users_of_ok hdb⟩⟩
  · refine .inr ⟨token, t, newEmail, hp, hready,
      .inr ⟨hcode, drifted_of_exec hready.hasEmail hx, fun hb => ?_⟩⟩
    obtain ⟨he, rfl⟩ := exec_spawn_blocked hb hx
    refine ⟨he, ?_⟩
    cases hiat : t.iat with
    | none => exact .inl (run_verifyEmailChangeCode_undated hp.purpose hcode hiat)
    | some iat =>
      obtain ⟨e, hrun⟩ := run_verifyEmailChangeCode_wrong (P := P) hlook hp.purpose hcode hiat
      exact .inr ⟨iat, rfl, by rw [hrun]⟩

theorem effect_verifyEmailChange {auth : Option String} {code : String}
    {reply : Except Err Reply}
    (h : (handle P (.verifyEmailChange auth code)).Exec w reply w') :
    Effect P w (.verifyEmailChange auth code) reply w' := by
  rcases exec_protected_cases h with h | ⟨u, ha, h⟩
  · exact .refused h
  unfold validated at h
  split_ifs at h with hs
  swap
  · exact .refused (exec_throw h)
  have hmap := (Async.exec_map (p := verifyEmailChange P u.id code)
    (g := fun profile => Reply.profile (some profile))).mp h
  obtain ⟨o, hx, rfl⟩ := hmap
  rcases exec_verifyEmailChange_effect ha.mem hx with
    ⟨⟨e, rfl⟩, rfl⟩ | ⟨token, t, newEmail, hp, hready, hcase⟩
  · exact .none (.inl ⟨e, rfl⟩)
  rcases hcase with ⟨hcode, hfree, ⟨profile, rfl⟩, rfl, hrow⟩ | ⟨hcode, hdrift, hblocked⟩
  · exact .emailChanged ha hp hcode hready hfree hrow
  · refine .codeWrong ha hp hcode hready hdrift fun hb => ?_
    obtain ⟨⟨e, rfl⟩, hw⟩ := hblocked hb
    exact ⟨⟨e, rfl⟩, hw⟩

/-- A rejected verification did nothing, or counted a wrong code. -/
theorem exec_verifyEmailChange_error {auth : Option String} {code : String} {e : Err}
    (h : (handle P (.verifyEmailChange auth code)).Exec w (.error e) w') :
    w' = w ∨ ∃ u token t newEmail iat, Authenticates P w auth u ∧ PendingChange P w u token t ∧
      Ready t newEmail ∧ t.code ≠ some code ∧ t.iat = some iat ∧
        w' = w.countAttempt P u.id t iat := by
  rcases exec_protected_cases h with ⟨-, rfl⟩ | ⟨u, ha, h⟩
  · exact .inl rfl
  unfold validated at h
  split_ifs at h with hs
  swap
  · exact .inl (exec_throw h).2
  obtain ⟨o, hx, hmap⟩ := (Async.exec_map (p := verifyEmailChange P u.id code)
    (g := fun profile => Reply.profile (some profile))).mp h
  obtain rfl : o = .error e := by
    cases o with
    | error e' => cases hmap; rfl
    | ok profile => cases hmap
  rcases exec_verifyEmailChange_effect ha.mem hx with
    ⟨-, rfl⟩ | ⟨token, t, newEmail, hp, hready, hcase⟩
  · exact .inl rfl
  rcases hcase with ⟨-, -, ⟨_, hok⟩, -⟩ | ⟨hcode, -, hblocked⟩
  · cases hok
  have hb : Blocked w u.id newEmail := by
    by_contra hfree
    have hspawn := (exec_verifyEmailChange_of_pending (lookup_of_mem ha.mem) hp).mp hx
    rw [checkedChange_of_ready hready] at hspawn
    obtain ⟨_, hok⟩ := exec_spawn_open ⟨hfree, u, ha.mem, rfl⟩ hspawn
    cases hok
  rcases (hblocked hb).2 with hw | ⟨iat, hiat, hw⟩
  · exact .inl hw
  · exact .inr ⟨u, token, t, newEmail, iat, ha, hp, hready, hcode, hiat, hw⟩

theorem run_createCheckoutSession_cases {input : CreateCheckoutSessionInput} {user : User}
    {r : Except Err (String × String)} (h : (createCheckoutSession input user).run w = (r, w')) :
    Refused w r w' ∨ ∃ session, w' = { w with checkouts := w.checkouts ++ [session] } := by
  rw [createCheckoutSession, Async.bind_eq] at h
  rcases run_found_cases (run_getProductByExternalPriceId ..) rfl h with h | ⟨product, -, h⟩
  · exact .inl h
  dsimp only at h
  split at h
  · rw [Async.bind_eq, Async.run_bind_ok (run_getBillingByUserId ..), Async.run_act] at h
    split at h
    · exact .inr ⟨_, (Prod.mk.inj h).2.symm⟩
    · split at h <;> exact .inr ⟨_, (Prod.mk.inj h).2.symm⟩
  · exact .inl (refused h)

theorem effect_createCheckoutSession {auth : Option String} {input : CreateCheckoutSessionInput}
    {reply : Except Err Reply}
    (h : (handle P (.createCheckoutSession auth input)).run w = (reply, w')) :
    Effect P w (.createCheckoutSession auth input) reply w' := by
  rcases run_protected_cases h with h | ⟨u, ha, h⟩
  · exact .refused h
  rcases run_verifiedEmailMiddleware_cases h with h | h
  · exact .refused h
  rcases run_validated_cases h with h | ⟨-, h⟩
  · exact .refused h
  rcases run_service_cases run_createCheckoutSession_cases h with h | ⟨_, ⟨session, rfl⟩, -⟩
  · exact .refused h
  · exact .createCheckoutSession ha

theorem run_createCustomerPortalSession_cases {returnUrl : String} {user : User}
    {r : Except Err String} (h : (createCustomerPortalSession returnUrl user).run w = (r, w')) :
    Refused w r w' ∨ ∃ session, w' = { w with portals := w.portals ++ [session] } ∧
      ∀ e, r = .error e → ∃ message, w.env.stripe = .rejected message ∧ e = .error message := by
  rw [createCustomerPortalSession, Async.bind_eq] at h
  rcases run_found_cases (run_getBillingByUserId ..) rfl h with h | ⟨billing, -, h⟩
  · exact .inl h
  dsimp only at h
  split_ifs at h
  · exact .inl (refused h)
  · rw [Async.run_act] at h
    split at h
    next message hstripe =>
      cases h
      exact .inr ⟨_, rfl, fun _ he => ⟨message, hstripe, by cases he; rfl⟩⟩
    next => cases h; exact .inr ⟨_, rfl, fun _ he => by cases he⟩

theorem effect_createCustomerPortalSession {auth : Option String} {returnUrl : String}
    {reply : Except Err Reply}
    (h : (handle P (.createCustomerPortalSession auth returnUrl)).run w = (reply, w')) :
    Effect P w (.createCustomerPortalSession auth returnUrl) reply w' := by
  rcases run_protected_cases h with h | ⟨u, ha, h⟩
  · exact .refused h
  rcases run_verifiedEmailMiddleware_cases h with h | h
  · exact .refused h
  rcases run_validated_cases h with h | ⟨-, h⟩
  · exact .refused h
  rcases run_service_cases run_createCustomerPortalSession_cases h with
    h | ⟨_, ⟨session, rfl, -⟩, -⟩
  · exact .refused h
  · exact .createCustomerPortalSession ha

theorem effect_webhook {event : BillingEvent} {reply : Except Err Reply} (htrx : w.trx = none)
    (h : (handle P (.webhook event)).run w = (reply, w')) :
    Effect P w (.webhook event) reply w' := by
  rcases run_return_cases h with ⟨e, hr, rfl⟩ | ⟨a, hr, rfl⟩
  · rcases run_processBillingWebhookHandler_cases htrx hr with rfl | ⟨_, h, -⟩
    · exact .none (.inl ⟨e, rfl⟩)
    · cases h
  · rcases run_processBillingWebhookHandler_cases htrx hr with rfl | ⟨db, -, rfl, hb⟩
    · exact .none (.inr trivial)
    · exact .webhook hb

theorem reads_getUserBilling (user : User) (w : World) : ((getUserBilling user).run w).2 = w := by
  rw [getUserBilling, Async.bind_eq, Async.run_bind_ok (run_getBillingByUserId ..)]
  split
  · rfl
  · rfl

/-- Every execution of a request has one of the effects. -/
theorem effect_of_exec {request : Request} {reply : Except Err Reply} (htrx : w.trx = none)
    (h : (handle P request).Exec w reply w') : Effect P w request reply w' := by
  by_cases hreq : ∀ auth code, request ≠ .verifyEmailChange auth code
  swap
  · simp only [not_forall, not_not] at hreq
    obtain ⟨auth, code, rfl⟩ := hreq
    exact effect_verifyEmailChange h
  replace h := (Async.exec_iff_run (awaits_handle P hreq)).mp h
  cases request with
  | google credential => exact effect_google h
  | login input => exact effect_login h
  | signup input => exact effect_signup h
  | refresh token => exact effect_refresh h
  | logout auth => exact effect_logout h
  | verifyEmail token => exact effect_verifyEmail h
  | resendVerificationEmail auth => exact effect_resendVerificationEmail h
  | forgotPassword email => exact effect_forgotPassword h
  | resetPassword token newPassword => exact effect_resetPassword h
  | getUserById auth =>
    rcases run_protected_cases h with h | ⟨u, -, h⟩
    · exact .refused h
    · obtain ⟨rfl, rfl⟩ := Prod.mk.inj h
      exact .none (.inr trivial)
  | updateUserById auth input => exact effect_updateUserById h
  | requestEmailChange auth newEmail => exact effect_requestEmailChange h
  | verifyEmailChange auth code => exact absurd rfl (hreq auth code)
  | getUserBilling auth =>
    rcases run_protected_cases h with h | ⟨u, -, h⟩
    · exact .refused h
    · have hw := reads_getUserBilling u w
      rcases run_return_cases h with ⟨e, hr, rfl⟩ | ⟨a, hr, rfl⟩ <;> rw [hr] at hw <;> subst hw
      · exact .none (.inl ⟨e, rfl⟩)
      · exact .none (.inr trivial)
  | createCheckoutSession auth input => exact effect_createCheckoutSession h
  | createCustomerPortalSession auth returnUrl => exact effect_createCustomerPortalSession h
  | webhook event => exact effect_webhook htrx h

/-- A delivery does what its handler does. -/
theorem exec_webhook_ok {event : BillingEvent} {reply : Except Err Reply} {w₁ : World}
    (h : (processBillingWebhookHandler event).run w = (.ok (), w₁))
    (hx : (handle P (.webhook event)).Exec w reply w') : reply = .ok .success ∧ w' = w₁ := by
  have hrun := (Async.exec_iff_run (awaits_handle P fun _ _ h => by cases h)).mp hx
  obtain ⟨rfl, rfl⟩ := Prod.mk.inj ((Async.run_bind_ok h).symm.trans hrun)
  exact ⟨rfl, rfl⟩

end CodebaseTrpc
