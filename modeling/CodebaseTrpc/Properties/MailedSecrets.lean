import CodebaseTrpc.Invariants.Writers
import CodebaseTrpc.Properties.TokenGate
import CodebaseTrpc.Spec.Server

/-! What was mailed works: the link or the code of a mail does what it is for, however many
other requests were served since, and in whatever order their steps came. -/
namespace CodebaseTrpc
variable {P : Packages} {A : Request → Prop} {v w w' : World} {u : User}

theorem opens_sign {t : Token} {deadline now : ℕ} (hexp : t.exp = some deadline)
    (hlive : now / millisecondsPerSecond < deadline) : opens P (P.jwt.sign t) now t := by
  refine ⟨P.jwt.sign_ne_empty t, live_sign.mpr fun e he => ?_, P.jwt.decode_sign t⟩
  rw [hexp] at he
  obtain rfl := Option.mem_some.mp he
  exact hlive

theorem run_verifyUserEmail_ok {token : String} {t : Token} (ht : opens P token w.env.now t)
    (hp : t.purpose = some .emailVerification) (hu : u ∈ w.db.users) (hid : t.userId = u.id)
    (hstored : u.emailVerificationToken = some token) : ∃ w', (verifyUserEmail P token).run w =
      (.ok (), w') ∧ ∃ u' ∈ w'.db.users, u'.id = u.id ∧ u'.emailVerified = true := by
  have hlook : Rows.lookup User.id t.userId w.db.users = some u := hid ▸ lookup_of_mem hu
  simp only [verifyUserEmail, Async.bind_eq]
  rw [run_verify_decode_ok P ht, if_neg (by simp [hp]), Async.run_bind_ok (run_getUserById ..),
    hlook]
  dsimp only
  rw [if_neg (by simp [hstored])]
  split_ifs with hv
  · exact ⟨w, rfl, u, hu, rfl, hv⟩
  · refine ⟨w.exec (updateUser u.id markVerified), Async.run_bind_ok
      (run_updateUserById_quiet markVerified (lookup_of_mem hu) markVerified_quiet), ?_⟩
    rw [exec_updateUser_users markVerified_quiet]
    exact ⟨_, Rows.mem_update_self User.id _ hu, rfl, rfl⟩

/-- A new hash only has to fit its column. -/
theorem updateUser_storePassword {hash : String} (hu : u ∈ w.db.users)
    (hfits : hash.length ≤ 255) : ∃ db, updateUser u.id (storePassword hash) w w.db =
      .ok ((storePassword hash).apply w.env.now u, db) := by
  have hquiet : Constraints (Rows.update User.id u.id (keepRefresh.apply w.env.now) w.db.users)
      w.db.products w.db.billings := w.db.sound.updateUser_quiet keepRefresh_quiet
  obtain ⟨hemail, hgoogle, hfit⟩ := (constraints_updateUser w.db.sound hu rfl).mp hquiet
  have hc : Constraints (Rows.update User.id u.id ((storePassword hash).apply w.env.now) w.db.users)
      w.db.products w.db.billings := by
    refine (constraints_updateUser w.db.sound hu rfl).mpr ⟨hemail, hgoogle, ?_⟩
    exact ⟨hfit.1, hfit.2.1, hfit.2.2.1, hfits, hfit.2.2.2.2⟩
  simp only [updateUser, lookup_of_mem hu, store?_of_constraints hc]
  exact ⟨_, rfl⟩

theorem run_resetPassword_ok {token newPassword : String} {t : Token}
    (ht : opens P token w.env.now t) (hp : t.purpose = some .passwordReset)
    (hu : u ∈ w.db.users) (hid : t.userId = u.id)
    (hfits : (P.hashSync w.env.salt newPassword).length ≤ 255) :
    ∃ w', (resetPassword P token newPassword).run w = (.ok (), w') ∧
      w'.db.products = w.db.products ∧ ∃ u' ∈ w'.db.users, u'.id = u.id ∧
        u'.passwordHash = P.hashSync w.env.salt newPassword := by
  have hlook : Rows.lookup User.id t.userId w.db.users = some u := hid ▸ lookup_of_mem hu
  obtain ⟨db, hdb⟩ := updateUser_storePassword hu hfits
  have hrun : (updateUserById u.id (storePassword (P.hashSync w.env.salt newPassword))).run w =
      (.ok ((storePassword (P.hashSync w.env.salt newPassword)).apply w.env.now u),
        w.exec (updateUser u.id (storePassword (P.hashSync w.env.salt newPassword)))) := by
    rw [updateUserById, run_write, hdb]
    rfl
  refine ⟨w.exec (updateUser u.id (storePassword (P.hashSync w.env.salt newPassword))), ?_,
    exec_updateUser_products, ?_⟩
  · simp only [resetPassword, Async.bind_eq]
    rw [run_verify_decode_ok P ht, if_neg (by simp [hp]), Async.run_bind_ok (run_getUserById ..),
      hlook]
    dsimp only
    rw [Async.run_bind_ok (run_surroundings w)]
    exact Async.run_bind_ok hrun
  · rw [exec_updateUser_users_of_ok hdb]
    exact ⟨_, Rows.mem_update_self User.id _ hu, rfl, rfl⟩

theorem run_login_ok {input : LoginInput} (hfree : w.freeTier ≠ none) (hu : u ∈ w.db.users)
    (hemail : u.email = input.email) (hschema : loginSchema P input)
    (hpassword : P.compareSync input.password u.passwordHash = true) :
    (handle P (.login input)).run w =
      (.ok (.tokens (sessionTokens P u.id w.env.now)), w.openSession P u.id) := by
  have hlook : Rows.lookup User.email input.email w.db.users = some u :=
    (Rows.lookup_eq_some w.db.sound.users_email).mpr ⟨hu, hemail⟩
  have hrun : (authenticateUser P input).run w =
      (.ok (sessionTokens P u.id w.env.now), w.openSession P u.id) := by
    rw [authenticateUser_eq, Async.run_bind_ok (run_getUserByEmail ..), hlook]
    dsimp only
    rw [if_neg (by simp [hpassword]), run_startSession P (lookup_of_mem hu),
      if_neg fun h => hfree h.2]
  rw [handle, validated, if_pos hschema]
  exact Async.run_bind_ok hrun

/-- With the right code and a free address every execution makes the change. -/
theorem exec_verifyEmailChange_right {auth : Option String} {token code newEmail : String}
    {t : Token} {reply : Except Err Reply} (ha : Authenticates P w auth u)
    (hschema : verifyEmailChangeSchema code) (hp : PendingChange P w u token t)
    (hready : Ready t newEmail) (hcode : t.code = some code) (hfree : ¬ Blocked w u.id newEmail)
    (h : (handle P (.verifyEmailChange auth code)).Exec w reply w') :
    (∃ profile, reply = .ok (.profile (some profile))) ∧
      (changeEmail newEmail).apply w.env.now u ∈ w'.db.users := by
  rw [handle, Async.bind_eq, Async.exec_bind_ok (awaits_authMiddleware P auth)
    (run_authMiddleware_ok ha), validated, if_pos hschema] at h
  obtain ⟨o, hx, hmap⟩ := (Async.exec_map (p := verifyEmailChange P u.id code)
    (g := fun profile => Reply.profile (some profile))).mp h
  rw [exec_verifyEmailChange_of_pending (lookup_of_mem ha.mem) hp,
    checkedChange_of_ready hready] at hx
  have hrun := Async.exec_spawn_settled (verifyEmailChangeCode_settled P u.id (.inr hcode))
    (awaits_applyEmailChange ..) hx
  obtain ⟨profile, hok⟩ := run_applyEmailChange ha.mem hfree
  obtain ⟨db, hdb⟩ := updateUser_unblocked ha.mem hfree
  rw [hok] at hrun
  obtain ⟨rfl, rfl⟩ := Prod.mk.inj hrun
  refine ⟨⟨profile, hmap⟩, ?_⟩
  rw [exec_updateUser_users_of_ok hdb]
  exact Rows.mem_update_self User.id _ ha.mem

/-- A request that sent one mail, and the world it left. -/
inductive Mails (P : Packages) (v : World) : Mail → World → Prop
  | verification {x : World} {u : User} (hu : u ∈ x.db.users) (hv : u.emailVerified = false)
      (henv : x.env = v.env) (htrx : x.trx = v.trx) :
      Mails P v (.verification u.email u.fullName
        (P.jwt.sign (verificationPayload u.id v.env.now))) (x.issueVerification P u)
  | passwordReset {u : User} (hu : u ∈ v.db.users) :
      Mails P v (.passwordReset u.email u.fullName (P.jwt.sign (resetPayload u.id v.env.now)))
        (v.issueReset P u)
  | emailChangeCode {u : User} {newEmail : String} (hu : u ∈ v.db.users) :
      Mails P v (.emailChangeCode newEmail u.fullName (codeOf v.env)) (v.issueCode P u newEmail)

theorem Effect.mails {request : Request} {reply : Except Err Reply} {mail : Mail} {r : MailReply}
    (h : Effect P v request reply w) (hmail : w.outbox = v.outbox ++ [(mail, r)]) :
    Mails P v mail w := by
  cases h with
  | google _ hres => cases hres <;> simp at hmail
  | googleStopped _ hres => cases hres <;> simp at hmail
  | @signup input product _ _ hrow =>
    rw [issueVerification_outbox] at hmail
    obtain ⟨rfl, -⟩ : _ = mail ∧ _ = r := by simpa using hmail
    have hmem : (signupUser P input v.env product).row v.env.uuid v.env.now ∈
        (v.exec (insertUser (signupUser P input v.env product))).db.users := by simp [hrow]
    simpa using Mails.verification (P := P) (v := v) hmem rfl (by simp) (by simp)
  | resendVerificationEmail hauth hv =>
    rw [issueVerification_outbox] at hmail
    obtain ⟨rfl, -⟩ : _ = mail ∧ _ = r := by simpa using hmail
    exact .verification hauth.mem hv rfl rfl
  | forgotPassword hu =>
    obtain ⟨rfl, -⟩ : _ = mail ∧ _ = r := by
      simpa [World.issueReset, World.mailed, World.sign] using hmail
    exact .passwordReset (Rows.lookup_mem hu)
  | requestEmailChange hauth =>
    rw [issueCode_outbox] at hmail
    obtain ⟨rfl, -⟩ : _ = mail ∧ _ = r := by simpa using hmail
    exact .emailChangeCode hauth.mem
  | codeWrong _ _ _ _ hdrift _ => simp [hdrift.outbox] at hmail
  | _ => simp at hmail

theorem exp_verificationPayload (userId : String) (now : ℕ) :
    (verificationPayload userId now).exp =
      some (now / millisecondsPerSecond + 30 * secondsPerMinute) := rfl

theorem exp_resetPayload (userId : String) (now : ℕ) : (resetPayload userId now).exp =
    some (now / millisecondsPerSecond + 15 * secondsPerMinute) := rfl

theorem exp_changePayload (userId newEmail code : String) (now : ℕ) :
    (changePayload userId newEmail code now).exp = some (now / millisecondsPerSecond +
      emailChangeTokenExpirationMinutes * secondsPerMinute) := by
  simp only [changePayload, stamp, changeInput]
  split
  next n hn => rw [Option.some.inj hn]
  next => rfl

/-- A code has six digits, so that the schema of its form lets it through. -/
theorem verifyEmailChangeSchema_codeOf (env : Environment) :
    verifyEmailChangeSchema (codeOf env) := by
  have hlt := env.random.isLt
  have hdigits : (codeOf env).toList = Nat.toDigits 10 (verificationCodeMin + env.random.val) := by
    simp [codeOf]
  refine ⟨?_, ?_⟩
  · rw [hdigits]
    have hle := (Nat.length_toDigits_le_iff (n := verificationCodeMin + env.random.val)
      (k := 6) (b := 10) (by decide) (by decide)).mpr (by
        simp only [verificationCodeMin, verificationCodeMax] at hlt ⊢
        omega)
    have hge := (Nat.length_toDigits_le_iff (n := verificationCodeMin + env.random.val)
      (k := 5) (b := 10) (by decide) (by decide)).not.mpr (by
        simp only [verificationCodeMin]
        omega)
    omega
  · rw [hdigits, List.all_eq_true]
    exact fun c hc => Nat.isDigit_of_mem_toDigits (by decide) (by decide) hc

/-- None of the requests may write the pending secret of the user. -/
def SecretLeft (P : Packages) (A : Request → Prop) (userId : String) : Prop :=
  ∀ request, A request → ∀ Seen, ¬ request.MayWrite P Seen userId .emailVerificationToken

section Since
variable {calls : List (Async.Call World Err Reply)}

theorem user_since (htrx : w.trx = none)
    (h : Async.Pool.Steps (Admitted P A) Ticks ([], w) (calls, w')) (hu : u ∈ w.db.users) :
    ∃ u' ∈ w'.db.users, u'.id = u.id ∧ (SecretLeft P A u.id →
      u'.emailVerificationToken = u.emailVerificationToken) := by
  obtain ⟨u', hu', hkept⟩ := (confined_of_steps htrx h).users_kept.exists_new hu
  refine ⟨u', hu', hkept.id, fun hleft => hkept.cells .emailVerificationToken ?_⟩
  rintro ⟨request, hA, hmay⟩
  exact hleft request hA _ hmay

/-- A verification link works until it expires, unless a request since may have replaced the
pending secret of its user. -/
theorem verification_link_works {request : Request} {reply : Except Err Reply} {mail : MailReply}
    {recipient fullName token : String} (htrx : v.trx = none)
    (hcall : (handle P request).Exec v reply w)
    (hmail : w.outbox = v.outbox ++ [(.verification recipient fullName token, mail)]) :
    ∃ u ∈ w.db.users, u.email = recipient ∧ u.emailVerified = false ∧
      ∀ A calls w', Async.Pool.Steps (Admitted P A) Ticks ([], w) (calls, w') →
        SecretLeft P A u.id →
        w'.env.now / millisecondsPerSecond <
          v.env.now / millisecondsPerSecond + 30 * secondsPerMinute →
        ∃ w'', (handle P (.verifyEmail token)).run w' = (.ok .success, w'') ∧
          ∃ u' ∈ w''.db.users, u'.id = u.id ∧ u'.emailVerified = true := by
  have heff := effect_of_exec htrx hcall
  generalize hm : Mail.verification recipient fullName token = m at hmail
  cases heff.mails hmail with
  | passwordReset => cases hm
  | emailChangeCode => cases hm
  | @verification x u hu hv henv htrx' =>
    cases hm
    have hrow : (storePending (P.jwt.sign (verificationPayload u.id v.env.now))).apply v.env.now u ∈
        (x.issueVerification P u).db.users := by
      rw [issueVerification_users, henv]
      exact Rows.mem_update_self User.id _ hu
    refine ⟨_, hrow, rfl, hv, fun A calls w' hsteps hleft hlive => ?_⟩
    obtain ⟨u', hu', hid, hsecret⟩ := user_since (by simp [htrx', htrx]) hsteps hrow
    have hopens : opens P (P.jwt.sign (verificationPayload u.id v.env.now)) w'.env.now
        (verificationPayload u.id v.env.now) := opens_sign (exp_verificationPayload ..) hlive
    obtain ⟨w'', hrun, u'', hu'', hid'', hdone⟩ :=
      run_verifyUserEmail_ok hopens rfl hu' hid.symm (hsecret hleft)
    exact ⟨w'', Async.run_bind_ok hrun, u'', hu'', hid''.trans hid, hdone⟩

/-- A reset link works until it expires, whatever was requested since: it sets the password, and
the password then logs its user in. -/
theorem reset_link_works {request : Request} {reply : Except Err Reply} {mail : MailReply}
    {recipient fullName token : String} (htrx : v.trx = none) (hfree : v.freeTier ≠ none)
    (hcall : (handle P request).Exec v reply w)
    (hmail : w.outbox = v.outbox ++ [(.passwordReset recipient fullName token, mail)]) :
    ∃ u ∈ w.db.users, u.email = recipient ∧
      ∀ A calls w' newPassword, Async.Pool.Steps (Admitted P A) Ticks ([], w) (calls, w') →
        w'.env.now / millisecondsPerSecond <
          v.env.now / millisecondsPerSecond + 15 * secondsPerMinute →
        8 ≤ jsLength newPassword → (P.hashSync w'.env.salt newPassword).length ≤ 255 →
        P.compareSync newPassword (P.hashSync w'.env.salt newPassword) = true →
        ∃ w'', (handle P (.resetPassword token newPassword)).run w' = (.ok .success, w'') ∧
          ∃ u' ∈ w''.db.users, u'.id = u.id ∧ (P.isEmail u'.email = true →
            ((handle P (.login ⟨u'.email, newPassword⟩)).run w'').1 =
              .ok (.tokens (sessionTokens P u.id w''.env.now))) := by
  have heff := effect_of_exec htrx hcall
  generalize hm : Mail.passwordReset recipient fullName token = m at hmail
  cases heff.mails hmail with
  | verification => cases hm
  | emailChangeCode => cases hm
  | @passwordReset u hu =>
    cases hm
    refine ⟨u, hu, rfl, fun A calls w' newPassword hsteps hlive hlen hfits hcompare => ?_⟩
    obtain ⟨u', hu', hid, -⟩ := user_since (w := v.issueReset P u) htrx hsteps hu
    have hconfined := confined_of_steps (w := v.issueReset P u) htrx hsteps
    have hopens : opens P (P.jwt.sign (resetPayload u.id v.env.now)) w'.env.now
        (resetPayload u.id v.env.now) := opens_sign (exp_resetPayload ..) hlive
    obtain ⟨w'', hrun, hproducts, u'', hu'', hid'', hhash⟩ :=
      run_resetPassword_ok hopens rfl hu' hid.symm hfits
    refine ⟨w'', ?_, u'', hu'', hid''.trans hid, fun hemail => ?_⟩
    · rw [handle, validated, if_pos hlen]
      exact Async.run_bind_ok hrun
    · have hfree'' : w''.freeTier ≠ none := by
        rw [World.freeTier, hproducts, hconfined.products]
        exact hfree
      have hschema : loginSchema P ⟨u''.email, newPassword⟩ :=
        ⟨hemail, Nat.le_trans (by decide) hlen⟩
      rw [run_login_ok hfree'' hu'' rfl hschema (hhash ▸ hcompare), hid'', hid]

/-- A mailed code works until it expires, unless a request since may have replaced the pending
secret of its user or another user took the address. -/
theorem mailed_code_works {request : Request} {reply : Except Err Reply} {mail : MailReply}
    {newEmail fullName code : String} (htrx : v.trx = none)
    (hcall : (handle P request).Exec v reply w)
    (hmail : w.outbox = v.outbox ++ [(.emailChangeCode newEmail fullName code, mail)])
    (hne : newEmail ≠ "") :
    ∃ u ∈ w.db.users, u.fullName = fullName ∧
      ∀ A calls w', Async.Pool.Steps (Admitted P A) Ticks ([], w) (calls, w') →
        SecretLeft P A u.id →
        w'.env.now / millisecondsPerSecond < v.env.now / millisecondsPerSecond +
          emailChangeTokenExpirationMinutes * secondsPerMinute →
        ∀ auth x reply' w'', Authenticates P w' auth x → x.id = u.id →
          ¬ Blocked w' u.id newEmail →
          (handle P (.verifyEmailChange auth code)).Exec w' reply' w'' →
          (∃ profile, reply' = .ok (.profile (some profile))) ∧ ∃ u' ∈ w''.db.users,
            u'.id = u.id ∧ u'.email = newEmail ∧ u'.emailVerified = true := by
  have heff := effect_of_exec htrx hcall
  generalize hm : Mail.emailChangeCode newEmail fullName code = m at hmail
  cases heff.mails hmail with
  | verification => cases hm
  | passwordReset => cases hm
  | @emailChangeCode u _ hu =>
    cases hm
    have hrow : (storePending (P.jwt.sign (changePayload u.id newEmail (codeOf v.env)
        v.env.now))).apply v.env.now u ∈ (v.issueCode P u newEmail).db.users := by
      rw [issueCode_users]
      exact Rows.mem_update_self User.id _ hu
    refine ⟨_, hrow, rfl,
      fun A calls w' hsteps hleft hlive auth x reply' w'' ha hx hfree hexec => ?_⟩
    obtain ⟨u', hu', hid, hsecret⟩ := user_since (by simpa using htrx) hsteps hrow
    obtain rfl : x = u' := w'.db.user_eq ha.mem hu' (hx.trans hid.symm)
    have hpending : PendingChange P w' x (P.jwt.sign (changePayload u.id newEmail (codeOf v.env)
        v.env.now)) (changePayload u.id newEmail (codeOf v.env) v.env.now) :=
      ⟨hsecret hleft, opens_sign (exp_changePayload ..) hlive, rfl⟩
    have hready : Ready (changePayload u.id newEmail (codeOf v.env) v.env.now) newEmail :=
      ⟨⟨codeOf v.env, rfl, fun h => ?_⟩, rfl, hne, 0, rfl, by decide⟩
    · obtain ⟨hprofile, hdone⟩ := exec_verifyEmailChange_right ha
        (verifyEmailChangeSchema_codeOf v.env) hpending hready rfl (hx ▸ hfree) hexec
      exact ⟨hprofile, _, hdone, hx, rfl, rfl⟩
    · have hlen := (verifyEmailChangeSchema_codeOf v.env).1
      rw [h] at hlen
      exact absurd hlen (by decide)

end Since

namespace Sample

/-- Ann signs up, or asks for a reset link or a code. -/
def linkSent : World := ((handle packages (.signup ann)).run start).2
def resetLinkSent : World := ((handle packages (.forgotPassword ann.email)).run signedIn).2
def newAddressSent : World := ((handle packages
  (.requestEmailChange (some accessToken.text) "new@mail")).run signedIn).2

theorem secretLeft_onlyLogin (userId : String) : SecretLeft packages onlyLogin userId := by
  rintro _ rfl Seen
  simp [Request.MayWrite, Request.OwnColumn, Request.FoundColumn]

def sentSecret (w : World) : String :=
  match w.outbox.getLast? with
  | some (.verification _ _ token, _) => token
  | some (.passwordReset _ _ token, _) => token
  | some (.emailChangeCode _ _ code, _) => code
  | none => ""

def newPassword : String := "secret99"

/-- Ann enters the code that was sent. -/
def codeEntered : Except Err Reply × World := (handle packages (.verifyEmailChange
  (some accessToken.text) (sentSecret newAddressSent))).run (loginBegun newAddressSent).2

set_option maxRecDepth 10000 in
theorem secretSent_facts : start.trx.isNone = true ∧ signedIn.trx.isNone = true ∧
    signedIn.freeTier.isSome = true ∧
    linkSent.outbox = start.outbox ++
      [(.verification ann.email ann.fullName (sentSecret linkSent), .accepted)] ∧
    resetLinkSent.outbox = signedIn.outbox ++
      [(.passwordReset ann.email ann.fullName (sentSecret resetLinkSent), .accepted)] ∧
    newAddressSent.outbox = signedIn.outbox ++
      [(.emailChangeCode "new@mail" ann.fullName (sentSecret newAddressSent), .accepted)] := by
  decide +kernel

set_option maxRecDepth 10000 in
theorem loginBegun_facts : (loginBegun linkSent).2.env = start.env ∧
    (loginBegun resetLinkSent).2.env = start.env ∧ (loginBegun newAddressSent).2.env = start.env ∧
    newAddressSent.db.users.map User.id = ["u1"] ∧
    ((authMiddleware packages (some accessToken.text)).run
      (loginBegun newAddressSent).2).1.toOption.map User.id = some "u1" ∧
    (loginBegun newAddressSent).2.db.users.map User.email = [ann.email] := by
  decide +kernel

end Sample

/-- The link of the signup, while a login is under way. -/
theorem verification_link_works_login : ∃ w'',
    (handle Sample.packages (.verifyEmail (Sample.sentSecret Sample.linkSent))).run
      (Sample.loginBegun Sample.linkSent).2 = (.ok .success, w'') ∧
    ∃ u' ∈ w''.db.users, u'.emailVerified = true := by
  obtain ⟨htrx, -, -, hmail, -⟩ := Sample.secretSent_facts
  obtain ⟨henv, -⟩ := Sample.loginBegun_facts
  obtain ⟨u, -, -, -, hworks⟩ := verification_link_works (Option.isNone_iff_eq_none.mp htrx)
    (Async.exec_run (handle Sample.packages (.signup Sample.ann)) Sample.start) hmail
  obtain ⟨w'', hrun, u', hu', -, hdone⟩ := hworks Sample.onlyLogin _ _
    (Sample.steps_loginBegun Sample.linkSent) (Sample.secretLeft_onlyLogin u.id)
    (by rw [henv]; decide)
  exact ⟨w'', hrun, u', hu', hdone⟩

/-- The reset link, while a login with the old password is under way. -/
theorem reset_link_works_login : ∃ w'', (handle Sample.packages
      (.resetPassword (Sample.sentSecret Sample.resetLinkSent) Sample.newPassword)).run
      (Sample.loginBegun Sample.resetLinkSent).2 = (.ok .success, w'') ∧
    ∃ u' ∈ w''.db.users, Sample.packages.isEmail u'.email = true → ∃ tokens,
      ((handle Sample.packages (.login ⟨u'.email, Sample.newPassword⟩)).run w'').1 =
        .ok (.tokens tokens) := by
  obtain ⟨-, htrx, hfree, -, hmail, -⟩ := Sample.secretSent_facts
  obtain ⟨-, henv, -⟩ := Sample.loginBegun_facts
  obtain ⟨u, -, -, hworks⟩ := reset_link_works (Option.isNone_iff_eq_none.mp htrx)
    (Option.isSome_iff_ne_none.mp hfree)
    (Async.exec_run (handle Sample.packages (.forgotPassword Sample.ann.email)) Sample.signedIn)
    hmail
  obtain ⟨w'', hrun, u', hu', -, hlogin⟩ := hworks Sample.onlyLogin _ _ Sample.newPassword
    (Sample.steps_loginBegun Sample.resetLinkSent) (by rw [henv]; decide) (by decide)
    (by rw [henv]; decide) (by rw [henv]; decide)
  exact ⟨w'', hrun, u', hu', fun hemail => ⟨_, hlogin hemail⟩⟩

/-- The code, while a login is under way. -/
theorem mailed_code_works_login :
    (∃ profile, Sample.codeEntered.1 = .ok (.profile (some profile))) ∧
      ∃ u' ∈ Sample.codeEntered.2.db.users, u'.email = "new@mail" := by
  obtain ⟨-, htrx, -, -, -, hmail⟩ := Sample.secretSent_facts
  obtain ⟨-, -, henv, hids, hauth, hemails⟩ := Sample.loginBegun_facts
  obtain ⟨u, hu, -, hworks⟩ := mailed_code_works (Option.isNone_iff_eq_none.mp htrx)
    (Async.exec_run (handle Sample.packages (.requestEmailChange (some Sample.accessToken.text)
      "new@mail")) Sample.signedIn) hmail (by decide)
  have hid : u.id = "u1" := by
    have hmem : u.id ∈ Sample.newAddressSent.db.users.map User.id := List.mem_map_of_mem hu
    rw [hids] at hmem
    exact List.mem_singleton.mp hmem
  obtain ⟨x, hx, hxid⟩ := Option.map_eq_some_iff.mp hauth
  have hfree : ¬ Blocked (Sample.loginBegun Sample.newAddressSent).2 u.id "new@mail" := by
    rintro (⟨y, hy, -, he⟩ | hlen)
    · have hmem : y.email ∈ (Sample.loginBegun Sample.newAddressSent).2.db.users.map User.email :=
        List.mem_map_of_mem hy
      rw [hemails, he] at hmem
      exact absurd (List.mem_singleton.mp hmem) (by decide)
    · exact absurd hlen (by decide)
  obtain ⟨hreply, u', hu', -, hemail, -⟩ := hworks Sample.onlyLogin _ _
    (Sample.steps_loginBegun Sample.newAddressSent) (Sample.secretLeft_onlyLogin u.id)
    (by rw [henv]; decide) _ x _ _ (authenticates_of_run hx) (hxid.trans hid.symm) hfree
    (Async.exec_run (handle Sample.packages (.verifyEmailChange (some Sample.accessToken.text)
      (Sample.sentSecret Sample.newAddressSent))) (Sample.loginBegun Sample.newAddressSent).2)
  exact ⟨hreply, u', hu', hemail⟩

end CodebaseTrpc
