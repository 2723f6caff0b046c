import CodebaseTrpc.Properties.EmailChange
import CodebaseTrpc.Spec.Frames

/-! The cool-down between two codes for one user. It is computed and not enforced, so it holds
where the calls made too early are refused for another reason. -/
namespace CodebaseTrpc
variable {P : Packages} {w w' : World} {userId : String}

/-- The stored token is valid and was issued less than the cool-down ago. -/
def CodeFresh (P : Packages) (w : World) (u : User) : Prop :=
  ∃ token t iat, u.emailVerificationToken = some token ∧ opens P token w.env.now t ∧
    t.iat = some iat ∧ w.env.now < iat * millisecondsPerSecond + emailChangeCooldownMs

/-- The exchange calls `requestEmailChange` for the user. -/
def AsksChange (P : Packages) (x : Exchange) (u : User) (newEmail : String) : Prop :=
  ∃ auth, x.request = .requestEmailChange auth newEmail ∧ P.isEmail newEmail = true ∧
    Authenticates P x.before auth u

/-- A call within the cool-down rejects, mails nothing and leaves the row of the user. -/
def KeepsCooldown (P : Packages) (x : Exchange) : Prop :=
  ∀ u newEmail, AsksChange P x u newEmail → CodeFresh P x.before u →
    (∃ e, x.reply = .error e) ∧ x.after.outbox = x.before.outbox ∧ u ∈ x.after.db.users

/-- A call within the cool-down asks for an address that a user has. -/
def EarlyTaken (P : Packages) (x : Exchange) : Prop :=
  ∀ u newEmail, AsksChange P x u newEmail → CodeFresh P x.before u →
    ∃ v ∈ x.before.db.users, v.email = newEmail

/-- The call mails a code to the user. -/
def MailsCode (P : Packages) (userId : String) (x : Exchange) : Prop :=
  ∃ u newEmail fullName code reply, AsksChange P x u newEmail ∧ u.id = userId ∧
    x.after.outbox = x.before.outbox ++ [(.emailChangeCode newEmail fullName code, reply)]

/-- Two codes for one user, without an email change in between, are a cool-down apart, up to the
second that `iat` is rounded to. -/
def CodesSpaced (P : Packages) (tr : List Entry) : Prop :=
  ∀ userId x y pre mid post, tr = post ++ .call y :: (mid ++ .call x :: pre) →
    MailsCode P userId x → MailsCode P userId y →
      (∀ z, .call z ∈ mid → ¬ CompletesChange P userId z) →
        x.before.env.now + emailChangeCooldownMs < y.before.env.now + millisecondsPerSecond

theorem exec_requestEmailChange {x : Exchange} {u : User} {newEmail : String}
    (h : AsksChange P x u newEmail) (hx : (handle P x.request).Exec x.before x.reply x.after) :
    ((requestEmailChange P u.id newEmail).bind fun _ => .pure Reply.success).run x.before =
      (x.reply, x.after) := by
  obtain ⟨auth, hreq, hemail, hauth⟩ := h
  rw [hreq] at hx
  replace hx := (Async.exec_iff_run (awaits_handle P fun _ _ h => by cases h)).mp hx
  rw [handle, Async.bind_eq, Async.run_bind_ok (run_authMiddleware_ok hauth)] at hx
  simpa [validated, hemail] using hx

theorem keepsCooldown_iff {x : Exchange}
    (hx : (handle P x.request).Exec x.before x.reply x.after) :
    KeepsCooldown P x ↔ EarlyTaken P x := by
  refine forall₂_congr fun u newEmail => forall₂_congr fun hasks _ => ?_
  have hrun := exec_requestEmailChange hasks hx
  obtain ⟨auth, -, -, hauth⟩ := hasks
  by_cases hfree : ∀ v ∈ x.before.db.users, v.email ≠ newEmail
  · -- the code is mailed
    have hafter : x.after = x.before.issueCode P u newEmail := by
      rw [Async.run_bind, run_requestEmailChange hauth.mem hfree] at hrun
      cases hd : x.before.delivery "Failed to send verification code" <;> rw [hd] at hrun <;>
        exact (Prod.mk.inj hrun).2.symm
    rw [hafter, issueCode_outbox]
    simpa using hfree
  · -- the call is refused
    push Not at hfree
    simp only [hfree, iff_true]
    obtain ⟨v, hv, he⟩ := hfree
    rcases run_service_cases run_requestEmailChange_cases hrun with
      ⟨herror, hafter⟩ | ⟨_, ⟨_, -, -, hnone, -⟩, -⟩
    · rw [hafter]
      exact ⟨herror, rfl, hauth.mem⟩
    · exact absurd he (Rows.lookup_eq_none.mp hnone v hv)

/-- A token issued in or after the second `start`, and good for a quarter of an hour from then
but for a minute for each wrong code. -/
def HeldCode (P : Packages) (start : ℕ) (stored : Option String) : Prop :=
  ∃ t iat exp, stored = some (P.jwt.sign t) ∧ t.iat = some iat ∧ t.exp = some exp ∧
    start ≤ iat ∧ iat + 900 ≤ exp + 60 * t.attempts.getD 0 ∧
      t.attempts.getD 0 ≤ maxVerificationAttempts

section Step
variable {start : ℕ}

/-- A signed token counts from its own `iat` or from the clock. -/
theorem stamp_times (input : Token) (seconds now : ℕ) :
    ∃ iat, (stamp input seconds now).iat = some iat ∧
      (stamp input seconds now).exp = some (iat + seconds) ∧
        (input.iat = some iat ∨ iat = now / millisecondsPerSecond) := by
  cases hiat : input.iat with
  | none => exact ⟨_, by simp [stamp, hiat], by simp [stamp, hiat], .inr rfl⟩
  | some n =>
    cases n with
    | zero => exact ⟨_, by simp [stamp, hiat], by simp [stamp, hiat], .inr rfl⟩
    | succ n => exact ⟨n + 1, by simp [stamp, hiat], by simp [stamp, hiat], .inl rfl⟩

theorem heldCode_stamp {input : Token} {seconds now : ℕ}
    (hiat : ∀ iat, input.iat = some iat → iat = now / millisecondsPerSecond)
    (hattempts : input.attempts.getD 0 = 0) (hstart : start ≤ now / millisecondsPerSecond)
    (hlong : 900 ≤ seconds) : HeldCode P start (some (P.jwt.sign (stamp input seconds now))) := by
  obtain ⟨iat, hstamp, hexp, hfrom⟩ := stamp_times input seconds now
  obtain rfl : iat = now / millisecondsPerSecond := hfrom.elim (hiat iat) id
  have hzero : (stamp input seconds now).attempts.getD 0 = 0 := hattempts
  exact ⟨_, _, _, rfl, hstamp, hexp, hstart, by omega, by omega⟩

theorem heldCode_attempt {t : Token} {iat now n : ℕ} {token : String}
    (hheld : HeldCode P start (some token)) (hopens : opens P token now t)
    (hiat : t.iat = some iat) (hn : t.attempts = some n) (hmax : n < maxVerificationAttempts)
    (hstart : start ≤ now / millisecondsPerSecond)
    (hminute : now / millisecondsPerSecond < start + 60) :
    HeldCode P start (some (P.jwt.sign (attemptPayload t iat now))) := by
  obtain ⟨t', iat', exp, htoken, hiat', hexp, hfrom, hlong, -⟩ := hheld
  obtain rfl := Option.some.inj htoken
  obtain ⟨-, -, hdecode⟩ := hopens
  obtain rfl := Option.some.inj ((P.jwt.decode_sign t').symm.trans hdecode)
  obtain rfl := Option.some.inj (hiat.symm.trans hiat')
  rw [hn, Option.getD_some] at hlong
  -- a wrong code takes the time since the issue off, which is less than a minute
  have hseconds : exp ≤ attemptSeconds t' now + now / millisecondsPerSecond := by
    rw [attemptSeconds, hexp]
    cases exp <;> dsimp only <;> omega
  obtain ⟨iat₁, hstamp, hexp₁, hfrom₁⟩ :=
    stamp_times (attemptInput t' iat) (attemptSeconds t' now) now
  have hattempts : (attemptPayload t' iat now).attempts.getD 0 = n + 1 := by
    simp [attemptPayload, stamp, attemptInput, hn]
  refine ⟨_, _, _, rfl, hstamp, hexp₁, ?_, ?_, ?_⟩
  · rcases hfrom₁ with h | h
    · obtain rfl : iat = iat₁ := Option.some.inj h
      exact hfrom
    · rwa [h]
  · rw [hattempts]
    omega
  · rw [hattempts]
    omega

/-- The stored token of the user is from the second `start` or later, or that second is a minute
ago. -/
def CodeHeld (P : Packages) (userId : String) (start : ℕ) (w : World) : Prop :=
  start ≤ w.env.now / millisecondsPerSecond ∧
    (start + 60 ≤ w.env.now / millisecondsPerSecond ∨
      ∃ u ∈ w.db.users, u.id = userId ∧ HeldCode P start u.emailVerificationToken)

/-- The row of the user under a change within the minute. -/
def KeepsOwnCode (P : Packages) (userId : String) (start : ℕ) (u u' : User) : Prop :=
  u'.id = u.id ∧ (u.id = userId → HeldCode P start u.emailVerificationToken →
    HeldCode P start u'.emailVerificationToken)

theorem KeepsOwnCode.refl (u : User) : KeepsOwnCode P userId start u u := ⟨rfl, fun _ h => h⟩

theorem KeepsOwnCode.trans {u v x : User} (h : KeepsOwnCode P userId start u v)
    (h' : KeepsOwnCode P userId start v x) : KeepsOwnCode P userId start u x :=
  ⟨h'.1.trans h.1, fun hid hheld => h'.2 (h.1.trans hid) (h.2 hid hheld)⟩

theorem keepsOwnCode_apply {updates : UserUpdates}
    (h : updates.emailVerificationToken = .undefined) (now : ℕ) (u : User) :
    KeepsOwnCode P userId start u (updates.apply now u) :=
  ⟨rfl, fun _ hheld => by simpa [h] using hheld⟩

theorem keepsOwnCode_storePending {token : String} (h : HeldCode P start (some token)) (now : ℕ)
    (u : User) : KeepsOwnCode P userId start u ((storePending token).apply now u) :=
  ⟨rfl, fun _ _ => h⟩

theorem CodeHeld.of_rows {N : User → Prop} (h : CodeHeld P userId start w) (henv : w'.env = w.env)
    (hrows : w.env.now / millisecondsPerSecond < start + 60 →
      Rows.Evolved (KeepsOwnCode P userId start) N w.db.users w'.db.users) :
    CodeHeld P userId start w' := by
  obtain ⟨hstart, hheld⟩ := h
  refine ⟨henv ▸ hstart, ?_⟩
  rw [henv]
  rcases Nat.lt_or_ge (w.env.now / millisecondsPerSecond) (start + 60) with hminute | hpast
  · rcases hheld with hpast | ⟨u, hu, hid, hheld⟩
    · exact .inl hpast
    obtain ⟨u', hu', hkeeps⟩ := (hrows hminute).exists_new hu
    exact .inr ⟨u', hu', hkeeps.1.trans hid, hkeeps.2 hid hheld⟩
  · exact .inl hpast

theorem keepsOwnCode_openSession (id : String) : List.Forall₂ (KeepsOwnCode P userId start)
    w.db.users (w.openSession P id).db.users :=
  rows_openSession id KeepsOwnCode.refl (fun _ _ _ => KeepsOwnCode.trans)
    (fun u _ => keepsOwnCode_apply rfl _ u) fun u _ => keepsOwnCode_apply rfl _ u

theorem keepsOwnCode_issueVerification (user : User)
    (hstart : start ≤ w.env.now / millisecondsPerSecond) :
    List.Forall₂ (KeepsOwnCode P userId start) w.db.users
      (w.issueVerification P user).db.users :=
  rows_issueVerification user KeepsOwnCode.refl fun u _ _ =>
    keepsOwnCode_storePending (heldCode_stamp (by simp) rfl hstart (by decide)) _ u

theorem keepsOwnCode_resolved {payload : TGoogleTokenPayload} {u : User}
    (h : Resolved P w payload u w') : Rows.Evolved (KeepsOwnCode P userId start) (fun _ => True)
      w.db.users w'.db.users := by
  cases h with
  | known => exact .of_forall₂ (Rows.forall₂_refl KeepsOwnCode.refl _)
  | linked =>
    exact .of_forall₂ (rows_updateUser KeepsOwnCode.refl fun v _ _ => keepsOwnCode_apply rfl _ v)
  | created _ _ _ hw =>
    rw [hw]
    exact .append KeepsOwnCode.refl trivial

/-- A wrong code for the user within the minute. -/
theorem keepsOwnCode_countAttempt {u : User} {token newEmail : String} {t : Token} {iat : ℕ}
    (hu : u ∈ w.db.users) (hp : PendingChange P w u token t) (hready : Ready t newEmail)
    (hiat : t.iat = some iat) (hstart : start ≤ w.env.now / millisecondsPerSecond)
    (hminute : w.env.now / millisecondsPerSecond < start + 60) :
    List.Forall₂ (KeepsOwnCode P userId start) w.db.users
      (w.countAttempt P u.id t iat).db.users := by
  rw [countAttempt_users]
  refine Rows.forall₂_update KeepsOwnCode.refl fun v hv hid => ⟨rfl, fun _ hheld => ?_⟩
  rw [Db.user_eq hv hu hid, hp.stored] at hheld
  obtain ⟨n, hn, hmax⟩ := hready.attemptsLeft
  exact heldCode_attempt hheld hp.opens hiat hn hmax hstart hminute

theorem keepsOwnCode_verifyEmailChange {auth : Option String} {code : String}
    {reply : Except Err Reply} (htrx : w.trx = none)
    (hx : (handle P (.verifyEmailChange auth code)).Exec w reply w')
    (hdone : ¬ CompletesChange P userId ⟨w, .verifyEmailChange auth code, reply, w'⟩)
    (hstart : start ≤ w.env.now / millisecondsPerSecond)
    (hminute : w.env.now / millisecondsPerSecond < start + 60) :
    List.Forall₂ (KeepsOwnCode P userId start) w.db.users w'.db.users := by
  refine rows_verifyEmailChange KeepsOwnCode.refl ?_ ?_ htrx hx hdone
  · exact fun u u' hid hne => ⟨hid, fun hu => absurd hu hne⟩
  · intro u token t newEmail iat hu hp hready hiat
    exact keepsOwnCode_countAttempt hu hp hready hiat hstart hminute

/-- One request within the minute, other than a completed email change of the user. -/
theorem evolved_keepsOwnCode {request : Request} {reply : Except Err Reply}
    (htrx : w.trx = none) (hx : (handle P request).Exec w reply w')
    (hdone : ¬ CompletesChange P userId ⟨w, request, reply, w'⟩)
    (hstart : start ≤ w.env.now / millisecondsPerSecond)
    (hminute : w.env.now / millisecondsPerSecond < start + 60) :
    Rows.Evolved (KeepsOwnCode P userId start) (fun _ => True) w.db.users w'.db.users := by
  have hrefl : Rows.Evolved (KeepsOwnCode P userId start) (fun _ => True) w.db.users w.db.users :=
    .of_forall₂ (Rows.forall₂_refl KeepsOwnCode.refl _)
  have hupdate : ∀ (id : String) (updates : UserUpdates),
      updates.emailVerificationToken = .undefined →
        Rows.Evolved (KeepsOwnCode P userId start) (fun _ => True) w.db.users
          (w.exec (updateUser id updates)).db.users := fun id updates h =>
    .of_forall₂ (rows_updateUser KeepsOwnCode.refl fun v _ _ => keepsOwnCode_apply h _ v)
  cases effect_of_exec htrx hx with
  | none => exact hrefl
  | google _ hres =>
    exact (keepsOwnCode_resolved hres).forall₂ (keepsOwnCode_openSession _)
      (fun _ _ _ => KeepsOwnCode.trans) fun _ _ _ _ => trivial
  | googleStopped _ hres => exact keepsOwnCode_resolved hres
  | login => exact .of_forall₂ (keepsOwnCode_openSession _)
  | refresh => exact .of_forall₂ (keepsOwnCode_openSession _)
  | signup _ hrow =>
    refine Rows.Evolved.forall₂ ?_ (keepsOwnCode_issueVerification _ (by simpa using hstart))
      (fun _ _ _ => KeepsOwnCode.trans) fun _ _ _ _ => trivial
    rw [hrow]
    exact .append KeepsOwnCode.refl trivial
  | logout => exact hupdate _ _ rfl
  | verifyEmail => exact hupdate _ _ rfl
  | resendVerificationEmail => exact .of_forall₂ (keepsOwnCode_issueVerification _ hstart)
  | forgotPassword => exact hrefl
  | resetPassword => exact hupdate _ _ rfl
  | updateUserById => exact hupdate _ _ rfl
  | requestEmailChange =>
    refine .of_forall₂ (rows_issueCode _ _ KeepsOwnCode.refl fun u _ _ =>
      keepsOwnCode_storePending (heldCode_stamp ?_ rfl hstart (by decide)) _ u)
    intro iat hiat
    exact (Option.some.inj hiat).symm
  | emailChanged => exact .of_forall₂ (keepsOwnCode_verifyEmailChange htrx hx hdone hstart hminute)
  | codeWrong => exact .of_forall₂ (keepsOwnCode_verifyEmailChange htrx hx hdone hstart hminute)
  | createCheckoutSession => exact hrefl
  | createCustomerPortalSession => exact hrefl
  | webhook hb =>
    exact .of_forall₂ (rows_billed KeepsOwnCode.refl hb fun u _ => keepsOwnCode_apply rfl _ u)

end Step

/-- A call that mails a code stores it. -/
theorem MailsCode.held {x : Exchange} (h : MailsCode P userId x)
    (hx : (handle P x.request).Exec x.before x.reply x.after) :
    CodeHeld P userId (x.before.env.now / millisecondsPerSecond) x.after := by
  obtain ⟨u, newEmail, fullName, code, reply, hasks, rfl, hout⟩ := h
  rcases run_service_cases run_requestEmailChange_cases (exec_requestEmailChange hasks hx) with
    ⟨-, hafter⟩ | ⟨_, ⟨v, hv, -, -, -, hafter⟩, -⟩
  · rw [hafter] at hout
    simp at hout
  obtain ⟨_, -, -, hauth⟩ := hasks
  obtain rfl := Option.some.inj ((lookup_of_mem hauth.mem).symm.trans hv)
  rw [hafter]
  have hmem := Rows.mem_update_self User.id ((storePending (P.jwt.sign (changePayload u.id newEmail
    (codeOf x.before.env) x.before.env.now))).apply x.before.env.now) hauth.mem
  rw [← issueCode_users] at hmem
  refine ⟨by simp, .inr ⟨_, hmem, rfl, ?_⟩⟩
  refine heldCode_stamp (fun iat hiat => ?_) rfl (Nat.le_refl _) (by decide)
  exact (Option.some.inj hiat).symm

/-- A code that is mailed while an earlier one is held was mailed a minute after it. -/
theorem MailsCode.late {x : Exchange} {start : ℕ} (h : MailsCode P userId x)
    (hx : (handle P x.request).Exec x.before x.reply x.after)
    (hheld : CodeHeld P userId start x.before) (hearly : EarlyTaken P x) :
    start + 60 ≤ x.before.env.now / millisecondsPerSecond := by
  obtain ⟨u, newEmail, fullName, code, reply, hasks, rfl, hout⟩ := h
  rcases hheld.2 with hpast | ⟨v, hv, hid, t, iat, exp, hstored, hiat, hexp, hfrom, hlong, hmax⟩
  · exact hpast
  by_contra hminute
  have hu : u ∈ x.before.db.users := by
    obtain ⟨_, -, -, hauth⟩ := hasks
    exact hauth.mem
  obtain rfl := Db.user_eq hv hu hid
  have hlive : Live P (P.jwt.sign t) x.before.env.now := by
    refine ⟨P.jwt.authentic_sign t, fun t' ht' exp' hexp' => ?_⟩
    obtain rfl : t = t' := by simpa [P.jwt.decode_sign] using ht'
    obtain rfl : exp = exp' := by simpa [hexp] using hexp'
    have hfive : maxVerificationAttempts = 5 := rfl
    omega
  have hfresh : CodeFresh P x.before v := by
    refine ⟨_, t, iat, hstored, ⟨P.jwt.sign_ne_empty t, hlive, P.jwt.decode_sign t⟩, hiat, ?_⟩
    unfold millisecondsPerSecond at *
    unfold emailChangeCooldownMs
    omega
  obtain ⟨-, hsame, -⟩ := (keepsCooldown_iff hx).mpr hearly v newEmail hasks hfresh
  rw [hsame] at hout
  simp at hout

/-- What a later entry leaves of the code. -/
theorem CodeHeld.step {entry : Entry} {start : ℕ} (h : CodeHeld P userId start w)
    (htrx : w.trx = none) (hs : Serves P w entry w')
    (hdone : ∀ z, entry = .call z → ¬ CompletesChange P userId z) :
    CodeHeld P userId start w' := by
  cases hs with
  | @idle env hle =>
    have hsec : w.env.now / millisecondsPerSecond ≤ env.now / millisecondsPerSecond :=
      Nat.div_le_div_right hle
    exact ⟨Nat.le_trans h.1 hsec, h.2.imp_left fun hpast => Nat.le_trans hpast hsec⟩
  | call hx =>
    exact h.of_rows (effect_of_exec htrx hx).env fun hminute =>
      evolved_keepsOwnCode htrx hx (hdone _ rfl) h.1 hminute

theorem codesSpaced {w₀ : World} {tr : List Entry} (h₀ : w₀.trx = none)
    (hrun : ServerRun P w₀ tr w) (hearly : ∀ x, .call x ∈ tr → EarlyTaken P x) :
    CodesSpaced P tr := by
  rintro userId x y pre mid post rfl hmx hmy hdone
  obtain ⟨_, hrest⟩ := hrun.earlier
  cases hrest with
  | @step _ s _ _ hrest hserves =>
  obtain ⟨hserves, -⟩ := hserves
  cases hserves with
  | call hy =>
  have hheld : s.trx = none ∧
      CodeHeld P userId (x.before.env.now / millisecondsPerSecond) s := by
    refine Trace.Run.since (I := fun w => w.trx = none ∧
      CodeHeld P userId (x.before.env.now / millisecondsPerSecond) w) hrest ?_ ?_
    · rintro u v hpre ⟨hserves, -⟩
      cases hserves with
      | call hx =>
        have htrx := RunWhere.trx hpre h₀
        exact ⟨(effect_of_exec htrx hx).trx.trans htrx, hmx.held hx⟩
    · rintro tr u entry v hmem ⟨htrx, hheld⟩ ⟨hserves, -⟩
      refine ⟨?_, hheld.step htrx hserves fun z hz => hdone z (hz ▸ hmem)⟩
      cases hserves with
      | idle _ => exact htrx
      | call hx => exact (effect_of_exec htrx hx).trx.trans htrx
  have hlate := hmy.late hy hheld.2 (hearly _ (by simp))
  dsimp only at hlate ⊢
  unfold millisecondsPerSecond at hlate ⊢
  unfold emailChangeCooldownMs
  omega

/-- In a run, the calls within the cool-down are refused and the codes for one user are a
cool-down apart exactly if all calls within the cool-down ask for an address that is taken. -/
theorem cooldown_kept_iff {w₀ : World} {tr : List Entry} (h₀ : w₀.trx = none)
    (hrun : ServerRun P w₀ tr w) :
    ((∀ x, .call x ∈ tr → KeepsCooldown P x) ∧ CodesSpaced P tr) ↔
      ∀ x, .call x ∈ tr → EarlyTaken P x := by
  have hiff : ∀ x, .call x ∈ tr → (KeepsCooldown P x ↔ EarlyTaken P x) := by
    intro x hx
    obtain ⟨_, _, _, -, ⟨hserves, -⟩, -⟩ := hrun.of_mem hx
    cases hserves with
    | call hserved => exact keepsCooldown_iff hserved
  constructor
  · rintro ⟨hkeeps, -⟩ x hx
    exact (hiff x hx).mp (hkeeps x hx)
  · intro hearly
    exact ⟨fun x hx => (hiff x hx).mpr (hearly x hx), codesSpaced h₀ hrun hearly⟩

namespace Sample

def codeTrace : List Entry := (playFrom packages [] start codeMoves).1

theorem serverRun_codeMailed : ServerRun packages start codeTrace codeMailed :=
  runWhere_play _ _ _ _ fun _ _ _ _ _ _ => trivial

def anotherCode : Request := .requestEmailChange (some accessToken.text) "other@mail"

/-- Ann asks for another code at once. -/
def hurried : Exchange :=
  ⟨codeMailed, anotherCode, ((handle packages anotherCode).run codeMailed).1,
    ((handle packages anotherCode).run codeMailed).2⟩

theorem serverRun_hurried : ServerRun packages start (.call hurried :: codeTrace)
    ((handle packages anotherCode).run codeMailed).2 :=
  serverRun_codeMailed.ask anotherCode

set_option maxRecDepth 10000 in
theorem hurried_facts : hurried.reply.isOk = true ∧ packages.isEmail "other@mail" = true ∧
    ((authMiddleware packages (some accessToken.text)).run codeMailed).1.toOption =
      some annRow := by decide +kernel

theorem hurried_before : hurried.before = codeMailed := by rw [hurried]

theorem asksChange_hurried : AsksChange packages hurried annRow "other@mail" := by
  refine ⟨some accessToken.text, rfl, hurried_facts.2.1, ?_⟩
  rw [hurried_before]
  exact authenticates_of_run hurried_facts.2.2

theorem codeFresh_hurried : CodeFresh packages hurried.before annRow := by
  obtain ⟨-, hstored, hne, hlive, hdecode, hpay⟩ := codeMailed_facts
  rw [hurried_before]
  exact ⟨_, _, 1700000000, hstored, ⟨hne, hlive, hdecode⟩, by rw [hpay]; rfl, by decide +kernel⟩

end Sample

/-- Two calls in the same second. -/
theorem cooldown_kept_iff_hurried :
    ((∀ x, .call x ∈ .call Sample.hurried :: Sample.codeTrace →
        KeepsCooldown Sample.packages x) ∧
      CodesSpaced Sample.packages (.call Sample.hurried :: Sample.codeTrace)) ↔
    ∀ x, .call x ∈ .call Sample.hurried :: Sample.codeTrace → EarlyTaken Sample.packages x :=
  cooldown_kept_iff Sample.start_fresh.trx Sample.serverRun_hurried

/-- A second code is mailed at once. -/
theorem cooldown_ignored : ¬ ∀ (P : Packages) (w₀ w : World) (tr : List Entry), Fresh w₀ →
    ServerRun P w₀ tr w → (∀ x, .call x ∈ tr → KeepsCooldown P x) ∧ CodesSpaced P tr := by
  intro h
  obtain ⟨hkeeps, -⟩ := h _ _ _ _ Sample.start_fresh Sample.serverRun_hurried
  obtain ⟨⟨e, he⟩, -⟩ := hkeeps _ List.mem_cons_self _ _ Sample.asksChange_hurried
    Sample.codeFresh_hurried
  have hok := Sample.hurried_facts.1
  rw [he] at hok
  cases hok

end CodebaseTrpc
