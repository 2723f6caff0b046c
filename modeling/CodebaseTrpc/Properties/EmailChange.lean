import CodebaseTrpc.Spec.Frames

/-! Changing an email with a code. The check of the code is started and not awaited, so a wrong
code changes the email unless the change itself is refused. -/
namespace CodebaseTrpc
variable {P : Packages} {w w' : World}

/-- A pending change with attempts left, its token signed by the deployment. -/
structure PendingCode (P : Packages) (w : World) (u : User) (token : String) (t : Token) : Prop
    extends PendingChange P w u token t where
  signed : ∃ input expiresIn at', t = stamp input expiresIn at'
  attemptsLeft : ∃ n, t.attempts = some n ∧ n < maxVerificationAttempts

/-- The call rejects, and once all it started has completed the user is as before, but for one
more attempt on the stored token. -/
def CountsOnly (P : Packages) (w : World) (u : User) (t : Token) (code : String) : Prop :=
  ∀ r w', (verifyEmailChange P u.id code).Exec w r w' → (∃ e, r = .error e) ∧
    ∃ u', Rows.lookup User.id u.id w'.db.users = some u' ∧ u'.email = u.email ∧
      u'.googleId = u.googleId ∧ u'.emailVerified = u.emailVerified ∧
      ∃ token' t', u'.emailVerificationToken = some token' ∧ P.jwt.decode token' = some t' ∧
        t'.code = t.code ∧ t'.newEmail = t.newEmail ∧ t'.attempts = t.attempts.map (· + 1)

/-- The token names an address, and the address cannot be taken. -/
def Refusable (w : World) (u : User) (t : Token) : Prop :=
  ∃ newEmail, Ready t newEmail ∧ Blocked w u.id newEmail

theorem stamp_iat (input : Token) (expiresIn now : ℕ) :
    ∃ iat, (stamp input expiresIn now).iat = some iat := ⟨_, rfl⟩

/-- The effect of a wrong code where nothing but the check gets through. -/
theorem countsOnly_of_refusable {u : User} {token code : String} {t : Token}
    (hu : u ∈ w.db.users) (hp : PendingCode P w u token t) (hcode : t.code ≠ some code)
    (h : Refusable w u t) : CountsOnly P w u t code := by
  intro r w' hx
  obtain ⟨newEmail, hready, hb⟩ := h
  have hlook := lookup_of_mem hu
  rw [exec_verifyEmailChange_of_pending hlook hp.toPendingChange,
    checkedChange_of_ready hready] at hx
  obtain ⟨he, hw⟩ := exec_spawn_blocked hb hx
  obtain ⟨iat, hiat⟩ : ∃ iat, t.iat = some iat := by
    obtain ⟨input, expiresIn, at', rfl⟩ := hp.signed
    exact stamp_iat ..
  obtain ⟨e, hrun⟩ := run_verifyEmailChangeCode_wrong (P := P) hlook hp.purpose hcode hiat
  rw [hrun] at hw
  refine ⟨he, (storePending (P.jwt.sign (attemptPayload t iat w.env.now))).apply w.env.now u, ?_,
    rfl, rfl, rfl, _, _, rfl, P.jwt.decode_sign _, rfl, rfl, rfl⟩
  rw [hw, countAttempt_users, Rows.lookup_update_self fun _ => UserUpdates.apply_id .., hlook]
  rfl

/-- Where the change is not refused there is a schedule that completes it. -/
theorem exec_wrong_code_unblocked {u : User} {token code newEmail : String} {t : Token} {iat : ℕ}
    (hu : u ∈ w.db.users) (hp : PendingChange P w u token t) (hcode : t.code ≠ some code)
    (hiat : t.iat = some iat) (hready : Ready t newEmail) (hb : ¬ Blocked w u.id newEmail) :
    ∃ profile w', (verifyEmailChange P u.id code).Exec w (.ok profile) w' := by
  have hlook := lookup_of_mem hu
  obtain ⟨e, hrun⟩ := run_verifyEmailChangeCode_wrong (P := P) hlook hp.purpose hcode hiat
  -- the check runs first, and leaves the address as free as it was
  obtain ⟨u₁, hu₁⟩ : ∃ u₁, Rows.lookup User.id u.id (w.countAttempt P u.id t iat).db.users =
      some u₁ := by
    rw [countAttempt_users, Rows.lookup_update_self fun _ => UserUpdates.apply_id .., hlook]
    exact ⟨_, rfl⟩
  have hid := Rows.lookup_key hu₁
  have hb₁ : ¬ Blocked (w.countAttempt P u.id t iat) u₁.id newEmail := by
    rw [hid]
    rintro (⟨v, hv, hne, he⟩ | hlen)
    · rw [countAttempt_users] at hv
      rcases Rows.mem_update.mp hv with ⟨y, -, hk, rfl⟩ | ⟨hv, -⟩
      · exact hne hk
      · exact hb (.inl ⟨v, hv, hne, he⟩)
    · exact hb (.inr hlen)
  obtain ⟨profile, hok⟩ := run_applyEmailChange (Rows.lookup_mem hu₁) hb₁
  rw [hid] at hok
  refine ⟨profile, (w.countAttempt P u.id t iat).exec (updateUser u.id (changeEmail newEmail)),
    (exec_verifyEmailChange_of_pending hlook hp).mpr ?_⟩
  rw [checkedChange_of_ready hready]
  refine Async.exec_of_run (p := .spawn _ _) ?_
  rw [Async.run, hrun]
  exact hok

theorem countsOnly_iff {u : User} {token code : String} {t : Token} (hu : u ∈ w.db.users)
    (hp : PendingCode P w u token t) (hcode : t.code ≠ some code) :
    CountsOnly P w u t code ↔ Refusable w u t := by
  refine ⟨fun h => ?_, countsOnly_of_refusable hu hp hcode⟩
  obtain ⟨input, expiresIn, at', hsigned⟩ := hp.signed
  obtain ⟨iat, hiat⟩ : ∃ iat, t.iat = some iat := hsigned ▸ stamp_iat ..
  by_cases hready : ∃ newEmail, Ready t newEmail
  · obtain ⟨newEmail, hready⟩ := hready
    refine ⟨newEmail, hready, ?_⟩
    by_contra hb
    obtain ⟨profile, w', hx⟩ := exec_wrong_code_unblocked hu hp.toPendingChange hcode hiat hready hb
    obtain ⟨⟨e, he⟩, -⟩ := h _ _ hx
    cases he
  · -- incomplete data: the call rejects and counts nothing
    have hlook := lookup_of_mem hu
    have hx := Async.exec_run (verifyEmailChange P u.id code) w
    obtain ⟨-, hw⟩ := exec_checkedChange_of_not_ready hready
      ((exec_verifyEmailChange_of_pending hlook hp.toPendingChange).mp hx)
    obtain ⟨-, u', hu', -, -, -, token', t', hst, hdec, -, -, hat⟩ := h _ _ hx
    rw [hw, hlook] at hu'
    cases hu'
    rw [hp.stored] at hst
    cases hst
    rw [hp.opens.2.2] at hdec
    cases hdec
    obtain ⟨n, hn, -⟩ := hp.attemptsLeft
    rw [hn] at hat
    simp at hat

/-- In this exchange a wrong code meets a refused change. -/
def OnlyRight (P : Packages) (x : Exchange) : Prop :=
  ∀ auth code u token t newEmail, x.request = .verifyEmailChange auth code →
    Authenticates P x.before auth u → PendingChange P x.before u token t → Ready t newEmail →
    t.code ≠ some code → Blocked x.before u.id newEmail

/-- An email that `verifyEmailChange` changed was changed with the code of the token stored for
that user, to the address of that token. -/
def ChangesByCode (P : Packages) (x : Exchange) : Prop :=
  ∀ auth code, x.request = .verifyEmailChange auth code → ∀ u ∈ x.before.db.users,
    ∀ u' ∈ x.after.db.users, u'.id = u.id → u'.email ≠ u.email →
      ∃ token t, u.emailVerificationToken = some token ∧ P.jwt.decode token = some t ∧
        t.code = some code ∧ t.newEmail = some u'.email

/-- An update that keeps the email of the rows changes no email. -/
theorem email_of_update {id : String} {f : User → User} {u u' : User}
    (hu : u ∈ w.db.users) (hu' : u' ∈ Rows.update User.id id f w.db.users) (hid : u'.id = u.id)
    (hf : ∀ v, (f v).id = v.id ∧ (f v).email = v.email) : u'.email = u.email := by
  rcases Rows.mem_update.mp hu' with ⟨y, hy, -, rfl⟩ | ⟨hy, -⟩
  · rw [(hf y).2, Db.user_eq hy hu ((hf y).1.symm.trans hid)]
  · rw [Db.user_eq hy hu hid]

theorem changesByCode_of_effect {x : Exchange} (h : OnlyRight P x)
    (heff : Effect P x.before x.request x.reply x.after) : ChangesByCode P x := by
  obtain ⟨before, request, reply, after⟩ := x
  rintro auth code rfl u hu u' hu' hid hne
  dsimp only at hu hu' heff
  have hsame : ∀ v ∈ before.db.users, v.id = u.id → v = u := fun v hv hk =>
    Db.user_eq hv hu hk
  cases heff with
  | none => exact absurd (congrArg User.email (hsame u' hu' hid)) hne
  | @emailChanged _ _ token newEmail v t _ hauth hp hcode hready hfree hrow =>
    rw [hrow] at hu'
    rcases Rows.mem_update.mp hu' with ⟨y, hy, hk, rfl⟩ | ⟨hy, -⟩
    · obtain rfl := hsame y hy hid
      obtain rfl := Db.user_eq hu hauth.mem hk
      exact ⟨token, t, hp.stored, hp.opens.2.2, hcode, hready.hasEmail⟩
    · exact absurd (congrArg User.email (hsame u' hy hid)) hne
  | @codeWrong _ _ token newEmail v t _ _ hauth hp hcode hready hdrift hblocked =>
    obtain ⟨-, rfl | ⟨iat, -, rfl⟩⟩ := hblocked (h auth code v token t newEmail rfl hauth hp
      hready hcode)
    · exact absurd (congrArg User.email (hsame u' hu' hid)) hne
    · rw [countAttempt_users] at hu'
      exact absurd (email_of_update hu hu' hid fun v => ⟨rfl, rfl⟩) hne

/-- A wrong code only counts exactly where the change it does not wait for is refused; and in a
run whose wrong codes all meet a refused change, emails change by code only. -/
theorem wrong_code_counts_iff (P : Packages) :
    (∀ (w : World) (u : User) (token code : String) (t : Token), u ∈ w.db.users →
      PendingCode P w u token t → t.code ≠ some code →
        (CountsOnly P w u t code ↔ Refusable w u t)) ∧
    ∀ (w₀ w : World) (tr : List Entry), w₀.trx = none →
      RunWhere P (fun _ x => OnlyRight P x) w₀ tr w →
        ∀ x, Entry.call x ∈ tr → ChangesByCode P x := by
  refine ⟨fun w u token code t hu hp hcode => countsOnly_iff hu hp hcode, ?_⟩
  intro w₀ w tr h₀ hrun x hx
  obtain ⟨tr', s, v, hrun', ⟨hserves, hC⟩, -⟩ := Trace.Run.of_mem hrun hx
  cases hserves with
  | call hexec =>
    exact changesByCode_of_effect (x := ⟨s, _, _, v⟩) (hC _ rfl)
      (effect_of_exec (RunWhere.trx hrun' h₀) hexec)

namespace Sample

def codeMoves : List Move :=
  [.ask (.signup ann), .ask (.login annLogin),
    .ask (.requestEmailChange (some accessToken.text) "new@mail")]

/-- A code is on its way to the new address. -/
def codeMailed : World := play packages start codeMoves

def annRow : User := codeMailed.db.users.headD default
def pendingToken : String := annRow.emailVerificationToken.getD ""
def pendingPayload : Token := (decode pendingToken).getD default

set_option maxRecDepth 10000 in
theorem codeMailed_facts : annRow ∈ codeMailed.db.users ∧
    annRow.emailVerificationToken = some pendingToken ∧ pendingToken ≠ "" ∧
    Live packages pendingToken codeMailed.env.now ∧ decode pendingToken = some pendingPayload ∧
    pendingPayload = changePayload "u1" "new@mail" "123456" env.now := by decide +kernel

theorem pendingCode : PendingCode packages codeMailed annRow pendingToken pendingPayload := by
  obtain ⟨-, hstored, hne, hlive, hdec, hpay⟩ := codeMailed_facts
  exact
    { stored := hstored
      opens := ⟨hne, hlive, hdec⟩
      purpose := by rw [hpay]; rfl
      signed := ⟨_, _, _, hpay⟩
      attemptsLeft := ⟨0, by rw [hpay]; rfl, by decide⟩ }

theorem code_ne : pendingPayload.code ≠ some "000000" := by
  rw [codeMailed_facts.2.2.2.2.2]
  decide

/-- She enters the code that was mailed. -/
def rightCode : Request := .verifyEmailChange (some accessToken.text) "123456"

def entered : Exchange := ⟨codeMailed, rightCode, ((handle packages rightCode).run codeMailed).1,
  ((handle packages rightCode).run codeMailed).2⟩

set_option maxRecDepth 10000 in
theorem entered_facts : codeMailed.db.users = [annRow] ∧ annRow.email = "ann@mail" ∧
    entered.after.db.users.map (fun u => (u.id, u.email)) = [(annRow.id, "new@mail")] := by
  decide +kernel

theorem onlyRight_entered : OnlyRight packages entered := by
  rintro auth code u token t newEmail ⟨⟩ hauth hp - hcode
  obtain ⟨-, hstored, -, -, hdec, hpay⟩ := codeMailed_facts
  have hu : u ∈ codeMailed.db.users := hauth.mem
  rw [entered_facts.1] at hu
  obtain rfl := List.mem_singleton.mp hu
  obtain rfl := Option.some.inj (hstored.symm.trans hp.stored)
  obtain rfl := Option.some.inj (hdec.symm.trans hp.opens.2.2)
  exact absurd (congrArg Token.code hpay) hcode

end Sample

/-- A wrong code at a pending change, and a run in which the right one changes the email. -/
theorem wrong_code_counts_iff_pending :
    (CountsOnly Sample.packages Sample.codeMailed Sample.annRow Sample.pendingPayload "000000" ↔
      Refusable Sample.codeMailed Sample.annRow Sample.pendingPayload) ∧
    ∃ token t, Sample.annRow.emailVerificationToken = some token ∧
      Sample.decode token = some t ∧ t.code = some "123456" ∧ t.newEmail = some "new@mail" := by
  refine ⟨(wrong_code_counts_iff Sample.packages).1 _ _ _ _ _ Sample.codeMailed_facts.1
    Sample.pendingCode Sample.code_ne, ?_⟩
  have hmailed : RunWhere Sample.packages (fun _ x => OnlyRight Sample.packages x) Sample.start
      (playFrom Sample.packages [] Sample.start Sample.codeMoves).1 Sample.codeMailed := by
    refine runWhere_play _ _ _ _ fun request hr tr v r v' => ?_
    rintro auth code u token t newEmail rfl
    simp [Sample.codeMoves] at hr
  have hentered : RunWhere Sample.packages (fun _ x => OnlyRight Sample.packages x) Sample.start
      (.call Sample.entered :: _) Sample.entered.after :=
    .step hmailed ⟨.call (Async.exec_run ..), by rintro x ⟨⟩; exact Sample.onlyRight_entered⟩
  have hchanges := (wrong_code_counts_iff Sample.packages).2 _ _ _ rfl hentered Sample.entered
    List.mem_cons_self
  obtain ⟨-, hold, hnew⟩ := Sample.entered_facts
  obtain ⟨u', hu', hrow⟩ := List.mem_map.mp (hnew ▸ List.mem_singleton_self _)
  obtain ⟨hid, hemail⟩ := Prod.mk.inj hrow
  obtain ⟨token, t, hstored, hdec, hcode, hto⟩ := hchanges _ _ rfl Sample.annRow
    Sample.codeMailed_facts.1 u' hu' hid (by rw [hemail, hold]; decide)
  exact ⟨token, t, hstored, hdec, hcode, hto.trans (congrArg some hemail)⟩

set_option maxRecDepth 10000 in
/-- A wrong code changes the email. -/
theorem wrong_code_changes_email : ¬ ∀ (w : World) (u : User) (token code : String) (t : Token),
    u ∈ w.db.users → PendingCode Sample.packages w u token t → t.code ≠ some code →
      CountsOnly Sample.packages w u t code := by
  intro h
  obtain ⟨⟨e, he⟩, -⟩ := h _ _ _ _ _ Sample.codeMailed_facts.1 Sample.pendingCode Sample.code_ne _ _
    (Async.exec_run _ _)
  have hok : ((verifyEmailChange Sample.packages Sample.annRow.id "000000").run
      Sample.codeMailed).1.isOk = true := by decide +kernel
  rw [he] at hok
  cases hok

end CodebaseTrpc
