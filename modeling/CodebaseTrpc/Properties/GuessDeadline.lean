import CodebaseTrpc.Properties.EmailChange

/-! The deadline of a pending email change under wrong codes. A wrong code signs the token again:
the lifetime counts from the moment it is submitted, but it is added to the time of issue. -/
namespace CodebaseTrpc
variable {P : Packages} {userId token token' code : String} {t t' : Token} {iat deadline : ℕ}
  {w w' : World} {r : Except Err Unit}

/-- The row of the user holds the token. -/
def RowHolds (userId token : String) (w : World) : Prop :=
  ∃ u, Rows.lookup User.id userId w.db.users = some u ∧ u.emailVerificationToken = some token

/-- A wrong code: when it was submitted, and the token that was stored for it. -/
structure WrongCode where
  now : ℕ
  stored : String

/-- The token that the next code is compared with. -/
def pendingAfter (token : String) : List WrongCode → String
  | [] => token
  | c :: _ => c.stored

/-- Wrong codes that were submitted before the deadline, the last one first. Each one found stored
what the one before it had stored; between them anything may have happened. -/
inductive WrongCodes (P : Packages) (userId token : String) (deadline : ℕ) :
    List WrongCode → Prop
  | none : WrongCodes P userId token deadline []
  | submit {codes : List WrongCode} {w w' : World} {t : Token} {code token' : String}
      {r : Except Err Unit} (h : WrongCodes P userId token deadline codes)
      (hstored : RowHolds userId (pendingAfter token codes) w)
      (hdecode : P.jwt.decode (pendingAfter token codes) = some t) (hwrong : t.code ≠ some code)
      (hbefore : w.env.now / millisecondsPerSecond < deadline)
      (hrun : (verifyEmailChangeCode P userId code t).run w = (r, w'))
      (hstored' : RowHolds userId token' w') :
      WrongCodes P userId token deadline (⟨w.env.now, token'⟩ :: codes)

theorem WrongCodes.first (hstored : RowHolds userId token w)
    (hdecode : P.jwt.decode token = some t) (hwrong : t.code ≠ some code)
    (hbefore : w.env.now / millisecondsPerSecond < deadline)
    (hrun : (verifyEmailChangeCode P userId code t).run w = (r, w'))
    (hstored' : RowHolds userId token' w') :
    WrongCodes P userId token deadline [⟨w.env.now, token'⟩] :=
  .submit .none hstored hdecode hwrong hbefore hrun hstored'

/-- The token says what `t` says, and can be verified exactly until `t` expires. -/
structure KeepsDeadline (P : Packages) (t : Token) (token : String) : Prop where
  payload : ∃ t', P.jwt.decode token = some t' ∧ t'.exp = t.exp ∧ t'.iat = t.iat ∧
    t'.code = t.code ∧ t'.newEmail = t.newEmail
  verifiable : ∀ now, Live P token now ↔ ∀ exp ∈ t.exp, now / millisecondsPerSecond < exp

/-- What a wrong code stores. -/
theorem stored_of_wrong (hp : t.purpose = some .emailChange) (hiat : t.iat = some iat)
    (hstored : RowHolds userId token w) (hwrong : t.code ≠ some code)
    (hrun : (verifyEmailChangeCode P userId code t).run w = (r, w'))
    (hstored' : RowHolds userId token' w') :
    token' = P.jwt.sign (attemptPayload t iat w.env.now) := by
  obtain ⟨u, hu, -⟩ := hstored
  obtain ⟨u', hu', htoken'⟩ := hstored'
  obtain ⟨e, hwrong⟩ := run_verifyEmailChangeCode_wrong (P := P) hu hp hwrong hiat
  obtain ⟨-, rfl⟩ := Prod.mk.inj (hwrong.symm.trans hrun)
  rw [countAttempt_users, Rows.lookup_update_self fun _ => UserUpdates.apply_id .., hu] at hu'
  cases hu'
  exact (Option.some.inj htoken').symm

/-- The same token of a pending change, but for its times and its attempts. -/
structure SameChange (P : Packages) (t : Token) (token : String) (t' : Token) : Prop where
  decodes : P.jwt.decode token = some t'
  purpose : t'.purpose = some .emailChange
  code : t'.code = t.code
  newEmail : t'.newEmail = t.newEmail

/-- Signed again before the deadline, the token keeps both its times only in the second in which
it was issued. -/
theorem attemptPayload_times_iff (hiat : t.iat = some iat) (hexp : t.exp = some deadline)
    {now : ℕ} (hbefore : now / millisecondsPerSecond < deadline) :
    (attemptPayload t iat now).exp = t.exp ∧ (attemptPayload t iat now).iat = t.iat ↔
      now / millisecondsPerSecond = iat := by
  obtain ⟨n, rfl⟩ := Nat.exists_eq_succ_of_ne_zero (Nat.ne_of_gt (Nat.zero_lt_of_lt hbefore))
  have hseconds : attemptSeconds t now = max (n + 1 - now / millisecondsPerSecond) 1 := by
    simp only [attemptSeconds, hexp]
  rw [hexp, hiat, attemptPayload, hseconds]
  generalize hs : now / millisecondsPerSecond = seconds at hbefore ⊢
  cases iat with
  | zero =>
    -- an issue time of zero counts as none
    simp only [stamp, attemptInput, Option.some.injEq, hs]
    omega
  | succ m =>
    simp only [stamp, attemptInput, Option.some.injEq, and_true]
    omega

theorem sameChange_attempt (h : SameChange P t token t') (now : ℕ) :
    SameChange P t (P.jwt.sign (attemptPayload t' iat now)) (attemptPayload t' iat now) :=
  ⟨P.jwt.decode_sign _, rfl, h.code, h.newEmail⟩

/-- Every token that is stored is one of the same change, and it has a time of issue. -/
theorem WrongCodes.sameChange {codes : List WrongCode}
    (h : WrongCodes P userId token deadline codes) (h₀ : SameChange P t token t)
    (hiat : t.iat = some iat) :
    ∃ t' i, SameChange P t (pendingAfter token codes) t' ∧ t'.iat = some i := by
  induction h with
  | none => exact ⟨t, iat, h₀, hiat⟩
  | submit _ hstored hdecode hwrong _ hrun hstored' ih =>
    obtain ⟨t', i, hsame, hi⟩ := ih
    obtain rfl := Option.some.inj (hsame.decodes.symm.trans hdecode)
    obtain rfl := stored_of_wrong hsame.purpose hi hstored hwrong hrun hstored'
    exact ⟨_, _, sameChange_attempt hsame _, rfl⟩

/-- A wrong code met the token with its first times. -/
theorem keepsDeadline_attempt_iff (h : SameChange P t token t') (hiat : t.iat = some iat)
    (hexp : t.exp = some deadline) (htimes : t'.exp = t.exp ∧ t'.iat = t.iat) {now : ℕ}
    (hbefore : now / millisecondsPerSecond < deadline) :
    KeepsDeadline P t (P.jwt.sign (attemptPayload t' iat now)) ↔
      now / millisecondsPerSecond = iat := by
  rw [← attemptPayload_times_iff (htimes.2.trans hiat) (htimes.1.trans hexp) hbefore,
    htimes.1, htimes.2]
  constructor
  · rintro ⟨⟨t'', hdecode, he, hi, -, -⟩, -⟩
    obtain rfl := Option.some.inj ((P.jwt.decode_sign _).symm.trans hdecode)
    exact ⟨he, hi⟩
  · rintro ⟨he, hi⟩
    refine ⟨⟨_, P.jwt.decode_sign _, he, hi, h.code, h.newEmail⟩, fun at' => ?_⟩
    simp [Live, P.jwt.authentic_sign, P.jwt.decode_sign, he]

/-- Of wrong codes submitted before the deadline, each one leaves the deadline where it was exactly
if each one was submitted in the second in which the token was issued. -/
theorem wrong_codes_keep_deadline_iff {codes : List WrongCode}
    (hdecode : P.jwt.decode token = some t) (hp : t.purpose = some .emailChange)
    (hiat : t.iat = some iat) (hexp : t.exp = some deadline)
    (h : WrongCodes P userId token deadline codes) :
    (∀ c ∈ codes, KeepsDeadline P t c.stored) ↔
      ∀ c ∈ codes, c.now / millisecondsPerSecond = iat := by
  have h₀ : SameChange P t token t := ⟨hdecode, hp, rfl, rfl⟩
  induction h with
  | none => simp
  | @submit codes v v' t₁ code token' r h hstored hdec hwrong hbefore hrun hstored' ih =>
    rw [List.forall_mem_cons, List.forall_mem_cons]
    refine (and_congr_right' ih).trans (and_congr_left fun hearlier => ?_)
    obtain ⟨t', i, hsame, hi⟩ := h.sameChange h₀ hiat
    obtain rfl := Option.some.inj (hsame.decodes.symm.trans hdec)
    obtain rfl := stored_of_wrong hsame.purpose hi hstored hwrong hrun hstored'
    -- the token that was stored before this code has its first times still
    have htimes : t'.exp = t.exp ∧ t'.iat = t.iat := by
      cases codes with
      | nil =>
        obtain rfl := Option.some.inj (hsame.decodes.symm.trans hdecode)
        exact ⟨rfl, rfl⟩
      | cons c codes =>
        obtain ⟨⟨t'', hdec'', he, hi'', -, -⟩, -⟩ := ih.mpr hearlier c List.mem_cons_self
        obtain rfl := Option.some.inj (hsame.decodes.symm.trans hdec'')
        exact ⟨he, hi''⟩
    obtain rfl : i = iat := Option.some.inj (hi.symm.trans (htimes.2.trans hiat))
    exact keepsDeadline_attempt_iff hsame hiat hexp htimes hbefore

namespace Sample

/-- A minute after the code was mailed. -/
def minuteLater : World :=
  { codeMailed with env := envAfter 60 }

def wrongMinuteLater : Except Err Unit × World :=
  (verifyEmailChangeCode packages "u1" "000000" pendingPayload).run minuteLater

def wrongRow : User := wrongMinuteLater.2.db.users.headD default
def wrongToken : String := wrongRow.emailVerificationToken.getD ""

set_option maxRecDepth 10000 in
theorem minuteLater_facts :
    Rows.lookup User.id "u1" minuteLater.db.users = some annRow ∧
    annRow.emailVerificationToken = some pendingToken ∧
    Rows.lookup User.id "u1" wrongMinuteLater.2.db.users = some wrongRow ∧
    wrongRow.emailVerificationToken = some wrongToken ∧
    minuteLater.env.now / millisecondsPerSecond < 1700000900 ∧
    (decode wrongToken).map Token.exp = some (some 1700000840) := by decide +kernel

theorem wrongCodes_minuteLater : WrongCodes packages "u1" pendingToken 1700000900
    [⟨minuteLater.env.now, wrongToken⟩] := by
  obtain ⟨hu, ht, hu', ht', hbefore, -⟩ := minuteLater_facts
  have hrun : (verifyEmailChangeCode packages "u1" "000000" pendingPayload).run minuteLater =
      (wrongMinuteLater.1, wrongMinuteLater.2) := by
    rw [wrongMinuteLater, Prod.eta]
  exact .first ⟨_, hu, ht⟩ codeMailed_facts.2.2.2.2.1 code_ne hbefore hrun ⟨_, hu', ht'⟩

theorem pendingPayload_eq : pendingPayload = changePayload "u1" "new@mail" "123456" env.now :=
  codeMailed_facts.2.2.2.2.2

end Sample

/-- One wrong code, a minute after the token was issued. -/
theorem wrong_codes_keep_deadline_iff_minute :
    (∀ c ∈ [(⟨Sample.minuteLater.env.now, Sample.wrongToken⟩ : WrongCode)],
      KeepsDeadline Sample.packages Sample.pendingPayload c.stored) ↔
    ∀ c ∈ [(⟨Sample.minuteLater.env.now, Sample.wrongToken⟩ : WrongCode)],
      c.now / millisecondsPerSecond = 1700000000 :=
  wrong_codes_keep_deadline_iff Sample.codeMailed_facts.2.2.2.2.1
    (by rw [Sample.pendingPayload_eq]; rfl) (by rw [Sample.pendingPayload_eq]; rfl)
    (by rw [Sample.pendingPayload_eq]; rfl) Sample.wrongCodes_minuteLater

/-- A wrong code takes a minute off the deadline. -/
theorem wrong_code_moves_deadline : ¬ ∀ (P : Packages) (userId token : String) (t : Token)
    (iat deadline : ℕ) (codes : List WrongCode), P.jwt.decode token = some t →
      t.purpose = some .emailChange → t.iat = some iat → t.exp = some deadline →
        WrongCodes P userId token deadline codes → ∀ c ∈ codes, KeepsDeadline P t c.stored := by
  intro h
  have hpay := Sample.pendingPayload_eq
  obtain ⟨⟨t', hdecode, hexp, -⟩, -⟩ := h Sample.packages "u1" Sample.pendingToken
    Sample.pendingPayload 1700000000 1700000900 _ Sample.codeMailed_facts.2.2.2.2.1
    (by rw [hpay]; rfl) (by rw [hpay]; rfl) (by rw [hpay]; rfl) Sample.wrongCodes_minuteLater
    _ List.mem_cons_self
  have hshort := Sample.minuteLater_facts.2.2.2.2.2
  dsimp only at hdecode
  have hdecode : Sample.decode Sample.wrongToken = some t' := hdecode
  rw [hdecode, Option.map_some, hexp, hpay] at hshort
  cases hshort

end CodebaseTrpc
