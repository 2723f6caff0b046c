import CodebaseTrpc.Spec.Interleavings
import CodebaseTrpc.Spec.Served

/-! How often a refresh token is accepted. A refresh looks the token up, signs a new pair and
overwrites the row in separate steps; a pair signed in the same second is the same pair. -/
namespace CodebaseTrpc
open Async

/-- Calls of `refreshAccessToken` side by side, and their store. A call that is accepted ends
with the token it was made with and the pair it returned. -/
abbrev RefreshPool : Type 1 := Pool World Err (String × LoginResponse)

section Run
variable (P : Packages)

/-- `refreshAccessToken`, its token kept beside the result. -/
def refreshCall (token : String) : Promise (String × LoginResponse) :=
  (refreshAccessToken P token).map fun tokens => (token, tokens)

def RefreshCall (p : Promise (String × LoginResponse)) : Prop := ∃ token, p = refreshCall P token

/-- What comes between the steps of these calls: the surroundings move, or a request of
another kind is served. -/
inductive Meanwhile : World → World → Prop
  | surroundings {w : World} {env : Environment} (h : w.env.now ≤ env.now) :
      Meanwhile w { w with env }
  | request {w w' : World} {request : Request} {reply : Except Err Reply}
      (hreq : ∀ token, request ≠ .refresh token) (h : (handle P request).Exec w reply w') :
      Meanwhile w w'

/-- The step by which a call is accepted. -/
def Accepts (token : String) (tokens : LoginResponse) (x y : RefreshPool) : Prop :=
  ∃ (pre post : List (Call World Err (String × LoginResponse)))
    (c : Call World Err (String × LoginResponse)) (ds : List (Detached World Err)),
    x.1 = pre ++ c :: post ∧ ¬ c.main.Settled ∧
      y.1 = pre ++ ⟨.pure (token, tokens), ds⟩ :: post

/-- The second token was signed in a later second of the clock. -/
def SignedLater (token token' : String) : Prop :=
  ∃ t t' i i', P.jwt.decode token = some t ∧ P.jwt.decode token' = some t' ∧ t.iat = some i ∧
    t'.iat = some i' ∧ i < i'

/-- A call that is about to be accepted finds its token still stored, and has signed the new
one in a later second. -/
def Rotates (w : World) (token : String) (tokens : LoginResponse) : Prop :=
  (∃ u ∈ w.db.users, u.refreshToken = some token) ∧ SignedLater P token tokens.refreshToken

/-- An interleaving in which every accepted call rotates its token. -/
abbrev RotatingSteps : RefreshPool → RefreshPool → Prop :=
  Relation.ReflTransGen fun x y => Pool.Step (RefreshCall P) (Meanwhile P) x y ∧
    ∀ token tokens, Accepts token tokens x y → Rotates P x.2 token tokens

end Run

/-- No two calls of the pool were accepted with the same token. -/
def SingleUse (cs : List (Call World Err (String × LoginResponse))) : Prop :=
  cs.Pairwise fun c c' => ∀ token tokens tokens', c.main = .pure (token, tokens) →
    c'.main ≠ .pure (token, tokens')

section Stages
variable (P : Packages)

def storeSession (token userId : String) (tokens : LoginResponse) :
    Promise (String × LoginResponse) :=
  (updateUserById userId (storeRefresh tokens.refreshToken)).bind fun _ => .pure (token, tokens)

def signSession (token userId accessToken : String) : Promise (String × LoginResponse) :=
  (generateJwtToken P .refresh { userId } (7 * secondsPerDay)).bind fun refreshToken =>
    storeSession token userId ⟨accessToken, refreshToken⟩

def signPair (token userId : String) : Promise (String × LoginResponse) :=
  (generateJwtToken P .access { userId } secondsPerHour).bind fun accessToken =>
    signSession P token userId accessToken

/-- What comes before the signatures. -/
def settleUser (userId : String) : Promise Unit :=
  (hasExpiredSubscription userId).bind fun expired =>
    if expired then downgradeToFreeTier userId else .pure ()

def lookUp (token : String) : Promise (String × LoginResponse) :=
  (getUserByRefreshToken token).bind fun
    | none => .throw (.custom "Invalid refresh token" .unauthorized)
    | some user => (settleUser user.id).bind fun _ => signPair P token user.id

theorem startSession_eq (userId : String) : startSession P userId =
    (settleUser userId).bind fun _ => (generateTokens P userId).bind fun tokens =>
      (updateUserById userId (storeRefresh tokens.refreshToken)).bind fun _ => .pure tokens := by
  simp only [startSession, settleUser, Async.bind_eq, bind_assoc]
  congr 1
  funext expired
  cases expired <;> rfl

theorem refreshCall_eq (token : String) : refreshCall P token =
    (verifyJwtToken P token).bind fun _ => lookUp P token := by
  simp only [refreshCall, refreshAccessToken_eq, map, bind_assoc, lookUp]
  congr 1
  funext _
  congr 1
  funext user
  cases user with
  | none => rfl
  | some user =>
    simp only [startSession_eq, bind_assoc]
    rfl

end Stages

/-- A step that leaves sessions and surroundings as they were. -/
structure Apart (w v : World) : Prop where
  env : v.env = w.env
  trx : v.trx = w.trx
  rows : List.Forall₂ (fun u u' => u'.id = u.id ∧ u'.refreshToken = u.refreshToken)
    w.db.users v.db.users

theorem Apart.refl (w : World) : Apart w w :=
  ⟨rfl, rfl, Rows.forall₂_refl (fun _ => ⟨rfl, rfl⟩) _⟩

theorem awaits_settleUser (userId : String) : (settleUser userId).Awaits := by
  refine (awaits_hasExpiredSubscription userId).bind fun expired => ?_
  split
  · exact awaits_downgradeToFreeTier userId _
  · trivial

theorem guarantees_settleUser (userId : String) : (settleUser userId).Guarantees Apart := by
  refine Guarantees.bind ?_ fun expired => ?_
  · refine (guarantees_select Apart.refl _).bind fun billing => ?_
    cases billing with
    | none => trivial
    | some b => exact fun v => ⟨.refl v, trivial⟩
  · split
    · refine Guarantees.bind ?_ fun product => ?_
      · refine (guarantees_select Apart.refl _).bind fun row => ?_
        cases row <;> trivial
      · refine (guarantees_write fun v => ?_).bind fun _ => trivial
        exact ⟨by simp, by simp, rows_updateUser (fun _ => ⟨rfl, rfl⟩) fun _ _ _ => ⟨rfl, rfl⟩⟩
    · trivial

section Invariant
variable {P : Packages} {w v : World}

/-- The token was signed as a refresh token of the user, not later than `now`. -/
def RefreshOf (P : Packages) (userId : String) (now : ℕ) (token : String) : Prop :=
  ∃ n ≤ now, token = P.jwt.sign (refreshPayload userId n)

theorem RefreshOf.mono {userId token : String} {now now' : ℕ} (h : RefreshOf P userId now token)
    (hle : now ≤ now') : RefreshOf P userId now' token := by
  obtain ⟨n, hn, rfl⟩ := h
  exact ⟨n, Nat.le_trans hn hle, rfl⟩

/-- The text of a refresh token names its user and its second. -/
theorem refreshPayload_inj {userId userId' : String} {n m : ℕ}
    (h : P.jwt.sign (refreshPayload userId n) = P.jwt.sign (refreshPayload userId' m)) :
    userId = userId' ∧ n / millisecondsPerSecond = m / millisecondsPerSecond := by
  have hdec := P.jwt.decode_sign (refreshPayload userId n)
  rw [h, P.jwt.decode_sign] at hdec
  have hpay := Option.some.inj hdec
  exact ⟨(congrArg Token.userId hpay).symm, Option.some.inj (congrArg Token.iat hpay).symm⟩

theorem SignedLater.lt {userId userId' : String} {n m : ℕ}
    (h : SignedLater P (P.jwt.sign (refreshPayload userId n))
      (P.jwt.sign (refreshPayload userId' m))) :
    n / millisecondsPerSecond < m / millisecondsPerSecond := by
  obtain ⟨t, t', i, i', hd, hd', hi, hi', hlt⟩ := h
  rw [P.jwt.decode_sign] at hd hd'
  cases hd
  cases hd'
  cases hi
  cases hi'
  exact hlt

/-- Where a call is: what it still does before its signatures does not matter. -/
inductive Refreshing (P : Packages) (now : ℕ) : Promise (String × LoginResponse) → Prop
  | arriving (token : String) : Refreshing P now (refreshCall P token)
  | looking (token : String) : Refreshing P now (lookUp P token)
  | settling {token userId : String} {q : Promise Unit} (hτ : RefreshOf P userId now token)
      (hawaits : q.Awaits) (hq : q.Guarantees Apart) :
      Refreshing P now (q.bind fun _ => signPair P token userId)
  | signing {token userId accessToken : String} (hτ : RefreshOf P userId now token) :
      Refreshing P now (signSession P token userId accessToken)
  | storing {token userId accessToken refreshToken : String} (hτ : RefreshOf P userId now token)
      (hρ : RefreshOf P userId now refreshToken) :
      Refreshing P now (storeSession token userId ⟨accessToken, refreshToken⟩)
  | done (r : Except Err (String × LoginResponse)) : Refreshing P now (settled r)

theorem Refreshing.mono {now now' : ℕ} {p : Promise (String × LoginResponse)}
    (h : Refreshing P now p) (hle : now ≤ now') : Refreshing P now' p := by
  cases h with
  | arriving token => exact .arriving token
  | looking token => exact .looking token
  | settling hτ ha hq => exact .settling (hτ.mono hle) ha hq
  | signing hτ => exact .signing (hτ.mono hle)
  | storing hτ hρ => exact .storing (hτ.mono hle) (hρ.mono hle)
  | done r => exact .done r

/-- Each stored refresh token is one of its user, signed by now. -/
def Stored (P : Packages) (w : World) : Prop :=
  ∀ u ∈ w.db.users, ∀ token ∈ u.refreshToken, RefreshOf P u.id w.env.now token

/-- The step by which a session is stored. -/
structure Replaces (w : World) (userId token : String) (v : World) : Prop where
  env : v.env = w.env
  trx : v.trx = w.trx
  users : v.db.users = Rows.update User.id userId ((storeRefresh token).apply w.env.now) w.db.users

theorem lookUp_ne_pure {token : String} (x : String × LoginResponse) : lookUp P token ≠ .pure x :=
  nofun

theorem storeSession_ne_pure {token userId : String} {tokens : LoginResponse}
    (x : String × LoginResponse) : storeSession token userId tokens ≠ .pure x := nofun

theorem signSession_ne_pure {token userId accessToken : String} (x : String × LoginResponse) :
    signSession P token userId accessToken ≠ .pure x := nofun

theorem signPair_ne_pure {token userId : String} {q : Promise Unit}
    (x : String × LoginResponse) : (q.bind fun _ => signPair P token userId) ≠ .pure x := by
  cases q <;> exact nofun

/-- Storing a session: its user's row gets the new token, or there is no such user. -/
theorem next_storeSession {token userId : String} {tokens : LoginResponse}
    {p' : Promise (String × LoginResponse)} {born : List (Detached World Err)}
    (h : (storeSession token userId tokens).next w = some (p', born, v)) : born = [] ∧
      ((p' = .pure (token, tokens) ∧ Replaces w userId tokens.refreshToken v) ∨
        (∃ e, p' = .throw e) ∧ v = w) := by
  cases h
  refine ⟨rfl, ?_⟩
  have hexec : (w.exec (updateUser userId (storeRefresh tokens.refreshToken))).db.users =
      Rows.update User.id userId ((storeRefresh tokens.refreshToken).apply w.env.now) w.db.users :=
    exec_updateUser_users (storeRefresh_quiet tokens.refreshToken)
  simp only [World.exec, World.view, World.put] at hexec ⊢
  cases hs : updateUser userId (storeRefresh tokens.refreshToken) w w.db with
  | error e => exact .inr ⟨⟨e, rfl⟩, rfl⟩
  | ok x =>
    rw [hs] at hexec
    exact .inl ⟨rfl, rfl, rfl, hexec⟩

/-- One step of the program of a call. -/
theorem Refreshing.next {p p' : Promise (String × LoginResponse)}
    {born : List (Detached World Err)} (h : Refreshing P w.env.now p) (hw : Stored P w)
    (hn : p.next w = some (p', born, v)) : born = [] ∧ Refreshing P v.env.now p' ∧
      ((Apart w v ∧ ∀ x, p' ≠ .pure x) ∨ ∃ token userId tokens, RefreshOf P userId w.env.now token ∧
        RefreshOf P userId w.env.now tokens.refreshToken ∧
          Replaces w userId tokens.refreshToken v ∧ p' = .pure (token, tokens)) := by
  cases h with
  | arriving token =>
    rw [refreshCall_eq] at hn
    unfold verifyJwtToken at hn
    split_ifs at hn with he
    · cases hn
    · cases hn
      refine ⟨rfl, ?_, .inl ⟨.refl w, ?_⟩⟩ <;> dsimp only <;> split_ifs
      · exact .looking token
      · exact .done (.error _)
      · exact lookUp_ne_pure
      · simp
  | looking token =>
    cases hn
    refine ⟨rfl, ?_⟩
    simp only [bind_pure_left]
    cases hl : Rows.lookup User.refreshToken (some token) w.db.users with
    | none => exact ⟨.done (.error _), .inl ⟨.refl w, by simp⟩⟩
    | some user =>
      have hτ := hw user (Rows.lookup_mem hl) token (Rows.lookup_key hl)
      exact ⟨.settling hτ (awaits_settleUser user.id) (guarantees_settleUser user.id),
        .inl ⟨.refl w, signPair_ne_pure⟩⟩
  | @settling token userId q hτ ha hq =>
    rcases next_bind_cases hn with ⟨a, rfl, hn'⟩ | ⟨q', hn', rfl⟩
    · cases hn'
      exact ⟨rfl, .signing hτ, .inl ⟨⟨rfl, rfl, Rows.forall₂_refl (fun _ => ⟨rfl, rfl⟩) _⟩,
        signSession_ne_pure⟩⟩
    · obtain ⟨rfl, ha', -⟩ := ha.next hn'
      obtain ⟨hv, hq', -⟩ := hq.next hn'
      exact ⟨rfl, .settling (hv.env ▸ hτ) ha' hq', .inl ⟨hv, signPair_ne_pure⟩⟩
  | signing hτ =>
    cases hn
    exact ⟨rfl, .storing hτ ⟨w.env.now, Nat.le_refl _, rfl⟩,
      .inl ⟨⟨rfl, rfl, Rows.forall₂_refl (fun _ => ⟨rfl, rfl⟩) _⟩, storeSession_ne_pure⟩⟩
  | storing hτ hρ =>
    obtain ⟨rfl, ⟨rfl, hv⟩ | ⟨⟨e, rfl⟩, rfl⟩⟩ := next_storeSession hn
    · exact ⟨rfl, .done (.ok _), .inr ⟨_, _, _, hτ, hρ, hv, rfl⟩⟩
    · exact ⟨rfl, .done (.error e), .inl ⟨.refl v, by simp⟩⟩
  | done r => simp at hn

/-- The user of the token has by now one of a later second. -/
def Outdated (P : Packages) (w : World) (token : String) : Prop :=
  ∃ u ∈ w.db.users, ∃ n m, token = P.jwt.sign (refreshPayload u.id n) ∧
    u.refreshToken = some (P.jwt.sign (refreshPayload u.id m)) ∧
      n / millisecondsPerSecond < m / millisecondsPerSecond

theorem Outdated.not_held {token : String} (h : Outdated P w token) (hw : Stored P w) :
    ∀ u ∈ w.db.users, u.refreshToken ≠ some token := by
  rintro v hv hheld
  obtain ⟨u, hu, n, m, rfl, hm, hlt⟩ := h
  obtain ⟨k, -, hk⟩ := hw v hv _ hheld
  obtain rfl := Db.user_eq hu hv (refreshPayload_inj hk).1
  have hsame := (refreshPayload_inj (Option.some.inj (hheld.symm.trans hm))).2
  omega

/-- A row whose session went on in time, if at all. -/
structure Onward (P : Packages) (u u' : User) : Prop where
  id : u'.id = u.id
  refreshToken : u'.refreshToken = u.refreshToken ∨ ∃ m',
    u'.refreshToken = some (P.jwt.sign (refreshPayload u.id m')) ∧
      ∀ m, u.refreshToken = some (P.jwt.sign (refreshPayload u.id m)) →
        m / millisecondsPerSecond ≤ m' / millisecondsPerSecond

theorem Outdated.mono {token : String} (h : Outdated P w token)
    (hrows : ∀ u ∈ w.db.users, ∃ u' ∈ v.db.users, Onward P u u') : Outdated P v token := by
  obtain ⟨u, hu, n, m, rfl, hm, hlt⟩ := h
  obtain ⟨u', hu', hid, hr | ⟨m', hr, hle⟩⟩ := hrows u hu
  · refine ⟨u', hu', n, m, ?_, ?_, hlt⟩
    · rw [hid]
    · rw [hr, hid, hm]
  · have hlater := hle m hm
    refine ⟨u', hu', n, m', ?_, ?_, by omega⟩
    · rw [hid]
    · rw [hr, hid]

/-- A token signed now is as late as any stored one. -/
theorem Stored.le {u : User} {m : ℕ} (hw : Stored P w) (hu : u ∈ w.db.users)
    (hm : u.refreshToken = some (P.jwt.sign (refreshPayload u.id m))) :
    m / millisecondsPerSecond ≤ w.env.now / millisecondsPerSecond := by
  obtain ⟨n, hn, heq⟩ := hw u hu _ hm
  rw [(refreshPayload_inj heq).2]
  exact Nat.div_le_div_right hn

theorem Apart.stored (h : Apart w v) (hw : Stored P w) : Stored P v := by
  intro u' hu' token htoken
  obtain ⟨u, hu, hid, hr⟩ := Rows.exists_old h.rows hu'
  rw [hid, h.env]
  exact hw u hu token (hr ▸ htoken)

theorem Apart.onward (h : Apart w v) : ∀ u ∈ w.db.users, ∃ u' ∈ v.db.users, Onward P u u' := by
  intro u hu
  obtain ⟨u', hu', hid, hr⟩ := Rows.exists_new h.rows hu
  exact ⟨u', hu', hid, .inl hr⟩

theorem Replaces.stored {userId token : String} (h : Replaces w userId token v)
    (hw : Stored P w) (htoken : RefreshOf P userId w.env.now token) : Stored P v := by
  intro u' hu' τ hτ
  rw [h.users] at hu'
  rw [h.env]
  rcases Rows.mem_update.mp hu' with ⟨u, hu, rfl, rfl⟩ | ⟨hu, -⟩
  · cases hτ
    exact htoken
  · exact hw u' hu τ hτ

/-- A session that is stored over the token it replaces. -/
theorem Replaces.onward {userId token : String} {tokens : LoginResponse}
    (h : Replaces w userId tokens.refreshToken v) (hw : Stored P w)
    (hτ : RefreshOf P userId w.env.now token)
    (hρ : RefreshOf P userId w.env.now tokens.refreshToken) (hrot : Rotates P w token tokens) :
    (∀ u ∈ w.db.users, ∃ u' ∈ v.db.users, Onward P u u') ∧ Outdated P v token := by
  obtain ⟨n, -, rfl⟩ := hτ
  obtain ⟨m, -, hm⟩ := hρ
  obtain ⟨⟨x, hx, hheld⟩, hlater⟩ := hrot
  rw [hm] at hlater h
  have hlt := hlater.lt
  obtain ⟨k, -, hk⟩ := hw x hx _ hheld
  obtain rfl := (refreshPayload_inj hk).1
  have hnew : ∀ u ∈ w.db.users, ∃ u' ∈ v.db.users, Onward P u u' := by
    intro u hu
    refine ⟨_, h.users ▸ Rows.mem_update_of_mem hu, ?_⟩
    split_ifs with hid
    · obtain rfl := Db.user_eq hu hx hid
      refine ⟨rfl, .inr ⟨m, rfl, fun j hj => ?_⟩⟩
      have hsame := (refreshPayload_inj (Option.some.inj (hheld.symm.trans hj))).2
      omega
    · exact ⟨rfl, .inl rfl⟩
  have hmem := Rows.mem_update_self User.id
    ((storeRefresh (P.jwt.sign (refreshPayload x.id m))).apply w.env.now) hx
  rw [← h.users] at hmem
  exact ⟨hnew, _, hmem, n, m, rfl, rfl, hlt⟩

/-- A request of another kind that comes in between. -/
theorem Meanwhile.keeps (h : Meanwhile P w v) (htrx : w.trx = none) (hw : Stored P w) :
    v.trx = none ∧ Stored P v ∧ w.env.now ≤ v.env.now ∧
      ∀ u ∈ w.db.users, ∃ u' ∈ v.db.users, Onward P u u' := by
  cases h with
  | surroundings hle =>
    refine ⟨htrx, fun u hu token ht => (hw u hu token ht).mono hle, hle, fun u hu => ?_⟩
    exact ⟨u, hu, rfl, .inl rfl⟩
  | request hreq hx =>
    have heff := effect_of_exec htrx hx
    have hrows := heff.served
    have hnow : w.env.now = v.env.now := by rw [heff.env]
    refine ⟨heff.trx.trans htrx, ?_, Nat.le_of_eq hnow, fun u hu => ?_⟩
    · intro u' hu' token htoken
      rw [heff.env]
      rcases hrows.exists_old hu' with ⟨u, hu, hs⟩ | hj
      · rw [hs.id]
        rcases hs.refreshToken with hr | ⟨-, hr⟩
        · exact hw u hu token (hr ▸ htoken)
        · exact ⟨_, Nat.le_refl _, Option.some.inj (htoken.symm.trans hr)⟩
      · rcases hj with hr | hr
        · rw [hr] at htoken
          cases htoken
        · exact ⟨_, Nat.le_refl _, Option.some.inj (htoken.symm.trans hr)⟩
    · obtain ⟨u', hu', hs⟩ := hrows.exists_new hu
      refine ⟨u', hu', hs.id, ?_⟩
      rcases hs.refreshToken with hr | ⟨-, hr⟩
      · exact .inl hr
      · exact .inr ⟨_, hr, fun m hm => hw.le hu hm⟩

structure RefreshInv (P : Packages) (x : RefreshPool) : Prop where
  trx : x.2.trx = none
  stored : Stored P x.2
  calls : ∀ c ∈ x.1, c.detached = [] ∧ Refreshing P x.2.env.now c.main
  spent : ∀ c ∈ x.1, ∀ token tokens, c.main = .pure (token, tokens) → Outdated P x.2 token
  once : SingleUse x.1

/-- Time and the other requests go on; the calls stand still. -/
theorem RefreshInv.meanwhile {cs : List (Call World Err (String × LoginResponse))}
    (h : RefreshInv P (cs, w)) (hm : Meanwhile P w v) : RefreshInv P (cs, v) := by
  obtain ⟨htrx, hstored, hle, hon⟩ := hm.keeps h.trx h.stored
  exact ⟨htrx, hstored, fun c hc => ⟨(h.calls c hc).1, (h.calls c hc).2.mono hle⟩,
    fun c hc token tokens heq => (h.spent c hc token tokens heq).mono hon, h.once⟩

theorem RefreshInv.arrive {cs : List (Call World Err (String × LoginResponse))} (token : String)
    (h : RefreshInv P (cs, w)) : RefreshInv P (cs ++ [⟨refreshCall P token, []⟩], w) := by
  have hpure : ∀ x, refreshCall P token ≠ .pure x := by
    intro x hx
    rw [refreshCall_eq] at hx
    unfold verifyJwtToken at hx
    split_ifs at hx <;> cases hx
  have hnew : ∀ c ∈ cs ++ [⟨refreshCall P token, []⟩],
      c ∈ cs ∨ c = ⟨refreshCall P token, []⟩ := by
    intro c hc
    simpa using hc
  refine ⟨h.trx, h.stored, fun c hc => ?_, fun c hc τ tokens heq => ?_, ?_⟩
  · rcases hnew c hc with hc | rfl
    · exact h.calls c hc
    · exact ⟨rfl, .arriving token⟩
  · rcases hnew c hc with hc | rfl
    · exact h.spent c hc τ tokens heq
    · exact absurd heq (hpure _)
  · refine List.pairwise_append.mpr ⟨h.once, List.pairwise_singleton _ _, ?_⟩
    intro c _ c' hc' τ tokens tokens' _
    obtain rfl := List.mem_singleton.mp hc'
    exact hpure _

/-- A step of a call; if it is accepted, it rotates its token. -/
theorem RefreshInv.call {pre post : List (Call World Err (String × LoginResponse))}
    {p p' : Promise (String × LoginResponse)} {born : List (Detached World Err)}
    (h : RefreshInv P (pre ++ ⟨p, []⟩ :: post, w)) (hn : p.next w = some (p', born, v))
    (hrot : ∀ token tokens, p' = .pure (token, tokens) → Rotates P w token tokens) :
    RefreshInv P (pre ++ ⟨p', born⟩ :: post, v) := by
  have hcall := (h.calls ⟨p, []⟩ (by simp)).2
  obtain ⟨rfl, hcall', hstep⟩ := hcall.next h.stored hn
  have hold : ∀ c ∈ pre ++ post, c ∈ pre ++ ⟨p, []⟩ :: post :=
    fun c hc => mem_middle.mpr (.inr hc)
  obtain ⟨hpre, hpost, hcross⟩ := List.pairwise_append.mp h.once
  have hrest := (List.pairwise_cons.mp hpost).2
  -- it is enough to compare the call with the others
  have honce : (∀ c ∈ pre ++ post, ∀ token tokens tokens', p' = .pure (token, tokens) →
      c.main ≠ .pure (token, tokens')) → SingleUse (pre ++ ⟨p', []⟩ :: post) := by
    intro hother
    refine List.pairwise_append.mpr ⟨hpre, List.pairwise_cons.mpr ⟨?_, hrest⟩, ?_⟩
    · exact fun c hc => hother c (List.mem_append_right _ hc)
    · intro c hc c' hc' token tokens tokens' heq
      rcases List.mem_cons.mp hc' with rfl | hc'
      · exact fun hp => hother c (List.mem_append_left _ hc) token tokens' tokens hp heq
      · exact hcross c hc c' (List.mem_cons_of_mem _ hc') token tokens tokens' heq
  rcases hstep with ⟨hap, hpure⟩ | ⟨token, userId, tokens, hτ, hρ, hrep, rfl⟩
  · refine ⟨hap.trx.trans h.trx, hap.stored h.stored, fun c hc => ?_,
      fun c hc τ tokens heq => ?_, honce fun _ _ _ _ _ heq => absurd heq (hpure _)⟩
    · rcases mem_middle.mp hc with rfl | hc
      · exact ⟨rfl, hcall'⟩
      · rw [hap.env]
        exact h.calls c (hold c hc)
    · rcases mem_middle.mp hc with rfl | hc
      · exact absurd heq (hpure _)
      · exact (h.spent c (hold c hc) τ tokens heq).mono hap.onward
  · have hrotates := hrot token tokens rfl
    obtain ⟨hon, hout⟩ := hrep.onward h.stored hτ hρ hrotates
    refine ⟨hrep.trx.trans h.trx, hrep.stored h.stored hρ, fun c hc => ?_,
      fun c hc τ tokens' heq => ?_, honce fun c hc τ _ tokens' heq hc' => ?_⟩
    · rcases mem_middle.mp hc with rfl | hc
      · exact ⟨rfl, hcall'⟩
      · rw [hrep.env]
        exact h.calls c (hold c hc)
    · rcases mem_middle.mp hc with rfl | hc
      · cases heq
        exact hout
      · exact (h.spent c (hold c hc) τ tokens' heq).mono hon
    · -- the token is still stored, so no earlier call was accepted with it
      cases heq
      obtain ⟨u, hu, hheld⟩ := hrotates.1
      exact (h.spent c (hold c hc) token tokens' hc').not_held h.stored u hu hheld

theorem RotatingSteps.inv {x y : RefreshPool} (h : RotatingSteps P x y) (hx : RefreshInv P x) :
    RefreshInv P y := by
  induction h with
  | refl => exact hx
  | @tail y z _ hs ih =>
    obtain ⟨hs, hrot⟩ := hs
    cases hs with
    | @call pre post c c' s t hstep =>
      obtain ⟨p, ds⟩ := c
      obtain rfl : ds = [] := (ih.calls ⟨p, ds⟩ (by simp)).1
      obtain ⟨p', born, hn, rfl⟩ := Call.step_alone hstep
      refine ih.call hn fun token tokens heq => hrot token tokens ?_
      refine ⟨pre, post, ⟨p, []⟩, born, rfl, fun hset => ?_, by rw [heq]⟩
      rw [hset.next s] at hn
      cases hn
    | arrive hp =>
      obtain ⟨token, rfl⟩ := hp
      exact ih.arrive token
    | tick hm => exact ih.meanwhile hm

/-- From the first request on: where every accepted call still finds its token stored and signs
in a later second, no token is accepted twice. -/
theorem refresh_single_use {w₀ : World} {x : RefreshPool} (h₀ : Fresh w₀)
    (h : RotatingSteps P ([], w₀) x) : SingleUse x.1 := by
  refine (h.inv ⟨h₀.trx, ?_, by simp, by simp, .nil⟩).once
  intro u hu
  rw [h₀.users] at hu
  cases hu

/-- What an accepted call ends with. -/
def accepted : Promise (String × LoginResponse) → Option (String × LoginResponse)
  | .pure x => some x
  | _ => none

theorem accepted_eq_some {p : Promise (String × LoginResponse)} {x : String × LoginResponse} :
    accepted p = some x ↔ p = .pure x := by
  constructor
  · intro h
    cases p with
    | pure a => exact congrArg _ (Option.some.inj h)
    | _ => cases h
  · rintro rfl
    rfl

/-- A step of a schedule, if the calls that have been accepted after it rotate. -/
theorem rotatingSteps_advance {x : RefreshPool} (i : ℕ)
    (h : ∀ c ∈ (x.advance i).1, ∀ token tokens, accepted c.main = some (token, tokens) →
      Rotates P x.2 token tokens) : RotatingSteps P x (x.advance i) := by
  rcases Pool.advance_cases (RefreshCall P) (Meanwhile P) i x with heq | hs
  · rw [heq]
  · refine .single ⟨hs, ?_⟩
    rintro token tokens ⟨pre, post, c, ds, -, -, hy⟩
    exact h _ (hy ▸ List.mem_append_right _ List.mem_cons_self) token tokens rfl

end Invariant

namespace Sample

/-- Ann's call with the refresh token she got at her login. -/
def refreshing : Promise (String × LoginResponse) := refreshCall packages refreshToken.text

/-- Two calls, the second after the first. -/
def refreshedTwice : RefreshPool :=
  Pool.runSchedule [0, 0, 0, 0, 0, 0, 1, 1, 1, 1, 1, 1]
    ([⟨refreshing, []⟩, ⟨refreshing, []⟩], signedIn)

/-- The clock one second later. -/
def secondLater : World := { signedIn with env := envAfter 1 }

def refreshedLater (n : ℕ) : RefreshPool :=
  Pool.runSchedule (List.replicate n 0) ([⟨refreshing, []⟩], secondLater)

set_option maxRecDepth 10000 in
theorem refreshing_facts : signedIn.env.now ≤ secondLater.env.now ∧
    (refreshedTwice.1.map fun c => (accepted c.main).map Prod.fst) =
      [some refreshToken.text, some refreshToken.text] ∧
    (∀ n < 6, (refreshedLater n).1.all (fun c => (accepted c.main).isNone) = true) ∧
    ((refreshedLater 6).1.map fun c => (accepted c.main).map Prod.fst) = [some refreshToken.text] ∧
    (refreshedLater 5).2.db.users.any (fun u => u.refreshToken = some refreshToken.text) = true ∧
    ∀ c ∈ (refreshedLater 6).1.filterMap fun c => accepted c.main,
      (((decode refreshToken.text).bind Token.iat).bind fun i =>
        ((decode c.2.refreshToken).bind Token.iat).map fun i' => decide (i < i')) = some true := by
  decide +kernel

theorem meanwhile_served (w : World) {request : Request} (h : ∀ token, request ≠ .refresh token) :
    Meanwhile packages w ((handle packages request).run w).2 :=
  .request h (exec_run _ _)

theorem steps_signedIn {α : Type} {Admit : Async World Err α → Prop} :
    Pool.Steps Admit (Meanwhile packages) ([], start) ([], signedIn) :=
  have hsignup := meanwhile_served start (show ∀ token, Request.signup ann ≠ .refresh token by simp)
  have hlogin := meanwhile_served ((handle packages (.signup ann)).run start).2
    (show ∀ token, Request.login annLogin ≠ .refresh token by simp)
  .tail (.single (.tick hsignup)) (.tick hlogin)

theorem rotates_refreshedLater : ∀ c ∈ (refreshedLater 6).1, ∀ token tokens,
    accepted c.main = some (token, tokens) →
      Rotates packages (refreshedLater 5).2 token tokens := by
  obtain ⟨-, -, -, hone, hheld, hlater⟩ := refreshing_facts
  intro c hc token tokens hacc
  have htoken : token = refreshToken.text := by
    have hmem := List.mem_map_of_mem (f := fun c => (accepted c.main).map Prod.fst) hc
    rw [hone, hacc] at hmem
    simpa using hmem
  subst htoken
  refine ⟨by simpa using hheld, ?_⟩
  have hlt := hlater _ (List.mem_filterMap.mpr ⟨c, hc, hacc⟩)
  simp only [Option.bind_eq_some_iff, Option.map_eq_some_iff, decide_eq_true_eq] at hlt
  obtain ⟨i, ⟨t, ht, hi⟩, i', ⟨t', ht', hi'⟩, hlt⟩ := hlt
  exact ⟨t, t', i, i', ht, ht', hi, hi', hlt⟩

theorem rotatingSteps_refreshedLater (n : ℕ) (hn : n ≤ 6) :
    RotatingSteps packages ([⟨refreshing, []⟩], secondLater) (refreshedLater n) := by
  induction n with
  | zero => exact .refl
  | succ n ih =>
    have hstep : refreshedLater (n + 1) = (refreshedLater n).advance 0 := by
      simp only [refreshedLater, List.replicate_succ', Pool.runSchedule, List.foldl_append,
        List.foldl_cons, List.foldl_nil]
    rw [hstep]
    refine (ih (by omega)).trans (rotatingSteps_advance 0 fun c hc token tokens hacc => ?_)
    rw [← hstep] at hc
    rcases Nat.lt_or_eq_of_le hn with hlt | heq
    · have hnone := List.all_eq_true.mp (refreshing_facts.2.2.1 (n + 1) hlt) c hc
      simp [hacc] at hnone
    · obtain rfl : n = 5 := by omega
      exact rotates_refreshedLater c hc token tokens hacc

end Sample

/-- A refresh one second after the login. -/
theorem refresh_single_use_later : RotatingSteps Sample.packages ([], Sample.start)
      (Sample.refreshedLater 6) ∧
    ((Sample.refreshedLater 6).1.map fun c => (accepted c.main).map Prod.fst) =
      [some Sample.refreshToken.text] ∧ SingleUse (Sample.refreshedLater 6).1 := by
  have hnone : ∀ (cs : List (Call World Err (String × LoginResponse))) (v w : World)
      (token : String) (tokens : LoginResponse), cs = [] →
      ¬ Accepts token tokens (cs, v) (cs, w) := by
    rintro cs v w token tokens rfl ⟨pre, post, c, ds, hx, -⟩
    simp at hx
  have hsigned : RotatingSteps Sample.packages ([], Sample.start) ([], Sample.signedIn) := by
    have hsignup := Sample.meanwhile_served Sample.start
      (show ∀ token, Request.signup Sample.ann ≠ .refresh token by simp)
    have hlogin := Sample.meanwhile_served ((handle Sample.packages (.signup Sample.ann)).run
      Sample.start).2 (show ∀ token, Request.login Sample.annLogin ≠ .refresh token by simp)
    refine .tail (.single ⟨.tick hsignup, ?_⟩) ⟨.tick hlogin, ?_⟩
    · exact fun token tokens hacc => absurd hacc (hnone _ _ _ _ _ rfl)
    · exact fun token tokens hacc => absurd hacc (hnone _ _ _ _ _ rfl)
  have hwait : RotatingSteps Sample.packages ([], Sample.signedIn) ([], Sample.secondLater) :=
    .single ⟨.tick (.surroundings Sample.refreshing_facts.1),
      fun token tokens hacc => absurd hacc (hnone _ _ _ _ _ rfl)⟩
  have harrive : RotatingSteps Sample.packages ([], Sample.secondLater)
      ([⟨Sample.refreshing, []⟩], Sample.secondLater) := by
    refine .single ⟨.arrive ⟨_, rfl⟩, ?_⟩
    rintro token tokens ⟨pre, post, c, ds, hx, -⟩
    simp at hx
  have hrun := ((hsigned.trans hwait).trans harrive).trans
    (Sample.rotatingSteps_refreshedLater 6 (Nat.le_refl 6))
  exact ⟨hrun, Sample.refreshing_facts.2.2.2.1, refresh_single_use Sample.start_fresh hrun⟩

/-- Two refreshes in the second of the login, one after the other: the same token is accepted
both times. -/
theorem refresh_accepted_twice : ¬ ∀ (P : Packages) (w₀ : World) (x : RefreshPool), Fresh w₀ →
    Pool.Steps (RefreshCall P) (Meanwhile P) ([], w₀) x → SingleUse x.1 := by
  intro h
  have harrive : Pool.Steps (RefreshCall Sample.packages) (Meanwhile Sample.packages)
      ([], Sample.start) ([⟨Sample.refreshing, []⟩, ⟨Sample.refreshing, []⟩], Sample.signedIn) :=
    .tail (.tail Sample.steps_signedIn (.arrive ⟨_, rfl⟩)) (.arrive ⟨_, rfl⟩)
  have hrun : Pool.Steps (RefreshCall Sample.packages) (Meanwhile Sample.packages)
      ([], Sample.start) Sample.refreshedTwice := harrive.trans (Pool.steps_runSchedule ..)
  have honce := h _ _ _ Sample.start_fresh hrun
  have htwice := Sample.refreshing_facts.2.1
  generalize Sample.refreshedTwice.1 = cs at honce htwice
  obtain ⟨c, c', rfl⟩ : ∃ c c', cs = [c, c'] := List.length_eq_two.mp (by
    simpa using congrArg List.length htwice)
  simp only [List.map_cons, List.map_nil, List.cons.injEq, Option.map_eq_some_iff, and_true]
    at htwice
  obtain ⟨⟨⟨token, tokens⟩, hc, heq⟩, ⟨token', tokens'⟩, hc', heq'⟩ := htwice
  obtain rfl : token' = token := heq'.trans heq.symm
  exact (List.pairwise_cons.mp honce).1 c' (by simp) token' tokens tokens'
    (accepted_eq_some.mp hc) (accepted_eq_some.mp hc')

end CodebaseTrpc
