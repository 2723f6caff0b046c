import CodebaseTrpc.Invariants.Sites
import CodebaseTrpc.Properties.Credentials
import CodebaseTrpc.Properties.SessionBinding
import CodebaseTrpc.Properties.TokenGate
import CodebaseTrpc.Trace.Rotation

/-! The session of a page. Each refresh replaces the refresh token at the server and on the page;
between the two the new one is on its way. Seen by the time of their issue, the two tokens are a
credential that its issuer rotates. -/
namespace CodebaseTrpc
open Client (TrpcClient Event Steps Slot Storage bearer)
open Rows

section Statements
variable (P : Packages) (userId : String)

/-- In seconds. -/
def issuedAt (token : String) : Option ℕ := (P.jwt.decode token).bind Token.iat

/-- The two tokens of the user's session, the page's and the server's. -/
def Site.rotation (b : Site) : Rotation.State ℕ where
  held := b.held.bind (issuedAt P)
  current := (b.world.refreshTokenOf userId).bind (issuedAt P)

/-- What an event of the site is to the session. -/
inductive Explains : SiteEvent → Rotation.Action ℕ → Prop
  | refreshed {p next : ℕ} {tokens : LoginResponse}
      (hnext : issuedAt P tokens.refreshToken = some next) :
      Explains (.served p (.ok (.tokens tokens))) (.rotate next)
  | refused {p : ℕ} {e : Err} : Explains (.served p (.error e)) .stay
  | grants {x : Exchange} {next : ℕ} {tokens : LoginResponse}
      (hreply : x.reply = .ok (.tokens tokens)) (huser : BelongsTo P userId tokens.refreshToken)
      (hnext : issuedAt P tokens.refreshToken = some next) :
      Explains (.server (.call x)) (.displace next)
  | serves {entry : Entry} : Explains (.server entry) .stay
  | loses {event : Event} (h : LosesRefresh event) : Explains (.page event) .drop
  | moves {event : Event} : Explains (.page event) .stay

/-- A page that was just opened, on a session of the user that is the current one. -/
structure SignedIn (b : Site) : Prop where
  isRefreshing : b.page.isRefreshing = false := by rfl
  refreshes : b.page.refreshes = [] := by rfl
  answers : b.answers = fun _ => none := by rfl
  tokens : ∃ u ∈ b.world.db.users, u.id = userId ∧ ∃ n ≤ b.world.env.now,
    b.page.storage.accessToken = some (sessionTokens P userId n).accessToken ∧
      b.page.storage.refreshToken = some (sessionTokens P userId n).refreshToken ∧
        u.refreshToken = some (sessionTokens P userId n).refreshToken

/-- Nobody else is granted a session of the user, refreshes are served before their token
expires, and no response is lost. -/
def Undisturbed (b : Site) : SiteEvent → Prop
  | .page (.refreshBody _ none) | .page (.refreshReject _) => False
  | .page _ => True
  | .served p _ => ∀ token, b.page.refreshes[p]? = some (.fetching token) →
      Live P token b.world.env.now
  | .server (.call x) => ∀ tokens, x.reply = .ok (.tokens tokens) →
      ¬ BelongsTo P userId tokens.refreshToken
  | .server (.idle _) => True

end Statements

section Tokens
variable {P : Packages} {w w' : World} {userId : String}

theorem issuedAt_refresh (userId : String) (n : ℕ) :
    issuedAt P (P.jwt.sign (refreshPayload userId n)) = some (n / millisecondsPerSecond) := by
  rw [issuedAt, P.jwt.decode_sign]
  rfl

/-- Two refresh tokens of the user, issued in the same second. -/
theorem RefreshOf.eq_of_issuedAt {token token' : String} {now now' : ℕ}
    (h : RefreshOf P userId now token) (h' : RefreshOf P userId now' token')
    (heq : issuedAt P token = issuedAt P token') : token = token' := by
  obtain ⟨n, -, rfl⟩ := h
  obtain ⟨m, -, rfl⟩ := h'
  rw [issuedAt_refresh, issuedAt_refresh] at heq
  rw [refreshPayload, refreshPayload, stamp, stamp, Option.some.inj heq]

end Tokens

section Invariant
variable {P : Packages} {userId : String} {b b' b₀ : Site} {event : SiteEvent}
  {evs : List SiteEvent}

theorem SignedIn.inv (h : SignedIn P userId b) (hw : Sessions P b.world) :
    SiteInv P userId b := by
  have hnone : ∀ p : ℕ, b.page.refreshes[p]? = none := by simp [h.refreshes]
  have hflight : ∀ p, ¬ b.page.InFlight p := by
    rintro p ⟨r, hp, -⟩
    rw [hnone] at hp
    cases hp
  obtain ⟨u, hu, hid, n, hn, haccess, hrefresh, -⟩ := h.tokens
  exact
    { slot := ⟨fun p hp => absurd hp (hflight p), fun hbusy => by simp [h.isRefreshing] at hbusy⟩
      sessions := hw
      user := ⟨u, hu, hid⟩
      access := by
        rw [haccess]
        rintro _ ⟨⟩
        exact ⟨n, hn, rfl⟩
      refresh := by
        rw [hrefresh]
        rintro _ ⟨⟩
        exact ⟨n, hn, rfl⟩
      asked := fun p token hp => by simp [hnone] at hp
      answered := fun p reply hp => by simp [h.answers] at hp
      unasked := fun p _ => by simp [h.answers] }

/-- The two tokens are one text exactly if they were issued in one second. -/
theorem SiteInv.current_iff (h : SiteInv P userId b) :
    (b.rotation P userId).held = (b.rotation P userId).current ↔
      b.held = b.world.refreshTokenOf userId := by
  refine ⟨fun heq => ?_, fun heq => congrArg (Option.bind · (issuedAt P)) heq⟩
  replace heq : b.held.bind (issuedAt P) = (b.world.refreshTokenOf userId).bind (issuedAt P) := heq
  cases hheld : b.held with
  | none =>
    cases hrow : b.world.refreshTokenOf userId with
    | none => rfl
    | some token =>
      obtain ⟨n, -, rfl⟩ := h.sessions.refreshTokenOf hrow
      simp [hheld, hrow, issuedAt_refresh] at heq
  | some token =>
    have hτ := h.held_refreshOf hheld
    cases hrow : b.world.refreshTokenOf userId with
    | none =>
      obtain ⟨n, -, rfl⟩ := hτ
      simp [hheld, hrow, issuedAt_refresh] at heq
    | some token' =>
      rw [hheld, hrow] at heq
      rw [hτ.eq_of_issuedAt (h.sessions.refreshTokenOf hrow) heq]

theorem rotation_current {n : ℕ}
    (h : b.world.refreshTokenOf userId = some (P.jwt.sign (refreshPayload userId n))) :
    (b.rotation P userId).current = WithBot.some (n / millisecondsPerSecond) := by
  change (b.world.refreshTokenOf userId).bind (issuedAt P) = some _
  rw [h, Option.bind_some, issuedAt_refresh]

theorem rotation_held {n : ℕ} (h : b.held = some (P.jwt.sign (refreshPayload userId n))) :
    (b.rotation P userId).held = WithBot.some (n / millisecondsPerSecond) := by
  change b.held.bind (issuedAt P) = some _
  rw [h, Option.bind_some, issuedAt_refresh]

/-- What the row stores was issued by now. -/
theorem SiteInv.current_le (h : SiteInv P userId b) :
    (b.rotation P userId).current ≤ WithBot.some (b.world.env.now / millisecondsPerSecond) := by
  cases hrow : b.world.refreshTokenOf userId with
  | none =>
    have hbot : (b.rotation P userId).current = ⊥ :=
      congrArg (Option.bind · (issuedAt P)) hrow
    rw [hbot]
    exact bot_le
  | some token =>
    obtain ⟨n, hn, rfl⟩ := h.sessions.refreshTokenOf hrow
    rw [rotation_current hrow]
    exact WithBot.coe_le_coe.mpr (Nat.div_le_div_right hn)

theorem rotation_stay (hheld : b'.held = b.held)
    (hrow : b'.world.refreshTokenOf userId = b.world.refreshTokenOf userId) :
    Rotation.Step (b.rotation P userId) .stay (b'.rotation P userId) := by
  have heq : b'.rotation P userId = b.rotation P userId :=
    Rotation.State.ext (congrArg (Option.bind · (issuedAt P)) hheld)
      (congrArg (Option.bind · (issuedAt P)) hrow)
  rw [heq]
  exact .stay

theorem SiteInv.explained_page {page : TrpcClient} {event : Event} (h : SiteInv P userId b)
    (hs : Steps b.page event page) (hreads : b.Reads event) :
    ∃ a, Rotation.Step (b.rotation P userId) a (({ b with page } : Site).rotation P userId) ∧
      Explains P userId (.page event) a := by
  have hslot := h.slot.step hs
  cases hs.page with
  | same => exact ⟨.stay, rotation_stay rfl rfl, .moves⟩
  | @starts _ token _ hidle htoken =>
    have hflight : ∃ r, (b.page.refreshes ++ [.fetching token])[b.page.refreshes.length]? = some r ∧
        r.inFlight = true := ⟨.fetching token, by simp, rfl⟩
    have hnew : b.answers b.page.refreshes.length = none := h.unasked _ (Nat.le_refl _)
    refine ⟨.stay, rotation_stay ?_ rfl, .moves⟩
    rw [held_of_idle hidle]
    exact held_of_unanswered hslot hflight (by simp [hnew])
  | stops hidle htoken =>
    -- no token is stored: a stored one would not be empty
    have hnone : b.page.storage.refreshToken = none := by
      cases ht : b.page.storage.refreshToken with
      | none => rfl
      | some token =>
        obtain ⟨n, -, rfl⟩ := h.refresh token ht
        rw [ht, truthyText_of_ne (P.jwt.sign_ne_empty _)] at htoken
        cases htoken
    refine ⟨.stay, rotation_stay ?_ rfl, .moves⟩
    rw [held_of_idle hidle, hnone]
    rfl
  | reads => exact ⟨.stay, rotation_stay rfl rfl, .moves⟩
  | succeeds hp =>
    refine ⟨.stay, rotation_stay ?_ rfl, .moves⟩
    rw [held_of_answered h.slot hp hreads]
    rfl
  | fails hloses => exact ⟨.drop, .drop, .loses hloses⟩

theorem SiteInv.explained_served {p : ℕ} {token : String} {reply : Except Err Reply}
    {world : World} (h : SiteInv P userId b)
    (hp : b.page.refreshes[p]? = some (.fetching token)) (hone : b.answers p = none)
    (hx : (handle P (.refresh token)).Exec b.world reply world) :
    ∃ a, Rotation.Step (b.rotation P userId) a
        (({ b with world, answers := Function.update b.answers p (some reply) } :
          Site).rotation P userId) ∧ Explains P userId (.served p reply) a := by
  have hflight : b.page.InFlight p := ⟨_, hp, rfl⟩
  have hheld : b.held = some token := by
    rw [held_of_unanswered h.slot hflight (by simp [hone]), h.asked p token hp]
  rcases served_cases h.sessions (h.refresh token (h.asked p token hp)) hx with
    ⟨⟨e, rfl⟩, rfl⟩ | ⟨u, hu, rfl, hrow, rfl, rfl⟩
  · refine ⟨.stay, rotation_stay ?_ rfl, .refused⟩
    rw [hheld, ← h.asked p token hp]
    exact held_of_unanswered h.slot hflight (by simp)
  · refine ⟨.rotate (b.world.env.now / millisecondsPerSecond), ?_,
      .refreshed (issuedAt_refresh u.id b.world.env.now)⟩
    have hcurrent : b.held = b.world.refreshTokenOf u.id := by
      rw [hheld, refreshTokenOf_of_mem hu, hrow]
    let b' : Site := { b with
      world := b.world.openSession P u.id
      answers := Function.update b.answers p
        (some (.ok (.tokens (sessionTokens P u.id b.world.env.now)))) }
    have hheld' : b'.held = some (P.jwt.sign (refreshPayload u.id b.world.env.now)) :=
      held_of_answered (b := b') h.slot hflight (Function.update_self ..)
    have hnext : b'.rotation P u.id =
        ⟨WithBot.some (b.world.env.now / millisecondsPerSecond), _⟩ :=
      Rotation.State.ext (rotation_held hheld')
        (rotation_current (b := b') (refreshTokenOf_openSession hu))
    rw [hnext]
    exact .rotate (h.current_iff.mpr hcurrent) h.current_le

theorem SiteInv.explained_server {entry : Entry} {world : World} (h : SiteInv P userId b)
    (hs : Serves P b.world entry world) :
    ∃ a, Rotation.Step (b.rotation P userId) a (({ b with world } : Site).rotation P userId) ∧
      Explains P userId (.server entry) a := by
  obtain ⟨u, hu, rfl⟩ := h.user
  rcases entry_cases h.sessions hs hu with
    ⟨u', hu', hid, ht⟩ | ⟨x, rfl, hreply, u', hu', hid, ht⟩
  · refine ⟨.stay, rotation_stay rfl ?_, .serves⟩
    have hrow := refreshTokenOf_of_mem hu'
    rw [hid] at hrow
    rw [refreshTokenOf_of_mem hu, ← ht]
    exact hrow
  · refine ⟨.displace (b.world.env.now / millisecondsPerSecond), ?_, .grants hreply
      (belongsTo_sessionTokens P u.id b.world.env.now).2 (issuedAt_refresh u.id b.world.env.now)⟩
    have hrow := refreshTokenOf_of_mem hu'
    rw [hid, ht] at hrow
    have hnext : ({ b with world } : Site).rotation P u.id =
        { b.rotation P u.id with
          current := WithBot.some (b.world.env.now / millisecondsPerSecond) } :=
      Rotation.State.ext rfl (rotation_current hrow)
    rw [hnext]
    exact .displace h.current_le

/-- Every step of a site is a step of a credential that is rotated. -/
theorem SiteInv.explained (h : SiteInv P userId b) (hs : SiteSteps P b event b') :
    ∃ a, Rotation.Step (b.rotation P userId) a (b'.rotation P userId) ∧
      Explains P userId event a := by
  cases hs with
  | page hs hreads => exact h.explained_page hs hreads
  | served hp hone hx => exact h.explained_served hp hone hx
  | server hs => exact h.explained_server hs

end Invariant

section Runs
variable {P : Packages} {userId : String} {b b' b₀ : Site} {event : SiteEvent}
  {evs : List SiteEvent} {w₀ : World} {tr : List Entry}

theorem SiteInv.rotates (h : SiteInv P userId b₀) (hrun : SiteRun P b₀ evs b) :
    ∃ actions, Rotation.Run (b₀.rotation P userId) actions (b.rotation P userId) ∧
      List.Forall₂ (Explains P userId) evs actions :=
  Trace.Run.simulation (I := SiteInv P userId) (v := fun b => b.rotation P userId) hrun h
    (fun _ _ _ _ hi hs => hi.step hs.1) fun _ _ _ _ _ hi hs => hi.explained hs.1

/-- A page that is behind refreshes no more. -/
theorem SiteInv.behind (h : SiteInv P userId b) (hbehind : (b.rotation P userId).Behind)
    (hrun : SiteRun P b evs b') : b'.held ≠ b'.world.refreshTokenOf userId ∧
      ∀ p tokens, .served p (.ok (.tokens tokens)) ∉ evs := by
  obtain ⟨actions, hactions, hexplains⟩ := h.rotates hrun
  obtain ⟨hbehind', hnone⟩ := Rotation.Run.behind hactions hbehind
  refine ⟨fun heq => ?_, fun p tokens hmem => ?_⟩
  · exact ne_of_lt hbehind' ((h.run hrun).current_iff.mpr heq)
  · obtain ⟨a, ha, hex⟩ := Rows.exists_new hexplains hmem
    cases hex with
    | refreshed => exact hnone _ ha

theorem SignedIn.current (h : SignedIn P userId b) : b.held = b.world.refreshTokenOf userId := by
  obtain ⟨u, hu, rfl, n, -, -, hrefresh, hrow⟩ := h.tokens
  rw [held_of_idle h.isRefreshing, refreshTokenOf_of_mem hu, hrefresh, hrow]

/-- A page on the user's session rotates its credential with the server, whatever else the server
is asked and whatever becomes of the responses. -/
theorem site_rotates (hrun : ServerRun P w₀ tr b₀.world) (h₀ : Fresh w₀)
    (hb : SignedIn P userId b₀) (h : SiteRun P b₀ evs b) :
    ∃ actions, Rotation.Run (b₀.rotation P userId) actions (b.rotation P userId) ∧
      List.Forall₂ (Explains P userId) evs actions :=
  (hb.inv (ServerRun.sessions hrun h₀)).rotates h

/-- In every state of the page and the server, the page's refresh token is the one the server
stores, or it never will be again, and no refresh of the page is accepted any more. -/
theorem session_current_or_over (hrun : ServerRun P w₀ tr b₀.world) (h₀ : Fresh w₀)
    (hb : SignedIn P userId b₀) (h : SiteRun P b₀ evs b) :
    b.held = b.world.refreshTokenOf userId ∨ ∀ evs' b', SiteRun P b evs' b' →
      b'.held ≠ b'.world.refreshTokenOf userId ∧
        ∀ p tokens, .served p (.ok (.tokens tokens)) ∉ evs' := by
  have hinv := hb.inv (ServerRun.sessions hrun h₀)
  obtain ⟨actions, hactions, -⟩ := hinv.rotates h
  have hissued : (b₀.rotation P userId).Issued := (hinv.current_iff.mpr hb.current).le
  rcases Rotation.Run.current_or_behind hactions hissued with hcurrent | hbehind
  · exact .inl ((hinv.run h).current_iff.mp hcurrent)
  · exact .inr fun evs' b' h' => (hinv.run h).behind hbehind h'

/-- The page is on the current session, and none of its refreshes is refused. -/
structure KeepsUp (P : Packages) (userId : String) (b : Site) : Prop where
  inv : SiteInv P userId b
  current : b.held = b.world.refreshTokenOf userId
  present : (b.rotation P userId).held ≠ ⊥
  access : b.page.storage.accessToken ≠ none
  granted : ∀ p : ℕ, b.page.InFlight p → ∀ e, b.answers p ≠ some (.error e)
  kept : ∀ p : ℕ, b.page.refreshes[p]? ≠ some (.settled false)

theorem jsLength_pos {s : String} (h : s ≠ "") : 1 ≤ jsLength s := by
  have hfold : ∀ (cs : List Char) (n : ℕ),
      n + cs.length ≤ cs.foldl (fun n c => n + if c.toNat < 65536 then 1 else 2) n := by
    intro cs
    induction cs with
    | nil => exact fun n => Nat.le_refl _
    | cons c cs ih =>
      intro n
      have hc : 1 ≤ if c.toNat < 65536 then 1 else 2 := by split <;> omega
      have hrest := ih (n + if c.toNat < 65536 then 1 else 2)
      simp only [List.length_cons, List.foldl_cons]
      omega
  have hlen : s.toList.length ≠ 0 := by simpa using h
  have hle := hfold s.toList 0
  rw [jsLength]
  omega

/-- A stored, live token is accepted. -/
theorem served_ok {w w' : World} {token : String} {reply : Except Err Reply} {u : User}
    (h : Sessions P w) (hu : u ∈ w.db.users) (ht : u.refreshToken = some token)
    (hlive : Live P token w.env.now) (hx : (handle P (.refresh token)).Exec w reply w') :
    ∃ r, reply = .ok r := by
  obtain ⟨n, -, rfl⟩ := h.stored u hu token ht
  have hne := P.jwt.sign_ne_empty (refreshPayload u.id n)
  have hfree := h.ledger.free fun hnil => by rw [hnil] at hu; cases hu
  obtain ⟨tokens, v, hrun⟩ := run_refreshAccessToken_live hne hlive hu ht hfree
  rw [Async.exec_iff_run (awaits_handle P fun _ _ heq => by cases heq), handle, validated,
    if_pos (jsLength_pos hne), Async.bind_eq, Async.run_bind_ok hrun] at hx
  exact ⟨_, (Prod.mk.inj hx).1.symm⟩

theorem KeepsUp.not_loses {page : TrpcClient} {event : Event} (h : KeepsUp P userId b)
    (hs : Steps b.page event page) (hreads : b.Reads event)
    (hu : Undisturbed P userId b (.page event)) : ¬ LosesRefresh event := by
  intro hloses
  cases hs with
  | @refreshAnswer p status _ hp =>
    obtain ⟨reply, hreply, hstatus⟩ := hreads
    cases reply with
    | error e => exact h.granted p ⟨_, hp, rfl⟩ e hreply
    | ok r =>
      obtain rfl : status = 200 := hstatus
      exact hloses ⟨by decide, by decide⟩
  | @refreshBody p data =>
    cases data with
    | none => exact hu
    | some data => exact hloses
  | refreshReject => exact hu
  | _ => exact hloses

theorem KeepsUp.held_token (h : KeepsUp P userId b) : ∃ token, b.held = some token := by
  rw [← Option.ne_none_iff_exists']
  exact fun hnone => h.present (congrArg (Option.bind · (issuedAt P)) hnone)

/-- The page steps of an undisturbed session: none clears the tokens. -/
theorem KeepsUp.page {page : TrpcClient} {event : Event} (h : KeepsUp P userId b)
    (hs : Steps b.page event page) (hloses : ¬ LosesRefresh event) :
    page.storage.accessToken ≠ none ∧ ∀ p : ℕ, page.refreshes[p]? ≠ some (.settled false) := by
  cases hs.page with
  | same => exact ⟨h.access, h.kept⟩
  | starts =>
    refine ⟨h.access, fun p hp => ?_⟩
    rcases getElem?_append_cases hp with ⟨-, heq⟩ | ⟨-, hp⟩
    · cases heq
    · exact h.kept p hp
  | stops hidle htoken =>
    obtain ⟨token, ht⟩ := h.held_token
    obtain ⟨n, -, rfl⟩ := h.inv.held_refreshOf ht
    rw [held_of_idle hidle] at ht
    rw [ht, truthyText_of_ne (P.jwt.sign_ne_empty _)] at htoken
    cases htoken
  | reads =>
    refine ⟨h.access, fun p hp => ?_⟩
    rcases getElem?_set_cases hp with ⟨-, heq⟩ | ⟨-, hp⟩
    · cases heq
    · exact h.kept p hp
  | succeeds =>
    refine ⟨nofun, fun p hp => ?_⟩
    rcases getElem?_set_cases hp with ⟨-, heq⟩ | ⟨-, hp⟩
    · cases heq
    · exact h.kept p hp
  | fails h' => exact absurd h' hloses

/-- What an undisturbed step is to the session: nothing, or the next rotation. -/
theorem KeepsUp.explained (h : KeepsUp P userId b) (hs : SiteSteps P b event b')
    (hu : Undisturbed P userId b event) :
    b'.held = b'.world.refreshTokenOf userId ∧ (b'.rotation P userId).held ≠ ⊥ := by
  obtain ⟨a, ha, hex⟩ := h.inv.explained hs
  have hkept : a ≠ .drop := by
    rintro rfl
    cases hex with
    | loses hloses =>
      cases hs with
      | page hs hreads => exact h.not_loses hs hreads hu hloses
  refine ⟨(h.inv.step hs).current_iff.mp (ha.current (h.inv.current_iff.mpr h.current) ?_ hkept),
    ha.kept h.present hkept⟩
  rintro next rfl
  cases hex with
  | grants hreply huser => exact absurd huser (hu _ hreply)

/-- A refresh that is served in time is granted. -/
theorem KeepsUp.served (h : KeepsUp P userId b) {p : ℕ} {reply : Except Err Reply}
    (hs : SiteSteps P b (.served p reply) b') (hu : Undisturbed P userId b (.served p reply)) :
    ∃ r, reply = .ok r := by
  cases hs with
  | @served _ token _ _ hp hone hx =>
    have hheld : b.held = some token := by
      rw [held_of_unanswered h.inv.slot ⟨_, hp, rfl⟩ (by simp [hone]), h.inv.asked p token hp]
    obtain ⟨u, hu', htoken⟩ := Option.bind_eq_some_iff.mp (h.current.symm.trans hheld)
    exact served_ok h.inv.sessions (Rows.lookup_mem hu') htoken (hu token hp) hx

theorem KeepsUp.step (h : KeepsUp P userId b) (hs : SiteSteps P b event b')
    (hu : Undisturbed P userId b event) : KeepsUp P userId b' := by
  obtain ⟨hcurrent, hpresent⟩ := h.explained hs hu
  have hinv := h.inv.step hs
  cases hs with
  | page hs hreads =>
    obtain ⟨haccess, hkept⟩ := h.page hs (h.not_loses hs hreads hu)
    refine ⟨hinv, hcurrent, hpresent, haccess, fun p hp e he => ?_, hkept⟩
    rcases h.inv.inFlight_of_page hs hp with hp | hnone
    · exact h.granted p hp e he
    · rw [hnone] at he
      cases he
  | @served p token reply world hp hone hx =>
    refine ⟨hinv, hcurrent, hpresent, h.access, fun q hq e he => ?_, h.kept⟩
    obtain ⟨r, rfl⟩ := h.served (.served hp hone hx) hu
    replace he : Function.update b.answers p (some (.ok r)) q = some (.error e) := he
    by_cases hqp : q = p
    · subst hqp
      simp at he
    · rw [Function.update_of_ne hqp] at he
      exact h.granted q hq e he
  | server => exact ⟨hinv, hcurrent, hpresent, h.access, h.granted, h.kept⟩

theorem SignedIn.keepsUp (h : SignedIn P userId b) (hw : Sessions P b.world) :
    KeepsUp P userId b := by
  have hinv := h.inv hw
  obtain ⟨u, hu, rfl, n, -, haccess, hrefresh, -⟩ := h.tokens
  have hheld : b.held = some (P.jwt.sign (refreshPayload u.id n)) := by
    rw [held_of_idle h.isRefreshing, hrefresh]
    rfl
  refine ⟨hinv, h.current, ?_, by simp [haccess], fun p _ e he => ?_, fun p hp => ?_⟩
  · rw [rotation_held hheld]
    exact WithBot.coe_ne_bot
  · rw [h.answers] at he
    cases he
  · rw [h.refreshes] at hp
    simp at hp

/-- An access token of the user, while it lives, passes the gate. -/
theorem authenticates_access {w : World} {u : User} {n : ℕ} (hu : u ∈ w.db.users)
    (hlive : Live P (sessionTokens P u.id n).accessToken w.env.now) :
    Authenticates P w (some (bearer (sessionTokens P u.id n).accessToken)) u := by
  have hcarry : Carries (some (bearer (sessionTokens P u.id n).accessToken))
      (P.jwt.sign (accessPayload u.id n)) := .inr rfl
  obtain ⟨header, hheader, htoken⟩ := hcarry.tokenOf
  refine ⟨header, accessPayload u.id n, hheader, ?_, lookup_of_mem hu⟩
  rw [htoken]
  exact ⟨P.jwt.sign_ne_empty _, hlive, P.jwt.decode_sign _⟩

theorem KeepsUp.run (h : KeepsUp P userId b₀)
    (hrun : SiteRunWhere P (Undisturbed P userId) b₀ evs b) :
    KeepsUp P userId b ∧ ∀ p e, .served p (.error e) ∉ evs := by
  refine Trace.Run.invariant (I := fun evs b => KeepsUp P userId b ∧
    ∀ p e, .served p (.error e) ∉ evs) hrun ⟨h, fun _ _ => List.not_mem_nil⟩ ?_
  rintro evs b event b' ⟨hkeeps, hnone⟩ ⟨hs, hu⟩
  refine ⟨hkeeps.step hs hu, fun p e hmem => ?_⟩
  rcases List.mem_cons.mp hmem with rfl | hmem
  · obtain ⟨r, hr⟩ := hkeeps.served hs hu
    cases hr
  · exact hnone p e hmem

/-- As long as nobody else is granted a session of the user, every refresh reaches the server
before its token expires and no response is lost, the page is never signed out: its refresh token
is the one the server stores, no refresh is refused or fails, and its access token passes the gate
until it expires. -/
theorem session_survives (hrun : ServerRun P w₀ tr b₀.world) (h₀ : Fresh w₀)
    (hb : SignedIn P userId b₀) (h : SiteRunWhere P (Undisturbed P userId) b₀ evs b) :
    b.held = b.world.refreshTokenOf userId ∧ (∀ p e, .served p (.error e) ∉ evs) ∧
      (∀ p : ℕ, b.page.refreshes[p]? ≠ some (.settled false)) ∧
      ∃ u ∈ b.world.db.users, u.id = userId ∧ ∃ access,
        b.page.storage.accessToken = some access ∧
          (Live P access b.world.env.now →
            Authenticates P b.world (some (bearer access)) u) := by
  obtain ⟨hkeeps, hserved⟩ := (hb.keepsUp (ServerRun.sessions hrun h₀)).run h
  obtain ⟨u, hu, rfl⟩ := hkeeps.inv.user
  obtain ⟨access, haccess⟩ := Option.ne_none_iff_exists'.mp hkeeps.access
  obtain ⟨n, -, rfl⟩ := hkeeps.inv.access access haccess
  exact ⟨hkeeps.current, hserved, hkeeps.kept, u, hu, rfl, _, haccess, authenticates_access hu⟩

end Runs

namespace Sample

def annTokens : LoginResponse := sessionTokens packages "u1" env.now

/-- Ann's browser after her login. -/
def site : Site where
  page := { storage := ⟨some annTokens.accessToken, some annTokens.refreshToken, none⟩ }
  world := signedIn

set_option maxRecDepth 10000 in
theorem signedIn_rows : ∃ u ∈ signedIn.db.users, u.id = "u1" ∧
    u.refreshToken = some annTokens.refreshToken :=
  ⟨buyer signedIn, by decide +kernel⟩

theorem site_signedIn : SignedIn packages "u1" site where
  tokens := by
    obtain ⟨u, hu, hid, hrow⟩ := signedIn_rows
    exact ⟨u, hu, hid, env.now, by decide +kernel, rfl, rfl, hrow⟩

/-- The refresh after a 401, granted by the server. -/
def renewed : Client.RefreshData :=
  ⟨annTokens, packages.jwt.sign_ne_empty _, packages.jwt.sign_ne_empty _⟩

def refreshServed : Except Err Reply × World :=
  (handle packages (.refresh annTokens.refreshToken)).run signedIn

set_option maxRecDepth 10000 in
theorem refreshServed_facts : refreshServed.1 = .ok (.tokens annTokens) ∧
    Live packages annTokens.refreshToken signedIn.env.now := by
  decide +kernel

def refreshedEvents : List SiteEvent :=
  [.page (.refreshBody 0 (some renewed)), .page (.refreshAnswer 0 200),
    .served 0 (.ok (.tokens annTokens)), .page (.answer 0 401), .page .send]

def sentCall : Client.Call := ⟨.fetching, [(truthyText (some annTokens.accessToken)).map bearer]⟩

def askingPage : TrpcClient := site.page.send.answered 0 sentCall 401

theorem askingPage_eq : askingPage =
    { site.page with
      isRefreshing := true
      refreshPromise := some 0
      refreshes := [.fetching annTokens.refreshToken]
      calls := [{ sentCall with phase := .refreshing 401 0 }] } := by
  have htoken : truthyText (some annTokens.refreshToken) = some annTokens.refreshToken :=
    truthyText_of_ne (packages.jwt.sign_ne_empty _)
  simp [askingPage, site, TrpcClient.answered, TrpcClient.refreshAccessToken, TrpcClient.send,
    htoken]

def askingSite : Site := { site with page := askingPage }

def grantedSite : Site := { askingSite with
  world := refreshServed.2
  answers := Function.update site.answers 0 (some (.ok (.tokens annTokens))) }

def readingSite : Site := { grantedSite with page := askingPage.refreshAnswered 0 200 }

def refreshedSite : Site :=
  { grantedSite with page := (askingPage.refreshAnswered 0 200).refreshRead 0 (some renewed) }

theorem run_refreshedSite : SiteRunWhere packages (Undisturbed packages "u1") site refreshedEvents
    refreshedSite := by
  have hask : askingPage.refreshes[0]? = some (.fetching annTokens.refreshToken) := by
    rw [askingPage_eq]
    rfl
  have hread : (askingPage.refreshAnswered 0 200).refreshes[0]? = some .reading := by
    rw [askingPage_eq]
    rfl
  have hx : (handle packages (.refresh annTokens.refreshToken)).Exec signedIn
      (.ok (.tokens annTokens)) refreshServed.2 := by
    rw [← refreshServed_facts.1]
    exact Async.exec_run ..
  have hreply : grantedSite.answers 0 = some (.ok (.tokens annTokens)) := by
    simp [grantedSite]
  have hsend : SiteSteps packages site (.page .send) { site with page := site.page.send } :=
    .page .send trivial
  have hanswer : SiteSteps packages { site with page := site.page.send } (.page (.answer 0 401))
      askingSite :=
    have hcall : site.page.send.calls[0]? = some sentCall := rfl
    .page (.answer hcall rfl) trivial
  have hserved : SiteSteps packages askingSite (.served 0 (.ok (.tokens annTokens))) grantedSite :=
    .served hask rfl hx
  have hstatus : SiteSteps packages grantedSite (.page (.refreshAnswer 0 200)) readingSite :=
    .page (.refreshAnswer hask) ⟨_, hreply, rfl⟩
  have hbody : SiteSteps packages readingSite (.page (.refreshBody 0 (some renewed)))
      refreshedSite :=
    .page (.refreshBody hread) hreply
  have hlive : Undisturbed packages "u1" askingSite (.served 0 (.ok (.tokens annTokens))) := by
    intro token htoken
    cases Option.some.inj (htoken.symm.trans hask)
    exact refreshServed_facts.2
  exact .step (.step (.step (.step (.step .start ⟨hsend, trivial⟩) ⟨hanswer, trivial⟩)
    ⟨hserved, hlive⟩) ⟨hstatus, trivial⟩) ⟨hbody, trivial⟩

theorem siteRun_refreshedSite : SiteRun packages site refreshedEvents refreshedSite :=
  run_refreshedSite.mono fun _ _ _ _ hs => ⟨hs.1, trivial⟩

end Sample

/-- The refresh of Ann's page is one rotation. -/
theorem site_rotates_refreshed : ∃ actions,
    Rotation.Run (Sample.site.rotation Sample.packages "u1") actions
        (Sample.refreshedSite.rotation Sample.packages "u1") ∧
      List.Forall₂ (Explains Sample.packages "u1") Sample.refreshedEvents actions := by
  obtain ⟨tr, hrun⟩ := Sample.serverRun_signedIn
  exact site_rotates hrun Sample.start_fresh Sample.site_signedIn Sample.siteRun_refreshedSite

theorem session_current_or_over_refreshed :
    Sample.refreshedSite.held = Sample.refreshedSite.world.refreshTokenOf "u1" ∨
      ∀ evs' b', SiteRun Sample.packages Sample.refreshedSite evs' b' →
        b'.held ≠ b'.world.refreshTokenOf "u1" ∧
          ∀ p tokens, .served p (.ok (.tokens tokens)) ∉ evs' := by
  obtain ⟨tr, hrun⟩ := Sample.serverRun_signedIn
  exact session_current_or_over hrun Sample.start_fresh Sample.site_signedIn
    Sample.siteRun_refreshedSite

theorem session_survives_refreshed :
    Sample.refreshedSite.held = Sample.refreshedSite.world.refreshTokenOf "u1" ∧
      ∀ p : ℕ, Sample.refreshedSite.page.refreshes[p]? ≠ some (.settled false) := by
  obtain ⟨tr, hrun⟩ := Sample.serverRun_signedIn
  obtain ⟨hcurrent, -, hkept, -⟩ := session_survives hrun Sample.start_fresh Sample.site_signedIn
    Sample.run_refreshedSite
  exact ⟨hcurrent, hkept⟩

end CodebaseTrpc
