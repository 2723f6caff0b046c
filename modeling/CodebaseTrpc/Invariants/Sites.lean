import CodebaseTrpc.Client.Site
import CodebaseTrpc.Invariants.SessionTokens
import CodebaseTrpc.Properties.ClientRetry

/-! A page and the server: what each step does, and what holds of the tokens on the page and on
their way to it. -/
namespace CodebaseTrpc
open Client (TrpcClient Event Steps Slot)
open Rows

/-- The page makes nothing of its refresh, and forgets its tokens. -/
def LosesRefresh : Event → Prop
  | .refreshAnswer _ status => ¬ (200 ≤ status ∧ status ≤ 299)
  | .refreshBody _ none | .refreshReject _ => True
  | _ => False

section Page
variable {s t : TrpcClient} {event : Event}

/-- A step of the page, up to its calls. -/
inductive PageStep (s : TrpcClient) : Event → TrpcClient → Prop
  | same {event : Event} {calls : List Client.Call} : PageStep s event { s with calls }
  | starts {i : ℕ} {token : String} {calls : List Client.Call} (hidle : s.isRefreshing = false)
      (htoken : s.storage.refreshToken = some token) :
      PageStep s (.answer i 401) { s with
        calls
        isRefreshing := true
        refreshPromise := some s.refreshes.length
        refreshes := s.refreshes ++ [.fetching token] }
  | stops {i : ℕ} {calls : List Client.Call} (hidle : s.isRefreshing = false)
      (htoken : truthyText s.storage.refreshToken = none) :
      PageStep s (.answer i 401) { s with
        calls
        storage := s.storage.clearAuthData
        isRefreshing := false
        refreshPromise := some s.refreshes.length
        refreshes := s.refreshes ++ [.settled false] }
  | reads {p status : ℕ} {token : String} (hp : s.refreshes[p]? = some (.fetching token))
      (hok : 200 ≤ status ∧ status ≤ 299) :
      PageStep s (.refreshAnswer p status) { s with refreshes := s.refreshes.set p .reading }
  | succeeds {p : ℕ} {data : Client.RefreshData} (hp : s.InFlight p) :
      PageStep s (.refreshBody p (some data))
        ({ s with storage := s.storage.setTokens data.toLoginResponse }.settle p true)
  | fails {event : Event} {p : ℕ} (hloses : LosesRefresh event) (hp : s.InFlight p) :
      PageStep s event (s.failRefresh p)

theorem Client.Steps.page (h : Steps s event t) : PageStep s event t := by
  cases h with
  | send => exact .same
  | @answer i status call hi =>
    unfold TrpcClient.answered
    split_ifs with hidle
    · obtain ⟨rfl, hidle⟩ := hidle
      rw [TrpcClient.refreshAccessToken, hidle]
      cases ht : truthyText s.storage.refreshToken with
      | none => exact .stops hidle ht
      | some token => exact .starts hidle (truthyText_eq_some ht).1
    · exact .same
  | retryAnswer => exact .same
  | reject => exact .same
  | refreshAnswer hp =>
    unfold TrpcClient.refreshAnswered
    split_ifs with hok
    · exact .reads hp hok
    · exact .fails hok ⟨_, hp, rfl⟩
  | @refreshBody p data hp =>
    cases data with
    | none => exact .fails trivial ⟨_, hp, rfl⟩
    | some data => exact .succeeds ⟨_, hp, rfl⟩
  | refreshReject hp hr => exact .fails trivial ⟨_, hp, hr⟩
  | resume =>
    unfold TrpcClient.resumed
    split_ifs <;> exact .same

end Page

section Tokens
variable {P : Packages} {w w' : World} {userId : String}

/-- The token in the user's row is one of the user, issued by now. -/
theorem Sessions.refreshTokenOf {token : String} (h : Sessions P w)
    (ht : w.refreshTokenOf userId = some token) : RefreshOf P userId w.env.now token := by
  obtain ⟨u, hu, htoken⟩ := Option.bind_eq_some_iff.mp ht
  rw [← Rows.lookup_key hu]
  exact h.stored u (Rows.lookup_mem hu) token htoken

/-- A refresh with a token of the user is refused, or starts its next session. -/
theorem served_cases {token : String} {reply : Except Err Reply} (h : Sessions P w)
    (htoken : RefreshOf P userId w.env.now token)
    (hx : (handle P (.refresh token)).Exec w reply w') :
    ((∃ e, reply = .error e) ∧ w' = w) ∨ ∃ u ∈ w.db.users, u.id = userId ∧
      u.refreshToken = some token ∧ reply = .ok (.tokens (sessionTokens P userId w.env.now)) ∧
        w' = w.openSession P userId := by
  cases effect_of_exec h.trx hx with
  | none hnone => exact .inl ⟨hnone.resolve_right id, rfl⟩
  | @refresh _ u _ hl =>
    have hu := Rows.lookup_mem hl
    have hheld := Rows.lookup_key hl
    obtain ⟨n, -, rfl⟩ := htoken
    obtain ⟨m, -, hm⟩ := h.stored u hu _ hheld
    obtain rfl := (refreshPayload_inj hm).1
    exact .inr ⟨u, hu, rfl, hheld, rfl, rfl⟩

theorem refreshTokenOf_openSession {u : User} (hu : u ∈ w.db.users) :
    (w.openSession P u.id).refreshTokenOf u.id =
      some (P.jwt.sign (refreshPayload u.id w.env.now)) := by
  obtain ⟨v, hv⟩ := lookup_settle (lookup_of_mem hu)
  rw [World.refreshTokenOf, openSession_users,
    Rows.lookup_update_self fun _ => UserUpdates.apply_id .., hv]
  rfl

/-- Another request keeps the user's session, or hands out the next one. -/
theorem entry_cases {entry : Entry} (h : Sessions P w)
    (hs : Serves P w entry w') {u : User} (hu : u ∈ w.db.users) :
    (∃ u' ∈ w'.db.users, u'.id = u.id ∧ u'.refreshToken = u.refreshToken) ∨
      ∃ x, entry = .call x ∧ x.reply = .ok (.tokens (sessionTokens P u.id w.env.now)) ∧
        ∃ u' ∈ w'.db.users, u'.id = u.id ∧
          u'.refreshToken = some (P.jwt.sign (refreshPayload u.id w.env.now)) := by
  cases hs with
  | idle => exact .inl ⟨u, hu, rfl, rfl⟩
  | call hx =>
    obtain ⟨u', hu', hg⟩ := (effect_of_exec h.trx hx).granted.exists_new hu
    rcases hg.refreshToken with ht | ⟨hreply, ht⟩
    · exact .inl ⟨u', hu', hg.id, ht⟩
    · exact .inr ⟨_, rfl, hreply, u', hu', hg.id, ht⟩

end Tokens

section Invariant
variable {P : Packages} {userId : String} {b b' b₀ : Site} {event : SiteEvent}
  {evs : List SiteEvent}

theorem held_of_idle (h : b.page.isRefreshing = false) :
    b.held = b.page.storage.refreshToken := by
  simp [Site.held, h]

theorem held_of_unanswered {p : ℕ} (hslot : Slot b.page) (hp : b.page.InFlight p)
    (h : ∀ reply, b.answers p ≠ some (.ok reply)) : b.held = b.page.storage.refreshToken := by
  obtain ⟨hflag, hpromise⟩ := hslot.current p hp
  simp only [Site.held, hflag, hpromise]
  split
  next tokens ht => exact absurd ht (h _)
  next => rfl

theorem held_of_answered {p : ℕ} {tokens : LoginResponse} (hslot : Slot b.page)
    (hp : b.page.InFlight p) (h : b.answers p = some (.ok (.tokens tokens))) :
    b.held = some tokens.refreshToken := by
  obtain ⟨hflag, hpromise⟩ := hslot.current p hp
  simp only [Site.held, hflag, hpromise, h]

/-- The tokens on the page and on their way are the user's. -/
structure SiteInv (P : Packages) (userId : String) (b : Site) : Prop where
  slot : Slot b.page
  sessions : Sessions P b.world
  user : ∃ u ∈ b.world.db.users, u.id = userId
  access : ∀ token ∈ b.page.storage.accessToken, ∃ n ≤ b.world.env.now,
    token = (sessionTokens P userId n).accessToken
  refresh : ∀ token ∈ b.page.storage.refreshToken, RefreshOf P userId b.world.env.now token
  asked : ∀ (p : ℕ) token, b.page.refreshes[p]? = some (.fetching token) →
    b.page.storage.refreshToken = some token
  answered : ∀ (p : ℕ) reply, b.answers p = some (.ok reply) → ∃ n ≤ b.world.env.now,
    reply = .tokens (sessionTokens P userId n)
  unasked : ∀ p : ℕ, b.page.refreshes.length ≤ p → b.answers p = none

/-- The storage is not touched while the one refresh is in flight. -/
theorem SiteInv.no_other {p q : ℕ} {token : String} {refreshed : Bool} (h : SiteInv P userId b)
    (hp : b.page.InFlight p) :
    (b.page.refreshes.set p (.settled refreshed))[q]? ≠ some (.fetching token) := by
  intro hq
  rcases getElem?_set_cases hq with ⟨-, heq⟩ | ⟨hne, hq⟩
  · cases heq
  · exact hne (h.slot.one q p ⟨_, hq, rfl⟩ hp)

theorem SiteInv.page {page : TrpcClient} {event : Event} (h : SiteInv P userId b)
    (hs : Steps b.page event page) (hreads : b.Reads event) :
    SiteInv P userId { b with page } := by
  have hslot := h.slot.step hs
  cases hs.page with
  | same => exact { h with slot := hslot }
  | @starts _ token _ hidle htoken =>
    refine { h with slot := hslot, asked := ?_, unasked := fun p hp => h.unasked p ?_ }
    · intro p token' hp
      rcases getElem?_append_cases hp with ⟨-, heq⟩ | ⟨-, hp⟩
      · cases heq
        exact htoken
      · exact h.asked p token' hp
    · simp only [List.length_append] at hp
      omega
  | stops hidle =>
    refine { h with
      slot := hslot
      access := fun _ h => by cases h
      refresh := fun _ h => by cases h
      asked := ?_
      unasked := fun p hp => h.unasked p ?_ }
    · intro p token hp
      rcases getElem?_append_cases hp with ⟨-, heq⟩ | ⟨-, hp⟩
      · cases heq
      · exact absurd ⟨_, hp, rfl⟩ (h.slot.idle_iff.mp hidle p)
    · simp only [List.length_append] at hp
      omega
  | reads hp =>
    refine { h with slot := hslot, asked := ?_, unasked := fun p hp => h.unasked p ?_ }
    · intro q token hq
      rcases getElem?_set_cases hq with ⟨-, heq⟩ | ⟨-, hq⟩
      · cases heq
      · exact h.asked q token hq
    · simpa using hp
  | @succeeds p data hp =>
    obtain ⟨n, hn, hdata⟩ := h.answered p _ hreads
    have hdata := Reply.tokens.inj hdata
    refine { h with
      slot := hslot
      access := ?_
      refresh := ?_
      asked := ?_
      unasked := fun p hp => h.unasked p ?_ }
    · rintro _ ⟨⟩
      exact ⟨n, hn, by rw [hdata]⟩
    · rintro _ ⟨⟩
      exact ⟨n, hn, by rw [hdata]; rfl⟩
    · exact fun q token hq => absurd hq (h.no_other hp)
    · simpa [TrpcClient.settle] using hp
  | fails _ hp =>
    refine { h with
      slot := hslot
      access := fun _ h => by cases h
      refresh := fun _ h => by cases h
      asked := ?_
      unasked := fun p hp => h.unasked p ?_ }
    · exact fun q token hq => absurd hq (h.no_other hp)
    · simpa [TrpcClient.failRefresh, TrpcClient.settle] using hp

/-- The clock of the server goes on. -/
theorem SiteInv.world {world : World} {answers : ℕ → Option (Except Err Reply)}
    (h : SiteInv P userId b) (hsessions : Sessions P world)
    (hnow : b.world.env.now ≤ world.env.now)
    (huser : ∃ u ∈ world.db.users, u.id = userId)
    (hanswered : ∀ (p : ℕ) reply, answers p = some (.ok reply) →
      ∃ n ≤ world.env.now, reply = .tokens (sessionTokens P userId n))
    (hunasked : ∀ p : ℕ, b.page.refreshes.length ≤ p → answers p = none) :
    SiteInv P userId { b with world, answers } where
  slot := h.slot
  sessions := hsessions
  user := huser
  access token ht := by
    obtain ⟨n, hn, rfl⟩ := h.access token ht
    exact ⟨n, Nat.le_trans hn hnow, rfl⟩
  refresh token ht := (h.refresh token ht).mono hnow
  asked := h.asked
  answered := hanswered
  unasked := hunasked

/-- What was answered before it was answered again. -/
theorem SiteInv.answered_mono {now : ℕ} (h : SiteInv P userId b) (hnow : b.world.env.now ≤ now)
    (p : ℕ) (reply : Reply) (hp : b.answers p = some (.ok reply)) :
    ∃ n ≤ now, reply = .tokens (sessionTokens P userId n) := by
  obtain ⟨n, hn, hreply⟩ := h.answered p reply hp
  exact ⟨n, Nat.le_trans hn hnow, hreply⟩

theorem SiteInv.server {entry : Entry} {world : World} (h : SiteInv P userId b)
    (hs : Serves P b.world entry world) : SiteInv P userId { b with world } := by
  have hnow : b.world.env.now ≤ world.env.now := by
    cases hs with
    | idle hle => exact hle
    | call hx => rw [(effect_of_exec h.sessions.trx hx).env]
  obtain ⟨u, hu, rfl⟩ := h.user
  refine h.world (h.sessions.serves hs) hnow ?_ (h.answered_mono hnow) h.unasked
  rcases entry_cases h.sessions hs hu with ⟨u', hu', hid, -⟩ | ⟨-, -, -, u', hu', hid, -⟩
  · exact ⟨u', hu', hid⟩
  · exact ⟨u', hu', hid⟩

theorem SiteInv.served {p : ℕ} {token : String} {reply : Except Err Reply} {world : World}
    (h : SiteInv P userId b) (hp : b.page.refreshes[p]? = some (.fetching token))
    (hx : (handle P (.refresh token)).Exec b.world reply world) :
    SiteInv P userId { b with world, answers := Function.update b.answers p (some reply) } := by
  have hserves : Serves P b.world (.call ⟨b.world, .refresh token, reply, world⟩) world := .call hx
  have hinv := h.server hserves
  have hnow : b.world.env.now = world.env.now := by rw [(effect_of_exec h.sessions.trx hx).env]
  refine h.world hinv.sessions hnow.le hinv.user (fun q r hq => ?_) fun q hq => ?_
  · by_cases hqp : q = p
    · subst hqp
      obtain rfl : reply = .ok r := by simpa using hq
      rcases served_cases h.sessions (h.refresh token (h.asked _ _ hp)) hx with
        ⟨⟨e, heq⟩, -⟩ | ⟨u, -, -, -, hreply, -⟩
      · cases heq
      · exact ⟨b.world.env.now, hnow.le, Except.ok.inj hreply⟩
    · rw [Function.update_of_ne hqp] at hq
      exact h.answered_mono hnow.le q r hq
  · have hlt := (List.getElem?_eq_some_iff.mp hp).1
    rw [Function.update_of_ne (by omega)]
    exact h.unasked q hq

theorem SiteInv.step (h : SiteInv P userId b) (hs : SiteSteps P b event b') :
    SiteInv P userId b' := by
  cases hs with
  | page hs hreads => exact h.page hs hreads
  | served hp _ hx => exact h.served hp hx
  | server hs => exact h.server hs

theorem SiteInv.held_refreshOf {token : String} (h : SiteInv P userId b)
    (ht : b.held = some token) : RefreshOf P userId b.world.env.now token := by
  unfold Site.held at ht
  split at ht
  · split at ht
    next hp =>
      obtain ⟨n, hn, hreply⟩ := h.answered _ _ hp
      cases Reply.tokens.inj hreply
      exact ⟨n, hn, (Option.some.inj ht).symm⟩
    next => exact h.refresh token ht
  · exact h.refresh token ht

theorem SiteInv.run {C : Site → SiteEvent → Prop} (h : SiteInv P userId b₀)
    (hrun : SiteRunWhere P C b₀ evs b) : SiteInv P userId b :=
  Trace.Run.invariant (I := fun _ b => SiteInv P userId b) hrun h fun _ _ _ _ hi hs =>
    hi.step hs.1

/-- A refresh in flight on the page after a step was so before, or has just been asked for. -/
theorem SiteInv.inFlight_of_page {page : TrpcClient} {event : Event} {p : ℕ}
    (h : SiteInv P userId b) (hs : Steps b.page event page) (hp : page.InFlight p) :
    b.page.InFlight p ∨ b.answers p = none := by
  by_cases hlt : p < b.page.refreshes.length
  · left
    by_contra hidle
    have hget := List.getElem?_eq_getElem hlt
    cases hr : b.page.refreshes[p] with
    | settled refreshed => exact hp.not_settled (hs.settled (hget.trans (congrArg some hr)))
    | fetching token => exact hidle ⟨_, hget.trans (congrArg some hr), rfl⟩
    | reading => exact hidle ⟨_, hget.trans (congrArg some hr), rfl⟩
  · exact .inr (h.unasked p (Nat.le_of_not_lt hlt))

end Invariant

end CodebaseTrpc
