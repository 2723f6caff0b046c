import CodebaseTrpc.Client.TrpcClient
import CodebaseTrpc.Store.Rows

/-! A 401 in the browser: one refresh at a time, and whether the call is tried again with the new
token. A call whose 401 comes while a refresh is in flight does not wait for it. -/
namespace CodebaseTrpc.Client
open Rows
variable {s t s₀ : TrpcClient} {tr : List Event} {event : Event}

/-- The page once the module is loaded, with a refresh token stored. -/
structure Loaded (s : TrpcClient) : Prop where
  isRefreshing : s.isRefreshing = false := by rfl
  refreshes : s.refreshes = [] := by rfl
  calls : s.calls = [] := by rfl
  refreshToken : (truthyText s.storage.refreshToken).isSome = true := by rfl

def TrpcClient.InFlight (s : TrpcClient) (promise : ℕ) : Prop :=
  ∃ r, s.refreshes[promise]? = some r ∧ r.inFlight = true

def TrpcClient.OneRefresh (s : TrpcClient) : Prop :=
  ∀ p q, s.InFlight p → s.InFlight q → p = q

/-- The access tokens that refreshes brought. -/
def delivered (tr : List Event) : List String :=
  tr.filterMap fun
    | .refreshBody _ data => data.map fun data => data.accessToken
    | _ => none

/-- The call was tried again, once and with one of the tokens. -/
def Call.Retried (tokens : List String) (c : Call) : Prop :=
  ∃ authorization, ∃ token ∈ tokens, c.sent = [authorization, some (bearer token)]

/-- The call waits for a refresh that has not failed. -/
def TrpcClient.Waits (s : TrpcClient) (c : Call) : Prop :=
  c.sent.length = 1 ∧ ∃ promise, c.phase = .refreshing 401 promise ∧
    (s.InFlight promise ∨ s.refreshes[promise]? = some (.settled true))

/-- Every call that got a 401 was tried again, or is going to be. -/
def AllRetry (tr : List Event) (s : TrpcClient) : Prop :=
  ∀ i, .answer i 401 ∈ tr → ∃ c, s.calls[i]? = some c ∧ (c.Retried (delivered tr) ∨ s.Waits c)

/-- Every call that got a 401 was tried again. -/
def AllRetried (tr : List Event) (s : TrpcClient) : Prop :=
  ∀ i, .answer i 401 ∈ tr → ∃ c, s.calls[i]? = some c ∧ c.Retried (delivered tr)

/-- Nothing happens on the page before the next call. -/
def TrpcClient.Quiet (s : TrpcClient) : Prop := ∀ event t, Steps s event t → event = .send

/-- The first refresh of the run has succeeded. -/
def TrpcClient.FirstSucceeded (s : TrpcClient) : Prop := s.refreshes[0]? = some (.settled true)

/-- No 401 comes while a refresh is in flight, and no refresh fails. -/
def Timely (s : TrpcClient) : Event → Prop
  | .answer _ status => status = 401 → ∀ promise, ¬ s.InFlight promise
  | .refreshAnswer _ status => 200 ≤ status ∧ status ≤ 299
  | .refreshBody _ data => data ≠ none
  | .refreshReject _ => False
  | _ => True

abbrev TimelyRun (s₀ : TrpcClient) (tr : List Event) (s : TrpcClient) : Prop :=
  Trace.Run (fun _ s event t => Steps s event t ∧ Timely s event) s₀ tr s

/-- With no refresh on its way a new one is started, or fails at once for want of a token. -/
theorem refreshAccessToken_idle (h : s.isRefreshing = false) :
    ∃ storage r, s.refreshAccessToken = ({ s with
        storage
        isRefreshing := r.inFlight
        refreshPromise := some s.refreshes.length
        refreshes := s.refreshes ++ [r] }, s.refreshes.length) ∧
      ((truthyText s.storage.refreshToken).isSome = true →
        r.inFlight = true ∧ storage = s.storage) := by
  rw [TrpcClient.refreshAccessToken, h]
  cases ht : truthyText s.storage.refreshToken with
  | none => exact ⟨_, .settled false, rfl, by simp⟩
  | some token => exact ⟨s.storage, .fetching token, rfl, fun _ => ⟨rfl, rfl⟩⟩

theorem TrpcClient.InFlight.not_settled {p : ℕ} {refreshed : Bool} (h : s.InFlight p) :
    s.refreshes[p]? ≠ some (.settled refreshed) := by
  obtain ⟨r, hp, hr⟩ := h
  rw [hp]
  rintro heq
  obtain rfl := Option.some.inj heq
  cases hr

/-- The page after a step, up to its calls. -/
inductive Refreshes (s : TrpcClient) : Event → TrpcClient → Prop
  | same {event : Event} {calls : List Call} : Refreshes s event { s with calls }
  | starts {i : ℕ} {c : Call} {calls : List Call} {storage : Storage} {r : RefreshState}
      (hidle : s.isRefreshing = false) (hi : calls[i]? = some c)
      (hphase : c.phase = .refreshing 401 s.refreshes.length)
      (htoken : (truthyText s.storage.refreshToken).isSome = true →
        r.inFlight = true ∧ storage = s.storage) :
      Refreshes s (.answer i 401) { s with
        storage, calls
        isRefreshing := r.inFlight
        refreshPromise := some s.refreshes.length
        refreshes := s.refreshes ++ [r] }
  | reads {p status : ℕ} {r : RefreshState} (hp : s.refreshes[p]? = some r)
      (hr : r.inFlight = true) :
      Refreshes s (.refreshAnswer p status) { s with refreshes := s.refreshes.set p .reading }
  | succeeds {p : ℕ} {data : RefreshData} (hp : s.InFlight p) :
      Refreshes s (.refreshBody p (some data))
        ({ s with storage := s.storage.setTokens data.toLoginResponse }.settle p true)
  | fails {event : Event} {p : ℕ} (hlate : ¬ Timely s event) (hp : s.InFlight p) :
      Refreshes s event (s.failRefresh p)

theorem Steps.refreshes (h : Steps s event t) : Refreshes s event t := by
  cases h with
  | send => exact .same
  | @answer i status call hi =>
    unfold TrpcClient.answered
    split_ifs with hidle
    · obtain ⟨rfl, hidle⟩ := hidle
      obtain ⟨storage, r, heq, htoken⟩ := refreshAccessToken_idle hidle
      rw [heq]
      exact .starts hidle (getElem?_set_of_some hi) rfl htoken
    · exact .same
  | retryAnswer => exact .same
  | reject => exact .same
  | refreshAnswer hp =>
    unfold TrpcClient.refreshAnswered
    split_ifs with hok
    · exact .reads hp rfl
    · exact .fails hok ⟨_, hp, rfl⟩
  | @refreshBody p data hp =>
    cases data with
    | none => exact .fails (not_not.mpr rfl) ⟨_, hp, rfl⟩
    | some data => exact .succeeds ⟨_, hp, rfl⟩
  | refreshReject hp hr => exact .fails id ⟨_, hp, hr⟩
  | resume =>
    unfold TrpcClient.resumed
    split_ifs <;> exact .same

/-- The variables of the module say which refresh is in flight. -/
structure Slot (s : TrpcClient) : Prop where
  current : ∀ p, s.InFlight p → s.isRefreshing = true ∧ s.refreshPromise = some p
  busy : s.isRefreshing = true → ∃ p, s.InFlight p

theorem Slot.one (h : Slot s) : s.OneRefresh := by
  intro p q hp hq
  have heq := (h.current p hp).2.symm.trans (h.current q hq).2
  exact Option.some.inj heq

theorem Slot.idle_iff (h : Slot s) : s.isRefreshing = false ↔ ∀ p, ¬ s.InFlight p := by
  constructor
  · intro hidle p hp
    rw [(h.current p hp).1] at hidle
    cases hidle
  · intro hnone
    by_contra hbusy
    obtain ⟨p, hp⟩ := h.busy (by simpa using hbusy)
    exact hnone p hp

theorem Slot.start {r : RefreshState} (h : Slot s) (hidle : s.isRefreshing = false)
    (hr : t.refreshes = s.refreshes ++ [r]) (hflag : t.isRefreshing = r.inFlight)
    (hpromise : t.refreshPromise = some s.refreshes.length) : Slot t where
  current p := by
    rintro ⟨r', hp, hr'⟩
    rw [hr] at hp
    rcases getElem?_append_cases hp with ⟨rfl, rfl⟩ | ⟨-, hp⟩
    · exact ⟨hflag.trans hr', hpromise⟩
    · exact absurd ⟨r', hp, hr'⟩ (h.idle_iff.mp hidle p)
  busy hbusy := by
    refine ⟨s.refreshes.length, r, ?_, hflag.symm.trans hbusy⟩
    rw [hr]
    simp

theorem Slot.read {p : ℕ} {r : RefreshState} (h : Slot s) (hp : s.refreshes[p]? = some r)
    (hr : r.inFlight = true) :
    Slot { s with refreshes := s.refreshes.set p .reading } where
  current q := by
    rintro ⟨r', hq, hr'⟩
    rcases getElem?_set_cases hq with ⟨rfl, -⟩ | ⟨-, hq⟩
    · exact h.current _ ⟨r, hp, hr⟩
    · exact h.current q ⟨r', hq, hr'⟩
  busy _ := ⟨p, .reading, getElem?_set_of_some hp, rfl⟩

theorem Slot.settle {p : ℕ} {storage : Storage} {refreshed : Bool} (h : Slot s)
    (hp : s.InFlight p) : Slot ({ s with storage }.settle p refreshed) where
  current q := by
    rintro ⟨r', hq, hr'⟩
    rcases getElem?_set_cases hq with ⟨rfl, rfl⟩ | ⟨hne, hq⟩
    · cases hr'
    · exact absurd (h.one q p ⟨r', hq, hr'⟩ hp) hne
  busy hbusy := by cases hbusy

theorem Slot.step (h : Slot s) (hs : Steps s event t) : Slot t := by
  cases hs.refreshes with
  | same => exact ⟨h.current, h.busy⟩
  | starts hidle => exact h.start hidle rfl rfl rfl
  | reads hp hr => exact h.read hp hr
  | succeeds hp => exact h.settle hp
  | fails _ hp => exact h.settle hp

inductive Moves (s : TrpcClient) : Event → ℕ → Call → Call → Prop
  | stays {event : Event} {i : ℕ} {c : Call} (hother : ∀ status, event ≠ .answer i status) :
      Moves s event i c c
  | returns {i status : ℕ} {c : Call} (hc : c.phase = .fetching)
      (hbusy : status = 401 → s.isRefreshing = true) :
      Moves s (.answer i status) i c { c with phase := .returned status }
  | waits {i : ℕ} {c : Call} (hc : c.phase = .fetching) (hidle : s.isRefreshing = false) :
      Moves s (.answer i 401) i c { c with phase := .refreshing 401 s.refreshes.length }
  | retries {i status p : ℕ} {c : Call} (hc : c.phase = .refreshing status p)
      (hp : s.refreshes[p]? = some (.settled true)) :
      Moves s (.resume i) i c ⟨.retrying, c.sent ++ [some s.authorization]⟩
  | givesUp {i status p : ℕ} {c : Call} (hc : c.phase = .refreshing status p)
      (hp : s.refreshes[p]? = some (.settled false)) :
      Moves s (.resume i) i c { c with phase := .returned status }
  | ends {event : Event} {i : ℕ} {c : Call} {phase : Phase}
      (hother : ∀ status, event ≠ .answer i status) (hc : c.phase = .fetching ∨ c.phase = .retrying)
      (hphase : phase = .rejected ∨ ∃ status, phase = .returned status ∧ c.phase = .retrying) :
      Moves s event i c { c with phase }

theorem Steps.moves {j : ℕ} {c : Call} (h : Steps s event t) (hj : s.calls[j]? = some c) :
    ∃ c', t.calls[j]? = some c' ∧ Moves s event j c c' := by
  have hset : ∀ {i : ℕ} {call : Call} (call' : Call), s.calls[i]? = some call →
      (∀ k status, k ≠ i → event ≠ .answer k status) → Moves s event i call call' →
        ∃ c', (s.calls.set i call')[j]? = some c' ∧ Moves s event j c c' := by
    intro i call call' hi hother hmoves
    by_cases hij : j = i
    · subst hij
      obtain rfl := Option.some.inj (hj.symm.trans hi)
      exact ⟨_, getElem?_set_of_some hi, hmoves⟩
    · refine ⟨c, ?_, .stays fun status => hother j status hij⟩
      rw [List.getElem?_set_ne (Ne.symm hij), hj]
  cases h with
  | send =>
    exact ⟨c, List.getElem?_append_left (List.getElem?_eq_some_iff.mp hj).1 ▸ hj, .stays (by simp)⟩
  | @answer i status call hi hphase =>
    have hother : ∀ k st, k ≠ i → Event.answer i status ≠ .answer k st := by
      rintro k st hne heq
      cases heq
      exact hne rfl
    unfold TrpcClient.answered
    split_ifs with hidle
    · obtain ⟨rfl, hidle⟩ := hidle
      obtain ⟨storage, r, heq, -⟩ := refreshAccessToken_idle hidle
      rw [heq]
      exact hset _ hi hother (.waits hphase hidle)
    · exact hset _ hi hother (.returns hphase fun h401 => by simpa [h401] using hidle)
  | retryAnswer hi hphase =>
    exact hset _ hi (by simp) (.ends (by simp) (.inr hphase) (.inr ⟨_, rfl, hphase⟩))
  | reject hi hphase => exact hset _ hi (by simp) (.ends (by simp) hphase (.inl rfl))
  | resume hi hphase hp =>
    unfold TrpcClient.resumed
    split_ifs with hrefreshed
    · subst hrefreshed
      exact hset _ hi (by simp) (.retries hphase hp)
    · obtain rfl : _ = false := by simpa using hrefreshed
      exact hset _ hi (by simp) (.givesUp hphase hp)
  | refreshAnswer =>
    refine ⟨c, ?_, .stays (by simp)⟩
    unfold TrpcClient.refreshAnswered
    split_ifs <;> exact hj
  | @refreshBody _ data =>
    refine ⟨c, ?_, .stays (by simp)⟩
    cases data <;> exact hj
  | refreshReject => exact ⟨c, hj, .stays (by simp)⟩

theorem Steps.settled {p : ℕ} {refreshed : Bool} (h : Steps s event t)
    (hp : s.refreshes[p]? = some (.settled refreshed)) :
    t.refreshes[p]? = some (.settled refreshed) := by
  have hset : ∀ {q : ℕ} (r : RefreshState), s.InFlight q →
      (s.refreshes.set q r)[p]? = some (.settled refreshed) := by
    intro q r hq
    have hne : q ≠ p := by
      rintro rfl
      exact hq.not_settled hp
    rw [List.getElem?_set_ne hne, hp]
  cases h.refreshes with
  | same => exact hp
  | starts => exact List.getElem?_append_left (List.getElem?_eq_some_iff.mp hp).1 ▸ hp
  | reads hq hr => exact hset _ ⟨_, hq, hr⟩
  | succeeds hq => exact hset _ hq
  | fails _ hq => exact hset _ hq

/-- A refresh is started by a call that got a 401. -/
theorem Steps.started {p : ℕ} (h : Steps s event t) (hp : t.InFlight p) :
    s.InFlight p ∨ ∃ i, event = .answer i 401 ∧
      ∃ c, t.calls[i]? = some c ∧ c.phase = .refreshing 401 p := by
  have hset : ∀ {q : ℕ} {r r' : RefreshState}, s.InFlight q →
      (s.refreshes.set q r)[p]? = some r' → r'.inFlight = true → s.InFlight p := by
    intro q r r' hq hp hr'
    rcases getElem?_set_cases hp with ⟨rfl, -⟩ | ⟨-, hp⟩
    · exact hq
    · exact ⟨r', hp, hr'⟩
  obtain ⟨r', hp, hr'⟩ := hp
  cases h.refreshes with
  | same => exact .inl ⟨r', hp, hr'⟩
  | starts _ hi hphase =>
    rcases getElem?_append_cases hp with ⟨rfl, -⟩ | ⟨-, hp⟩
    · exact .inr ⟨_, rfl, _, hi, hphase⟩
    · exact .inl ⟨r', hp, hr'⟩
  | reads hq hr => exact .inl (hset ⟨_, hq, hr⟩ hp hr')
  | succeeds hq => exact .inl (hset hq hp hr')
  | fails _ hq => exact .inl (hset hq hp hr')

/-- A refresh that does not fail goes on, or has succeeded. -/
theorem Steps.goesOn {p : ℕ} (h : Steps s event t) (htimely : Timely s event)
    (hp : s.InFlight p) : t.InFlight p ∨ t.refreshes[p]? = some (.settled true) := by
  obtain ⟨r, hp, hr⟩ := hp
  cases h.refreshes with
  | same => exact .inl ⟨r, hp, hr⟩
  | starts =>
    exact .inl ⟨r, List.getElem?_append_left (List.getElem?_eq_some_iff.mp hp).1 ▸ hp, hr⟩
  | @reads q =>
    by_cases hpq : q = p
    · subst hpq
      exact .inl ⟨.reading, getElem?_set_of_some hp, rfl⟩
    · exact .inl ⟨r, by rw [List.getElem?_set_ne hpq, hp], hr⟩
  | @succeeds q data =>
    by_cases hpq : q = p
    · subst hpq
      exact .inr (getElem?_set_of_some hp)
    · refine .inl ⟨r, ?_, hr⟩
      rw [TrpcClient.settle, List.getElem?_set_ne hpq, hp]
  | fails hlate => exact absurd htimely hlate

/-- What makes a step untimely: its call returns a 401, or a refresh fails. -/
theorem Steps.untimely (h : Steps s event t) (hslot : Slot s) (hlate : ¬ Timely s event) :
    (∃ i c, event = .answer i 401 ∧ s.calls[i]? = some c ∧ c.phase = .fetching ∧
      t.calls[i]? = some { c with phase := .returned 401 }) ∨
    ∃ p, s.InFlight p ∧ t.refreshes[p]? = some (.settled false) := by
  cases h with
  | @answer i status call hi hphase =>
    simp only [Timely, not_forall, not_not] at hlate
    obtain ⟨rfl, p, hp⟩ := hlate
    refine .inl ⟨i, call, rfl, hi, hphase, ?_⟩
    rw [TrpcClient.answered, if_neg (by simp [(hslot.current p hp).1])]
    exact getElem?_set_of_some hi
  | @refreshAnswer p status _ hp =>
    have hbad : ¬ (200 ≤ status ∧ status ≤ 299) := hlate
    refine .inr ⟨p, ⟨_, hp, rfl⟩, ?_⟩
    rw [TrpcClient.refreshAnswered, if_neg hbad]
    exact getElem?_set_of_some hp
  | @refreshBody p data hp =>
    obtain rfl : data = none := not_not.mp hlate
    exact .inr ⟨p, ⟨_, hp, rfl⟩, getElem?_set_of_some hp⟩
  | @refreshReject p r hp hr => exact .inr ⟨p, ⟨r, hp, hr⟩, getElem?_set_of_some hp⟩
  | _ => exact absurd trivial hlate

/-- Where the calls are that have sent one request. -/
structure Sound (tr : List Event) (s : TrpcClient) : Prop where
  slot : Slot s
  first : ∀ (i : ℕ) (c : Call), s.calls[i]? = some c → (c.phase = .fetching → c.sent.length = 1) ∧
    ∀ status p, c.phase = .refreshing status p → status = 401 ∧ c.sent.length = 1
  starter : ∀ p, s.InFlight p → ∃ (i : ℕ) (c : Call), .answer i 401 ∈ tr ∧ s.calls[i]? = some c ∧
    c.phase = .refreshing 401 p

theorem Steps.calls_length (h : Steps s event t) :
    t = s.send ∨ t.calls.length = s.calls.length := by
  cases h with
  | send => exact .inl rfl
  | @answer i status call =>
    right
    unfold TrpcClient.answered
    split_ifs with hidle
    · obtain ⟨storage, r, heq, -⟩ := refreshAccessToken_idle hidle.2
      rw [heq]
      exact List.length_set
    · exact List.length_set
  | retryAnswer => exact .inr List.length_set
  | reject => exact .inr List.length_set
  | refreshAnswer =>
    right
    unfold TrpcClient.refreshAnswered
    split_ifs <;> rfl
  | @refreshBody _ data => cases data <;> exact .inr rfl
  | refreshReject => exact .inr rfl
  | resume =>
    right
    unfold TrpcClient.resumed
    split_ifs <;> exact List.length_set

/-- A call of the page after a step is one from before it, or was just made. -/
theorem Steps.origin {j : ℕ} {c' : Call} (h : Steps s event t) (hj : t.calls[j]? = some c') :
    (∃ c, s.calls[j]? = some c ∧ Moves s event j c c') ∨
      (c'.phase = .fetching ∧ c'.sent.length = 1) := by
  by_cases hlt : j < s.calls.length
  · obtain ⟨c'', hc'', hmoves⟩ := h.moves (List.getElem?_eq_getElem hlt)
    obtain rfl := Option.some.inj (hc''.symm.trans hj)
    exact .inl ⟨_, List.getElem?_eq_getElem hlt, hmoves⟩
  · right
    have hlen := (List.getElem?_eq_some_iff.mp hj).1
    rcases h.calls_length with rfl | heq
    · rcases getElem?_append_cases hj with ⟨-, rfl⟩ | ⟨h, -⟩
      · exact ⟨rfl, rfl⟩
      · exact absurd h hlt
    · omega

/-- A call that waits for a refresh goes on waiting until it is settled. -/
theorem Moves.of_refreshing {i status p : ℕ} {c c' : Call} (h : Moves s event i c c')
    (hc : c.phase = .refreshing status p) :
    c' = c ∨ ∃ refreshed, s.refreshes[p]? = some (.settled refreshed) ∧
      c' = if refreshed then ⟨.retrying, c.sent ++ [some s.authorization]⟩
        else { c with phase := .returned status } := by
  cases h with
  | stays => exact .inl rfl
  | returns hphase => simp [hphase] at hc
  | waits hphase => simp [hphase] at hc
  | retries hphase hp =>
    cases hphase.symm.trans hc
    exact .inr ⟨true, hp, rfl⟩
  | givesUp hphase hp =>
    cases hphase.symm.trans hc
    exact .inr ⟨false, hp, rfl⟩
  | ends _ hphase => rcases hphase with h | h <;> simp [h] at hc

theorem Sound.step (h : Sound tr s) (hs : Steps s event t) : Sound (event :: tr) t where
  slot := h.slot.step hs
  first i c' hc' := by
    rcases hs.origin hc' with ⟨c, hc, hmoves⟩ | ⟨hphase, hlen⟩
    · have hfirst := h.first i c hc
      cases hmoves with
      | stays => exact hfirst
      | returns => exact ⟨by simp, by simp⟩
      | waits hphase =>
        refine ⟨by simp, fun status p heq => ?_⟩
        cases heq
        exact ⟨rfl, hfirst.1 hphase⟩
      | retries => exact ⟨by simp, by simp⟩
      | givesUp => exact ⟨by simp, by simp⟩
      | ends _ _ hphase =>
        rcases hphase with rfl | ⟨_, rfl, -⟩
        · exact ⟨by simp, by simp⟩
        · exact ⟨by simp, by simp⟩
    · exact ⟨fun _ => hlen, fun status p heq => by rw [hphase] at heq; cases heq⟩
  starter p hp := by
    rcases hs.started hp with hp | ⟨i, rfl, c, hc, hphase⟩
    · obtain ⟨i, c, hmem, hc, hphase⟩ := h.starter p hp
      obtain ⟨c', hc', hmoves⟩ := hs.moves hc
      rcases hmoves.of_refreshing hphase with rfl | ⟨_, hsettled, -⟩
      · exact ⟨i, c', List.mem_cons_of_mem _ hmem, hc', hphase⟩
      · exact absurd hsettled hp.not_settled
    · exact ⟨i, c, List.mem_cons_self, hc, hphase⟩

theorem ClientRun.sound (h₀ : Loaded s₀) (h : ClientRun s₀ tr s) : Sound tr s := by
  refine Trace.Run.invariant h ?_ fun _ _ _ _ => Sound.step
  have hnone : ∀ p, ¬ s₀.InFlight p := by
    rintro p ⟨r, hp, -⟩
    simp [h₀.refreshes] at hp
  exact
    { slot := ⟨fun p hp => absurd hp (hnone p), fun hbusy => by
        rw [h₀.isRefreshing] at hbusy
        cases hbusy⟩
      first := by simp [h₀.calls]
      starter := fun p hp => absurd hp (hnone p) }

/-- Tokens are stored, and no refresh has failed. -/
structure Healthy (tr : List Event) (s : TrpcClient) : Prop where
  sound : Sound tr s
  retry : AllRetry tr s
  succeeded : ∀ (p : ℕ) (refreshed : Bool),
    s.refreshes[p]? = some (.settled refreshed) → refreshed = true
  refreshToken : (truthyText s.storage.refreshToken).isSome = true
  accessToken : ∀ p : ℕ, s.refreshes[p]? = some (.settled true) →
    ∃ token ∈ delivered tr, truthyText s.storage.accessToken = some token

/-- A timely step settles no refresh and leaves the storage, or brings new tokens. -/
theorem Steps.timely_cases (h : Steps s event t) (htimely : Timely s event)
    (htoken : (truthyText s.storage.refreshToken).isSome = true) :
    (t.storage = s.storage ∧ ∀ (p : ℕ) (refreshed : Bool),
      t.refreshes[p]? = some (.settled refreshed) → s.refreshes[p]? = some (.settled refreshed)) ∨
    ∃ q data, event = .refreshBody q (some data) ∧
      t.storage = s.storage.setTokens data.toLoginResponse ∧
        ∀ (p : ℕ) (refreshed : Bool), t.refreshes[p]? = some (.settled refreshed) →
          refreshed = true ∨ s.refreshes[p]? = some (.settled refreshed) := by
  cases h.refreshes with
  | same => exact .inl ⟨rfl, fun _ _ hp => hp⟩
  | starts _ _ _ hstart =>
    obtain ⟨hflight, rfl⟩ := hstart htoken
    refine .inl ⟨rfl, fun p refreshed hp => ?_⟩
    rcases getElem?_append_cases hp with ⟨-, rfl⟩ | ⟨-, hp⟩
    · cases hflight
    · exact hp
  | reads =>
    refine .inl ⟨rfl, fun p refreshed hp => ?_⟩
    rcases getElem?_set_cases hp with ⟨-, heq⟩ | ⟨-, hp⟩
    · cases heq
    · exact hp
  | @succeeds q data =>
    refine .inr ⟨q, data, rfl, rfl, fun p refreshed hp => ?_⟩
    rcases getElem?_set_cases hp with ⟨-, heq⟩ | ⟨-, hp⟩
    · cases heq
      exact .inl rfl
    · exact .inr hp
  | fails hlate => exact absurd htimely hlate

theorem delivered_cons (event : Event) (tr : List Event) :
    delivered tr ⊆ delivered (event :: tr) :=
  (List.sublist_cons_self event tr).filterMap _ |>.subset

theorem mem_delivered_self (q : ℕ) (data : RefreshData) (tr : List Event) :
    data.accessToken ∈ delivered (.refreshBody q (some data) :: tr) := by
  simp [delivered]

/-- A call that got its 401 before the step. -/
theorem Healthy.kept {i : ℕ} {c : Call} (h : Healthy tr s) (hs : Steps s event t)
    (htimely : Timely s event) (hi : s.calls[i]? = some c)
    (hc : c.Retried (delivered tr) ∨ s.Waits c) :
    ∃ c', t.calls[i]? = some c' ∧ (c'.Retried (delivered (event :: tr)) ∨ t.Waits c') := by
  obtain ⟨c', hc', hmoves⟩ := hs.moves hi
  refine ⟨c', hc', ?_⟩
  rcases hc with ⟨header, token, htoken, hsent⟩ | ⟨hlen, p, hphase, hp⟩
  · -- it has sent two requests, and sends no other
    have hsame : c'.sent = c.sent := by
      cases hmoves with
      | retries hphase =>
        have hone := ((h.sound.first i c hi).2 _ _ hphase).2
        rw [hsent] at hone
        cases hone
      | _ => rfl
    exact .inl ⟨header, token, delivered_cons event tr htoken, hsame.trans hsent⟩
  · rcases hmoves.of_refreshing hphase with rfl | ⟨refreshed, hsettled, rfl⟩
    · refine .inr ⟨hlen, p, hphase, ?_⟩
      rcases hp with hp | hp
      · exact hs.goesOn htimely hp
      · exact .inr (hs.settled hp)
    · obtain rfl := h.succeeded p refreshed hsettled
      obtain ⟨token, htoken, haccess⟩ := h.accessToken p hsettled
      obtain ⟨header, hheader⟩ := List.length_eq_one_iff.mp hlen
      refine .inl ⟨header, token, delivered_cons event tr htoken, ?_⟩
      simp [hheader, TrpcClient.authorization, haccess]

/-- A call that gets its 401 now. -/
theorem Healthy.started {i : ℕ} (h : Healthy tr s) (hs : Steps s (.answer i 401) t)
    (htimely : Timely s (.answer i 401)) :
    ∃ c', t.calls[i]? = some c' ∧ t.Waits c' := by
  cases hs with
  | @answer _ _ call hi hphase =>
    have hidle := h.sound.slot.idle_iff.mpr (htimely rfl)
    obtain ⟨storage, r, heq, hr⟩ := refreshAccessToken_idle hidle
    rw [TrpcClient.answered, if_pos ⟨rfl, hidle⟩, heq]
    refine ⟨_, getElem?_set_of_some hi, (h.sound.first i call hi).1 hphase, _, rfl, .inl ?_⟩
    exact ⟨r, by simp, (hr h.refreshToken).1⟩

theorem Healthy.step (h : Healthy tr s) (hs : Steps s event t) (htimely : Timely s event) :
    Healthy (event :: tr) t := by
  have hretry : AllRetry (event :: tr) t := by
    intro i hi
    rcases List.mem_cons.mp hi with rfl | hi
    · obtain ⟨c', hc', hwaits⟩ := h.started hs htimely
      exact ⟨c', hc', .inr hwaits⟩
    · obtain ⟨c, hc, hretry⟩ := h.retry i hi
      exact h.kept hs htimely hc hretry
  rcases hs.timely_cases htimely h.refreshToken with
    ⟨hstorage, hsettled⟩ | ⟨q, data, rfl, hstorage, hsettled⟩
  · exact
      { sound := h.sound.step hs
        retry := hretry
        succeeded := fun p refreshed hp => h.succeeded p refreshed (hsettled p refreshed hp)
        refreshToken := by rw [hstorage]; exact h.refreshToken
        accessToken := fun p hp => by
          obtain ⟨token, htoken, haccess⟩ := h.accessToken p (hsettled p true hp)
          exact ⟨token, delivered_cons event tr htoken, hstorage ▸ haccess⟩ }
  · exact
      { sound := h.sound.step hs
        retry := hretry
        succeeded := fun p refreshed hp =>
          (hsettled p refreshed hp).elim id (h.succeeded p refreshed)
        refreshToken := by
          rw [hstorage, Storage.setTokens, truthyText_of_ne data.refresh_ne]
          rfl
        accessToken := fun _ _ => ⟨data.accessToken, mem_delivered_self q data tr, by
          rw [hstorage, Storage.setTokens, truthyText_of_ne data.access_ne]⟩ }

/-- A call that returned its 401, or is going to. -/
def GaveUp (tr : List Event) (s : TrpcClient) : Prop :=
  ∃ (i : ℕ) (c : Call), .answer i 401 ∈ tr ∧ s.calls[i]? = some c ∧ c.sent.length = 1 ∧
    (c.phase = .returned 401 ∨
      ∃ p, c.phase = .refreshing 401 p ∧ s.refreshes[p]? = some (.settled false))

theorem GaveUp.not_allRetry (h : GaveUp tr s) : ¬ AllRetry tr s := by
  intro hall
  obtain ⟨i, c, hmem, hc, hlen, hphase⟩ := h
  obtain ⟨c', hc', hretry⟩ := hall i hmem
  obtain rfl := Option.some.inj (hc'.symm.trans hc)
  rcases hretry with ⟨header, token, -, hsent⟩ | ⟨-, p, hwaits, hp⟩
  · rw [hsent] at hlen
    cases hlen
  · rcases hphase with hphase | ⟨q, hphase, hq⟩
    · rw [hphase] at hwaits
      cases hwaits
    · cases hphase.symm.trans hwaits
      rcases hp with hp | hp
      · exact hp.not_settled hq
      · rw [hq] at hp
        cases hp

theorem GaveUp.step (h : GaveUp tr s) (hs : Steps s event t) : GaveUp (event :: tr) t := by
  obtain ⟨i, c, hmem, hc, hlen, hphase⟩ := h
  obtain ⟨c', hc', hmoves⟩ := hs.moves hc
  refine ⟨i, c', List.mem_cons_of_mem _ hmem, hc', ?_⟩
  rcases hphase with hphase | ⟨p, hphase, hp⟩
  · -- what is returned stays returned
    have hsame : c' = c := by
      cases hmoves with
      | stays => rfl
      | returns hc => simp [hphase] at hc
      | waits hc => simp [hphase] at hc
      | retries hc => simp [hphase] at hc
      | givesUp hc => simp [hphase] at hc
      | ends _ hc => rcases hc with hc | hc <;> simp [hphase] at hc
    exact hsame ▸ ⟨hlen, .inl hphase⟩
  · rcases hmoves.of_refreshing hphase with rfl | ⟨refreshed, hsettled, rfl⟩
    · exact ⟨hlen, .inr ⟨p, hphase, hs.settled hp⟩⟩
    · cases hp.symm.trans hsettled
      exact ⟨hlen, .inl rfl⟩

theorem Sound.gaveUp (h : Sound tr s) (hs : Steps s event t) (hlate : ¬ Timely s event) :
    GaveUp (event :: tr) t := by
  rcases hs.untimely h.slot hlate with ⟨i, c, rfl, hc, hphase, hc'⟩ | ⟨p, hp, hsettled⟩
  · exact ⟨i, _, List.mem_cons_self, hc', (h.first i c hc).1 hphase, .inl rfl⟩
  · -- the call that started the refresh
    obtain ⟨i, c, hmem, hc, hphase⟩ := h.starter p hp
    obtain ⟨c', hc', hmoves⟩ := hs.moves hc
    rcases hmoves.of_refreshing hphase with rfl | ⟨_, hearly, -⟩
    · exact ⟨i, c', List.mem_cons_of_mem _ hmem, hc', ((h.first i _ hc).2 _ _ hphase).2,
        .inr ⟨p, hphase, hsettled⟩⟩
    · exact absurd hearly hp.not_settled

/-- Every call that gets a 401 is tried again exactly if no 401 comes while a refresh is in flight
and no refresh fails. -/
theorem allRetry_iff (h₀ : Loaded s₀) (hrun : ClientRun s₀ tr s) :
    AllRetry tr s ↔ TimelyRun s₀ tr s := by
  constructor
  · intro hall
    by_contra hlate
    refine GaveUp.not_allRetry ?_ hall
    clear hall
    induction hrun with
    | start => exact absurd .start hlate
    | @step tr s t event hrun hs ih =>
      by_cases hearlier : TimelyRun s₀ tr s
      · refine (ClientRun.sound h₀ hrun).gaveUp hs fun htimely => hlate ?_
        exact .step hearlier ⟨hs, htimely⟩
      · exact (ih hearlier).step hs
  · intro htimely
    have hstart : Healthy [] s₀ :=
      { sound := ClientRun.sound h₀ .start
        retry := fun i hi => by cases hi
        succeeded := by simp [h₀.refreshes]
        refreshToken := h₀.refreshToken
        accessToken := by simp [h₀.refreshes] }
    refine (Trace.Run.invariant htimely hstart ?_).retry
    rintro _ _ _ _ h ⟨hs, htimely⟩
    exact h.step hs htimely

/-- No call waits on a quiet page. -/
theorem AllRetry.retried (h : AllRetry tr s) (hquiet : s.Quiet) : AllRetried tr s := by
  intro i hi
  obtain ⟨c, hc, hretried | ⟨-, p, hphase, ⟨r, hp, hr⟩ | hp⟩⟩ := h i hi
  · exact ⟨c, hc, hretried⟩
  · cases hquiet _ _ (.refreshReject hp hr)
  · cases hquiet _ _ (.resume hc hphase hp)

/-- In every run at most one refresh is in flight, and if the first one succeeds every call that
gets a 401 is tried again, exactly if a run whose first refresh succeeds is timely. -/
theorem calls_retried_iff (h₀ : Loaded s₀) (hrun : ClientRun s₀ tr s) :
    (s.OneRefresh ∧ (s.FirstSucceeded → AllRetry tr s ∧ (s.Quiet → AllRetried tr s))) ↔
      (s.FirstSucceeded → TimelyRun s₀ tr s) := by
  have hone := (ClientRun.sound h₀ hrun).slot.one
  constructor
  · rintro ⟨-, hall⟩ hfirst
    exact (allRetry_iff h₀ hrun).mp (hall hfirst).1
  · intro htimely
    refine ⟨hone, fun hfirst => ?_⟩
    have hall := (allRetry_iff h₀ hrun).mpr (htimely hfirst)
    exact ⟨hall, hall.retried⟩

namespace Sample

/-- An access token that has expired, and a refresh token. -/
def page : TrpcClient where
  storage := ⟨some "old", some "refresh", none⟩

def newTokens : RefreshData := ⟨⟨"new", "next"⟩, by decide, by decide⟩

def oldCall (phase : Phase) : Call := ⟨phase, [some "Bearer old"]⟩

/-- Two calls are sent, and the first gets its 401. -/
def refreshingPage : TrpcClient := page.send.send.answered 0 (oldCall .fetching) 401

def refreshingEvents : List Event := [.answer 0 401, .send, .send]

theorem run_refreshingPage : ClientRun page refreshingEvents refreshingPage :=
  .step (.step (.step .start .send) .send) (.answer rfl rfl)

/-- The second gets its 401 before the refresh succeeds. -/
def lateEvents : List Event :=
  .refreshBody 0 (some newTokens) :: .refreshAnswer 0 200 :: .answer 1 401 :: refreshingEvents

def latePage : TrpcClient :=
  ((refreshingPage.answered 1 (oldCall .fetching) 401).refreshAnswered 0 200).refreshRead 0
    (some newTokens)

theorem run_latePage : ClientRun page lateEvents latePage :=
  .step (.step (.step run_refreshingPage (.answer rfl rfl)) (.refreshAnswer rfl)) (.refreshBody rfl)

theorem latePage_facts : latePage.FirstSucceeded ∧
    latePage.calls[1]? = some (oldCall (.returned 401)) := ⟨rfl, rfl⟩

end Sample

/-- Two calls, one refresh. -/
theorem calls_retried_iff_late :
    (Sample.latePage.OneRefresh ∧
        (Sample.latePage.FirstSucceeded → AllRetry Sample.lateEvents Sample.latePage ∧
          (Sample.latePage.Quiet → AllRetried Sample.lateEvents Sample.latePage))) ↔
      (Sample.latePage.FirstSucceeded →
        TimelyRun Sample.page Sample.lateEvents Sample.latePage) :=
  calls_retried_iff {} Sample.run_latePage

/-- A call returns the 401 that came during a refresh. -/
theorem late_call_not_retried : ¬ ∀ (s₀ s : TrpcClient) (tr : List Event), Loaded s₀ →
    ClientRun s₀ tr s → s.OneRefresh ∧
      (s.FirstSucceeded → AllRetry tr s ∧ (s.Quiet → AllRetried tr s)) := by
  intro h
  obtain ⟨-, hall⟩ := h _ _ _ {} Sample.run_latePage
  refine GaveUp.not_allRetry ?_ (hall Sample.latePage_facts.1).1
  exact ⟨1, _, by simp [Sample.lateEvents], Sample.latePage_facts.2, rfl, .inl rfl⟩

end CodebaseTrpc.Client
