import CodebaseTrpc.Client.AuthClient
import CodebaseTrpc.Store.Rows

/-! The promise that callers of `refreshTokens` share. `performRefresh` releases it at its end, and
its caller assigns it after that where there was nothing to wait for. -/
namespace CodebaseTrpc.Client
open Rows
variable {readExp : ReadExp} {s t s₀ : AuthService} {tr : List AuthEvent} {event : AuthEvent}

/-- A service that has just been made, over any storage. -/
structure NewService (s : AuthService) : Prop where
  refreshPromise : s.refreshPromise = none := by rfl
  refreshes : s.refreshes = [] := by rfl

def AuthService.InProgress (s : AuthService) (promise : ℕ) : Prop :=
  ∃ refreshToken, s.refreshes[promise]? = some (.refreshing refreshToken)

/-- Without a refresh in progress the slot is empty, and a call with a token stored sends a
request. -/
def Released (readExp : ReadExp) (s : AuthService) : Prop :=
  (∀ p, ¬ s.InProgress p) → s.refreshPromise = none ∧
    ∀ token, truthyText s.storage.refreshToken = some token →
      (s.refreshTokens readExp).1.refreshes = s.refreshes ++ [.refreshing token]

/-- A call of `refreshTokens` that finds the slot empty finds a token. -/
def FindsToken (s : AuthService) (event : AuthEvent) : Prop :=
  event = .refreshTokens → s.refreshPromise = none →
    (truthyText s.storage.refreshToken).isSome = true

/-- A run all of whose states are released. -/
abbrev ReleasedRun (readExp : ReadExp) (s₀ : AuthService) (tr : List AuthEvent)
    (s : AuthService) : Prop :=
  Trace.Run (fun _ s event t => AuthSteps readExp s event t ∧ Released readExp t) s₀ tr s

/-- A run all of whose calls find a token or a refresh in progress. -/
abbrev TokenRun (readExp : ReadExp) (s₀ : AuthService) (tr : List AuthEvent) (s : AuthService) :
    Prop :=
  Trace.Run (fun _ s event t => AuthSteps readExp s event t ∧ FindsToken s event) s₀ tr s

theorem released_iff :
    Released readExp s ↔ ((∀ p, ¬ s.InProgress p) → s.refreshPromise = none) := by
  refine ⟨fun h hnone => (h hnone).1, fun h hnone => ⟨h hnone, fun token htoken => ?_⟩⟩
  simp [AuthService.refreshTokens, h hnone, AuthService.performRefresh, htoken]

/-- The slot has the refresh in progress. -/
def Current (s : AuthService) : Prop := ∀ p, s.InProgress p → s.refreshPromise = some p

theorem Current.idle (h : Current s) (hnone : s.refreshPromise = none) (p : ℕ) :
    ¬ s.InProgress p := by
  intro hp
  rw [h p hp] at hnone
  cases hnone

@[simp] theorem logout_refreshPromise :
    (s.logout readExp).refreshPromise = s.refreshPromise := by
  unfold AuthService.logout
  split_ifs <;> rfl

@[simp] theorem logout_refreshes : (s.logout readExp).refreshes = s.refreshes := by
  unfold AuthService.logout
  split_ifs <;> rfl

/-- What a step does to the slot and to the refreshes. -/
theorem AuthSteps.slot_cases (h : AuthSteps readExp s event t) :
    (event ≠ .refreshTokens ∨ s.refreshPromise ≠ none) ∧ t.refreshPromise = s.refreshPromise ∧
        t.refreshes = s.refreshes ∨
      (event = .refreshTokens ∧ s.refreshPromise = none ∧
        t.refreshPromise = some s.refreshes.length ∧ ∃ r, t.refreshes = s.refreshes ++ [r] ∧
          ((truthyText s.storage.refreshToken).isSome = true ↔
            ∃ refreshToken, r = .refreshing refreshToken)) ∨
      (event ≠ .refreshTokens ∧ t.refreshPromise = none ∧
        ∃ p r, s.InProgress p ∧ t.refreshes = s.refreshes.set p r ∧
          ∀ refreshToken, r ≠ .refreshing refreshToken) := by
  cases h with
  | refreshTokens =>
    cases hslot : s.refreshPromise with
    | some p => exact .inl ⟨.inr (by simp), by simp [AuthService.refreshTokens, hslot]⟩
    | none =>
      refine .inr (.inl ⟨rfl, rfl, ?_⟩)
      simp only [AuthService.refreshTokens, hslot, AuthService.performRefresh]
      cases truthyText s.storage.refreshToken with
      | none => exact ⟨rfl, _, rfl, by simp⟩
      | some token => exact ⟨rfl, _, rfl, by simp⟩
  | logout => exact .inl ⟨.inl (by simp), by simp⟩
  | @refreshResponse p _ response hp =>
    refine .inr (.inr ⟨by simp, ?_⟩)
    cases response with
    | ok response => exact ⟨rfl, p, _, ⟨_, hp⟩, rfl, by simp⟩
    | error message => exact ⟨rfl, p, _, ⟨_, hp⟩, rfl, by simp⟩
  | @signupResponse _ _ accepted => cases accepted <;> exact .inl ⟨.inl (by simp), rfl, rfl⟩
  | @loginResponse _ _ response => cases response <;> exact .inl ⟨.inl (by simp), rfl, rfl⟩
  | @userResponse _ _ user =>
    refine .inl ⟨.inl (by simp), ?_⟩
    unfold AuthService.userLoaded
    split <;> exact ⟨rfl, rfl⟩
  | _ => exact .inl ⟨.inl (by simp), rfl, rfl⟩

theorem Current.step (h : Current s) (hs : AuthSteps readExp s event t) : Current t := by
  rintro p ⟨token, hp⟩
  rcases hs.slot_cases with ⟨-, hslot, hrefreshes⟩ | ⟨-, hnone, hslot, r, hrefreshes, -⟩ |
    ⟨-, hslot, q, r, hq, hrefreshes, hr⟩
  · rw [hslot]
    exact h p ⟨token, hrefreshes ▸ hp⟩
  · rw [hrefreshes] at hp
    rcases getElem?_append_cases hp with ⟨rfl, -⟩ | ⟨-, hp⟩
    · exact hslot
    · exact absurd ⟨token, hp⟩ (h.idle hnone p)
  · rw [hrefreshes] at hp
    rcases getElem?_set_cases hp with ⟨-, heq⟩ | ⟨hne, hp⟩
    · exact absurd heq.symm (hr token)
    · -- two refreshes in progress would share the slot
      have hsame := (h p ⟨token, hp⟩).symm.trans (h q hq)
      exact absurd (Option.some.inj hsame) hne

/-- A step from a released slot releases it exactly if its call finds a token. -/
theorem released_step_iff (hcurrent : Current s) (hreleased : Released readExp s)
    (hs : AuthSteps readExp s event t) : Released readExp t ↔ FindsToken s event := by
  rw [released_iff] at hreleased ⊢
  rcases hs.slot_cases with ⟨hother, hslot, hrefreshes⟩ |
    ⟨rfl, hnone, hslot, r, hrefreshes, htoken⟩ | ⟨hother, hslot, -⟩
  · refine iff_of_true (fun hidle => ?_) fun hcall hempty => ?_
    · rw [hslot]
      refine hreleased fun p hp => hidle p ?_
      obtain ⟨token, hp⟩ := hp
      exact ⟨token, hrefreshes ▸ hp⟩
    · exact absurd hempty (hother.resolve_left (not_not.mpr hcall))
  · have hnew : (∃ p, t.InProgress p) ↔ ∃ token, r = .refreshing token := by
      constructor
      · rintro ⟨p, token, hp⟩
        rw [hrefreshes] at hp
        rcases getElem?_append_cases hp with ⟨-, rfl⟩ | ⟨-, hp⟩
        · exact ⟨token, rfl⟩
        · exact absurd ⟨token, hp⟩ (hcurrent.idle hnone p)
      · rintro ⟨token, rfl⟩
        exact ⟨s.refreshes.length, token, by simp [hrefreshes]⟩
    have hcall : FindsToken s .refreshTokens ↔ ∃ p, t.InProgress p :=
      ⟨fun h => hnew.mpr (htoken.mp (h rfl hnone)), fun h _ _ => htoken.mpr (hnew.mp h)⟩
    rw [hcall, hslot]
    constructor
    · intro h
      by_contra hidle
      cases h (not_exists.mp hidle)
    · exact fun ⟨p, hp⟩ hidle => absurd hp (hidle p)
  · exact iff_of_true (fun _ => hslot) fun hcall => absurd hcall hother

/-- The slot is released in every state of a run exactly if every call of `refreshTokens` in it
finds a token or a refresh in progress. -/
theorem slot_released_iff (h₀ : NewService s₀) :
    ReleasedRun readExp s₀ tr s ↔ TokenRun readExp s₀ tr s := by
  refine Trace.Run.congr fun tr s event t hreleased _ => ?_
  have hnone : ∀ p, ¬ s₀.InProgress p := by
    rintro p ⟨token, hp⟩
    simp [h₀.refreshes] at hp
  have hinv : Current s ∧ Released readExp s := by
    refine Trace.Run.invariant (I := fun _ s => Current s ∧ Released readExp s) hreleased
      ⟨fun p hp => absurd hp (hnone p), released_iff.mpr fun _ => h₀.refreshPromise⟩ ?_
    rintro _ _ _ _ ⟨hcurrent, -⟩ ⟨hs, hreleased⟩
    exact ⟨hcurrent.step hs, hreleased⟩
  exact and_congr_right fun hs => released_step_iff hinv.1 hinv.2 hs

namespace Sample

/-- A browser that knows no token. -/
def service : AuthService where
  storage := ⟨none, none, none⟩
  now := 0

def loginTokens : LoginResponse := ⟨"access", "refresh"⟩

/-- A refresh without a token, and a login after it. -/
def leakedEvents : List AuthEvent :=
  [.loginResponse 0 (some loginTokens), .login ⟨"ann@mail", "secret12"⟩, .refreshTokens]

def noExp : ReadExp := fun _ => none

def leaked : AuthService :=
  ((service.refreshTokens noExp).1.enter (.signingIn (.login ⟨"ann@mail", "secret12"⟩))).signedIn 0
    (some loginTokens)

theorem run_leaked : AuthRun noExp service leakedEvents leaked :=
  .step (.step (.step .start .refreshTokens) .login) (.loginResponse rfl)

theorem leaked_facts : leaked.refreshes = [.rejected "No refresh token available"] ∧
    leaked.refreshPromise = some 0 ∧ leaked.storage.refreshToken = some "refresh" := ⟨rfl, rfl, rfl⟩

end Sample

/-- A run of three events. -/
theorem slot_released_iff_leaked :
    ReleasedRun Sample.noExp Sample.service Sample.leakedEvents Sample.leaked ↔
      TokenRun Sample.noExp Sample.service Sample.leakedEvents Sample.leaked :=
  slot_released_iff {}

/-- The slot keeps a rejected promise. -/
theorem slot_leaks : ¬ ∀ (readExp : ReadExp) (s₀ s : AuthService) (tr : List AuthEvent),
    NewService s₀ → AuthRun readExp s₀ tr s → Released readExp s := by
  intro h
  have hreleased := released_iff.mp (h _ _ _ _ {} Sample.run_leaked)
  have hidle : ∀ p, ¬ Sample.leaked.InProgress p := by
    rintro p ⟨token, hp⟩
    rw [Sample.leaked_facts.1] at hp
    cases p <;> simp at hp
  rw [Sample.leaked_facts.2.1] at hreleased
  cases hreleased hidle

end CodebaseTrpc.Client
