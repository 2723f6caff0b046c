import CodebaseTrpc.Client.UseAuth
import CodebaseTrpc.Properties.RefreshSlot

/-! What the components of a page show, against what `localStorage` has. The hook keeps no state
that they share: a cleared session reaches them by an event, a new one does not. -/
namespace CodebaseTrpc.Client
open Rows
open Trace (Latest)
variable {readExp : ReadExp} {s t s₀ : Page} {tr : List PageEntry} {event : PageEvent} {k : ℕ}

def Storage.HoldsSession (a : Storage) : Prop := a.accessToken ≠ none ∨ a.refreshToken ≠ none

/-- What the code of the page does to `localStorage`, and whether it runs `clearAuthData`. -/
inductive Writes (a : Storage) : Bool → Storage → Prop
  | nothing : Writes a false a
  | tokens {tokens : LoginResponse} : Writes a false (a.setTokens tokens)
  | user {user : Option UserProfile} : Writes a false { a with user }
  | clears : Writes a true a.clearAuthData

theorem holdsSession_setTokens (a : Storage) (tokens : LoginResponse) :
    (a.setTokens tokens).HoldsSession := .inl (by simp [Storage.setTokens])

theorem holdsSession_of_isAuthenticated {a : Storage} {now : ℕ}
    (h : a.isAuthenticated readExp now = true) : a.HoldsSession := by
  rcases Bool.or_eq_true_iff.mp h with h | h
  · refine .inl fun hnone => ?_
    simp [Storage.hasValidAccessToken, hnone] at h
  · exact .inr (Option.isSome_iff_ne_none.mp h)

theorem Writes.holdsSession {a b : Storage} (h : Writes a false b) (ha : a.HoldsSession) :
    b.HoldsSession := by
  cases h with
  | nothing => exact ha
  | tokens => exact holdsSession_setTokens ..
  | user => exact ha

section Service
variable {s t : AuthService} {event : AuthEvent}

theorem writes_logout : Writes s.storage (s.clears readExp .logout) (s.logout readExp).storage := by
  simp only [AuthService.clears, AuthService.logout]
  cases s.storage.hasValidAccessToken readExp s.now with
  | true => exact .nothing
  | false => exact .clears

theorem writes_refreshTokens :
    Writes s.storage (s.clears readExp .refreshTokens) (s.refreshTokens readExp).1.storage := by
  simp only [AuthService.clears, AuthService.refreshTokens]
  cases s.refreshPromise with
  | some promise => exact .nothing
  | none =>
    simp only [AuthService.performRefresh]
    cases truthyText s.storage.refreshToken with
    | some token => exact .nothing
    | none => exact writes_logout

theorem AuthSteps.writes (h : AuthSteps readExp s event t)
    (hown : ∀ storage now, event ≠ .elsewhere storage now) :
    Writes s.storage (s.clears readExp event) t.storage := by
  cases h with
  | refreshTokens => exact writes_refreshTokens
  | logout => exact writes_logout
  | login => exact .nothing
  | googleLogin => exact .nothing
  | signup => exact .nothing
  | @refreshResponse _ _ response =>
    cases response with
    | ok response => exact .tokens
    | error message => exact writes_logout
  | logoutResponse => exact .clears
  | @signupResponse _ _ accepted => cases accepted <;> exact .nothing
  | @loginResponse _ _ response =>
    cases response with
    | some response => exact .tokens
    | none => exact .nothing
  | @userResponse _ _ user =>
    unfold AuthService.userLoaded
    split
    · exact .user
    · exact .nothing
  | elsewhere => exact absurd rfl (hown _ _)

end Service

theorem Steps.writes {s t : TrpcClient} {event : Event} (h : Steps s event t) :
    Writes s.storage (s.clears event) t.storage := by
  cases h with
  | send => exact .nothing
  | @answer i status call =>
    simp only [TrpcClient.clears, TrpcClient.answered]
    by_cases hidle : status = 401 ∧ s.isRefreshing = false
    · rw [if_pos hidle, TrpcClient.refreshAccessToken, hidle.2]
      cases truthyText s.storage.refreshToken with
      | some token => simpa [hidle.1] using Writes.nothing
      | none => simpa [hidle.1] using Writes.clears
    · have hno : (status == 401 && !s.isRefreshing) = false := by simpa using hidle
      rw [if_neg hidle, hno]
      exact .nothing
  | retryAnswer => exact .nothing
  | reject => exact .nothing
  | @refreshAnswer _ status =>
    simp only [TrpcClient.clears, TrpcClient.refreshAnswered]
    by_cases hok : 200 ≤ status ∧ status ≤ 299
    · simpa [hok] using Writes.nothing
    · rw [if_neg hok, decide_eq_false hok]
      exact .clears
  | @refreshBody _ data =>
    cases data with
    | some data => exact .tokens
    | none => exact .clears
  | refreshReject => exact .clears
  | resume =>
    unfold TrpcClient.resumed
    split_ifs <;> exact .nothing

/-- The tokens of the sign-in are stored, though the call has not returned. -/
def Login.hasTokens : Login → Bool
  | .loadingUser _ | .returned _ _ => true
  | _ => false

/-- What the call waits for has stored its tokens. -/
def Awaited.HasTokens (service : AuthService) : Awaited → Prop
  | .login i => ∃ login, service.logins[i]? = some login ∧ login.hasTokens = true
  | .refresh promise => service.refreshes[promise]? = some .resolved
  | _ => False

/-- A call of a function of the component has its tokens stored, and has yet to show that. -/
def Page.HasTokens (s : Page) (k : ℕ) : Prop :=
  ∃ call ∈ s.calls, call.hook = k ∧ call.awaits.HasTokens s.service

section Service
variable {s t : AuthService} {event : AuthEvent} {awaits : Awaited}

/-- The promise that callers share has not resolved. -/
def AuthService.Pending (s : AuthService) : Prop :=
  ∀ p, s.refreshPromise = some p → s.refreshes[p]? ≠ some .resolved

theorem refreshTokens_promise (readExp : ReadExp) (h : s.Pending) :
    (s.refreshTokens readExp).1.refreshPromise = some (s.refreshTokens readExp).2 ∧
      ¬ (Awaited.refresh (s.refreshTokens readExp).2).HasTokens (s.refreshTokens readExp).1 := by
  simp only [AuthService.refreshTokens, Awaited.HasTokens]
  cases hslot : s.refreshPromise with
  | some promise => exact ⟨hslot, h promise hslot⟩
  | none =>
    refine ⟨rfl, ?_⟩
    simp only [AuthService.performRefresh]
    cases truthyText s.storage.refreshToken <;> simp

theorem AuthService.Pending.step (h : s.Pending) (hs : AuthSteps readExp s event t) :
    t.Pending := by
  intro p hp
  rcases hs.slot_cases with ⟨-, hslot, hrefreshes⟩ | ⟨rfl, -⟩ | ⟨-, hslot, -⟩
  · rw [hrefreshes]
    exact h p (hslot ▸ hp)
  · cases hs
    obtain ⟨hslot, hno⟩ := refreshTokens_promise readExp h
    obtain rfl := Option.some.inj (hslot.symm.trans hp)
    exact hno
  · rw [hslot] at hp
    cases hp

theorem logout_logins : (s.logout readExp).logins = s.logins := by
  unfold AuthService.logout
  split_ifs <;> rfl

theorem refreshTokens_logins : (s.refreshTokens readExp).1.logins = s.logins := by
  simp only [AuthService.refreshTokens]
  cases s.refreshPromise with
  | some promise => rfl
  | none =>
    simp only [AuthService.performRefresh]
    cases truthyText s.storage.refreshToken with
    | some token => rfl
    | none => exact logout_logins

/-- A sign-in has its tokens from the step on that stores them. -/
theorem AuthSteps.login_hasTokens {i : ℕ} {login : Login} (h : AuthSteps readExp s event t)
    (hi : t.logins[i]? = some login) (hlogin : login.hasTokens = true) :
    (Awaited.login i).HasTokens s ∨ (s.clears readExp event = false ∧ t.storage.HoldsSession) := by
  have kept (hlogins : t.logins = s.logins) : (Awaited.login i).HasTokens s :=
    ⟨login, hlogins ▸ hi, hlogin⟩
  have added {new : Login} (hlogins : t.logins = s.logins ++ [new]) (hnew : new.hasTokens = false) :
      (Awaited.login i).HasTokens s := by
    rw [hlogins] at hi
    rcases getElem?_append_cases hi with ⟨-, rfl⟩ | ⟨-, hi⟩
    · simp [hlogin] at hnew
    · exact ⟨login, hi, hlogin⟩
  have moved {j : ℕ} {new : Login} (hlogins : t.logins = s.logins.set j new)
      (hnew : new.hasTokens = true → (Awaited.login j).HasTokens s) :
      (Awaited.login i).HasTokens s := by
    rw [hlogins] at hi
    rcases getElem?_set_cases hi with ⟨rfl, rfl⟩ | ⟨-, hi⟩
    · exact hnew hlogin
    · exact ⟨login, hi, hlogin⟩
  cases h with
  | refreshTokens => exact .inl (kept refreshTokens_logins)
  | logout => exact .inl (kept logout_logins)
  | login => exact .inl (added rfl rfl)
  | googleLogin => exact .inl (added rfl rfl)
  | signup => exact .inl (added rfl rfl)
  | @refreshResponse _ _ response =>
    cases response with
    | ok response => exact .inl (kept rfl)
    | error message => exact .inl (kept logout_logins)
  | logoutResponse => exact .inl (kept rfl)
  | @signupResponse _ _ accepted => cases accepted <;> exact .inl (moved rfl nofun)
  | @loginResponse _ _ response =>
    cases response with
    | some response => exact .inr ⟨rfl, holdsSession_setTokens ..⟩
    | none => exact .inl (moved rfl nofun)
  | @userResponse j _ user hj =>
    unfold AuthService.userLoaded at moved
    split at moved
    · exact .inl (moved rfl fun _ => ⟨_, hj, rfl⟩)
    · exact .inl (moved rfl nofun)
  | elsewhere => exact .inl (kept rfl)

theorem refreshTokens_refreshes (readExp : ReadExp) (s : AuthService) :
    (s.refreshTokens readExp).1.refreshes = s.refreshes ∨
      ∃ r, r ≠ .resolved ∧ (s.refreshTokens readExp).1.refreshes = s.refreshes ++ [r] := by
  simp only [AuthService.refreshTokens]
  cases s.refreshPromise with
  | some promise => exact .inl rfl
  | none =>
    simp only [AuthService.performRefresh]
    cases truthyText s.storage.refreshToken with
    | some token => exact .inr ⟨.refreshing token, by simp, rfl⟩
    | none => exact .inr ⟨.rejected "No refresh token available", by simp, rfl⟩

/-- So does a refresh. -/
theorem AuthSteps.refresh_hasTokens {p : ℕ} (h : AuthSteps readExp s event t)
    (hp : t.refreshes[p]? = some .resolved) :
    (Awaited.refresh p).HasTokens s ∨
      (s.clears readExp event = false ∧ t.storage.HoldsSession) := by
  cases h with
  | refreshTokens =>
    rcases refreshTokens_refreshes readExp s with heq | ⟨r, hr, heq⟩
    · exact .inl (hp.symm.trans (by rw [heq])).symm
    · rw [heq] at hp
      rcases getElem?_append_cases hp with ⟨-, rfl⟩ | ⟨-, hp⟩
      · exact absurd rfl hr
      · exact .inl hp
  | logout =>
    rw [logout_refreshes] at hp
    exact .inl hp
  | @refreshResponse _ _ response =>
    cases response with
    | ok response => exact .inr ⟨rfl, holdsSession_setTokens ..⟩
    | error message =>
      rcases getElem?_set_cases hp with ⟨-, heq⟩ | ⟨-, hp⟩
      · cases heq
      · exact .inl hp
  | @signupResponse _ _ accepted => cases accepted <;> exact .inl hp
  | @loginResponse _ _ response => cases response <;> exact .inl hp
  | @userResponse _ _ user =>
    unfold AuthService.userLoaded at hp
    split at hp <;> exact .inl hp
  | _ => exact .inl hp

/-- A step that stores the tokens of a call does not clear them. -/
theorem AuthSteps.hasTokens (h : AuthSteps readExp s event t) (ha : awaits.HasTokens t) :
    awaits.HasTokens s ∨ (s.clears readExp event = false ∧ t.storage.HoldsSession) := by
  cases awaits with
  | login i =>
    obtain ⟨login, hi, hlogin⟩ := ha
    exact h.login_hasTokens hi hlogin
  | refresh p => exact h.refresh_hasTokens ha
  | logout => exact ha.elim
  | user => exact ha.elim
  | returned => exact ha.elim

end Service

@[simp] theorem Page.notify_service : (s.notify readExp event t).service = t.service := by
  unfold Page.notify
  split_ifs <;> rfl

@[simp] theorem Page.notify_calls : (s.notify readExp event t).calls = t.calls := by
  unfold Page.notify
  split_ifs <;> rfl

theorem Page.refreshUser_cases (s : Page) (k : ℕ) :
    s.refreshUser k = s.failUser k "No access token available" ∨
      ∃ token, s.refreshUser k = s.await k (.user token) := by
  unfold Page.refreshUser
  split
  · exact .inl rfl
  · exact .inr ⟨_, rfl⟩

theorem Page.enter_hasTokens {login : Login} (hlogin : login.hasTokens = false) :
    ¬ (Awaited.login s.service.logins.length).HasTokens (s.enter k login).service := by
  rintro ⟨new, hnew, htokens⟩
  rcases getElem?_append_cases hnew with ⟨-, rfl⟩ | ⟨hlt, -⟩
  · simp [hlogin] at htokens
  · exact absurd hlt (lt_irrefl _)

theorem Resumes.service {call : HookCall} {message : String} (h : Resumes s call message t) :
    t.service = s.service := by
  cases h <;> rfl

theorem Resumes.calls {call : HookCall} {message : String} (h : Resumes s call message t) :
    t.calls = s.calls := by
  cases h <;> rfl

/-- The page runs the service: what else it does, the service sees as a write from elsewhere. -/
theorem PageSteps.runs_service (h : PageSteps readExp s event t) :
    ∃ e, AuthSteps readExp s.service e t.service ∧
      (s.clears readExp event = s.service.clears readExp e ∨
        ∃ storage now, e = .elsewhere storage now) := by
  have acts {e : AuthEvent} {service : AuthService} (he : AuthSteps readExp s.service e service)
      (ht : t.service = service) (hclears : s.clears readExp event = s.service.clears readExp e ∨
        ∃ storage now, e = .elsewhere storage now) :
      ∃ e, AuthSteps readExp s.service e t.service ∧
        (s.clears readExp event = s.service.clears readExp e ∨
          ∃ storage now, e = .elsewhere storage now) := ⟨e, ht ▸ he, hclears⟩
  have still (ht : t.service = s.service) := acts (.elsewhere le_rfl) ht (.inr ⟨s.storage, _, rfl⟩)
  cases h with
  | render => exact still rfl
  | effect => exact still rfl
  | cleanup => exact still rfl
  | login => exact acts .login rfl (.inl rfl)
  | googleLogin => exact acts .googleLogin rfl (.inl rfl)
  | signup => exact acts .signup rfl (.inl rfl)
  | logout => exact acts .logout Page.notify_service (.inl rfl)
  | refreshTokens => exact acts .refreshTokens Page.notify_service (.inl rfl)
  | @refreshUser k =>
    rcases Page.refreshUser_cases s k with heq | ⟨token, heq⟩ <;> exact still (by rw [heq]; rfl)
  | service _ h => exact acts h Page.notify_service (.inl rfl)
  | link => exact acts (.elsewhere le_rfl) Page.notify_service (.inr ⟨_, _, rfl⟩)
  | resume _ h => exact still h.service
  | @userResponse _ data =>
    cases data with
    | ok freshUser => exact acts (.elsewhere le_rfl) rfl (.inr ⟨_, _, rfl⟩)
    | error message => exact still rfl

theorem PageSteps.pending (h : PageSteps readExp s event t) (hpending : s.service.Pending) :
    t.service.Pending := by
  obtain ⟨e, he, -⟩ := h.runs_service
  exact hpending.step he

/-- A call that is new has no tokens yet. -/
theorem PageSteps.calls (h : PageSteps readExp s event t) (hpending : s.service.Pending)
    {call : HookCall} (hcall : call ∈ t.calls) (htokens : call.awaits.HasTokens t.service) :
    call ∈ s.calls := by
  have awaited {k : ℕ} {awaits : Awaited} (hno : ¬ awaits.HasTokens t.service)
      (hcalls : t.calls = s.calls ++ [⟨k, awaits⟩]) : call ∈ s.calls := by
    rw [hcalls] at hcall
    rcases List.mem_append.mp hcall with hcall | hcall
    · exact hcall
    · obtain rfl := List.mem_singleton.mp hcall
      exact absurd htokens hno
  have returned {j : ℕ} {done : HookCall} (hcalls : t.calls = s.calls.set j
      { done with awaits := .returned }) : call ∈ s.calls := by
    rw [hcalls] at hcall
    rcases List.mem_or_eq_of_mem_set hcall with hcall | rfl
    · exact hcall
    · exact htokens.elim
  cases h with
  | render => exact hcall
  | effect => exact hcall
  | cleanup => exact hcall
  | login => exact awaited (Page.enter_hasTokens rfl) rfl
  | googleLogin => exact awaited (Page.enter_hasTokens rfl) rfl
  | signup => exact awaited (Page.enter_hasTokens rfl) rfl
  | logout => exact awaited id Page.notify_calls
  | refreshTokens =>
    refine awaited (fun hno => ?_) Page.notify_calls
    rw [Page.notify_service] at hno
    exact (refreshTokens_promise readExp hpending).2 hno
  | @refreshUser k =>
    rcases Page.refreshUser_cases s k with heq | ⟨token, heq⟩
    · rwa [heq] at hcall
    · exact awaited id (by rw [heq]; rfl)
  | service _ h => rwa [Page.notify_calls] at hcall
  | link => rwa [Page.notify_calls] at hcall
  | resume _ h => exact returned (congrArg (List.set · _ _) h.calls)
  | @userResponse _ data => cases data <;> exact returned rfl

/-- A step that stores the tokens of a call does not clear them. -/
theorem PageSteps.hasTokens (h : PageSteps readExp s event t) (hpending : s.service.Pending)
    (htokens : t.HasTokens k) :
    s.HasTokens k ∨ (s.clears readExp event = false ∧ t.storage.HoldsSession) := by
  obtain ⟨call, hcall, rfl, hawaits⟩ := htokens
  have hbefore := h.calls hpending hcall hawaits
  obtain ⟨e, he, hclears⟩ := h.runs_service
  rcases hclears with hclears | ⟨storage, now, rfl⟩
  · rw [hclears]
    exact (he.hasTokens hawaits).imp_left fun hs => ⟨call, hbefore, rfl, hs⟩
  · -- a write to the storage settles no promise
    refine .inl ⟨call, hbefore, rfl, ?_⟩
    generalize t.service = service at he hawaits
    cases he
    exact hawaits

/-- The event is a write of another tab to `localStorage`, or time passes. -/
def PageEvent.IsElsewhere (event : PageEvent) (storage : Storage) : Prop :=
  ∃ now, event = .service (.elsewhere storage now)

theorem PageSteps.writes (h : PageSteps readExp s event t) :
    event.IsElsewhere t.storage ∨ Writes s.storage (s.clears readExp event) t.storage := by
  cases h with
  | render => exact .inr .nothing
  | effect => exact .inr .nothing
  | cleanup => exact .inr .nothing
  | login => exact .inr .nothing
  | googleLogin => exact .inr .nothing
  | signup => exact .inr .nothing
  | logout =>
    rw [Page.storage, Page.storage, Page.notify_service]
    exact .inr writes_logout
  | refreshTokens =>
    rw [Page.storage, Page.storage, Page.notify_service]
    exact .inr writes_refreshTokens
  | @refreshUser k =>
    rcases Page.refreshUser_cases s k with heq | ⟨token, heq⟩ <;> rw [heq] <;> exact .inr .nothing
  | @service event service _ h =>
    rw [Page.storage, Page.storage, Page.notify_service]
    by_cases hown : ∃ storage now, event = .elsewhere storage now
    · obtain ⟨storage, now, rfl⟩ := hown
      cases h
      exact .inl ⟨now, rfl⟩
    · exact .inr (h.writes fun storage now he => hown ⟨storage, now, he⟩)
  | link h =>
    rw [Page.storage, Page.storage, Page.notify_service]
    exact .inr h.writes
  | @resume j message call u _ h =>
    have hservice : (u.finish j call).service = s.service := h.service
    rw [Page.storage, Page.storage, hservice]
    exact .inr .nothing
  | @userResponse _ data =>
    cases data with
    | ok freshUser => exact .inr .user
    | error message => exact .inr .nothing

def Page.Shows (s : Page) (k : ℕ) (state : AuthState) : Prop :=
  ∃ hook, s.hooks[k]? = some hook ∧ hook.listening = true ∧ hook.state = state

/-- The component shows a session. -/
def Page.Authenticated (s : Page) (k : ℕ) : Prop :=
  ∃ state, s.Shows k state ∧ state.isAuthenticated = true

/-- The component finds a session stored, or a call of its functions has brought one. -/
def PageEntry.SignsIn (readExp : ReadExp) (entry : PageEntry) (k : ℕ) : Prop :=
  (entry.event = .effect k ∧
    entry.before.storage.isAuthenticated readExp entry.before.service.now = true) ∨
  ∃ j message call, entry.event = .resume j message ∧ entry.before.calls[j]? = some call ∧
    call.hook = k ∧ call.awaits.HasTokens entry.before.service

theorem Page.dispatch_shows {state : AuthState} (h : s.dispatch.Shows k state) :
    state = .signedOut (some "Session expired") := by
  obtain ⟨hook, hk, hlistening, rfl⟩ := h
  simp only [Page.dispatch, List.getElem?_map, Option.map_eq_some_iff] at hk
  obtain ⟨before, -, rfl⟩ := hk
  split_ifs at hlistening ⊢ with hl
  · rfl
  · exact absurd hlistening hl

theorem Page.setAuthState_shows {f : AuthState → AuthState} {j : ℕ} {state : AuthState}
    (h : (s.setAuthState j f).Shows k state) :
    s.Shows k state ∨ (k = j ∧ ∃ before, s.Shows k before ∧ state = f before) := by
  obtain ⟨hook, hk, hlistening, rfl⟩ := h
  simp only [Page.setAuthState, List.getElem?_modify, Option.map_eq_map,
    Option.map_eq_some_iff] at hk
  obtain ⟨before, hbefore, rfl⟩ := hk
  split_ifs at hlistening ⊢ with hj
  · exact .inr ⟨hj.symm, before.state, ⟨before, hbefore, hlistening, rfl⟩, rfl⟩
  · exact .inl ⟨before, hbefore, hlistening, rfl⟩

/-- An update that signs nobody in. -/
theorem Page.Authenticated.of_update {f : AuthState → AuthState} {j : ℕ} (ht : t.Authenticated k)
    (hhooks : t.hooks = (s.setAuthState j f).hooks)
    (hf : ∀ state, (f state).isAuthenticated = true → state.isAuthenticated = true) :
    s.Authenticated k := by
  obtain ⟨state, ⟨hook, hk, hlistening, hstate⟩, hauth⟩ := ht
  rcases Page.setAuthState_shows ⟨hook, hhooks ▸ hk, hlistening, hstate⟩ with hshows |
    ⟨-, before, hshows, rfl⟩
  · exact ⟨state, hshows, hauth⟩
  · exact ⟨before, hshows, hf before hauth⟩

theorem Page.enter_authenticated {login : Login} {j : ℕ} (h : (s.enter j login).Authenticated k) :
    s.Authenticated k :=
  h.of_update (f := fun prev => { prev with isLoading := true, error := none }) rfl fun _ => id

theorem Page.failUser_authenticated {message : String} {j : ℕ}
    (h : (s.failUser j message).Authenticated k) : s.Authenticated k :=
  h.of_update (f := fun prev => { prev with error := some message }) rfl fun _ => id

theorem Page.notify_authenticated (h : (s.notify readExp event t).Authenticated k) :
    s.clears readExp event = false ∧ t.Authenticated k := by
  obtain ⟨state, hshows, hauth⟩ := h
  unfold Page.notify at hshows
  split_ifs at hshows with hclears
  · rw [Page.dispatch_shows hshows] at hauth
    cases hauth
  · exact ⟨by simpa using hclears, state, hshows, hauth⟩

theorem Resumes.authenticated {call : HookCall} {message : String}
    (h : Resumes s call message t) (ht : t.Authenticated k) :
    s.Authenticated k ∨ (call.hook = k ∧ call.awaits.HasTokens s.service) := by
  have shown {f : AuthState → AuthState} (htokens : call.awaits.HasTokens s.service)
      (ht : (s.setAuthState call.hook f).Authenticated k) :
      s.Authenticated k ∨ (call.hook = k ∧ call.awaits.HasTokens s.service) := by
    obtain ⟨state, hshows, hauth⟩ := ht
    rcases Page.setAuthState_shows hshows with hshows | ⟨hk, -⟩
    · exact .inl ⟨state, hshows, hauth⟩
    · exact .inr ⟨hk.symm, htokens⟩
  cases h with
  | loggedIn h hi => exact shown (h ▸ ⟨_, hi, rfl⟩) ht
  | loginFailed => exact .inl (ht.of_update rfl fun _ => id)
  | loggedOut => exact .inl (ht.of_update rfl fun _ => nofun)
  | refreshed h hp => exact shown (h ▸ hp) ht
  | refreshFailed => exact .inl (ht.of_update rfl fun _ => nofun)

/-- A component comes to show a session only by signing in, and none does where it is cleared. -/
theorem PageSteps.authenticated (h : PageSteps readExp s event t) (ht : t.Authenticated k) :
    s.clears readExp event = false ∧
      (s.Authenticated k ∨ PageEntry.SignsIn readExp ⟨s, event⟩ k) := by
  cases h with
  | render =>
    obtain ⟨state, ⟨hook, hk, hlistening, hstate⟩, hauth⟩ := ht
    rcases getElem?_append_cases hk with ⟨-, rfl⟩ | ⟨-, hk⟩
    · cases hlistening
    · exact ⟨rfl, .inl ⟨state, ⟨hook, hk, hlistening, hstate⟩, hauth⟩⟩
  | effect =>
    obtain ⟨state, ⟨hook, hk, hlistening, hstate⟩, hauth⟩ := ht
    rcases getElem?_set_cases hk with ⟨rfl, rfl⟩ | ⟨-, hk⟩
    · subst hstate
      exact ⟨rfl, .inr (.inl ⟨rfl, hauth⟩)⟩
    · exact ⟨rfl, .inl ⟨state, ⟨hook, hk, hlistening, hstate⟩, hauth⟩⟩
  | cleanup =>
    obtain ⟨state, ⟨hook, hk, hlistening, hstate⟩, hauth⟩ := ht
    simp only [Page.cleanup, List.getElem?_modify, Option.map_eq_map,
      Option.map_eq_some_iff] at hk
    obtain ⟨before, hk, rfl⟩ := hk
    split_ifs at hlistening hstate
    exact ⟨rfl, .inl ⟨state, ⟨before, hk, hlistening, hstate⟩, hauth⟩⟩
  | login => exact ⟨rfl, .inl (Page.enter_authenticated ht)⟩
  | googleLogin => exact ⟨rfl, .inl (Page.enter_authenticated ht)⟩
  | signup => exact ⟨rfl, .inl (Page.enter_authenticated ht)⟩
  | logout =>
    obtain ⟨hclears, ht⟩ := Page.notify_authenticated ht
    exact ⟨hclears, .inl (ht.of_update (f := fun prev => { prev with isLoading := true }) rfl
      fun _ => id)⟩
  | refreshTokens =>
    obtain ⟨hclears, ht⟩ := Page.notify_authenticated ht
    exact ⟨hclears, .inl ht⟩
  | @refreshUser k =>
    rcases Page.refreshUser_cases s k with heq | ⟨token, heq⟩ <;> rw [heq] at ht
    · exact ⟨rfl, .inl (Page.failUser_authenticated ht)⟩
    · exact ⟨rfl, .inl ht⟩
  | service =>
    obtain ⟨hclears, ht⟩ := Page.notify_authenticated ht
    exact ⟨hclears, .inl ht⟩
  | link =>
    obtain ⟨hclears, ht⟩ := Page.notify_authenticated ht
    exact ⟨hclears, .inl ht⟩
  | @resume j message call _ hj h =>
    refine ⟨rfl, (h.authenticated ht).imp_right fun ⟨hk, htokens⟩ => ?_⟩
    exact .inr ⟨j, message, call, rfl, hj, hk, htokens⟩
  | @userResponse _ data =>
    cases data with
    | ok freshUser =>
      exact ⟨rfl, .inl (ht.of_update (f := fun prev => { prev with user := freshUser }) rfl
        fun _ => id)⟩
    | error message => exact ⟨rfl, .inl (Page.failUser_authenticated ht)⟩

/-- `clearAuthData` empties the storage, and every component that listens shows that. -/
theorem PageSteps.cleared (h : PageSteps readExp s event t)
    (hclears : s.clears readExp event = true) : t.storage = ⟨none, none, none⟩ ∧
      ∀ j state, t.Shows j state → state = .signedOut (some "Session expired") := by
  have hwrites : Writes s.storage (s.clears readExp event) t.storage := by
    rcases h.writes with ⟨now, rfl⟩ | hwrites
    · cases hclears
    · exact hwrites
  refine ⟨?_, fun j state hshows => ?_⟩
  · rw [hclears] at hwrites
    generalize t.storage = storage at hwrites
    cases hwrites
    rfl
  · have told {u : Page} (hu : (s.notify readExp event u).Shows j state) :
        state = .signedOut (some "Session expired") := by
      rw [Page.notify, if_pos hclears] at hu
      exact Page.dispatch_shows hu
    cases h with
    | logout => exact told hshows
    | refreshTokens => exact told hshows
    | service => exact told hshows
    | link => exact told hshows
    | _ => cases hclears

/-- A page that has been loaded, over any storage. -/
structure NewPage (s : Page) : Prop where
  service : NewService s.service := by exact {}
  hooks : s.hooks = [] := by rfl
  calls : s.calls = [] := by rfl

namespace PageEntry
variable (readExp : ReadExp) (entry : PageEntry)

def Clears : Prop := entry.before.clears readExp entry.event = true

/-- Another tab takes the session away, which no component hears of. -/
def TakenElsewhere : Prop :=
  entry.before.storage.HoldsSession ∧
    ∃ storage, entry.event.IsElsewhere storage ∧ ¬ storage.HoldsSession

def Loses : Prop := entry.Clears readExp ∨ entry.TakenElsewhere

end PageEntry

/-- The session was last lost to another tab, or while a call of the component had its tokens and
had yet to show that. -/
def LostUnseen (readExp : ReadExp) (k : ℕ) : List PageEntry → Prop :=
  Latest (·.Loses readExp) fun entry => entry.TakenElsewhere ∨ entry.before.HasTokens k

/-- What is shown, or about to be, is stored. -/
structure PageInv (readExp : ReadExp) (tr : List PageEntry) (s : Page) : Prop where
  pending : s.service.Pending
  stored : ∀ k, s.Authenticated k ∨ s.HasTokens k →
    s.storage.HoldsSession ∨ LostUnseen readExp k tr

theorem NewPage.inv (h : NewPage s) : PageInv readExp [] s where
  pending p hp := by simp [h.service.refreshPromise] at hp
  stored k hk := by
    rcases hk with ⟨_, ⟨hook, hhook, -⟩, -⟩ | ⟨call, hcall, -⟩
    · simp [h.hooks] at hhook
    · simp [h.calls] at hcall

theorem PageInv.step (h : PageInv readExp tr s) (hs : PageSteps readExp s event t) :
    PageInv readExp (⟨s, event⟩ :: tr) t where
  pending := hs.pending h.pending
  stored k hk := by
    by_cases hclears : s.clears readExp event = true
    · rcases hk with hauth | htokens
      · exact absurd hclears (by simp [(hs.authenticated hauth).1])
      · rcases hs.hasTokens h.pending htokens with hbefore | ⟨hno, -⟩
        · exact .inr (.here (.inl hclears) (.inr hbefore))
        · exact absurd hclears (by simp [hno])
    by_cases htaken : PageEntry.TakenElsewhere ⟨s, event⟩
    · exact .inr (.here (.inr htaken) (.inl htaken))
    -- the entry is none that loses the session
    have hkept : s.storage.HoldsSession → t.storage.HoldsSession := by
      intro hholds
      rcases hs.writes with helsewhere | hwrites
      · by_contra hno
        exact htaken ⟨hholds, _, helsewhere, hno⟩
      · rw [Bool.not_eq_true] at hclears
        exact (hclears ▸ hwrites).holdsSession hholds
    have hstill (hbefore : s.Authenticated k ∨ s.HasTokens k) :
        t.storage.HoldsSession ∨ LostUnseen readExp k (⟨s, event⟩ :: tr) :=
      (h.stored k hbefore).imp hkept fun hlost =>
        .earlier (not_or.mpr ⟨hclears, htaken⟩) hlost
    rcases hk with hauth | htokens
    · rcases (hs.authenticated hauth).2 with hbefore | ⟨-, hfinds⟩ |
        ⟨j, message, call, -, hj, hk, htokens⟩
      · exact hstill (.inl hbefore)
      · exact .inl (hkept (holdsSession_of_isAuthenticated hfinds))
      · exact hstill (.inr ⟨call, List.mem_of_getElem? hj, hk, htokens⟩)
    · rcases hs.hasTokens h.pending htokens with hbefore | ⟨-, hholds⟩
      · exact hstill (.inr hbefore)
      · exact .inl hholds

theorem NewPage.run_inv (h₀ : NewPage s₀) (hrun : PageRun readExp s₀ tr s) :
    PageInv readExp tr s := by
  refine Trace.Run.invariant hrun h₀.inv ?_
  rintro tr s ⟨_, event⟩ t hinv ⟨rfl, hs⟩
  exact hinv.step hs

/-- A page behind `ProtectedRoute` is shown, and one behind `PublicRoute` is left, with a session
stored; unless that was last lost to another tab, or after a sign-in or a refresh of the route's own
component had its tokens stored and before it returned. -/
theorem shown_session_stored {hook : AuthHook} {isRefreshing : Bool} (h₀ : NewPage s₀)
    (hrun : PageRun readExp s₀ tr s) (hk : s.hooks[k]? = some hook)
    (hlistening : hook.listening = true)
    (hshown : protectedRoute hook.state isRefreshing = .children ∨
      publicRoute hook.state false = .navigate "/dashboard") :
    s.storage.HoldsSession ∨ LostUnseen readExp k tr := by
  have hauth : hook.state.isAuthenticated = true := by
    rcases hshown with hshown | hshown
    · unfold protectedRoute at hshown
      split_ifs at hshown with hwaits hauth
      simpa using hauth
    · unfold publicRoute at hshown
      split_ifs at hshown with hauth
      simpa using hauth
  exact (h₀.run_inv hrun).stored k (.inl ⟨_, ⟨hook, hk, hlistening, rfl⟩, hauth⟩)

theorem NewPage.run_authenticated (h₀ : NewPage s₀) (hrun : PageRun readExp s₀ tr s)
    (hauth : s.Authenticated k) :
    Latest (fun entry => entry.Clears readExp ∨ entry.SignsIn readExp k)
      (·.SignsIn readExp k) tr := by
  induction hrun with
  | start =>
    obtain ⟨_, ⟨hook, hhook, -⟩, -⟩ := hauth
    simp [h₀.hooks] at hhook
  | @step tr s t entry _ hs ih =>
    obtain ⟨rfl, hs⟩ := hs
    obtain ⟨hkept, hbefore⟩ := hs.authenticated hauth
    by_cases hsigns : entry.SignsIn readExp k
    · exact .here (.inr hsigns) hsigns
    · refine .earlier (not_or.mpr ⟨?_, hsigns⟩) (ih (hbefore.resolve_right hsigns))
      simp [PageEntry.Clears, hkept]

namespace Sample

/-- A page with a form and a header, and no session. -/
def newPage : Page where
  service := service
  link := { storage := service.storage }

def mounted : Page :=
  ({ newPage with hooks := [{}, {}] } : Page).effect noExp 0 |>.effect noExp 1

def mountedEntries : List PageEntry :=
  [⟨({ newPage with hooks := [{}, {}] } : Page).effect noExp 0, .effect 1⟩,
    ⟨{ newPage with hooks := [{}, {}] }, .effect 0⟩, ⟨{ newPage with hooks := [{}] }, .render⟩,
    ⟨newPage, .render⟩]

theorem run_mounted : PageRun noExp newPage mountedEntries mounted :=
  .step (.step (.step (.step .start ⟨rfl, .render⟩) ⟨rfl, .render⟩) ⟨rfl, .effect⟩) ⟨rfl, .effect⟩

/-- The user logs in with the form, -/
def entering : Page := mounted.enter 0 (.signingIn (.login ⟨"ann@mail", "secret12"⟩))

def entered : Page := { entering with service := entering.service.signedIn 0 (some loginTokens) }

/-- and out with the header before the profile is loaded. -/
def left : Page := entered.notify noExp (.logout 1) (entered.logout noExp 1)

def leftEntries : List PageEntry :=
  ⟨entered, .logout 1⟩ :: ⟨entering, .service (.loginResponse 0 (some loginTokens))⟩ ::
    ⟨mounted, .login 0 ⟨"ann@mail", "secret12"⟩⟩ :: mountedEntries

theorem run_left : PageRun noExp newPage leftEntries left :=
  .step (.step (.step run_mounted ⟨rfl, .login⟩) ⟨rfl, .service rfl (.loginResponse rfl)⟩)
    ⟨rfl, .logout⟩

def profile : UserProfile := ⟨"u1", "ann@mail", "Ann", 30, "", true⟩

def loaded : Page :=
  { left with service := left.service.userLoaded 0 loginTokens (some (some profile)) }

def overtaken : Page := (loaded.setAuthState 0 fun _ => .signedIn profile).finish 0 ⟨0, .login 0⟩

def overtakenEntries : List PageEntry :=
  ⟨loaded, .resume 0 ""⟩ :: ⟨left, .service (.userResponse 0 (some (some profile)))⟩ :: leftEntries

theorem run_overtaken : PageRun noExp newPage overtakenEntries overtaken :=
  .step (.step run_left ⟨rfl, .service rfl (.userResponse rfl)⟩)
    ⟨rfl, .resume rfl (.loggedIn rfl rfl)⟩

end Sample

/-- The form shows a session that the header has ended. -/
theorem shown_session_stored_overtaken :
    LostUnseen Sample.noExp 0 Sample.overtakenEntries := by
  have hshown : protectedRoute (.signedIn Sample.profile) false = .children := rfl
  have hform : Sample.overtaken.hooks[0]? = some ⟨.signedIn Sample.profile, true⟩ := rfl
  have hstored := shown_session_stored {} Sample.run_overtaken hform rfl (.inl hshown)
  refine hstored.resolve_left ?_
  rintro (h | h) <;> exact h rfl

/-- A session that is cleared on the page is gone from the storage and from every component at
once; and a component that shows one has signed in itself since the last time. -/
theorem cleared_for_every_component (h₀ : NewPage s₀) (hrun : PageRun readExp s₀ tr s) :
    (∀ entry tr', tr = entry :: tr' → entry.Clears readExp → s.storage = ⟨none, none, none⟩ ∧
      ∀ j state, s.Shows j state → state = .signedOut (some "Session expired")) ∧
    ∀ k, s.Authenticated k → Latest (fun entry => entry.Clears readExp ∨ entry.SignsIn readExp k)
      (·.SignsIn readExp k) tr := by
  refine ⟨?_, fun k => h₀.run_authenticated hrun⟩
  rintro entry tr' rfl hclears
  cases hrun with
  | step _ hs =>
    obtain ⟨rfl, hs⟩ := hs
    exact hs.cleared hclears

/-- The header's logout has ended the session of the form. -/
theorem cleared_for_every_component_left : Sample.left.storage = ⟨none, none, none⟩ ∧
    ((Sample.left.hooks[0]?).map (·.state)) = some (.signedOut (some "Session expired")) := by
  obtain ⟨hcleared, -⟩ := cleared_for_every_component {} Sample.run_left
  obtain ⟨hstorage, hshows⟩ := hcleared _ _ rfl rfl
  exact ⟨hstorage, congrArg some (hshows 0 _ ⟨_, rfl, rfl, rfl⟩)⟩

end CodebaseTrpc.Client
