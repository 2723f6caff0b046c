import CodebaseTrpc.Client.AuthClient
import CodebaseTrpc.Client.TrpcClient

/-! `hooks/useAuth.ts`: a page whose components each call the hook, so that each has a state of its
own, over one `AuthService`, one tRPC link and one `localStorage`. -/
namespace CodebaseTrpc.Client

structure AuthState where
  user : Option UserProfile
  isAuthenticated : Bool
  isLoading : Bool
  error : Option String
  deriving DecidableEq, Repr

def AuthState.initial : AuthState := ⟨none, false, true, none⟩

def AuthState.signedIn (user : UserProfile) : AuthState := ⟨some user, true, false, none⟩

def AuthState.signedOut (error : Option String) : AuthState := ⟨none, false, false, error⟩

/-- A component that calls the hook, and whether its listener is registered. -/
structure AuthHook where
  state : AuthState := .initial
  listening : Bool := false
  deriving DecidableEq, Repr

/-- What a call of a function of the hook waits for. A promise of the service is the number of its
execution. -/
inductive Awaited where
  /-- `await authService.login(credentials)`, `googleLogin` or `signup` -/
  | login (i : ℕ)
  /-- `await authService.logout()` -/
  | logout (k : ℕ)
  /-- `await authService.refreshTokens()` -/
  | refresh (promise : ℕ)
  /-- `await fetch(...)` and `await response.json()` in `refreshUser` -/
  | user (token : String)
  | returned
  deriving DecidableEq, Repr

/-- A call of a function of the hook, with the component. -/
structure HookCall where
  hook : ℕ
  awaits : Awaited
  deriving DecidableEq, Repr

/-- The components of a page, the calls of their functions so far, the service and the link. The
link reads and writes the `localStorage` of the service. -/
structure Page where
  service : AuthService
  link : TrpcClient
  hooks : List AuthHook := []
  calls : List HookCall := []

inductive PageEvent where
  /-- A component is rendered for the first time. -/
  | render
  /-- Its effect runs. -/
  | effect (k : ℕ)
  /-- Its effect is cleaned up. -/
  | cleanup (k : ℕ)
  | login (k : ℕ) (credentials : LoginInput)
  | googleLogin (k : ℕ) (credential : String)
  | signup (k : ℕ) (userData : SignupInput)
  | logout (k : ℕ)
  | refreshTokens (k : ℕ)
  | refreshUser (k : ℕ)
  /-- What a method of the service waits for; or time passes, and another tab writes. -/
  | service (event : AuthEvent)
  | link (event : Event)
  /-- A call continues after its `await`; the message is that of the error, if it was thrown. -/
  | resume (j : ℕ) (message : String)
  /-- What `refreshUser` waits for. -/
  | userResponse (j : ℕ) (data : Except String (Option UserProfile))

def AuthService.clears (readExp : ReadExp) (s : AuthService) : AuthEvent → Bool
  | .logout | .refreshResponse _ (.error _) => !s.storage.hasValidAccessToken readExp s.now
  | .refreshTokens =>
    s.refreshPromise.isNone && (truthyText s.storage.refreshToken).isNone &&
      !s.storage.hasValidAccessToken readExp s.now
  | .logoutResponse _ => true
  | _ => false

def TrpcClient.clears (s : TrpcClient) : Event → Bool
  | .answer _ status =>
    status == 401 && !s.isRefreshing && (truthyText s.storage.refreshToken).isNone
  | .refreshAnswer _ status => !decide (200 ≤ status ∧ status ≤ 299)
  | .refreshBody _ data => data.isNone
  | .refreshReject _ => true
  | _ => false

namespace Page
variable (readExp : ReadExp) (s : Page)

def storage : Storage := s.service.storage

/-- The link, with `localStorage` as it is. -/
def client : TrpcClient := { s.link with storage := s.storage }

/-- The event runs `clearAuthData`. -/
def clears : PageEvent → Bool
  | .logout _ => s.service.clears readExp .logout
  | .refreshTokens _ => s.service.clears readExp .refreshTokens
  | .service event => s.service.clears readExp event
  | .link event => s.client.clears event
  | _ => false

def setAuthState (k : ℕ) (f : AuthState → AuthState) : Page :=
  { s with hooks := s.hooks.modify k fun hook => { hook with state := f hook.state } }

/-- `window.dispatchEvent` calls every listener, which all get `authenticated: false`. -/
def dispatch : Page :=
  { s with hooks := s.hooks.map fun hook =>
      if hook.listening then { hook with state := .signedOut (some "Session expired") } else hook }

/-- The page after an event, with the listeners called if it ran `clearAuthData`. -/
def notify (event : PageEvent) (t : Page) : Page :=
  if s.clears readExp event then t.dispatch else t

/-- A call of a function of the hook, up to its `await`. -/
def await (k : ℕ) (awaits : Awaited) : Page := { s with calls := s.calls ++ [⟨k, awaits⟩] }

/-- The call `j` has returned. -/
def finish (j : ℕ) (call : HookCall) : Page :=
  { s with calls := s.calls.set j { call with awaits := .returned } }

/-- The effect: `initializeAuth`, and the listener. -/
def effect (k : ℕ) : Page :=
  { s with hooks := s.hooks.set k {
      state := {
        user := s.storage.user
        isAuthenticated := s.storage.isAuthenticated readExp s.service.now
        isLoading := false
        error := none }
      listening := true } }

def cleanup (k : ℕ) : Page :=
  { s with hooks := s.hooks.modify k fun hook => { hook with listening := false } }

/-- `login`, `googleLogin` and `signup`, by what the service does first. -/
def enter (k : ℕ) (login : Login) : Page :=
  let s := s.setAuthState k fun prev => { prev with isLoading := true, error := none }
  { s with service := s.service.enter login }.await k (.login s.service.logins.length)

def logout (k : ℕ) : Page :=
  let s := s.setAuthState k fun prev => { prev with isLoading := true }
  { s with service := s.service.logout readExp }.await k (.logout s.service.logouts.length)

def refreshTokens (k : ℕ) : Page :=
  let (service, promise) := s.service.refreshTokens readExp
  { s with service }.await k (.refresh promise)

def failUser (k : ℕ) (message : String) : Page :=
  s.setAuthState k fun prev => { prev with error := some message }

def refreshUser (k : ℕ) : Page :=
  match truthyText s.storage.accessToken with
  | none => s.failUser k "No access token available"
  | some token => s.await k (.user token)

/-- After `await response.json()` in `refreshUser`, or in its `catch` block. What `setUser(null)`
stores is read back as `null`. -/
def userResponse (k : ℕ) : Except String (Option UserProfile) → Page
  | .ok freshUser =>
    { s with service := { s.service with storage := { s.storage with user := freshUser } } }
      |>.setAuthState k fun prev => { prev with user := freshUser }
  | .error message => s.failUser k message

end Page

/-- After the `await` of a call, once the promise of the service is settled. -/
inductive Resumes (s : Page) (call : HookCall) (message : String) : Page → Prop
  | loggedIn {i : ℕ} {user : UserProfile} {response : LoginResponse} (h : call.awaits = .login i)
      (hi : s.service.logins[i]? = some (.returned user response)) :
      Resumes s call message (s.setAuthState call.hook fun _ => .signedIn user)
  | loginFailed {i : ℕ} (h : call.awaits = .login i)
      (hi : s.service.logins[i]? = some .rejected) :
      Resumes s call message (s.setAuthState call.hook fun prev =>
        { prev with isLoading := false, error := some message })
  | loggedOut {k : ℕ} (h : call.awaits = .logout k)
      (hk : s.service.logouts[k]? = some .returned) :
      Resumes s call message (s.setAuthState call.hook fun _ => .signedOut none)
  | refreshed {p : ℕ} (h : call.awaits = .refresh p)
      (hp : s.service.refreshes[p]? = some .resolved) :
      Resumes s call message (s.setAuthState call.hook fun prev =>
        { prev with user := s.storage.user, isAuthenticated := true })
  | refreshFailed {p : ℕ} {error : String} (h : call.awaits = .refresh p)
      (hp : s.service.refreshes[p]? = some (.rejected error)) :
      Resumes s call message
        (s.setAuthState call.hook fun _ => .signedOut (some "Session expired"))

/-- The methods of the service are called by the hook only. -/
def AuthEvent.isCall : AuthEvent → Bool
  | .refreshTokens | .logout | .login _ | .googleLogin _ | .signup _ => true
  | _ => false

/-- One step of the page. -/
inductive PageSteps (readExp : ReadExp) (s : Page) : PageEvent → Page → Prop
  | render : PageSteps readExp s .render { s with hooks := s.hooks ++ [{}] }
  | effect {k : ℕ} : PageSteps readExp s (.effect k) (s.effect readExp k)
  | cleanup {k : ℕ} : PageSteps readExp s (.cleanup k) (s.cleanup k)
  | login {k : ℕ} {credentials : LoginInput} :
      PageSteps readExp s (.login k credentials) (s.enter k (.signingIn (.login credentials)))
  | googleLogin {k : ℕ} {credential : String} :
      PageSteps readExp s (.googleLogin k credential) (s.enter k (.signingIn (.google credential)))
  | signup {k : ℕ} {userData : SignupInput} :
      PageSteps readExp s (.signup k userData) (s.enter k (.signingUp userData))
  | logout {k : ℕ} :
      PageSteps readExp s (.logout k) (s.notify readExp (.logout k) (s.logout readExp k))
  | refreshTokens {k : ℕ} : PageSteps readExp s (.refreshTokens k)
      (s.notify readExp (.refreshTokens k) (s.refreshTokens readExp k))
  | refreshUser {k : ℕ} : PageSteps readExp s (.refreshUser k) (s.refreshUser k)
  | service {event : AuthEvent} {service : AuthService} (hcall : event.isCall = false)
      (h : AuthSteps readExp s.service event service) :
      PageSteps readExp s (.service event)
        (s.notify readExp (.service event) { s with service })
  | link {event : Event} {link : TrpcClient} (h : Steps s.client event link) :
      PageSteps readExp s (.link event) (s.notify readExp (.link event)
        { s with link, service := { s.service with storage := link.storage } })
  | resume {j : ℕ} {message : String} {call : HookCall} {t : Page} (hj : s.calls[j]? = some call)
      (h : Resumes s call message t) : PageSteps readExp s (.resume j message) (t.finish j call)
  | userResponse {j : ℕ} {data : Except String (Option UserProfile)} {call : HookCall}
      {token : String} (hj : s.calls[j]? = some call) (h : call.awaits = .user token) :
      PageSteps readExp s (.userResponse j data)
        ((s.userResponse call.hook data).finish j call)

/-- An event of a run, with the page before it. -/
structure PageEntry where
  before : Page
  event : PageEvent

abbrev PageRun (readExp : ReadExp) (s₀ : Page) (tr : List PageEntry) (s : Page) : Prop :=
  Trace.Run (fun _ s entry t => entry.before = s ∧ PageSteps readExp s entry.event t) s₀ tr s

inductive View where
  | spinner (text : String)
  | navigate (path : String)
  | children
  deriving DecidableEq, Repr

/-- `components/routes/ProtectedRoute.tsx` -/
def protectedRoute (state : AuthState) (isRefreshing : Bool) : View :=
  if state.isLoading || isRefreshing then
    .spinner (if isRefreshing then "Refreshing session..." else "Loading...")
  else if !state.isAuthenticated then .navigate "/login"
  else .children

/-- `components/routes/PublicRoute.tsx` -/
def publicRoute (state : AuthState) (allowAuthenticated : Bool) : View :=
  if state.isAuthenticated && !allowAuthenticated then .navigate "/dashboard" else .children

end CodebaseTrpc.Client
