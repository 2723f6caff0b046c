import CodebaseTrpc.Client.Storage
import CodebaseTrpc.Trace.Run

/-! `lib/auth.ts`: the methods of `AuthService`, each from one `await` to the next. What a method
waits for may come in any order, and other code may write to `localStorage` in between. -/
namespace CodebaseTrpc.Client

/-- An execution of `performRefresh`. -/
inductive PerformRefresh where
  /-- `await trpcClient.auth.refresh.mutate({ refreshToken })` -/
  | refreshing (refreshToken : String)
  | resolved
  | rejected (message : String)
  deriving DecidableEq, Repr

/-- How the user signs in. -/
inductive SignIn where
  | login (credentials : LoginInput)
  | google (credential : String)
  deriving DecidableEq, Repr

/-- An execution of `login`, `googleLogin` or `signup`. -/
inductive Login where
  /-- `await trpcClient.auth.signup.mutate(userData)` -/
  | signingUp (userData : SignupInput)
  /-- `await trpcClient.auth.login.mutate(credentials)`, or the same with Google. -/
  | signingIn (signIn : SignIn)
  /-- `await trpcClient.user.getUserById.query()` -/
  | loadingUser (response : LoginResponse)
  | returned (user : UserProfile) (response : LoginResponse)
  | rejected
  deriving DecidableEq, Repr

/-- An execution of `logout`. -/
inductive Logout where
  /-- `await trpcClient.auth.logout.mutate()` -/
  | revoking
  | returned
  deriving DecidableEq, Repr

/-- An `AuthService`, the clock and `localStorage`, with the executions of its methods so far. A
promise is the number of its execution. -/
structure AuthService where
  storage : Storage
  now : ℕ
  refreshPromise : Option ℕ := none
  refreshes : List PerformRefresh := []
  logins : List Login := []
  logouts : List Logout := []

namespace AuthService
variable (readExp : ReadExp) (s : AuthService)

/-- The code of `logout` up to its `await`, or to its end. -/
def logout : AuthService :=
  if s.storage.hasValidAccessToken readExp s.now then
    { s with logouts := s.logouts ++ [.revoking] }
  else { s with storage := s.storage.clearAuthData, logouts := s.logouts ++ [.returned] }

/-- After the request of a `logout`, however it ended. -/
def revoked (k : ℕ) : AuthService :=
  { s with storage := s.storage.clearAuthData, logouts := s.logouts.set k .returned }

/-- The `catch` block of `performRefresh`, which awaits no `logout`, and its `finally` block. -/
def failRefresh : AuthService := { s.logout readExp with refreshPromise := none }

/-- The code of `performRefresh` up to its `await`, or to its end, with its promise. -/
def performRefresh : AuthService × ℕ :=
  match truthyText s.storage.refreshToken with
  | none =>
    ({ s.failRefresh readExp with
      refreshes := s.refreshes ++ [.rejected "No refresh token available"] }, s.refreshes.length)
  | some refreshToken =>
    ({ s with refreshes := s.refreshes ++ [.refreshing refreshToken] }, s.refreshes.length)

/-- The code of `refreshTokens`, with the promise it returns. -/
def refreshTokens : AuthService × ℕ :=
  -- Prevent multiple simultaneous refresh attempts
  match s.refreshPromise with
  | some promise => (s, promise)
  | none =>
    let (s, promise) := s.performRefresh readExp
    ({ s with refreshPromise := some promise }, promise)

/-- After the request of `performRefresh`. -/
def refreshed (promise : ℕ) : Except String LoginResponse → AuthService
  | .ok response =>
    { s with
      storage := s.storage.setTokens response
      refreshPromise := none
      refreshes := s.refreshes.set promise .resolved }
  | .error message =>
    { s.failRefresh readExp with refreshes := s.refreshes.set promise (.rejected message) }

/-- A call of `login`, `googleLogin` or `signup`. -/
def enter (login : Login) : AuthService := { s with logins := s.logins ++ [login] }

/-- After the request of `signup`, which logs in if it was accepted. -/
def signedUp (i : ℕ) (userData : SignupInput) : Bool → AuthService
  | true =>
    let credentials : LoginInput := ⟨userData.email, userData.password⟩
    { s with logins := s.logins.set i (.signingIn (.login credentials)) }
  | false => { s with logins := s.logins.set i .rejected }

/-- After the first request of a login. -/
def signedIn (i : ℕ) : Option LoginResponse → AuthService
  | some response =>
    { s with
      storage := s.storage.setTokens response
      logins := s.logins.set i (.loadingUser response) }
  | none => { s with logins := s.logins.set i .rejected }

/-- After the second; the outer `none` where it was rejected, the inner where there is no user. -/
def userLoaded (i : ℕ) (response : LoginResponse) : Option (Option UserProfile) → AuthService
  | some (some user) =>
    { s with
      storage := s.storage.setUser user
      logins := s.logins.set i (.returned user response) }
  | _ => { s with logins := s.logins.set i .rejected }

end AuthService

inductive AuthEvent where
  | refreshTokens
  | logout
  | login (credentials : LoginInput)
  | googleLogin (credential : String)
  | signup (userData : SignupInput)
  | refreshResponse (promise : ℕ) (response : Except String LoginResponse)
  | logoutResponse (k : ℕ)
  | signupResponse (i : ℕ) (accepted : Bool)
  | loginResponse (i : ℕ) (response : Option LoginResponse)
  | userResponse (i : ℕ) (user : Option (Option UserProfile))
  /-- Time passes, and other code writes to `localStorage`. -/
  | elsewhere (storage : Storage) (now : ℕ)

/-- One step of the service. -/
inductive AuthSteps (readExp : ReadExp) : AuthService → AuthEvent → AuthService → Prop
  | refreshTokens {s : AuthService} :
      AuthSteps readExp s .refreshTokens (s.refreshTokens readExp).1
  | logout {s : AuthService} : AuthSteps readExp s .logout (s.logout readExp)
  | login {s : AuthService} {credentials : LoginInput} :
      AuthSteps readExp s (.login credentials) (s.enter (.signingIn (.login credentials)))
  | googleLogin {s : AuthService} {credential : String} :
      AuthSteps readExp s (.googleLogin credential) (s.enter (.signingIn (.google credential)))
  | signup {s : AuthService} {userData : SignupInput} :
      AuthSteps readExp s (.signup userData) (s.enter (.signingUp userData))
  | refreshResponse {s : AuthService} {promise : ℕ} {refreshToken : String}
      {response : Except String LoginResponse}
      (hp : s.refreshes[promise]? = some (.refreshing refreshToken)) :
      AuthSteps readExp s (.refreshResponse promise response) (s.refreshed readExp promise response)
  | logoutResponse {s : AuthService} {k : ℕ} (hk : s.logouts[k]? = some .revoking) :
      AuthSteps readExp s (.logoutResponse k) (s.revoked k)
  | signupResponse {s : AuthService} {i : ℕ} {userData : SignupInput} {accepted : Bool}
      (hi : s.logins[i]? = some (.signingUp userData)) :
      AuthSteps readExp s (.signupResponse i accepted) (s.signedUp i userData accepted)
  | loginResponse {s : AuthService} {i : ℕ} {signIn : SignIn} {response : Option LoginResponse}
      (hi : s.logins[i]? = some (.signingIn signIn)) :
      AuthSteps readExp s (.loginResponse i response) (s.signedIn i response)
  | userResponse {s : AuthService} {i : ℕ} {response : LoginResponse}
      {user : Option (Option UserProfile)} (hi : s.logins[i]? = some (.loadingUser response)) :
      AuthSteps readExp s (.userResponse i user) (s.userLoaded i response user)
  | elsewhere {s : AuthService} {storage : Storage} {now : ℕ} (h : s.now ≤ now) :
      AuthSteps readExp s (.elsewhere storage now) { s with storage, now }

abbrev AuthRun (readExp : ReadExp) (s₀ : AuthService) (tr : List AuthEvent) (s : AuthService) :
    Prop :=
  Trace.Run (fun _ s event t => AuthSteps readExp s event t) s₀ tr s

end CodebaseTrpc.Client
