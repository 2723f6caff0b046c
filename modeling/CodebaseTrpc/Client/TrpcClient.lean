import CodebaseTrpc.Client.Storage
import CodebaseTrpc.Trace.Run

/-! `lib/trpc.ts`: the `fetch` of the tRPC link, which refreshes the tokens after a 401 and tries
again. A call runs from one `await` to the next; what it waits for may come in any order. -/
namespace CodebaseTrpc.Client

/-- What the refresh endpoint answers with: two signed tokens, which are not empty. -/
structure RefreshData extends LoginResponse where
  access_ne : accessToken ≠ ""
  refresh_ne : refreshToken ≠ ""

/-- Where the async function inside `refreshAccessToken` is. -/
inductive RefreshState where
  /-- `await fetch(...)`, with the refresh token in its body. -/
  | fetching (refreshToken : String)
  /-- `await response.json()` -/
  | reading
  | settled (refreshed : Bool)
  deriving DecidableEq, Repr

def RefreshState.inFlight : RefreshState → Bool
  | .settled _ => false
  | _ => true

/-- Where a call of the link's `fetch` is. -/
inductive Phase where
  /-- `await fetch(url, options)` -/
  | fetching
  /-- `await refreshAccessToken()`, after a response with this status. -/
  | refreshing (status promise : ℕ)
  /-- `return fetch(url, newOptions)` -/
  | retrying
  | returned (status : ℕ)
  | rejected
  deriving DecidableEq, Repr

/-- A call, and the `Authorization` header of each request it has sent. -/
structure Call where
  phase : Phase
  sent : List (Option String)
  deriving DecidableEq, Repr

/-- The variables of the module, `localStorage`, and the calls and refreshes so far. A promise is
the number of its refresh. -/
structure TrpcClient where
  storage : Storage
  isRefreshing : Bool := false
  refreshPromise : Option ℕ := none
  refreshes : List RefreshState := []
  calls : List Call := []

def bearer (token : String) : String := "Bearer " ++ token

namespace TrpcClient
variable (s : TrpcClient)

/-- The code of `refreshAccessToken` up to its `return`, with the promise it returns. -/
def refreshAccessToken : TrpcClient × ℕ :=
  match s.isRefreshing, s.refreshPromise with
  | true, some promise => (s, promise)
  | _, _ =>
    let promise := s.refreshes.length
    match truthyText s.storage.refreshToken with
    -- the async function ends, `finally` included, before its promise is assigned
    | none => ({ s with
        storage := s.storage.clearAuthData
        isRefreshing := false
        refreshPromise := some promise
        refreshes := s.refreshes ++ [.settled false] }, promise)
    | some refreshToken => ({ s with
        isRefreshing := true
        refreshPromise := some promise
        refreshes := s.refreshes ++ [.fetching refreshToken] }, promise)

/-- The `finally` block, and the result of the promise. -/
def settle (promise : ℕ) (refreshed : Bool) : TrpcClient :=
  { s with
    isRefreshing := false
    refreshPromise := none
    refreshes := s.refreshes.set promise (.settled refreshed) }

/-- `clearAuthData(); return false`, on a bad status or in the `catch` block. -/
def failRefresh (promise : ℕ) : TrpcClient :=
  { s with storage := s.storage.clearAuthData }.settle promise false

/-- After `await fetch(...)` in the refresh. -/
def refreshAnswered (promise status : ℕ) : TrpcClient :=
  if 200 ≤ status ∧ status ≤ 299 then
    { s with refreshes := s.refreshes.set promise .reading }
  else s.failRefresh promise

/-- After `await response.json()`; `none` where the body cannot be read. -/
def refreshRead (promise : ℕ) : Option RefreshData → TrpcClient
  | none => s.failRefresh promise
  | some data =>
    { s with storage := s.storage.setTokens data.toLoginResponse }.settle promise true

/-- A call of the link's `fetch`, with the `headers` of the link. -/
def send : TrpcClient :=
  { s with calls := s.calls ++
      [⟨.fetching, [(truthyText s.storage.accessToken).map bearer]⟩] }

/-- After `await fetch(url, options)` in a call. -/
def answered (i : ℕ) (call : Call) (status : ℕ) : TrpcClient :=
  if status = 401 ∧ s.isRefreshing = false then
    let (s, promise) := s.refreshAccessToken
    { s with calls := s.calls.set i { call with phase := .refreshing status promise } }
  else
    { s with calls := s.calls.set i { call with phase := .returned status } }

/-- The header of a retry. -/
def authorization : String :=
  match truthyText s.storage.accessToken with
  | some token => bearer token
  | none => ""

/-- After `await refreshAccessToken()` in a call. -/
def resumed (i : ℕ) (call : Call) (status : ℕ) (refreshed : Bool) : TrpcClient :=
  if refreshed then
    -- Retry the request with new token
    { s with calls := s.calls.set i ⟨.retrying, call.sent ++ [some s.authorization]⟩ }
  else
    { s with calls := s.calls.set i { call with phase := .returned status } }

end TrpcClient

/-- What a step of the page waited for. -/
inductive Event where
  | send
  | answer (i status : ℕ)
  | retryAnswer (i status : ℕ)
  | reject (i : ℕ)
  | refreshAnswer (promise status : ℕ)
  | refreshBody (promise : ℕ) (data : Option RefreshData)
  | refreshReject (promise : ℕ)
  | resume (i : ℕ)

/-- One step of the page. -/
inductive Steps : TrpcClient → Event → TrpcClient → Prop
  | send {s : TrpcClient} : Steps s .send s.send
  | answer {s : TrpcClient} {i status : ℕ} {call : Call} (hi : s.calls[i]? = some call)
      (hphase : call.phase = .fetching) : Steps s (.answer i status) (s.answered i call status)
  | retryAnswer {s : TrpcClient} {i status : ℕ} {call : Call} (hi : s.calls[i]? = some call)
      (hphase : call.phase = .retrying) : Steps s (.retryAnswer i status)
        { s with calls := s.calls.set i { call with phase := .returned status } }
  | reject {s : TrpcClient} {i : ℕ} {call : Call} (hi : s.calls[i]? = some call)
      (hphase : call.phase = .fetching ∨ call.phase = .retrying) : Steps s (.reject i)
        { s with calls := s.calls.set i { call with phase := .rejected } }
  | refreshAnswer {s : TrpcClient} {promise status : ℕ} {refreshToken : String}
      (hp : s.refreshes[promise]? = some (.fetching refreshToken)) :
      Steps s (.refreshAnswer promise status) (s.refreshAnswered promise status)
  | refreshBody {s : TrpcClient} {promise : ℕ} {data : Option RefreshData}
      (hp : s.refreshes[promise]? = some .reading) :
      Steps s (.refreshBody promise data) (s.refreshRead promise data)
  | refreshReject {s : TrpcClient} {promise : ℕ} {r : RefreshState}
      (hp : s.refreshes[promise]? = some r) (hr : r.inFlight = true) :
      Steps s (.refreshReject promise) (s.failRefresh promise)
  | resume {s : TrpcClient} {i status promise : ℕ} {call : Call} {refreshed : Bool}
      (hi : s.calls[i]? = some call) (hphase : call.phase = .refreshing status promise)
      (hp : s.refreshes[promise]? = some (.settled refreshed)) :
      Steps s (.resume i) (s.resumed i call status refreshed)

/-- A run of the page. -/
abbrev ClientRun (s₀ : TrpcClient) (tr : List Event) (s : TrpcClient) : Prop :=
  Trace.Run (fun _ s event t => Steps s event t) s₀ tr s

end CodebaseTrpc.Client
