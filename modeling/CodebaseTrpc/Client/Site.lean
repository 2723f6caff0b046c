import CodebaseTrpc.Client.TrpcClient
import CodebaseTrpc.Spec.Server

/-! The tRPC link of a page and the server behind it. The refreshes of the link travel to the server
and back; the server serves any other request in between. No other code of the page, such as its
sign-in, its logout or the `AuthService`, touches the stored tokens here. -/
namespace CodebaseTrpc
open Client (TrpcClient Event Steps)

/-- The tRPC link of one page beside the world of the server. -/
structure Site where
  page : TrpcClient
  world : World
  /-- By refresh, how the server answered its request. -/
  answers : ℕ → Option (Except Err Reply) := fun _ => none

/-- The status of a tRPC response. -/
def HasStatus : Except Err Reply → ℕ → Prop
  | .ok _, status => status = 200
  | .error _, status => ¬ (200 ≤ status ∧ status ≤ 299)

/-- What the page reads of the response to a refresh is what the server answered. A connection
may break at any point. -/
def Site.Reads (b : Site) : Event → Prop
  | .refreshAnswer p status => ∃ reply, b.answers p = some reply ∧ HasStatus reply status
  | .refreshBody p (some data) => b.answers p = some (.ok (.tokens data.toLoginResponse))
  | _ => True

inductive SiteEvent where
  | page (event : Event)
  /-- The server serves the request of a refresh. -/
  | served (promise : ℕ) (reply : Except Err Reply)
  /-- The server serves anyone's request, or the surroundings move. -/
  | server (entry : Entry)

inductive SiteSteps (P : Packages) : Site → SiteEvent → Site → Prop
  | page {b : Site} {event : Event} {page : TrpcClient} (h : Steps b.page event page)
      (hreads : b.Reads event) : SiteSteps P b (.page event) { b with page }
  | served {b : Site} {p : ℕ} {token : String} {reply : Except Err Reply} {world : World}
      (hp : b.page.refreshes[p]? = some (.fetching token)) (hone : b.answers p = none)
      (hx : (handle P (.refresh token)).Exec b.world reply world) :
      SiteSteps P b (.served p reply)
        { b with world, answers := Function.update b.answers p (some reply) }
  | server {b : Site} {entry : Entry} {world : World} (h : Serves P b.world entry world) :
      SiteSteps P b (.server entry) { b with world }

/-- A run in which every step meets a condition on the site before it. -/
abbrev SiteRunWhere (P : Packages) (C : Site → SiteEvent → Prop) (b₀ : Site)
    (evs : List SiteEvent) (b : Site) : Prop :=
  Trace.Run (fun _ b event b' => SiteSteps P b event b' ∧ C b event) b₀ evs b

abbrev SiteRun (P : Packages) (b₀ : Site) (evs : List SiteEvent) (b : Site) : Prop :=
  SiteRunWhere P (fun _ _ => True) b₀ evs b

/-- The refresh token that the page has, or that is on its way to it. -/
def Site.held (b : Site) : Option String :=
  match b.page.isRefreshing, b.page.refreshPromise with
  | true, some p =>
    match b.answers p with
    | some (.ok (.tokens tokens)) => some tokens.refreshToken
    | _ => b.page.storage.refreshToken
  | _, _ => b.page.storage.refreshToken

end CodebaseTrpc
