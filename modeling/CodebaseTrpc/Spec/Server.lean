import CodebaseTrpc.Model.SamplePackages
import CodebaseTrpc.Spec.Effect
import CodebaseTrpc.Trace.Run

/-! Serial runs of the server: one request after another, the surroundings moving in between. -/
namespace CodebaseTrpc
variable (P : Packages)

/-- A request served, with the worlds around it. -/
structure Exchange where
  before : World
  request : Request
  reply : Except Err Reply
  after : World

/-- What happens in a run. Between the requests the clock advances, and the answers of the mail
service, of Google and of the random draws change. -/
inductive Entry where
  | idle (env : Environment)
  | call (exchange : Exchange)

/-- The clock never steps back between two requests. -/
inductive Serves : World → Entry → World → Prop
  | idle {w : World} {env : Environment} (h : w.env.now ≤ env.now) :
      Serves w (.idle env) { w with env }
  | call {w w' : World} {request : Request} {reply : Except Err Reply}
      (h : (handle P request).Exec w reply w') :
      Serves w (.call ⟨w, request, reply, w'⟩) w'

/-- A run in which every exchange meets a condition, which may look at what came before. -/
abbrev RunWhere (C : List Entry → Exchange → Prop) (w₀ : World) (tr : List Entry) (w : World) :
    Prop :=
  Trace.Run (fun tr w entry w' => Serves P w entry w' ∧ ∀ x, entry = .call x → C tr x) w₀ tr w

/-- Any run. -/
abbrev ServerRun (w₀ : World) (tr : List Entry) (w : World) : Prop :=
  RunWhere P (fun _ _ => True) w₀ tr w

/-- The user completed an email change. -/
def CompletesChange (userId : String) (x : Exchange) : Prop :=
  ∃ auth code u reply, x.request = .verifyEmailChange auth code ∧
    Authenticates P x.before auth u ∧ u.id = userId ∧ x.reply = .ok reply

/-- A deployment before its first request: products, and nothing else. -/
structure Fresh (w : World) : Prop where
  users : w.db.users = [] := by rfl
  billings : w.db.billings = [] := by rfl
  trx : w.trx = none := by rfl
  issued : w.issued = [] := by rfl
  outbox : w.outbox = [] := by rfl
  checkouts : w.checkouts = [] := by rfl

variable {P} {w w' : World}

theorem Effect.trx {request : Request} {reply : Except Err Reply}
    (h : Effect P w request reply w') : w'.trx = w.trx := by
  cases h with
  | google _ hres => cases hres <;> simp
  | googleStopped _ hres => cases hres <;> simp
  | codeWrong _ _ _ _ h _ => exact h.trx
  | _ => simp [World.issueReset, World.mailed, World.sign]

theorem Effect.env {request : Request} {reply : Except Err Reply}
    (h : Effect P w request reply w') : w'.env = w.env := by
  cases h with
  | google _ hres => cases hres <;> simp
  | googleStopped _ hres => cases hres <;> simp
  | codeWrong _ _ _ _ h _ => exact h.env
  | _ => simp [World.issueReset, World.mailed, World.sign]

theorem Effect.products {request : Request} {reply : Except Err Reply}
    (h : Effect P w request reply w') : w'.db.products = w.db.products := by
  cases h with
  | google _ hres => cases hres <;> simp
  | googleStopped _ hres => cases hres <;> simp
  | codeWrong _ _ _ _ h _ => exact h.products
  | webhook h => exact h.products
  | _ => simp [World.issueReset, World.mailed, World.sign]

/-- Only a webhook event writes to the billings. -/
theorem Effect.billings {request : Request} {reply : Except Err Reply}
    (h : Effect P w request reply w') (hreq : ∀ event, request ≠ .webhook event) :
    w'.db.billings = w.db.billings := by
  cases h with
  | google _ hres => cases hres <;> simp
  | googleStopped _ hres => cases hres <;> simp
  | codeWrong _ _ _ _ h _ => exact h.billings
  | webhook h => exact absurd rfl (hreq _)
  | _ => simp [World.issueReset, World.mailed, World.sign]

section Run
variable {C : List Entry → Exchange → Prop} {w₀ : World} {tr : List Entry}

/-- A run all of whose exchanges meet a condition. -/
theorem ServerRun.restrict {Q : Exchange → Prop} (h : ServerRun P w₀ tr w)
    (hQ : ∀ x, .call x ∈ tr → Q x) : RunWhere P (fun _ x => Q x) w₀ tr w := by
  refine Trace.Run.mono (Trace.Run.restrict (Q := fun i => ∀ x, i = .call x → Q x) h ?_) ?_
  · rintro i hi x rfl
    exact hQ x hi
  · rintro tr s i t ⟨⟨hs, -⟩, hq⟩
    exact ⟨hs, hq⟩

/-- No transaction is open between two requests. -/
theorem RunWhere.trx (h : RunWhere P C w₀ tr w) (h₀ : w₀.trx = none) : w.trx = none := by
  refine Trace.Run.invariant (I := fun _ w => w.trx = none) h h₀ ?_
  rintro _ _ _ _ htrx ⟨h | h, -⟩
  · exact htrx
  · exact ((effect_of_exec htrx h).trx).trans htrx

theorem RunWhere.freeTier (h : RunWhere P C w₀ tr w) (h₀ : w₀.trx = none) :
    w.freeTier = w₀.freeTier := by
  refine (Trace.Run.invariant (I := fun _ w => w.trx = none ∧ w.freeTier = w₀.freeTier) h
    ⟨h₀, rfl⟩ ?_).2
  rintro _ _ _ _ ⟨htrx, hf⟩ ⟨h | h, -⟩
  · exact ⟨htrx, hf⟩
  · have heff := effect_of_exec htrx h
    exact ⟨heff.trx.trans htrx, by rw [World.freeTier, heff.products]; exact hf⟩

theorem RunWhere.now_le (h : RunWhere P C w₀ tr w) (h₀ : w₀.trx = none) :
    w₀.env.now ≤ w.env.now := by
  refine (Trace.Run.invariant (I := fun _ w => w.trx = none ∧ w₀.env.now ≤ w.env.now) h
    ⟨h₀, Nat.le_refl _⟩ ?_).2
  rintro _ _ _ _ ⟨htrx, hn⟩ ⟨hle | h, -⟩
  · exact ⟨htrx, Nat.le_trans hn hle⟩
  · have heff := effect_of_exec htrx h
    exact ⟨heff.trx.trans htrx, by rw [heff.env]; exact hn⟩

end Run

/-- New surroundings, or a request. -/
inductive Move where
  | wait (env : Environment)
  | ask (request : Request)

/-- One move; a clock that would run backwards is left alone. -/
def Move.play (P : Packages) (w : World) : Move → Entry × World
  | .wait env =>
    if w.env.now ≤ env.now then (.idle env, { w with env }) else (.idle w.env, w)
  | .ask request =>
    let served := (handle P request).run w
    (.call ⟨w, request, served.1, served.2⟩, served.2)

theorem Move.serves (P : Packages) (w : World) (move : Move) :
    Serves P w (move.play P w).1 (move.play P w).2 := by
  cases move with
  | wait env =>
    simp only [Move.play]
    split
    next h => exact .idle h
    next => exact .idle (Nat.le_refl _)
  | ask request => exact .call (Async.exec_run ..)

def playFrom (P : Packages) : List Entry → World → List Move → List Entry × World
  | tr, w, [] => (tr, w)
  | tr, w, move :: moves =>
    playFrom P ((move.play P w).1 :: tr) (move.play P w).2 moves

/-- The world a script leads to. -/
def play (P : Packages) (w : World) (moves : List Move) : World := (playFrom P [] w moves).2

theorem runWhere_playFrom {C : List Entry → Exchange → Prop} {w₀ : World} {tr : List Entry}
    (moves : List Move) (h : RunWhere P C w₀ tr w)
    (hC : ∀ request, .ask request ∈ moves → ∀ tr v r v', C tr ⟨v, request, r, v'⟩) :
    RunWhere P C w₀ (playFrom P tr w moves).1 (playFrom P tr w moves).2 := by
  induction moves generalizing tr w with
  | nil => exact h
  | cons move moves ih =>
    refine ih (.step h ⟨move.serves P w, ?_⟩) fun request hr => hC request (by simp [hr])
    intro x hx
    cases move with
    | wait env =>
      simp only [Move.play] at hx
      split at hx <;> cases hx
    | ask request =>
      cases hx
      exact hC request (by simp) _ _ _ _

/-- What a script records was there before, or was asked by it. -/
theorem mem_playFrom {tr : List Entry} {moves : List Move} {x : Exchange}
    (h : Entry.call x ∈ (playFrom P tr w moves).1) :
    Entry.call x ∈ tr ∨ Move.ask x.request ∈ moves := by
  induction moves generalizing tr w with
  | nil => exact .inl h
  | cons move moves ih =>
    rcases ih h with h | h
    · rcases List.mem_cons.mp h with h | h
      · right
        cases move with
        | wait env =>
          simp only [Move.play] at h
          split at h <;> cases h
        | ask request => cases h; simp
      · exact .inl h
    · exact .inr (List.mem_cons_of_mem _ h)

/-- A script whose requests all meet the condition is a run of such exchanges. -/
theorem runWhere_play (P : Packages) (C : List Entry → Exchange → Prop) (w₀ : World)
    (moves : List Move)
    (hC : ∀ request, .ask request ∈ moves → ∀ tr v r v', C tr ⟨v, request, r, v'⟩) :
    RunWhere P C w₀ (playFrom P [] w₀ moves).1 (play P w₀ moves) :=
  runWhere_playFrom moves .start hC

/-- Every script is a run. -/
theorem serverRun_play (P : Packages) (w₀ : World) (moves : List Move) :
    ∃ tr, ServerRun P w₀ tr (play P w₀ moves) :=
  ⟨_, runWhere_play P _ w₀ moves fun _ _ _ _ _ _ => trivial⟩

/-- One more request, answered alone. -/
theorem ServerRun.ask {w₀ : World} {tr : List Entry} (h : ServerRun P w₀ tr w) (request : Request) :
    ServerRun P w₀
      (.call ⟨w, request, ((handle P request).run w).1, ((handle P request).run w).2⟩ :: tr)
      ((handle P request).run w).2 :=
  .step h ⟨.call (Async.exec_run ..), fun _ _ => trivial⟩

namespace Sample

theorem start_fresh : Fresh start := {}

/-- After a signup and a login: a verification token, an access token, a refresh token. -/
def signedIn : World := play packages start [.ask (.signup ann), .ask (.login annLogin)]

theorem serverRun_signedIn : ∃ tr, ServerRun packages start tr signedIn := serverRun_play ..

def accessToken : Issued := signedIn.issued.getD 1 default
def refreshToken : Issued := signedIn.issued.getD 2 default

def verificationToken : Issued := signedIn.issued.getD 0 default

def paidInvoice : Invoice where
  customerEmail := some "ann@mail"
  customer := some "cus_1"
  parentSubscription := some (.id "sub_1")
  lines := some [{ price := some "price_1", periodEnd := 1702592000 }]

/-- Ann buys the paid plan and pays for it. -/
def purchase : List Move :=
  [.ask (.signup ann), .ask (.verifyEmail verificationToken.text), .ask (.login annLogin),
    .ask (.createCheckoutSession (some accessToken.text)
      ⟨"price_1", "https://ok", "https://back"⟩),
    .ask (.webhook (.invoicePaid paidInvoice))]

def bought : World := play packages start purchase

def bob : SignupInput where
  fullName := "Bob Roe"
  email := "bob@mail"
  phone := "556"
  password := "secret34"
  age := 31

/-- Bob signs up after Ann's purchase. -/
def crowded : World :=
  play packages start (purchase ++ [.wait { env with uuid := "u2" }, .ask (.signup bob)])

/-- The first user and the first billing row of a world. -/
def buyer (w : World) : User := w.db.users.headD default
def bill (w : World) : Billing := w.db.billings.headD default

def subscription (status : String) : Subscription where
  id := "sub_1"
  status := status
  items := [{ currentPeriodEnd := some 1702592000, priceId := some "price_1" }]

end Sample

end CodebaseTrpc
