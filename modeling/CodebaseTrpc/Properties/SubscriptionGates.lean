import CodebaseTrpc.Invariants.Billings
import CodebaseTrpc.Spec.Plan

/-! The two answers to whether a user has a subscription: `billingMiddleware` reads the end of the
paid period, `getUserBilling` the status. They agree while both are written in step. -/
namespace CodebaseTrpc
variable {P : Packages} {w w' : World} {u : User}

/-- `billingMiddleware` lets the user through. -/
def Admits (w : World) (u : User) : Prop :=
  ∃ w', (billingMiddleware (some u)).Exec w (.ok ()) w'

/-- `getUserBilling` reports a subscription. -/
def ReportsSubscription (w : World) (u : User) : Prop :=
  ∃ billing w', (getUserBilling u).Exec w (.ok billing) w' ∧ billing.hasSubscription = true

/-- At the time of the world, for every user. -/
def GatesAgree (w : World) : Prop := ∀ u ∈ w.db.users, Admits w u ↔ ReportsSubscription w u

theorem awaits_billingMiddleware (user : Option User) : (billingMiddleware user).Awaits := by
  unfold billingMiddleware
  split
  · trivial
  refine Async.Awaits.tryCatch ((awaits_select _).bind fun billing => ?_) fun error => by
    split <;> trivial
  split
  · trivial
  refine awaits_dateNow.bind fun now => ?_
  split <;> trivial

theorem run_billingMiddleware (u : User) (w : World) : (billingMiddleware (some u)).run w =
    (match Rows.lookup Billing.userId u.id w.db.billings with
      | none => .error (.trpc .notFound "User billing not found")
      | some b => if b.expiresAt < w.env.now then
          .error (.trpc .paymentRequired "User billing has expired") else .ok (), w) := by
  simp only [billingMiddleware, Async.run_tryCatch, Async.bind_eq]
  rw [Async.run_bind_ok (run_getBillingByUserId ..)]
  cases Rows.lookup Billing.userId u.id w.db.billings with
  | none => rfl
  | some b =>
    simp only [Async.run_bind_ok (run_dateNow w)]
    split_ifs <;> rfl

theorem admits_iff : Admits w u ↔
    ∃ b, Rows.lookup Billing.userId u.id w.db.billings = some b ∧ w.env.now ≤ b.expiresAt := by
  simp only [Admits, Async.exec_iff_run (awaits_billingMiddleware _), run_billingMiddleware]
  cases Rows.lookup Billing.userId u.id w.db.billings with
  | none => simp
  | some b =>
    by_cases hexp : b.expiresAt < w.env.now
    · simp [hexp]
    · simpa [hexp] using Nat.le_of_not_lt hexp

theorem run_getUserBilling (u : User) (w : World) : ∃ price, (getUserBilling u).run w =
    (.ok { hasSubscription :=
             (Rows.lookup Billing.userId u.id w.db.billings).any (·.status = "active")
           billing := Rows.lookup Billing.userId u.id w.db.billings
           externalPriceId := price }, w) := by
  simp only [getUserBilling, Async.bind_eq]
  rw [Async.run_bind_ok (run_getBillingByUserId ..)]
  split <;> exact ⟨_, rfl⟩

theorem reportsSubscription_iff : ReportsSubscription w u ↔
    ∃ b, Rows.lookup Billing.userId u.id w.db.billings = some b ∧ b.status = "active" := by
  obtain ⟨price, hrun⟩ := run_getUserBilling u w
  simp only [ReportsSubscription, Async.exec_iff_run (awaits_getUserBilling u), hrun]
  cases Rows.lookup Billing.userId u.id w.db.billings <;> simp

/-- A row is active exactly as long as it is paid for. -/
def Billing.InTime (now : ℕ) (b : Billing) : Prop := b.status = "active" ↔ now ≤ b.expiresAt

instance (now : ℕ) (b : Billing) : Decidable (b.InTime now) := by
  unfold Billing.InTime; infer_instance

theorem gatesAgree_iff (h : UniqueOwners w.db.billings) :
    GatesAgree w ↔ ∀ b ∈ w.db.billings, b.InTime w.env.now := by
  simp only [GatesAgree, admits_iff, reportsSubscription_iff]
  constructor
  · intro hagree b hb
    obtain ⟨u, hu, hid⟩ := w.db.sound.billings_user b hb
    have hl := lookup_owner h hb
    rw [← hid] at hl
    simpa [hl, Billing.InTime] using (hagree u hu).symm
  · intro hrows u hu
    cases hl : Rows.lookup Billing.userId u.id w.db.billings with
    | none => simp
    | some b => simpa using (hrows b (Rows.lookup_mem hl)).symm

/-- The rewritten row is active exactly as long as it is paid for. -/
def Rewrite.InStep (now : ℕ) (b : Billing) : Rewrite → Prop
  | .paid input _ => now ≤ unixTimestampToDate input.expiresAt
  | .failed => b.expiresAt < now
  | .updated input =>
    (spread input.status).apply b.status = "active" ↔ now ≤ input.currentPeriodEnd
  | .deleted => False

def Change.InStep (w : World) (c : Change) : Prop :=
  match c.billing with
  | .create input _ => c.Drawn w → w.env.now ≤ unixTimestampToDate input.expiresAt
  | .rewrite b f => f.InStep w.env.now b

/-- The clock passes the end of no active row, and an event leaves the row it writes active
exactly if it is paid for. -/
def InStep (w : World) : Entry → Prop
  | .idle env => ∀ b ∈ w.db.billings, b.status = "active" → env.now ≤ b.expiresAt
  | .call x => ∀ event, x.request = .webhook event → ∀ c, plan w.db event = some c → c.InStep w

theorem Rewrite.inStep_iff (now : ℕ) (b : Billing) (f : Rewrite) :
    (f.apply now b).InTime now ↔ f.InStep now b := by
  cases f with
  | paid input c => simp [Billing.InTime, Rewrite.apply, paidBilling, Rewrite.InStep]
  | failed => simp [Billing.InTime, Rewrite.apply, failedBilling, Rewrite.InStep]
  | updated input => rfl
  | deleted => simp [Billing.InTime, Rewrite.apply, deletedBilling, Rewrite.InStep]

/-- A change keeps the rows in time iff it is in step. -/
theorem Change.Writes.inTime_iff {c : Change} {db : Db} {event : BillingEvent}
    (hw : c.Writes w.env w.db db) (hs : c.billing.Sound w.db event c.userId) (hd : c.Drawn w)
    (h : ∀ b ∈ w.db.billings, b.InTime w.env.now) :
    (∀ b ∈ db.billings, b.InTime w.env.now) ↔ c.InStep w := by
  have hbillings := hw.billings
  unfold Change.billings at hbillings
  unfold Change.InStep
  cases hb : c.billing with
  | create input customer =>
    simp only [hb] at hbillings
    have hnew : (newBilling input customer c.userId w.env).InTime w.env.now ↔
        w.env.now ≤ unixTimestampToDate input.expiresAt := by
      simp [Billing.InTime, newBilling]
    rw [hbillings, List.forall_mem_append, List.forall_mem_singleton, hnew]
    exact ⟨fun hall _ => hall.2, fun hin => ⟨h, hin hd⟩⟩
  | rewrite b f =>
    simp only [hb] at hbillings
    rw [hb] at hs
    have hmem := hs.1
    dsimp only
    rw [hbillings, ← f.inStep_iff]
    constructor
    · intro hall
      exact hall _ (Rows.mem_update_self Billing.id _ hmem)
    · intro hrow x hx
      rcases Rows.mem_update.mp hx with ⟨y, hy, hid, rfl⟩ | ⟨hx, -⟩
      · rwa [Db.billing_eq hy hmem hid]
      · exact h x hx

/-- A row that is created has an id of its own. -/
theorem Change.Writes.drawn {c : Change} {db : Db} (hw : c.Writes w.env w.db db) : c.Drawn w := by
  intro input customer hc b hb hid
  have hbillings := hw.billings
  simp only [Change.billings, hc] at hbillings
  have hnodup := db.sound.billings_id
  rw [hbillings, List.map_append, List.nodup_append] at hnodup
  have hnew : w.env.uuid ∈ [newBilling input customer c.userId w.env].map Billing.id := by
    simp [newBilling]
  exact hnodup.2.2 _ (List.mem_map_of_mem hb) _ hnew hid

theorem Change.inStep_of_not_drawn {c : Change} (hd : ¬ c.Drawn w) : c.InStep w := by
  unfold Change.InStep
  cases hb : c.billing with
  | create input customer => exact fun h => absurd h hd
  | rewrite b f => exact absurd (fun _ _ hc => by rw [hb] at hc; cases hc) hd

/-- An exchange keeps the rows in time iff it is in step. -/
theorem inTime_call_iff {request : Request} {reply : Except Err Reply} (htrx : w.trx = none)
    (hx : (handle P request).Exec w reply w') (h : ∀ b ∈ w.db.billings, b.InTime w.env.now) :
    (∀ b ∈ w'.db.billings, b.InTime w'.env.now) ↔ InStep w (.call ⟨w, request, reply, w'⟩) := by
  have heff := effect_of_exec htrx hx
  rw [heff.env]
  by_cases hreq : ∀ event, request ≠ .webhook event
  · rw [heff.billings hreq]
    exact ⟨fun _ event he => absurd he (hreq event), fun _ => h⟩
  simp only [not_forall, not_not] at hreq
  obtain ⟨event, rfl⟩ := hreq
  have hstep : InStep w (.call ⟨w, .webhook event, reply, w'⟩) ↔
      ∀ c, plan w.db event = some c → c.InStep w :=
    ⟨fun hin => hin event rfl, by rintro hin _ ⟨⟩; exact hin⟩
  rw [hstep]
  cases hplan : plan w.db event with
  | none =>
    cases heff with
    | none => simpa using h
    | webhook hb =>
      obtain ⟨c, hc, -⟩ := hb.planned
      cases hplan.symm.trans hc
  | some c =>
    have hsound := (plan_sound hplan).2
    simp only [Option.some.injEq, forall_eq']
    by_cases hd : c.Drawn w
    · obtain ⟨db, hrun, hw⟩ := run_of_plan htrx hd hplan
      obtain ⟨-, rfl⟩ := exec_webhook_ok hrun hx
      exact hw.inTime_iff hsound hd h
    · cases heff with
      | none => exact ⟨fun _ => Change.inStep_of_not_drawn hd, fun _ => h⟩
      | webhook hb =>
        obtain ⟨c', hc', hw⟩ := hb.planned
        cases hplan.symm.trans hc'
        exact absurd hw.drawn hd

theorem inTime_idle_iff {env : Environment} (hle : w.env.now ≤ env.now)
    (h : ∀ b ∈ w.db.billings, b.InTime w.env.now) :
    (∀ b ∈ w.db.billings, b.InTime env.now) ↔ InStep w (.idle env) := by
  constructor
  · exact fun hall b hb hactive => (hall b hb).mp hactive
  · intro hin b hb
    exact ⟨hin b hb, fun hexp => (h b hb).mpr (Nat.le_trans hle hexp)⟩

theorem gatesAgree_step_iff {entry : Entry} (htrx : w.trx = none)
    (hu : UniqueOwners w.db.billings) (hu' : UniqueOwners w'.db.billings)
    (h : GatesAgree w) (hs : Serves P w entry w') : GatesAgree w' ↔ InStep w entry := by
  rw [gatesAgree_iff hu']
  rw [gatesAgree_iff hu] at h
  cases hs with
  | idle hle => exact inTime_idle_iff (w := w) hle h
  | call hx => exact inTime_call_iff htrx hx h

section Run
variable (P)

/-- A run in which every world reached is one where the gates agree. -/
abbrev AgreeingRun (w₀ : World) (tr : List Entry) (w : World) : Prop :=
  Trace.Run (fun _ w entry w' => Serves P w entry w' ∧ GatesAgree w') w₀ tr w

/-- A run of steps that keep status and period together. -/
abbrev InStepRun (w₀ : World) (tr : List Entry) (w : World) : Prop :=
  Trace.Run (fun _ w entry w' => Serves P w entry w' ∧ InStep w entry) w₀ tr w

variable {P} {w₀ : World} {tr : List Entry}

theorem AgreeingRun.gatesAgree (h : AgreeingRun P w₀ tr w) (hb : w₀.db.billings = []) :
    GatesAgree w := by
  cases h with
  | start =>
    have hunique : UniqueOwners w.db.billings := by simp [UniqueOwners, hb]
    exact (gatesAgree_iff hunique).mpr (by simp [hb])
  | step _ hs => exact hs.2

/-- What is known of the worlds around the last step of any run. -/
theorem step_frame {v : World} {entry : Entry} (hrun : ServerRun P w₀ tr v)
    (hs : Serves P v entry w) (h₀ : w₀.trx = none) (hb : w₀.db.billings = []) :
    v.trx = none ∧ UniqueOwners v.db.billings ∧ UniqueOwners w.db.billings := by
  have hu₀ : UniqueOwners w₀.db.billings := by simp [UniqueOwners, hb]
  exact ⟨RunWhere.trx hrun h₀, RunWhere.uniqueOwners hrun h₀ hu₀,
    RunWhere.uniqueOwners (.step hrun ⟨hs, fun _ _ => trivial⟩) h₀ hu₀⟩

/-- From empty billings, the gates agree in every world that a run reaches iff every step of it
is in step. -/
theorem gates_agree_iff (h₀ : w₀.trx = none) (hb : w₀.db.billings = []) :
    AgreeingRun P w₀ tr w ↔ InStepRun P w₀ tr w := by
  refine Trace.Run.congr fun tr v entry v' hagreeing _ => and_congr_right fun hs => ?_
  have hserver : ServerRun P _ _ _ :=
    Trace.Run.mono hagreeing fun _ _ _ _ h => ⟨h.1, fun _ _ => trivial⟩
  obtain ⟨htrx, hu, hu'⟩ := step_frame hserver hs h₀ hb
  exact gatesAgree_step_iff htrx hu hu' (AgreeingRun.gatesAgree hagreeing hb) hs

end Run

namespace Sample

def payment : Move := .ask (.webhook (.invoicePaid paidInvoice))

def paid : Entry × World := payment.play packages signedIn

/-- The payments stop, and the period that was paid for goes on. -/
def goneUnpaid : List Move :=
  [payment, .ask (.webhook (.subscriptionUpdated (subscription "unpaid")))]

set_option maxRecDepth 10000 in
theorem gates_facts : (signedIn.trx.isNone = true ∧ signedIn.db.billings = []) ∧
    ((paid.2.db.billings.map Billing.userId).Nodup ∧
      ∀ b ∈ paid.2.db.billings, b.InTime paid.2.env.now) ∧
    ((play packages signedIn goneUnpaid).db.billings.map Billing.userId).Nodup ∧
    ¬ ∀ b ∈ (play packages signedIn goneUnpaid).db.billings,
      b.InTime (play packages signedIn goneUnpaid).env.now := by decide +kernel

end Sample

/-- Ann pays, and the gates agree. -/
theorem gates_agree_iff_payment :
    InStepRun Sample.packages Sample.signedIn [Sample.paid.1] Sample.paid.2 := by
  obtain ⟨⟨htrx, hb⟩, ⟨hu, hintime⟩, -⟩ := Sample.gates_facts
  exact (gates_agree_iff (Option.isNone_iff_eq_none.mp htrx) hb).mp
    (.step .start ⟨Sample.payment.serves .., (gatesAgree_iff hu).mpr hintime⟩)

/-- Ann's subscription is unpaid: the middleware admits her, and she is told she has none. -/
theorem gates_disagree_unpaid : ¬ ∀ (w₀ w : World) (tr : List Entry), w₀.trx = none →
    w₀.db.billings = [] →
      RunWhere Sample.packages (fun _ x => ∃ event, x.request = .webhook event) w₀ tr w →
        GatesAgree w := by
  intro h
  obtain ⟨⟨htrx, hb⟩, -, hu, hne⟩ := Sample.gates_facts
  have hrun := runWhere_play Sample.packages (fun _ x => ∃ event, x.request = .webhook event)
    Sample.signedIn Sample.goneUnpaid fun request hr _ _ _ _ => by
      simp only [Sample.goneUnpaid, Sample.payment, List.mem_cons, Move.ask.injEq, List.not_mem_nil,
        or_false] at hr
      rcases hr with rfl | rfl <;> exact ⟨_, rfl⟩
  exact hne ((gatesAgree_iff hu).mp (h _ _ _ (Option.isNone_iff_eq_none.mp htrx) hb hrun))

end CodebaseTrpc
