import CodebaseTrpc.Invariants.Accounts

/-! Whether a user who pays has the product paid for. The handler of `subscription.updated`
writes the user's product only when the product of the billing row changes, so a subscription
that recovers on its old plan stays without it. -/
namespace CodebaseTrpc
variable {P : Packages} {w w' : World}

/-- Each user whose billing row is active and not expired has the product of that row. -/
def Entitled (w : World) : Prop :=
  ∀ u ∈ w.db.users, ∀ b ∈ w.db.billings, b.userId = u.id → b.status = "active" →
    w.env.now ≤ b.expiresAt → u.currentProductId = some b.productId

/-- The request is a webhook event, a login, a Google sign-in or a token refresh. -/
def Request.Renews : Request → Prop
  | .webhook _ | .login _ | .google _ | .refresh _ => True
  | _ => False

/-- If the exchange is an update of a subscription on file that fits the columns, keeps its product
and leaves it active for a period that has not ended, the user has that product already. -/
def Restored (x : Exchange) : Prop :=
  ∀ sub input b u, x.request = .webhook (.subscriptionUpdated sub) → sub.id ≠ "" →
    updateInput x.before.db sub = some input →
    Rows.lookup Billing.externalSubscriptionId sub.id x.before.db.billings = some b →
    u ∈ x.before.db.users → u.id = b.userId → ¬ input.Ended → input.Fits →
    (∀ p, spread input.productId = .set p → p = b.productId) →
    (spread input.status).apply b.status = "active" →
    x.before.env.now ≤ input.currentPeriodEnd → u.currentProductId = some b.productId

/-- An account whose active, unexpired row is the product it has. -/
def Account.Paying (now : ℕ) (a : Account) : Prop :=
  ∀ b, a.row = some b → b.status = "active" → now ≤ b.expiresAt → a.product = some b.productId

theorem entitled_iff_paying (h : UniqueOwners w.db.billings) :
    Entitled w ↔ ∀ u ∈ w.db.users, (w.db.account u).Paying w.env.now := by
  constructor
  · intro he u hu b hb hactive hexp
    exact he u hu b (Rows.lookup_mem hb) (Rows.lookup_key hb) hactive hexp
  · intro hp u hu b hb hown hactive hexp
    have hrow : (w.db.account u).row = some b := by
      rw [Db.account, ← hown]
      exact lookup_owner h hb
    exact hp u hu b hrow hactive hexp

/-- An ended subscription does not leave its row active. -/
theorem not_active_of_ended {input : SubscriptionUpdate} (h : input.Ended) (old : String) :
    (spread input.status).apply old ≠ "active" := by
  rcases h with h | h <;> simp [h, spread]

/-- Every event that meets the condition keeps an account that has what it pays for. -/
theorem Account.Billed.paying {event : BillingEvent} {u : User} {a' : Account}
    {x : Exchange} (hu : u ∈ x.before.db.users) (hrequest : x.request = .webhook event)
    (hx : Restored x) (hp : (x.before.db.account u).Paying x.before.env.now)
    (h : Account.Billed x.before event (x.before.db.account u) a') :
    a'.Paying x.before.env.now := by
  generalize ha : x.before.db.account u = a at h hp
  cases h with
  | paid => rintro b hb - -; cases hb; rfl
  | failed =>
    intro b hb hactive
    cases hb
    exact absurd hactive (by simp [failedBilling])
  | @updated sub input product b hinput hne hb hended hfit =>
    intro b' hb' hactive hexp
    cases hb'
    simp only [updatedBilling] at hactive hexp ⊢
    have hend : ¬ input.Ended := fun hend => not_active_of_ended hend _ hactive
    have hproduct : u.currentProductId = product := congrArg Account.product ha
    have hrow : Rows.lookup Billing.userId u.id x.before.db.billings = some b :=
      congrArg Account.row ha
    have hkept := hx sub input b u hrequest hne hinput hb hu (Rows.lookup_key hrow).symm hend hfit
    simp only [productWritten, if_neg hend]
    cases hs : spread input.productId with
    | undefined =>
      rw [← hproduct]
      exact hkept (by simp [hs]) hactive hexp
    | set p =>
      dsimp only
      split_ifs with hsame
      · rfl
      · rw [not_not] at hsame
        rw [← hproduct, hsame]
        exact hkept (by simp [hs, hsame]) hactive hexp
  | deleted =>
    intro b hb hactive
    cases hb
    exact absurd hactive (by simp [deletedBilling])

/-- A run of such exchanges keeps every account entitled. -/
theorem entitled_of_restored {w₀ : World} {tr : List Entry}
    (hrun : RunWhere P (fun _ x => Restored x) w₀ tr w) (h₀ : w₀.trx = none)
    (hb : w₀.db.billings = []) : Entitled w := by
  have hunique : UniqueOwners w₀.db.billings := by simp [UniqueOwners, hb]
  rw [entitled_iff_paying (RunWhere.uniqueOwners hrun h₀ hunique)]
  refine RunWhere.accounts (A := fun now a => a.Paying now) hrun h₀ hunique ?_ ?_ ?_ ?_
  · intro u _ b hrow
    simp [Db.account, hb, Rows.lookup] at hrow
  · exact fun now now' a hle hp b hrow hactive hexp => hp b hrow hactive (Nat.le_trans hle hexp)
  · intro now free _ b hrow
    cases hrow
  · intro tr x hx _ u hu a' hp hstep
    generalize hr : x.request = request at hstep
    cases hstep with
    | billed h => exact h.paying hu hr hx hp
    | lapsed h =>
      generalize x.before.db.account u = a at h hp
      obtain ⟨-, hexp⟩ := h
      intro b hrow _ hle
      cases hrow
      omega

/-- An exchange that leaves every account entitled met the condition. -/
theorem restored_of_entitled {x : Exchange} (htrx : x.before.trx = none)
    (hx : (handle P x.request).Exec x.before x.reply x.after) (he : Entitled x.after) :
    Restored x := by
  obtain ⟨before, request, reply, after⟩ := x
  rintro sub input b u rfl hne hinput hb hu hid hend hfit hsame hactive hexp
  dsimp only at hne hinput hb hu hexp htrx hx he ⊢
  obtain ⟨db, hrun, hup⟩ := run_subscriptionUpdated_ok htrx hinput hne hb
    (hid ▸ lookup_of_mem hu) (fun h => absurd h hend) hfit
  obtain ⟨-, rfl⟩ := exec_webhook_ok hrun hx
  have husers : db.users = before.db.users := by
    have hw : productWritten before.freeTier input b = none := by
      rw [productWritten, if_neg hend]
      split
      next => rfl
      next p hp => rw [if_neg (not_not.mpr (hsame p hp))]
    simpa [hw] using hup.users
  have hproduct : (updatedBilling input before.env.now b).productId = b.productId := by
    rw [updatedBilling]
    cases hp : spread input.productId with
    | undefined => rfl
    | set p => exact hsame p hp
  have hrow : updatedBilling input before.env.now b ∈ db.billings := by
    rw [hup.billings]
    exact Rows.mem_update_self Billing.id _ (Rows.lookup_mem hb)
  exact hproduct ▸ he u (husers ▸ hu) _ hrow hid.symm hactive hexp

/-- Along a run from empty billings, every world reached is entitled exactly if every update of
a subscription that keeps its product finds its user on that product. -/
theorem entitled_iff {w₀ : World} {tr : List Entry} (hrun : ServerRun P w₀ tr w)
    (h₀ : w₀.trx = none) (hb : w₀.db.billings = []) :
    (∀ tr' v, tr' <:+ tr → ServerRun P w₀ tr' v → Entitled v) ↔
      ∀ x, Entry.call x ∈ tr → Restored x := by
  constructor
  · intro he x hx
    obtain ⟨tr', s, v, hrun', ⟨hserves, -⟩, hsuf⟩ := Trace.Run.of_mem hrun hx
    have hv := he _ v hsuf (.step hrun' ⟨hserves, fun _ _ => trivial⟩)
    cases hserves with
    | call hexec =>
      exact restored_of_entitled (x := ⟨s, _, _, v⟩) (RunWhere.trx hrun' h₀) hexec hv
  · intro hx tr' v hsuf hrun'
    exact entitled_of_restored (ServerRun.restrict hrun' fun x hmem => hx x (hsuf.subset hmem))
        h₀ hb

namespace Sample

/-- Ann pays, her card fails for good, and she pays again before the period ends. -/
def recovery : List Move :=
  [.ask (.webhook (.invoicePaid paidInvoice)),
    .ask (.webhook (.subscriptionUpdated (subscription "unpaid"))),
    .ask (.webhook (.subscriptionUpdated (subscription "active")))]

def recovered : World := play packages signedIn recovery

set_option maxRecDepth 10000 in
theorem recovered_facts : signedIn.trx.isNone = true ∧ signedIn.db.billings = [] ∧
    signedIn.freeTier ≠ none ∧
    buyer recovered ∈ recovered.db.users ∧ bill recovered ∈ recovered.db.billings ∧
    (bill recovered).userId = (buyer recovered).id ∧ (bill recovered).status = "active" ∧
    recovered.env.now ≤ (bill recovered).expiresAt ∧
    (buyer recovered).currentProductId ≠ some (bill recovered).productId := by decide +kernel

end Sample

/-- The run in which Ann recovers on her old plan. -/
theorem entitled_iff_recovery : ∃ tr,
    ServerRun Sample.packages Sample.signedIn tr Sample.recovered ∧
      ((∀ tr' v, tr' <:+ tr → ServerRun Sample.packages Sample.signedIn tr' v → Entitled v) ↔
        ∀ x, Entry.call x ∈ tr → Restored x) := by
  obtain ⟨tr, hrun⟩ := serverRun_play Sample.packages Sample.signedIn Sample.recovery
  obtain ⟨htrx, hb, -⟩ := Sample.recovered_facts
  exact ⟨tr, hrun, entitled_iff hrun (Option.isNone_iff_eq_none.mp htrx) hb⟩

/-- After the recovery the user is left on the free tier. -/
theorem recovery_loses_entitlement : ¬ ∀ (w₀ w : World) (tr : List Entry), w₀.trx = none →
    w₀.freeTier ≠ none → w₀.db.billings = [] →
      RunWhere Sample.packages (fun _ x => x.request.Renews) w₀ tr w → Entitled w := by
  intro h
  obtain ⟨htrx, hb, hfree, hu, hrow, hown, hactive, hexp, hne⟩ := Sample.recovered_facts
  have hrun := runWhere_play Sample.packages (fun _ x => x.request.Renews) Sample.signedIn
    Sample.recovery fun request hr _ _ _ _ => by
      simp only [Sample.recovery, List.mem_cons, Move.ask.injEq, List.not_mem_nil, or_false] at hr
      rcases hr with rfl | rfl | rfl <;> trivial
  exact hne (h _ _ _ (Option.isNone_iff_eq_none.mp htrx) hfree hb hrun _ hu _ hrow hown hactive
    hexp)

end CodebaseTrpc
