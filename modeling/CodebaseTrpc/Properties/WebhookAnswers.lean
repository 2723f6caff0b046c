import CodebaseTrpc.Model.App
import CodebaseTrpc.Spec.Plan
import CodebaseTrpc.Spec.Server

/-! Which signed webhooks are answered. A rejection of the handler reaches no one who would answer
for it. -/
namespace CodebaseTrpc
variable {w w' : World} {event : BillingEvent}

/-- The request passes `verifyStripeWebhookSignatureMiddleware` with this event. -/
def Passes (constructEvent : ConstructEvent) (stripeWebhookSecret : String) (req : BillingRequest)
    (event : BillingEvent) : Prop :=
  ∃ signature, truthyText req.signature = some signature ∧
    constructEvent req.body signature stripeWebhookSecret = .ok event

/-- Some billing row has the subscription. -/
def OnFile (db : Db) (s : String) : Prop :=
  s ≠ "" ∧ ∃ b ∈ db.billings, b.externalSubscriptionId = s

/-- The invoice names a customer and the email of a user, its ids and the end of its period fit the
columns, and the id drawn for a first row of that user is new. -/
def Registrable (w : World) (invoice : Invoice) (s : String) (periodEnd : ℕ) : Prop :=
  (∃ c, invoice.customer = some c ∧ s.length ≤ 255 ∧ c.length ≤ 255 ∧
    unixTimestampToDate periodEnd ≤ maxTimestamp) ∧
  ∃ user, Rows.lookup User.email (invoice.customerEmail.getD "") w.db.users = some user ∧
    ((∀ b ∈ w.db.billings, b.userId ≠ user.id) → ∀ b ∈ w.db.billings, b.id ≠ w.env.uuid)

/-- The event carries what its branch insists on, and the tables what the branch looks up there. -/
def Answerable (w : World) : BillingEvent → Prop
  | .invoicePaid invoice => invoice.lines = some [] ∨
      ∃ line lines s price, invoice.lines = some (line :: lines) ∧
        subscriptionIdOf invoice.parentSubscription = some s ∧
        truthyText line.price = some price ∧
        ((∃ p ∈ w.db.products, p.externalPriceId = some price) →
          line.periodEnd ≠ 0 ∧ Registrable w invoice s line.periodEnd)
  | .invoicePaymentFailed invoice => ∃ line lines s, invoice.lines = some (line :: lines) ∧
      subscriptionIdOf line.subscription = some s
  | .subscriptionUpdated sub => ∃ item items n, sub.items = item :: items ∧
      truthy item.currentPeriodEnd = some n ∧
      (OnFile w.db sub.id → sub.status.length ≤ 255 ∧ runsOut sub n ≤ maxTimestamp ∧
        (sub.status = "canceled" ∨ sub.status = "unpaid" → w.freeTier ≠ none))
  | .subscriptionDeleted sub => OnFile w.db sub.id → w.freeTier ≠ none
  | .other _ => True

/-- The handler resolves, that is, it answers. -/
def Resolves (w : World) (event : BillingEvent) : Prop :=
  ((processBillingWebhookHandler event).run w).1 = .ok ()

/-- A first row is inserted only under a new id. -/
theorem Paid.fresh {input : UpdateUserBillingInput} {user : User} {c : String} {db : Db}
    (h : Paid w input user none c db) : ∀ b ∈ w.db.billings, b.id ≠ w.env.uuid := by
  have hids := db.sound.billings_id
  rw [h.billings, List.map_append] at hids
  intro b hb heq
  exact (List.nodup_append.mp hids).2.2 b.id (List.mem_map_of_mem hb) _ (by simp [newBilling]) heq

theorem resolves_registerUserBilling {input : UpdateUserBillingInput} (htrx : w.trx = none)
    (h : ((registerUserBilling input).run w).1 = .ok ()) : ∃ user c,
      Rows.lookup User.email input.userEmail w.db.users = some user ∧
      input.externalCustomerId = some c ∧ input.Fits c ∧
      ((∀ b ∈ w.db.billings, b.userId ≠ user.id) → ∀ b ∈ w.db.billings, b.id ≠ w.env.uuid) := by
  rw [run_registerUserBilling] at h
  cases hu : Rows.lookup User.email input.userEmail w.db.users with
  | none =>
    rw [hu] at h
    cases h
  | some user =>
    rw [hu] at h
    rcases run_writeUserBilling_cases htrx rfl with ⟨⟨e, he⟩, -⟩ | ⟨c, db, -, -, hpaid⟩
    · cases h.symm.trans he
    refine ⟨user, c, rfl, hpaid.customer, hpaid.fits, fun hnone => ?_⟩
    rw [Rows.lookup_eq_none.mpr hnone] at hpaid
    exact hpaid.fresh

theorem resolves_invoicePaid {invoice : Invoice} (htrx : w.trx = none) :
    Resolves w (.invoicePaid invoice) ↔ Answerable w (.invoicePaid invoice) := by
  unfold Resolves Answerable
  rw [processBillingWebhookHandler, run_invoicePaid]
  rcases hlines : invoice.lines with _ | _ | ⟨line, lines⟩
  · simp [paidInput, hlines]
  · simp [paidInput, hlines]
  constructor
  · intro h
    refine .inr ⟨line, lines, ?_⟩
    rcases hin : paidInput w.db invoice with e | (_ | input)
    · rw [hin] at h
      cases h
    · obtain ⟨s, price, hs, hprice, hnone⟩ := (paidInput_eq_none hlines).mp hin
      refine ⟨s, price, hlines, hs, hprice, fun hex => ?_⟩
      obtain ⟨p, hp⟩ := Rows.exists_lookup_iff.mpr hex
      cases hnone.symm.trans hp
    · rw [hin] at h
      obtain ⟨s, price, product, hs, hprice, -, hend, rfl⟩ := (paidInput_eq_some hlines).mp hin
      obtain ⟨user, c, hu, hc, hfit, hfresh⟩ := resolves_registerUserBilling htrx h
      exact ⟨s, price, hlines, hs, hprice, fun _ => ⟨hend, ⟨c, hc, hfit⟩, user, hu, hfresh⟩⟩
  · rintro (hnil | ⟨_, _, s, price, heq, hs, hprice, h⟩)
    · cases hlines.symm.trans hnil
    cases hlines.symm.trans heq
    cases hproduct : Rows.lookup Product.externalPriceId (some price) w.db.products with
    | none => rw [(paidInput_eq_none hlines).mpr ⟨s, price, hs, hprice, hproduct⟩]
    | some product =>
      obtain ⟨hend, ⟨c, hc, hfit⟩, user, hu, hfresh⟩ :=
        h (Rows.exists_lookup_iff.mp ⟨product, hproduct⟩)
      have hin := (paidInput_eq_some hlines).mpr
        ⟨s, price, product, hs, hprice, hproduct, hend, rfl⟩
      obtain ⟨db, hrun, -⟩ := run_invoicePaid_ok htrx
        (fun hl => hfresh (Rows.lookup_eq_none.mp hl)) hin hu hc hfit
      rw [processBillingWebhookHandler, run_invoicePaid] at hrun
      rw [hrun]

/-- A subscription that is not on file is passed over, and answered. -/
theorem run_ifSubscribed_none {s : String} (write : Billing → Promise Unit) (h : ¬ OnFile w.db s) :
    (ifSubscribed s write).run w = (.ok (), w) := by
  unfold ifSubscribed
  split_ifs with hs
  · rfl
  rw [Async.run_bind_ok (run_getBillingByExternalSubscriptionId ..)]
  cases hb : Rows.lookup Billing.externalSubscriptionId s w.db.billings with
  | none => rfl
  | some b => exact absurd ⟨hs, Rows.exists_lookup_iff.mp ⟨b, hb⟩⟩ h

/-- The row on file and its user. -/
theorem OnFile.lookup {db : Db} {s : String} (h : OnFile db s) : ∃ b u,
    Rows.lookup Billing.externalSubscriptionId s db.billings = some b ∧
      Rows.lookup User.id b.userId db.users = some u := by
  obtain ⟨b, hb⟩ := Rows.exists_lookup_iff.mpr h.2
  obtain ⟨u, hu⟩ := Db.owner (Rows.lookup_mem hb)
  exact ⟨b, u, hb, hu⟩

theorem resolves_invoicePaymentFailed {invoice : Invoice} :
    Resolves w (.invoicePaymentFailed invoice) ↔ Answerable w (.invoicePaymentFailed invoice) := by
  unfold Resolves Answerable
  rw [processBillingWebhookHandler, invoicePaymentFailed_eq]
  constructor
  · intro h
    cases hs : failedSubscription invoice with
    | none =>
      rw [hs] at h
      cases h
    | some s =>
      rcases hlines : invoice.lines with _ | _ | ⟨line, lines⟩
      · simp [failedSubscription, hlines, subscriptionIdOf] at hs
      · simp [failedSubscription, hlines, subscriptionIdOf] at hs
      · exact ⟨line, lines, s, hlines, by simpa [failedSubscription, hlines] using hs⟩
  · rintro ⟨line, lines, s, hlines, hs⟩
    have hfailed : failedSubscription invoice = some s := by
      simpa [failedSubscription, hlines] using hs
    rw [hfailed]
    dsimp only
    by_cases hfile : OnFile w.db s
    · obtain ⟨b, u, hb, -⟩ := hfile.lookup
      obtain ⟨db, hrun, -⟩ := run_updateBillingOnPaymentFailed_ok hfile.1 hb
      rw [hrun]
    · rw [updateBillingOnPaymentFailed_eq, run_ifSubscribed_none _ hfile]

theorem updateInput_ne_none {db : Db} {sub : Subscription} : updateInput db sub ≠ none ↔
    ∃ item items n, sub.items = item :: items ∧ truthy item.currentPeriodEnd = some n := by
  unfold updateInput
  rcases sub.items with _ | ⟨item, items⟩
  · simp [truthy]
  · cases hn : truthy item.currentPeriodEnd <;> simp [hn]

theorem resolves_subscriptionUpdated {sub : Subscription} (htrx : w.trx = none) :
    Resolves w (.subscriptionUpdated sub) ↔ Answerable w (.subscriptionUpdated sub) := by
  unfold Resolves Answerable
  cases hin : updateInput w.db sub with
  | none =>
    rw [processBillingWebhookHandler, run_subscriptionUpdated, hin]
    constructor
    · intro h
      cases h
    · rintro ⟨item, items, n, hitems, hn, -⟩
      exact absurd hin (updateInput_ne_none.mpr ⟨item, items, n, hitems, hn⟩)
  | some input =>
    obtain ⟨hid, hstatus, -⟩ := updateInput_product hin
    obtain ⟨item, items, n, hitems, hn⟩ :=
      updateInput_ne_none.mp (fun hnone => by cases hin.symm.trans hnone)
    have hended : input.Ended ↔ sub.status = "canceled" ∨ sub.status = "unpaid" := by
      simp [SubscriptionUpdate.Ended, hstatus]
    have hfits : input.Fits ↔ sub.status.length ≤ 255 ∧ runsOut sub n ≤ maxTimestamp :=
      updateInput_fits hin (by simpa [hitems] using hn)
    constructor
    · intro h
      refine ⟨item, items, n, hitems, hn, fun hfile => ?_⟩
      obtain ⟨b, u, hb, -⟩ := hfile.lookup
      rw [processBillingWebhookHandler, run_subscriptionUpdated, hin] at h
      dsimp only at h
      rw [updateBillingOnSubscriptionUpdated_eq, hid, run_ifSubscribed _ hfile.1 hb] at h
      rcases run_writeSubscriptionUpdate_cases htrx rfl with ⟨⟨e, he⟩, -⟩ | ⟨db, -, -, hup⟩
      · cases h.symm.trans he
      · obtain ⟨hstatus, hdate⟩ := hfits.mp hup.fits
        exact ⟨hstatus, hdate, fun hend => hup.ended (hended.mpr hend)⟩
    · rintro ⟨item', items', n', hitems', hn', hfree⟩
      cases hitems.symm.trans hitems'
      cases hn.symm.trans hn'
      by_cases hfile : OnFile w.db sub.id
      · obtain ⟨b, u, hb, hu⟩ := hfile.lookup
        obtain ⟨hstatus, hdate, hfree⟩ := hfree hfile
        obtain ⟨db, hrun, -⟩ := run_subscriptionUpdated_ok htrx hin hfile.1 hb hu
          (fun hend => hfree (hended.mp hend)) (hfits.mpr ⟨hstatus, hdate⟩)
        rw [hrun]
      · rw [processBillingWebhookHandler, run_subscriptionUpdated, hin]
        dsimp only
        rw [updateBillingOnSubscriptionUpdated_eq, hid, run_ifSubscribed_none _ hfile]

theorem resolves_subscriptionDeleted {sub : Subscription} (htrx : w.trx = none) :
    Resolves w (.subscriptionDeleted sub) ↔ Answerable w (.subscriptionDeleted sub) := by
  unfold Resolves Answerable
  constructor
  · intro h hfile hfree
    obtain ⟨b, u, hb, -⟩ := hfile.lookup
    rw [processBillingWebhookHandler, updateBillingOnSubscriptionDeleted_eq,
      run_ifSubscribed _ hfile.1 hb] at h
    rcases run_writeSubscriptionDeleted_cases htrx rfl with ⟨⟨e, he⟩, -⟩ | ⟨db, -, -, hdel⟩
    · cases h.symm.trans he
    · obtain ⟨p, hp, -⟩ := hdel.users
      cases hfree.symm.trans hp
  · intro h
    by_cases hfile : OnFile w.db sub.id
    · obtain ⟨b, u, hb, hu⟩ := hfile.lookup
      obtain ⟨db, hrun, -⟩ := run_subscriptionDeleted_ok htrx hfile.1 hb hu (h hfile)
      rw [hrun]
    · rw [processBillingWebhookHandler, updateBillingOnSubscriptionDeleted_eq,
        run_ifSubscribed_none _ hfile]

/-- The handler resolves exactly on what its branch can deal with. -/
theorem resolves_iff (htrx : w.trx = none) (event : BillingEvent) :
    Resolves w event ↔ Answerable w event := by
  cases event with
  | invoicePaid invoice => exact resolves_invoicePaid htrx
  | invoicePaymentFailed invoice => exact resolves_invoicePaymentFailed
  | subscriptionUpdated sub => exact resolves_subscriptionUpdated htrx
  | subscriptionDeleted sub => exact resolves_subscriptionDeleted htrx
  | other type => exact ⟨fun _ => trivial, fun _ => rfl⟩

/-- How a request ends that went alone. -/
def endOf (constructEvent : ConstructEvent) (secret : String) (req : BillingRequest) (w : World) :
    Except Err HttpEnd :=
  ((postWebhooksStripe constructEvent secret req).run w).1

theorem run_callAsyncHandler (p : Promise Unit) (w : World) :
    ((callAsyncHandler p).run w).1 = match (p.run w).1 with
      | .ok () => .ok (.answered .ok)
      | .error e => .ok (.unhandledRejection e) := by
  rw [callAsyncHandler, Async.run_tryCatch, Async.run_bind]
  rcases hr : p.run w with ⟨e | ⟨⟩, w'⟩ <;> rfl

/-- A request that does not pass is answered 400, one that passes ends as its handler does. -/
theorem endOf_cases (constructEvent : ConstructEvent) (secret : String) (req : BillingRequest)
    (w : World) :
    ((∀ event, ¬ Passes constructEvent secret req event) ∧
      endOf constructEvent secret req w = .ok (.answered .badRequest)) ∨
    ∃ event, Passes constructEvent secret req event ∧ endOf constructEvent secret req w =
      ((callAsyncHandler (processBillingWebhookHandler event)).run w).1 := by
  unfold endOf postWebhooksStripe verifyStripeWebhookSignatureMiddleware
  cases hs : truthyText req.signature with
  | none =>
    refine .inl ⟨?_, rfl⟩
    rintro event ⟨signature, hsig, -⟩
    cases hs.symm.trans hsig
  | some signature =>
    dsimp only
    cases hc : constructEvent req.body signature secret with
    | error message =>
      refine .inl ⟨?_, rfl⟩
      rintro event ⟨signature', hsig, hevent⟩
      cases hs.symm.trans hsig
      cases hc.symm.trans hevent
    | ok event => exact .inr ⟨event, ⟨signature, hs, hc⟩, rfl⟩

/-- A request to the webhook route is answered iff the event it passes the check with, if any, is
one the handler can deal with. -/
theorem webhook_answered (constructEvent : ConstructEvent) (secret : String)
    (req : BillingRequest) (htrx : w.trx = none) :
    (∃ status, endOf constructEvent secret req w = .ok (.answered status)) ↔
      ∀ event, Passes constructEvent secret req event → Answerable w event := by
  have hunique : ∀ {event event'}, Passes constructEvent secret req event →
      Passes constructEvent secret req event' → event = event' := by
    rintro event event' ⟨signature, hs, he⟩ ⟨signature', hs', he'⟩
    cases hs.symm.trans hs'
    exact Except.ok.inj (he.symm.trans he')
  rcases endOf_cases constructEvent secret req w with ⟨hno, hend⟩ | ⟨event, hpass, hend⟩
  · exact ⟨fun _ event h => absurd h (hno event), fun _ => ⟨_, hend⟩⟩
  rw [hend, run_callAsyncHandler]
  constructor
  · rintro ⟨status, hanswered⟩ event' hpass'
    obtain rfl := hunique hpass hpass'
    refine (resolves_iff htrx event).mp ?_
    unfold Resolves
    cases hr : ((processBillingWebhookHandler event).run w).1 with
    | ok => rfl
    | error e =>
      rw [hr] at hanswered
      cases hanswered
  · intro h
    have hresolves : ((processBillingWebhookHandler event).run w).1 = .ok () :=
      (resolves_iff htrx event).mpr (h event hpass)
    exact ⟨.ok, by rw [hresolves]⟩

namespace Sample

/-- A signature is the secret with the body; the event is the one the body stands for. -/
def constructEvent (event : BillingEvent) : ConstructEvent := fun body signature secret =>
  if signature = secret ++ body then .ok event
  else .error "No signatures found matching the expected signature for payload"

def delivery : BillingRequest where
  signature := some "whsec invoice"
  body := " invoice"

theorem passes_delivery (event : BillingEvent) :
    Passes (constructEvent event) "whsec" delivery event := ⟨"whsec invoice", rfl, rfl⟩

set_option maxRecDepth 10000 in
theorem delivery_facts : signedIn.trx.isNone = true ∧ signedIn.db.billings = [] ∧
    Rows.lookup User.email (paidInvoice.customerEmail.getD "") signedIn.db.users =
      some (buyer signedIn) ∧
    endOf (constructEvent (.invoicePaid paidInvoice)) "whsec" delivery start =
      .ok (.unhandledRejection (.error "User with email \"ann@mail\" not found")) := by
  decide +kernel

end Sample

/-- Ann's invoice is answered once she has signed up. -/
theorem webhook_answered_ann : ∃ status, endOf (Sample.constructEvent (.invoicePaid
    Sample.paidInvoice)) "whsec" Sample.delivery Sample.signedIn = .ok (.answered status) := by
  obtain ⟨htrx, hempty, hu, -⟩ := Sample.delivery_facts
  refine (webhook_answered _ _ _ (Option.isNone_iff_eq_none.mp htrx)).mpr ?_
  rintro event ⟨signature, hs, hevent⟩
  cases hs
  cases hevent
  refine .inr ⟨_, _, "sub_1", "price_1", rfl, rfl, rfl, fun _ =>
    ⟨by decide, ⟨"cus_1", rfl, by decide⟩, _, hu, ?_⟩⟩
  simp [hempty]

/-- Before that, it ends in an unhandled rejection. -/
theorem stranger_unanswered : ¬ ∀ (constructEvent : ConstructEvent) (secret : String)
    (req : BillingRequest) (w : World) (event : BillingEvent), w.trx = none →
      Passes constructEvent secret req event →
      ∃ status, endOf constructEvent secret req w = .ok (.answered status) := by
  intro h
  obtain ⟨-, -, -, hend⟩ := Sample.delivery_facts
  obtain ⟨status, hanswered⟩ := h _ _ _ Sample.start _ rfl (Sample.passes_delivery _)
  cases hend.symm.trans hanswered

end CodebaseTrpc
