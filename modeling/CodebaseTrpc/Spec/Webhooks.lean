import CodebaseTrpc.Spec.Awaits
import CodebaseTrpc.Spec.Billing

/-! What the handling of a Stripe event did to the tables. -/
namespace CodebaseTrpc
variable {w w' : World}

/-- What `invoice.paid` passes on: nothing for an invoice without lines or an unknown price. -/
def paidInput (db : Db) (invoice : Invoice) : Except Err (Option UpdateUserBillingInput) :=
  match invoice.lines with
  | none => .error (.typeError "Cannot read properties of undefined")
  | some [] => .ok none
  | some (lineItem :: _) =>
    match subscriptionIdOf invoice.parentSubscription with
    | none => .error (.error "invoice.paid: Subscription missing from invoice")
    | some subscriptionId =>
      match truthyText lineItem.price with
      | none => .error (.error "invoice.paid: Price ID missing from invoice line item")
      | some externalPriceId =>
        match Rows.lookup Product.externalPriceId (some externalPriceId) db.products with
        | none => .ok none
        | some product =>
          if lineItem.periodEnd = 0 then
            .error (.error "invoice.paid: Period end missing from invoice line item")
          else .ok <| some
            { userEmail := invoice.customerEmail.getD ""
              productId := product.id
              externalCustomerId := invoice.customer
              externalSubscriptionId := subscriptionId
              expiresAt := lineItem.periodEnd }

theorem run_invoicePaid (invoice : Invoice) (w : World) : (invoicePaid invoice).run w =
    match paidInput w.db invoice with
    | .error e => (.error e, w)
    | .ok none => (.ok (), w)
    | .ok (some input) => (registerUserBilling input).run w := by
  unfold invoicePaid paidInput
  rcases invoice.lines with _ | _ | ⟨lineItem, rest⟩
  · rfl
  · rfl
  dsimp only
  cases subscriptionIdOf invoice.parentSubscription with
  | none => rfl
  | some s =>
    cases truthyText lineItem.price with
    | none => rfl
    | some price =>
      dsimp only
      rw [Async.bind_eq, Async.run_bind_ok (run_getProductByExternalPriceId ..)]
      cases Rows.lookup Product.externalPriceId (some price) w.db.products with
      | none => rfl
      | some product =>
        dsimp only
        split_ifs <;> rfl

theorem paidInput_congr {d d' : Db} (h : d.products = d'.products) (invoice : Invoice) :
    paidInput d invoice = paidInput d' invoice := by
  unfold paidInput
  rw [h]

/-- What an accepted invoice passes on names a product of the table and a subscription. -/
theorem paidInput_some {db : Db} {invoice : Invoice} {input : UpdateUserBillingInput}
    (h : paidInput db invoice = .ok (some input)) :
    input.userEmail = invoice.customerEmail.getD "" ∧ input.externalCustomerId = invoice.customer ∧
      subscriptionIdOf invoice.parentSubscription = some input.externalSubscriptionId ∧
      ∃ p ∈ db.products, p.id = input.productId := by
  unfold paidInput at h
  split at h
  next => cases h
  next => cases h
  next lineItem rest _ =>
    split at h
    next => cases h
    next s hs =>
      split at h
      next => cases h
      next price hprice =>
        split at h
        next => cases h
        next product hproduct =>
          split_ifs at h
          cases h
          exact ⟨rfl, rfl, hs, product, Rows.lookup_mem hproduct, rfl⟩

/-- What an invoice passes on is read off its first line. -/
theorem paidInput_eq_some {db : Db} {invoice : Invoice} {line : LineItem} {lines : List LineItem}
    {input : UpdateUserBillingInput} (hlines : invoice.lines = some (line :: lines)) :
    paidInput db invoice = .ok (some input) ↔ ∃ s price product,
      subscriptionIdOf invoice.parentSubscription = some s ∧ truthyText line.price = some price ∧
      Rows.lookup Product.externalPriceId (some price) db.products = some product ∧
      line.periodEnd ≠ 0 ∧ input =
        { userEmail := invoice.customerEmail.getD ""
          productId := product.id
          externalCustomerId := invoice.customer
          externalSubscriptionId := s
          expiresAt := line.periodEnd } := by
  unfold paidInput
  rw [hlines]
  dsimp only
  cases subscriptionIdOf invoice.parentSubscription with
  | none => simp
  | some s =>
    cases truthyText line.price with
    | none => simp
    | some price =>
      cases hproduct : Rows.lookup Product.externalPriceId (some price) db.products with
      | none => simp [hproduct]
      | some product =>
        by_cases hend : line.periodEnd = 0
        · simp [hproduct, hend]
        · simp [hproduct, hend, eq_comm]

/-- It passes on nothing, and rejects nothing, where the price of that line is no product's. -/
theorem paidInput_eq_none {db : Db} {invoice : Invoice} {line : LineItem} {lines : List LineItem}
    (hlines : invoice.lines = some (line :: lines)) :
    paidInput db invoice = .ok none ↔ ∃ s price,
      subscriptionIdOf invoice.parentSubscription = some s ∧ truthyText line.price = some price ∧
      Rows.lookup Product.externalPriceId (some price) db.products = none := by
  unfold paidInput
  rw [hlines]
  dsimp only
  cases subscriptionIdOf invoice.parentSubscription with
  | none => simp
  | some s =>
    cases truthyText line.price with
    | none => simp
    | some price =>
      cases hproduct : Rows.lookup Product.externalPriceId (some price) db.products with
      | none => simp [hproduct]
      | some product =>
        by_cases hend : line.periodEnd = 0
        · simp [hproduct, hend]
        · simp [hproduct, hend]

/-- What a paid invoice says: a known product, a subscription, a customer and a period end, which
fit the columns. -/
structure Complete (db : Db) (invoice : Invoice) (p : Product) (s c : String) (periodEnd : ℕ) :
    Prop where
  line : ∃ line rest price, invoice.lines = some (line :: rest) ∧
    truthyText line.price = some price ∧ line.periodEnd = periodEnd ∧
    Rows.lookup Product.externalPriceId (some price) db.products = some p
  period : periodEnd ≠ 0
  subscription : subscriptionIdOf invoice.parentSubscription = some s
  customer : invoice.customer = some c
  fits : s.length ≤ 255 ∧ c.length ≤ 255 ∧ unixTimestampToDate periodEnd ≤ maxTimestamp

theorem paidInput_of_complete {db : Db} {invoice : Invoice} {p : Product} {s c : String}
    {periodEnd : ℕ} (h : Complete db invoice p s c periodEnd) : paidInput db invoice =
      .ok (some ⟨invoice.customerEmail.getD "", p.id, some c, s, periodEnd⟩) := by
  obtain ⟨line, rest, price, hl, hprice, rfl, hp⟩ := h.line
  simp [paidInput, hl, hprice, hp, h.subscription, h.customer, h.period]

theorem run_registerUserBilling (input : UpdateUserBillingInput) (w : World) :
    (registerUserBilling input).run w =
      match Rows.lookup User.email input.userEmail w.db.users with
      | none => (.error (.error ("User with email \"" ++ input.userEmail ++ "\" not found")), w)
      | some user => (transaction (writeUserBilling input user
          (Rows.lookup Billing.userId user.id w.db.billings))).run w := by
  simp only [registerUserBilling, Async.bind_eq]
  rw [Async.run_bind_ok (run_getUserByEmail ..)]
  cases Rows.lookup User.email input.userEmail w.db.users with
  | none => rfl
  | some user => exact Async.run_bind_ok (run_getBillingByUserId ..)

def failedSubscription (invoice : Invoice) : Option String :=
  subscriptionIdOf (do (← (← invoice.lines).head?).subscription)

theorem invoicePaymentFailed_eq (invoice : Invoice) : invoicePaymentFailed invoice =
    match failedSubscription invoice with
    | none => .throw (.error "invoice.payment_failed: Subscription missing from invoice line item")
    | some s => updateBillingOnPaymentFailed s := rfl

/-- A subscription that is not on file is passed over. -/
theorem run_ifSubscribed_cases {s : String} {write : Billing → Promise Unit} {r : Except Err Unit}
    (h : (ifSubscribed s write).run w = (r, w')) :
    w' = w ∨ s ≠ "" ∧ ∃ b, Rows.lookup Billing.externalSubscriptionId s w.db.billings = some b ∧
      (write b).run w = (r, w') := by
  unfold ifSubscribed at h
  split_ifs at h with hne
  · exact .inl (Prod.mk.inj h).2.symm
  rw [Async.run_bind_ok (run_getBillingByExternalSubscriptionId ..)] at h
  cases hb : Rows.lookup Billing.externalSubscriptionId s w.db.billings with
  | none =>
    rw [hb] at h
    exact .inl (Prod.mk.inj h).2.symm
  | some b =>
    rw [hb] at h
    exact .inr ⟨hne, b, rfl, h⟩

theorem run_ifSubscribed {s : String} {b : Billing} (write : Billing → Promise Unit) (hne : s ≠ "")
    (hb : Rows.lookup Billing.externalSubscriptionId s w.db.billings = some b) :
    (ifSubscribed s write).run w = (write b).run w := by
  rw [ifSubscribed, if_neg hne, Async.run_bind_ok (run_getBillingByExternalSubscriptionId ..), hb]

theorem run_updateBillingOnPaymentFailed_cases {s : String} {r : Except Err Unit}
    (h : (updateBillingOnPaymentFailed s).run w = (r, w')) :
    w' = w ∨ ∃ b db, Rows.lookup Billing.externalSubscriptionId s w.db.billings = some b ∧
      r = .ok () ∧ w' = { w with db } ∧ db.users = w.db.users ∧ db.products = w.db.products ∧
      db.billings = Rows.update Billing.id b.id (failedBilling w.env.now) w.db.billings := by
  rw [updateBillingOnPaymentFailed_eq] at h
  rcases run_ifSubscribed_cases h with h | ⟨-, b, hb, h⟩
  · exact .inl h
  rcases run_then_cases run_write_cases h with h | ⟨_, _, ⟨db, hs, rfl⟩, h⟩
  · exact .inl h.2
  obtain ⟨rfl, rfl⟩ := Prod.mk.inj h
  obtain ⟨-, hu, hp, hbs⟩ := updateBilling_ok_of_apply (fun b => applyTo_failed w.env.now b) hs
  exact .inr ⟨b, db, hb, rfl, exec_ok hs, hu, hp, hbs⟩

/-- What `subscription.updated` passes on; nothing without a period end. -/
def updateInput (db : Db) (sub : Subscription) : Option SubscriptionUpdate :=
  match truthy (do (← sub.items.head?).currentPeriodEnd) with
  | none => none
  | some currentPeriodEnd => some
    { externalSubscriptionId := sub.id
      productId := (truthyText (do (← sub.items.head?).priceId)).bind fun priceId =>
        (Rows.lookup Product.externalPriceId (some priceId) db.products).map Product.id
      status := some sub.status
      currentPeriodEnd := match truthy sub.cancelAt with
        | some cancelAt => unixTimestampToDate cancelAt
        | none => unixTimestampToDate currentPeriodEnd }

theorem run_subscriptionUpdated (sub : Subscription) (w : World) :
    (subscriptionUpdated sub).run w = match updateInput w.db sub with
    | none => (.error
        (.error "subscription.updated: Subscription item missing current_period_end"), w)
    | some input => (updateBillingOnSubscriptionUpdated input).run w := by
  unfold subscriptionUpdated updateInput
  dsimp only
  cases truthy (do (← sub.items.head?).currentPeriodEnd) with
  | none => rfl
  | some currentPeriodEnd =>
    dsimp only
    cases truthyText (do (← sub.items.head?).priceId) with
    | none => rfl
    | some price =>
      simp only [Async.bind_eq, Option.bind_some]
      rw [Async.run_bind_ok (run_getProductByExternalPriceId ..)]
      rfl

theorem updateInput_congr {d d' : Db} (h : d.products = d'.products) (sub : Subscription) :
    updateInput d sub = updateInput d' sub := by
  unfold updateInput
  rw [h]

theorem updateInput_product {db : Db} {sub : Subscription} {input : SubscriptionUpdate}
    (h : updateInput db sub = some input) : input.externalSubscriptionId = sub.id ∧
      input.status = some sub.status ∧
      ∀ productId ∈ input.productId, ∃ p ∈ db.products, p.id = productId := by
  unfold updateInput at h
  split at h
  next => cases h
  next =>
    cases h
    refine ⟨rfl, rfl, fun productId hp => ?_⟩
    simp only [Option.mem_def, Option.bind_eq_some_iff, Option.map_eq_some_iff] at hp
    obtain ⟨price, -, product, hproduct, rfl⟩ := hp
    exact ⟨product, Rows.lookup_mem hproduct, rfl⟩

/-- When an updated subscription runs out: at its cancellation, if one is set. -/
def runsOut (sub : Subscription) (currentPeriodEnd : ℕ) : ℕ :=
  unixTimestampToDate ((truthy sub.cancelAt).getD currentPeriodEnd)

theorem updateInput_fits {db : Db} {sub : Subscription} {input : SubscriptionUpdate} {n : ℕ}
    (h : updateInput db sub = some input)
    (hn : truthy (do (← sub.items.head?).currentPeriodEnd) = some n) :
    input.Fits ↔ sub.status.length ≤ 255 ∧ runsOut sub n ≤ maxTimestamp := by
  unfold updateInput at h
  rw [hn] at h
  cases h
  unfold runsOut
  cases truthy sub.cancelAt <;> simp [SubscriptionUpdate.Fits]

theorem spread_eq_set {o : Option String} {value : String} (h : spread o = .set value) :
    o = some value := by
  cases o with
  | none => cases h
  | some text =>
    simp only [spread] at h
    split_ifs at h
    cases h
    rfl

/-- An update of a subscription on file is written if it fits. -/
theorem run_subscriptionUpdated_ok {sub : Subscription} {input : SubscriptionUpdate} {b : Billing}
    {u : User} (htrx : w.trx = none) (hinput : updateInput w.db sub = some input)
    (hne : sub.id ≠ "")
    (hb : Rows.lookup Billing.externalSubscriptionId sub.id w.db.billings = some b)
    (hu : Rows.lookup User.id b.userId w.db.users = some u)
    (hfree : input.Ended → w.freeTier ≠ none) (hfit : input.Fits) :
    ∃ db, (processBillingWebhookHandler (.subscriptionUpdated sub)).run w =
      (.ok (), { w with db }) ∧ Updated w input b db := by
  obtain ⟨hid, -, hproduct⟩ := updateInput_product hinput
  obtain ⟨db, hrun, hup⟩ := run_writeSubscriptionUpdate_ok htrx (Rows.lookup_mem hb) rfl hu
    (fun p hp => hproduct p (spread_eq_set hp)) hfree hfit
  refine ⟨db, ?_, hup⟩
  rw [processBillingWebhookHandler, run_subscriptionUpdated, hinput]
  dsimp only
  rw [updateBillingOnSubscriptionUpdated_eq, hid, run_ifSubscribed _ hne hb]
  exact hrun

theorem run_updateBillingOnSubscriptionUpdated_cases {input : SubscriptionUpdate}
    {r : Except Err Unit} (htrx : w.trx = none)
    (h : (updateBillingOnSubscriptionUpdated input).run w = (r, w')) :
    w' = w ∨ input.externalSubscriptionId ≠ "" ∧
      ∃ b db, Rows.lookup Billing.externalSubscriptionId input.externalSubscriptionId
        w.db.billings = some b ∧ r = .ok () ∧ w' = { w with db } ∧ Updated w input b db := by
  rw [updateBillingOnSubscriptionUpdated_eq] at h
  rcases run_ifSubscribed_cases h with h | ⟨hne, b, hb, h⟩
  · exact .inl h
  rcases run_writeSubscriptionUpdate_cases htrx h with h | ⟨db, hr, hw, hup⟩
  · exact .inl h.2
  · exact .inr ⟨hne, b, db, hb, hr, hw, hup⟩

theorem run_updateBillingOnSubscriptionDeleted_cases {s : String} {r : Except Err Unit}
    (htrx : w.trx = none) (h : (updateBillingOnSubscriptionDeleted s).run w = (r, w')) :
    w' = w ∨ s ≠ "" ∧
      ∃ b db, Rows.lookup Billing.externalSubscriptionId s w.db.billings = some b ∧
        r = .ok () ∧ w' = { w with db } ∧ Deleted w b db := by
  rw [updateBillingOnSubscriptionDeleted_eq] at h
  rcases run_ifSubscribed_cases h with h | ⟨hne, b, hb, h⟩
  · exact .inl h
  rcases run_writeSubscriptionDeleted_cases htrx h with h | ⟨db, hr, hw, hd⟩
  · exact .inl h.2
  · exact .inr ⟨hne, b, db, hb, hr, hw, hd⟩

/-- The deletion of a subscription on file is written. -/
theorem run_subscriptionDeleted_ok {sub : Subscription} {b : Billing} {u : User}
    (htrx : w.trx = none) (hne : sub.id ≠ "")
    (hb : Rows.lookup Billing.externalSubscriptionId sub.id w.db.billings = some b)
    (hu : Rows.lookup User.id b.userId w.db.users = some u) (hfree : w.freeTier ≠ none) :
    ∃ db, (processBillingWebhookHandler (.subscriptionDeleted sub)).run w =
      (.ok (), { w with db }) ∧ Deleted w b db := by
  obtain ⟨db, hrun, hdel⟩ := run_writeSubscriptionDeleted_ok htrx (Rows.lookup_mem hb) hu hfree
  refine ⟨db, ?_, hdel⟩
  rw [processBillingWebhookHandler, updateBillingOnSubscriptionDeleted_eq,
    run_ifSubscribed _ hne hb]
  exact hrun

/-- The subscription an event names. -/
def subscriptionOf : BillingEvent → Option String
  | .invoicePaid invoice => subscriptionIdOf invoice.parentSubscription
  | .invoicePaymentFailed invoice => failedSubscription invoice
  | .subscriptionUpdated sub => some sub.id
  | .subscriptionDeleted sub => some sub.id
  | .other _ => none

/-- The tables after an event that was acted on. -/
inductive Billed (w : World) : BillingEvent → Db → Prop
  | paid {invoice : Invoice} {input : UpdateUserBillingInput} {u : User} {c : String} {db : Db}
      (hinput : paidInput w.db invoice = .ok (some input))
      (hu : Rows.lookup User.email input.userEmail w.db.users = some u)
      (h : Paid w input u (Rows.lookup Billing.userId u.id w.db.billings) c db) :
      Billed w (.invoicePaid invoice) db
  | failed {invoice : Invoice} {s : String} {b : Billing} {db : Db}
      (hs : failedSubscription invoice = some s)
      (hb : Rows.lookup Billing.externalSubscriptionId s w.db.billings = some b)
      (users : db.users = w.db.users) (products : db.products = w.db.products)
      (billings : db.billings =
        Rows.update Billing.id b.id (failedBilling w.env.now) w.db.billings) :
      Billed w (.invoicePaymentFailed invoice) db
  | updated {sub : Subscription} {input : SubscriptionUpdate} {b : Billing} {db : Db}
      (hinput : updateInput w.db sub = some input) (hne : sub.id ≠ "")
      (hb : Rows.lookup Billing.externalSubscriptionId sub.id w.db.billings = some b)
      (h : Updated w input b db) : Billed w (.subscriptionUpdated sub) db
  | deleted {sub : Subscription} {b : Billing} {db : Db} (hne : sub.id ≠ "")
      (hb : Rows.lookup Billing.externalSubscriptionId sub.id w.db.billings = some b)
      (h : Deleted w b db) : Billed w (.subscriptionDeleted sub) db

theorem Billed.products {event : BillingEvent} {db : Db} (h : Billed w event db) :
    db.products = w.db.products := by
  cases h with
  | paid _ _ h => exact h.products
  | failed _ _ _ h _ => exact h
  | updated _ _ _ h => exact h.products
  | deleted _ _ h => exact h.products

/-- An event is acted on, or leaves everything as it was. -/
theorem run_processBillingWebhookHandler_cases {event : BillingEvent} {r : Except Err Unit}
    (htrx : w.trx = none) (h : (processBillingWebhookHandler event).run w = (r, w')) :
    w' = w ∨ ∃ db, r = .ok () ∧ w' = { w with db } ∧ Billed w event db := by
  cases event with
  | invoicePaid invoice =>
    rw [processBillingWebhookHandler, run_invoicePaid] at h
    split at h
    next => exact .inl (Prod.mk.inj h).2.symm
    next => exact .inl (Prod.mk.inj h).2.symm
    next input hinput =>
      rw [run_registerUserBilling] at h
      split at h
      next => exact .inl (Prod.mk.inj h).2.symm
      next u hu =>
        rcases run_writeUserBilling_cases htrx h with h | ⟨c, db, hr, hw, hp⟩
        · exact .inl h.2
        · exact .inr ⟨db, hr, hw, .paid hinput hu hp⟩
  | invoicePaymentFailed invoice =>
    rw [processBillingWebhookHandler, invoicePaymentFailed_eq] at h
    split at h
    next => exact .inl (Prod.mk.inj h).2.symm
    next s hs =>
      rcases run_updateBillingOnPaymentFailed_cases h with h | ⟨b, db, hb, hr, hw, hu, hp, hbs⟩
      · exact .inl h
      · exact .inr ⟨db, hr, hw, .failed hs hb hu hp hbs⟩
  | subscriptionUpdated sub =>
    rw [processBillingWebhookHandler, run_subscriptionUpdated] at h
    split at h
    next => exact .inl (Prod.mk.inj h).2.symm
    next input hinput =>
      rcases run_updateBillingOnSubscriptionUpdated_cases htrx h with
        h | ⟨hne, b, db, hb, hr, hw, hup⟩
      · exact .inl h
      · rw [(updateInput_product hinput).1] at hb hne
        exact .inr ⟨db, hr, hw, .updated hinput hne hb hup⟩
  | subscriptionDeleted sub =>
    rw [processBillingWebhookHandler] at h
    rcases run_updateBillingOnSubscriptionDeleted_cases htrx h with
      h | ⟨hne, b, db, hb, hr, hw, hd⟩
    · exact .inl h
    · exact .inr ⟨db, hr, hw, .deleted hne hb hd⟩
  | other type => exact .inl (Prod.mk.inj h).2.symm

end CodebaseTrpc
