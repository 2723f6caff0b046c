import CodebaseTrpc.Properties.Atomicity

/-! What an acknowledged payment leaves behind. The handler answers 200 wherever it does not
throw, and an invoice whose price belongs to no product is logged only. -/
namespace CodebaseTrpc
variable {w w' : World} {invoice : Invoice} {line : LineItem} {lines : List LineItem}
  {r : Except Err Unit}

/-- The payment is on the books: the row `b` of the user `u` with the email of the invoice. -/
structure PaymentRecordedIn (invoice : Invoice) (line : LineItem) (u : User) (b : Billing) :
    Prop where
  email : u.email = invoice.customerEmail.getD ""
  owner : b.userId = u.id
  status : b.status = "active"
  subscription : subscriptionIdOf invoice.parentSubscription = some b.externalSubscriptionId
  customer : invoice.customer = some b.externalCustomerId
  expiresAt : b.expiresAt = unixTimestampToDate line.periodEnd
  product : u.currentProductId = some b.productId

def PaymentRecorded (db : Db) (invoice : Invoice) (line : LineItem) : Prop :=
  ∃ u ∈ db.users, ∃ b ∈ db.billings, PaymentRecordedIn invoice line u b

/-- An invoice of a subscription names the price of a product on its first line, if it names
one there. -/
def PriceKnown (db : Db) (invoice : Invoice) (line : LineItem) : Prop :=
  ∀ s price, subscriptionIdOf invoice.parentSubscription = some s →
    truthyText line.price = some price → ∃ p ∈ db.products, p.externalPriceId = some price

theorem priceKnown_iff (hlines : invoice.lines = some (line :: lines)) (db : Db) :
    PriceKnown db invoice line ↔ paidInput db invoice ≠ .ok none := by
  rw [Ne, paidInput_eq_none hlines]
  constructor
  · rintro h ⟨s, price, hs, hprice, hnone⟩
    obtain ⟨p, hp⟩ := Rows.exists_lookup_iff.mpr (h s price hs hprice)
    cases hnone.symm.trans hp
  · intro h s price hs hprice
    refine Rows.exists_lookup_iff.mp (Option.ne_none_iff_exists'.mp fun hnone => ?_)
    exact h ⟨s, price, hs, hprice, hnone⟩

/-- Whatever statements fail, the handler rejects, passes an unknown price over, or goes on with
what the invoice passes on. -/
theorem mayRun_invoicePaid_cases (h : (invoicePaid invoice).MayRun w r w') :
    (∃ e, r = .error e) ∨ (paidInput w.db invoice = .ok none ∧ r = .ok () ∧ w' = w) ∨
      ∃ input, paidInput w.db invoice = .ok (some input) ∧
        (registerUserBilling input).MayRun w r w' := by
  unfold invoicePaid at h
  unfold paidInput
  revert h
  rcases invoice.lines with _ | _ | ⟨lineItem, rest⟩
  · exact fun h => .inl ⟨_, h.1⟩
  · exact fun h => .inr (.inl ⟨rfl, h⟩)
  dsimp only
  cases subscriptionIdOf invoice.parentSubscription with
  | none => exact fun h => .inl ⟨_, h.1⟩
  | some s =>
    cases truthyText lineItem.price with
    | none => exact fun h => .inl ⟨_, h.1⟩
    | some price =>
      intro h
      rcases mayRun_select_bind_cases h with ⟨he, -⟩ | h
      · exact .inl he
      dsimp only
      cases hproduct : Rows.lookup Product.externalPriceId (some price) w.db.products with
      | none =>
        rw [hproduct] at h
        exact .inr (.inl ⟨rfl, h⟩)
      | some product =>
        rw [hproduct] at h
        dsimp only at h ⊢
        split_ifs at h ⊢ with hend
        · exact .inl ⟨_, h.1⟩
        · exact .inr (.inr ⟨_, rfl, h⟩)

/-- The transaction leaves the payment on the books. -/
theorem recorded_of_paid {input : UpdateUserBillingInput} {user : User} {c : String} {db : Db}
    (hlines : invoice.lines = some (line :: lines))
    (hinput : paidInput w.db invoice = .ok (some input))
    (hu : Rows.lookup User.email input.userEmail w.db.users = some user)
    (h : Paid w input user (Rows.lookup Billing.userId user.id w.db.billings) c db) :
    PaymentRecorded db invoice line := by
  obtain ⟨hmail, hcus, hsub, -⟩ := paidInput_some hinput
  obtain ⟨_, _, _, -, -, -, -, heq⟩ := (paidInput_eq_some hlines).mp hinput
  have hend : unixTimestampToDate input.expiresAt = unixTimestampToDate line.periodEnd := by
    rw [heq]
  have hemail : user.email = invoice.customerEmail.getD "" := (Rows.lookup_key hu).trans hmail
  have hcustomer : invoice.customer = some c := hcus.symm.trans h.customer
  have hmem := Rows.mem_update_self User.id ((setProduct input.productId).apply w.env.now)
    (Rows.lookup_mem hu)
  refine ⟨_, h.users ▸ hmem, ?_⟩
  have hbillings := h.billings
  cases hl : Rows.lookup Billing.userId user.id w.db.billings with
  | none =>
    rw [hl] at hbillings
    refine ⟨newBilling input c user.id w.env, ?_, hemail, rfl, rfl, hsub, hcustomer, hend, rfl⟩
    rw [hbillings]
    exact List.mem_append_right _ (List.mem_singleton_self _)
  | some b =>
    have howner : b.userId = user.id := Rows.lookup_key hl
    rw [hl] at hbillings
    refine ⟨paidBilling input c w.env.now b, ?_, hemail, howner, rfl, hsub, hcustomer, hend, rfl⟩
    rw [hbillings]
    exact Rows.mem_update_self Billing.id _ (Rows.lookup_mem hl)

/-- A payment of a known price is acknowledged only once it is recorded. -/
theorem recorded_of_mayRun (hlines : invoice.lines = some (line :: lines))
    (hknown : PriceKnown w.db invoice line)
    (h : (processBillingWebhookHandler (.invoicePaid invoice)).MayRun w (.ok ()) w') :
    PaymentRecorded w'.db invoice line := by
  rcases mayRun_invoicePaid_cases h with ⟨e, he⟩ | ⟨hnone, -⟩ | ⟨input, hinput, h⟩
  · cases he
  · exact absurd hnone ((priceKnown_iff hlines w.db).mp hknown)
  · rcases registerUserBilling_atomic h with ⟨-, user, hu, ⟨c, hpaid⟩, -⟩ | ⟨⟨e, he⟩, -⟩
    · exact recorded_of_paid hlines hinput hu hpaid
    · cases he

/-- Every acknowledgement of a paid invoice, with whatever statements failing before it, finds the
payment recorded iff the price of its first line belongs to a product, or nothing was left to
record. -/
theorem acknowledged_recorded (hlines : invoice.lines = some (line :: lines)) :
    (∀ r w', (processBillingWebhookHandler (.invoicePaid invoice)).MayRun w r w' → r = .ok () →
      PaymentRecorded w'.db invoice line) ↔
    PriceKnown w.db invoice line ∨ PaymentRecorded w.db invoice line := by
  constructor
  · intro h
    by_cases hknown : PriceKnown w.db invoice line
    · exact .inl hknown
    · have hnone := not_not.mp (mt (priceKnown_iff hlines w.db).mpr hknown)
      refine .inr (h _ w (Async.mayRun_of_run ?_) rfl)
      rw [processBillingWebhookHandler, run_invoicePaid, hnone]
  · rintro (hknown | hrecorded) r w' h rfl
    · exact recorded_of_mayRun hlines hknown h
    · rcases mayRun_invoicePaid_cases h with ⟨e, he⟩ | ⟨-, -, rfl⟩ | ⟨input, hinput, hrun⟩
      · cases he
      · exact hrecorded
      · refine recorded_of_mayRun hlines ((priceKnown_iff hlines w.db).mpr ?_) h
        rw [hinput]
        simp

namespace Sample

/-- An invoice of Ann's for a price that no product has. -/
def strayInvoice : Invoice :=
  { paidInvoice with lines := some [{ price := some "price_9", periodEnd := 1702592000 }] }

set_option maxRecDepth 10000 in
theorem acknowledged_facts :
    ((processBillingWebhookHandler (.invoicePaid paidInvoice)).run signedIn).1.toOption = some () ∧
    ((processBillingWebhookHandler (.invoicePaid strayInvoice)).run signedIn).1 = .ok () ∧
    ((processBillingWebhookHandler (.invoicePaid strayInvoice)).run signedIn).2.db.billings = [] ∧
    (∃ p ∈ signedIn.db.products, p.externalPriceId = some "price_1") := by decide +kernel

end Sample

/-- Ann's payment is acknowledged and recorded. -/
theorem acknowledged_recorded_ann :
    ((processBillingWebhookHandler (.invoicePaid Sample.paidInvoice)).run
      Sample.signedIn).1.toOption = some () ∧
    ∀ r w', (processBillingWebhookHandler (.invoicePaid Sample.paidInvoice)).MayRun Sample.signedIn
      r w' → r = .ok () →
      PaymentRecorded w'.db Sample.paidInvoice ⟨none, some "price_1", 1702592000⟩ := by
  obtain ⟨hok, -, -, hknown⟩ := Sample.acknowledged_facts
  refine ⟨hok, (acknowledged_recorded rfl).mpr (.inl fun s price _ hprice => ?_)⟩
  obtain rfl : "price_1" = price := Option.some.inj hprice
  exact hknown

/-- A payment for an unknown price is acknowledged, and nothing is recorded. -/
theorem stray_payment_acknowledged : ¬ ∀ (w : World) (invoice : Invoice) (line : LineItem)
    (lines : List LineItem), invoice.lines = some (line :: lines) →
      ∀ r w', (processBillingWebhookHandler (.invoicePaid invoice)).MayRun w r w' → r = .ok () →
        PaymentRecorded w'.db invoice line := by
  intro h
  obtain ⟨-, hok, hnone, -⟩ := Sample.acknowledged_facts
  obtain ⟨u, -, b, hb, -⟩ := h _ _ _ _ rfl _ _ (Async.mayRun_run _ Sample.signedIn) hok
  rw [hnone] at hb
  cases hb

end CodebaseTrpc
