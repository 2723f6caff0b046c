import CodebaseTrpc.Properties.Redelivery

/-! The two events of one renewal, in either order. -/
namespace CodebaseTrpc
variable {P : Packages} {w : World} {db db' : Db} {invoice : Invoice} {sub : Subscription}
  {input : UpdateUserBillingInput} {user : User} {customer : String} {env : Environment}

/-- A paid invoice and an update of the same subscription, which is active and not cancelled, with
the same price and the same end of the period. -/
structure Renews (invoice : Invoice) (sub : Subscription) : Prop where
  subscription : subscriptionIdOf invoice.parentSubscription = some sub.id
  status : sub.status = "active"
  cancelAt : sub.cancelAt = none
  item : ∃ line lines item items, invoice.lines = some (line :: lines) ∧
    sub.items = item :: items ∧ item.priceId = line.price ∧
    item.currentPeriodEnd = some line.periodEnd

/-- What the update passes on where the invoice passes on `input`. -/
def renewal (input : UpdateUserBillingInput) : SubscriptionUpdate where
  externalSubscriptionId := input.externalSubscriptionId
  productId := some input.productId
  status := some "active"
  currentPeriodEnd := unixTimestampToDate input.expiresAt

theorem renewal_not_ended (input : UpdateUserBillingInput) : ¬ (renewal input).Ended := by
  simp [SubscriptionUpdate.Ended, renewal]

theorem Renews.inputs (h : Renews invoice sub) (hinput : paidInput db invoice = .ok (some input)) :
    input.externalSubscriptionId = sub.id ∧ updateInput db sub = some (renewal input) := by
  obtain ⟨line, lines, item, items, hline, hitem, hprice, hend⟩ := h.item
  have hs : input.externalSubscriptionId = sub.id := by
    obtain ⟨-, -, hs, -⟩ := paidInput_some hinput
    exact Option.some.inj (hs.symm.trans h.subscription)
  refine ⟨hs, ?_⟩
  unfold paidInput at hinput
  simp only [hline, h.subscription] at hinput
  split at hinput
  next => cases hinput
  next price hp =>
    split at hinput
    next => cases hinput
    next product hproduct =>
      split_ifs at hinput with hzero
      cases hinput
      obtain ⟨n, hn⟩ := Nat.exists_eq_succ_of_ne_zero hzero
      have htruthy : truthy (some line.periodEnd) = some line.periodEnd := by rw [hn]; rfl
      have hnone : truthy sub.cancelAt = none := by rw [h.cancelAt]; rfl
      simp [updateInput, hitem, hprice, hend, htruthy, hnone, hp, hproduct, h.status, renewal]

/-- The update fits where the invoice does. -/
theorem Renews.plan_updated (h : Renews invoice sub)
    (hinput : paidInput db invoice = .ok (some input)) (hfit : input.Fits customer) :
    plan db (.subscriptionUpdated sub) = onFile db sub.id (.updated (renewal input))
      (productWritten db.freeTier (renewal input)) := by
  have hrenewal : (renewal input).Fits := by
    refine ⟨fun status hs => ?_, hfit.2.2⟩
    cases hs
    decide
  simp [plan, (h.inputs hinput).2, renewal_not_ended, hrenewal]

/-- The row says what the invoice said. -/
structure Settled (input : UpdateUserBillingInput) (b : Billing) : Prop where
  product : b.productId = input.productId
  status : b.status = "active"
  expiresAt : b.expiresAt = unixTimestampToDate input.expiresAt

theorem settled_paidBilling (now : ℕ) (b : Billing) :
    Settled input (paidBilling input customer now b) := ⟨rfl, rfl, rfl⟩

theorem settled_newBilling (userId : String) :
    Settled input (newBilling input customer userId env) := ⟨rfl, rfl, rfl⟩

theorem spread_some_apply (p : String) : (spread (some p)).apply p = p := by
  unfold spread
  dsimp only
  split_ifs <;> rfl

/-- The update writes its time and nothing else into it. -/
theorem Settled.updated {b : Billing} (h : Settled input b) (now : ℕ) :
    updatedBilling (renewal input) now b = { b with updatedAt := now } := by
  have hp : (spread (some input.productId)).apply b.productId = b.productId := by
    rw [h.product, spread_some_apply]
  have hs : (spread (some "active")).apply b.status = b.status := by
    rw [h.status, spread_some_apply]
  simp only [updatedBilling, renewal]
  rw [hp, hs, ← h.expiresAt]

theorem Settled.productWritten {b : Billing} (h : Settled input b) (free : Option Product) :
    productWritten free (renewal input) b = none := by
  unfold CodebaseTrpc.productWritten
  rw [if_neg (renewal_not_ended input)]
  split
  next => rfl
  next p hp =>
    obtain rfl : input.productId = p := Option.some.inj (spread_eq_set hp)
    rw [if_neg (not_not.mpr h.product.symm)]

/-- A billing row up to its time of writing. -/
def Touched (b b' : Billing) : Prop := b' = { b with updatedAt := b'.updatedAt }

theorem Touched.refl (b : Billing) : Touched b b := rfl

section Paid
variable (hw : (paidChange db input user customer).Writes env db db')
include hw

/-- After the invoice the rows of the user are settled. -/
theorem settled_of_writes (howners : UniqueOwners db.billings) :
    ∀ b ∈ db'.billings, b.userId = user.id → Settled input b := by
  intro b hb hid
  rw [hw.billings, Change.billings, paidChange] at hb
  dsimp only at hb
  cases hl : Rows.lookup Billing.userId user.id db.billings with
  | none =>
    rw [hl] at hb
    rcases List.mem_append.mp hb with hb | hb
    · exact absurd hid (Rows.lookup_eq_none.mp hl b hb)
    · obtain rfl := List.mem_singleton.mp hb
      exact settled_newBilling _
  | some b₀ =>
    rw [hl] at hb
    rcases Rows.mem_update.mp hb with ⟨y, -, -, rfl⟩ | ⟨hb, hne⟩
    · exact settled_paidBilling _ _
    · have hfound := lookup_owner howners hb
      rw [hid, hl] at hfound
      exact absurd (congrArg Billing.id (Option.some.inj hfound).symm) hne

/-- The subscription comes on file for the user only. -/
theorem owned_of_writes (hown : ∀ b ∈ db.billings,
      b.externalSubscriptionId = input.externalSubscriptionId → b.userId = user.id) :
    ∀ b ∈ db'.billings, b.externalSubscriptionId = input.externalSubscriptionId →
      b.userId = user.id := by
  intro b hb hs
  rw [hw.billings, Change.billings, paidChange] at hb
  dsimp only at hb
  cases hl : Rows.lookup Billing.userId user.id db.billings with
  | none =>
    rw [hl] at hb
    rcases List.mem_append.mp hb with hb | hb
    · exact hown b hb hs
    · obtain rfl := List.mem_singleton.mp hb
      rfl
  | some b₀ =>
    rw [hl] at hb
    rcases Rows.mem_update.mp hb with ⟨y, hy, hid, rfl⟩ | ⟨hb, -⟩
    · obtain rfl := Db.billing_eq hy (Rows.lookup_mem hl) hid
      have howner : y.userId = user.id := Rows.lookup_key hl
      exact howner
    · exact hown b hb hs

end Paid

/-- An update that finds a settled row, or none, touches the billings at most. -/
theorem Follows.touched {o : Option Change} {s : String} (ho : o = onFile db s
      (.updated (renewal input)) (productWritten db.freeTier (renewal input)))
    (hsettled : ∀ b ∈ db.billings, b.externalSubscriptionId = s → Settled input b)
    (hf : Follows o env db db') :
    db'.users = db.users ∧ List.Forall₂ Touched db.billings db'.billings := by
  cases o with
  | none =>
    have heq : db' = db := hf
    rw [heq]
    exact ⟨rfl, Rows.forall₂_refl Touched.refl _⟩
  | some c =>
    have hw : c.Writes env db db' := hf
    obtain ⟨-, b, hb, rfl⟩ := onFile_some ho.symm
    have hset := hsettled b (Rows.lookup_mem hb) (Rows.lookup_key hb)
    constructor
    · rw [hw.users, Change.users]
      simp [hset.productWritten]
    · rw [hw.billings, Change.billings]
      refine Rows.forall₂_update Touched.refl fun x hx hid => ?_
      obtain rfl := Db.billing_eq hx (Rows.lookup_mem hb) hid
      exact hset.updated env.now

/-- An update before it makes no difference to what the invoice leaves. -/
theorem Follows.writes_paid {db'' : Db} {env' : Environment} {user' : User} {s : String}
    (howners : UniqueOwners db.billings) (hid : user'.id = user.id)
    (hown : ∀ b ∈ db.billings, b.externalSubscriptionId = s → b.userId = user.id)
    (hf : Follows (onFile db s (.updated (renewal input))
      (productWritten db.freeTier (renewal input))) env db db')
    (hw : (paidChange db' input user' customer).Writes env' db' db'') :
    (paidChange db input user customer).Writes env' db db'' := by
  cases ho : onFile db s (.updated (renewal input))
      (productWritten db.freeTier (renewal input)) with
  | none =>
    rw [ho] at hf
    have heq : db' = db := hf
    rw [heq] at hw
    simpa [paidChange, hid] using hw
  | some c =>
    rw [ho] at hf
    have hu : c.Writes env db db' := hf
    obtain ⟨-, b, hb, rfl⟩ := onFile_some ho
    have huser : b.userId = user.id := hown b (Rows.lookup_mem hb) (Rows.lookup_key hb)
    have hl : Rows.lookup Billing.userId user.id db.billings = some b :=
      huser ▸ lookup_owner howners (Rows.lookup_mem hb)
    have hl' : Rows.lookup Billing.userId user.id db'.billings =
        some ((Rewrite.updated (renewal input)).apply env.now b) :=
      hu.lookup_rewritten rfl (fun _ => rfl) hl
    refine ⟨hw.products.trans hu.products, ?_, ?_⟩
    · -- of two writings of one product the later one stays
      rw [hw.users, hu.users]
      simp only [paidChange, Change.users, hid, huser]
      unfold productWritten
      rw [if_neg (renewal_not_ended input)]
      cases hp : spread (renewal input).productId with
      | undefined => rfl
      | set p =>
        obtain rfl : input.productId = p := Option.some.inj (spread_eq_set hp)
        dsimp only
        split_ifs
        · rw [Rows.update_update fun _ => UserUpdates.apply_id ..]
          rfl
        · rfl
    · rw [hw.billings, hu.billings]
      simp only [paidChange, Change.billings, hid, hl, hl', Rewrite.apply_id]
      rw [Rows.update_update fun _ => Rewrite.apply_id ..]
      rfl

/-- A billing row up to what is generated when it is created, and its time of writing. -/
structure RenewedAlike (H : List (Environment × Environment)) (b b' : Billing) : Prop where
  columns : b' = { b with id := b'.id, createdAt := b'.createdAt, updatedAt := b'.updatedAt }
  id : Generated Environment.uuid H b.id b'.id
  createdAt : Generated Environment.now H b.createdAt b'.createdAt

/-- The tables up to generated ids and times; `H` lists the surroundings in which the invoice was
handled, on the one side and on the other. -/
structure SameRenewal (H : List (Environment × Environment)) (db db' : Db) : Prop where
  users : List.Forall₂ SameButTime db.users db'.users
  billings : List.Forall₂ (RenewedAlike H) db.billings db'.billings

theorem Change.users_same (c : Change) (env env' : Environment) (users : List User) :
    List.Forall₂ SameButTime (c.users env users) (c.users env' users) := by
  unfold Change.users
  split
  · exact Rows.forall₂_refl SameButTime.refl _
  · exact Rows.forall₂_updates SameButTime.refl fun _ _ _ => rfl

/-- One invoice, handled in other surroundings. -/
theorem paidChange_same {env' : Environment} {db'' : Db}
    (h : (paidChange db input user customer).Writes env db db')
    (h' : (paidChange db input user customer).Writes env' db db'') :
    SameRenewal [(env, env')] db' db'' := by
  have hrefl : ∀ b, RenewedAlike [(env, env')] b b := fun _ => ⟨rfl, .refl .., .refl ..⟩
  constructor
  · rw [h.users, h'.users]
    exact Change.users_same ..
  · rw [h.billings, h'.billings]
    unfold Change.billings paidChange
    cases Rows.lookup Billing.userId user.id db.billings with
    | none =>
      have hnew : RenewedAlike [(env, env')] (newBilling input customer user.id env)
          (newBilling input customer user.id env') :=
        ⟨rfl, .drawn _ (by simp), .drawn _ (by simp)⟩
      exact List.rel_append (Rows.forall₂_refl hrefl _) (.cons hnew .nil)
    | some b => exact Rows.forall₂_updates hrefl fun _ _ _ => ⟨rfl, .refl .., .refl ..⟩

/-- One update, handled in other surroundings. -/
theorem Follows.sameRenewal {H : List (Environment × Environment)} {env' : Environment} {db'' : Db}
    (h : Follows (plan db (.subscriptionUpdated sub)) env db db')
    (h' : Follows (plan db (.subscriptionUpdated sub)) env' db db'') : SameRenewal H db' db'' := by
  have hrefl : ∀ b, RenewedAlike H b b := fun _ => ⟨rfl, .refl .., .refl ..⟩
  cases hplan : plan db (.subscriptionUpdated sub) with
  | none =>
    rw [hplan] at h h'
    have heq : db' = db := h
    have heq' : db'' = db := h'
    rw [heq, heq']
    exact ⟨Rows.forall₂_refl SameButTime.refl _, Rows.forall₂_refl hrefl _⟩
  | some c =>
    rw [hplan] at h h'
    have hw : c.Writes env db db' := h
    have hw' : c.Writes env' db db'' := h'
    obtain ⟨input, -, hplan⟩ := Option.bind_eq_some_iff.mp hplan
    split_ifs at hplan
    obtain ⟨-, b, -, rfl⟩ := onFile_some hplan
    constructor
    · rw [hw.users, hw'.users]
      exact Change.users_same ..
    · rw [hw.billings, hw'.billings]
      exact Rows.forall₂_updates hrefl fun _ _ _ => ⟨rfl, .refl .., .refl ..⟩

theorem SameRenewal.touched {H : List (Environment × Environment)} {db'' : Db}
    (h : SameRenewal H db db'') (husers : db'.users = db.users)
    (hbillings : List.Forall₂ Touched db.billings db'.billings) : SameRenewal H db' db'' := by
  refine ⟨husers ▸ h.users, Rows.forall₂_comp ?_ hbillings.flip h.billings⟩
  rintro x y z hyx ⟨hcolumns, hid, hcreated⟩
  have htouched : x = { y with updatedAt := x.updatedAt } := hyx
  rw [htouched]
  refine ⟨?_, hid, hcreated⟩
  rw [hcolumns]

theorem Follows.products {o : Option Change} (h : Follows o env db db') :
    db'.products = db.products := by
  cases o with
  | none =>
    have heq : db' = db := h
    rw [heq]
  | some c =>
    have hw : c.Writes env db db' := h
    exact hw.products

theorem Follows.lookup_email {o : Option Change} (h : Follows o env db db') {v : String}
    (hu : Rows.lookup User.email v db.users = some user) :
    ∃ user', Rows.lookup User.email v db'.users = some user' ∧ user'.id = user.id := by
  cases o with
  | none =>
    have heq : db' = db := h
    exact ⟨user, heq ▸ hu, rfl⟩
  | some c =>
    have hw : c.Writes env db db' := h
    exact hw.lookup_user (fun _ _ => rfl) hu

/-- The plan of a paid invoice for a user that is known. -/
theorem plan_invoicePaid
    (hu : Rows.lookup User.email (invoice.customerEmail.getD "") db.users = some user) :
    plan db (.invoicePaid invoice) = match paidInput db invoice with
      | .ok (some input) => input.fittingCustomer.map (paidChange db input user)
      | _ => none := by
  simp only [plan]
  cases hinput : paidInput db invoice with
  | error e => rfl
  | ok o =>
    cases o with
    | none => rfl
    | some input =>
      dsimp only
      rw [(paidInput_some hinput).1, hu]
      rfl

theorem plan_invoicePaid_some {c : Change}
    (hu : Rows.lookup User.email (invoice.customerEmail.getD "") db.users = some user)
    (h : plan db (.invoicePaid invoice) = some c) : ∃ input customer,
      paidInput db invoice = .ok (some input) ∧ input.fittingCustomer = some customer ∧
        c = paidChange db input user customer := by
  rw [plan_invoicePaid hu] at h
  split at h
  next input hinput =>
    obtain ⟨customer, hcustomer, rfl⟩ := Option.map_eq_some_iff.mp h
    exact ⟨input, customer, hinput, hcustomer, rfl⟩
  next => cases h

/-- An invoice that writes nothing writes nothing after an update either. -/
theorem plan_invoicePaid_none {user' : User} (hproducts : db'.products = db.products)
    (hu : Rows.lookup User.email (invoice.customerEmail.getD "") db.users = some user)
    (hu' : Rows.lookup User.email (invoice.customerEmail.getD "") db'.users = some user')
    (h : plan db (.invoicePaid invoice) = none) : plan db' (.invoicePaid invoice) = none := by
  rw [plan_invoicePaid hu] at h
  rw [plan_invoicePaid hu', paidInput_congr hproducts]
  split at h
  next input _ => exact Option.map_eq_none_iff.mpr (Option.map_eq_none_iff.mp h)
  next => rfl

/-- The invoice and the update of one renewal leave the same rows in either order. -/
theorem renewal_confluent {a b c d : Environment} {v v' x x' : World} (htrx : w.trx = none)
    (howners : UniqueOwners w.db.billings) (h : Renews invoice sub)
    (hu : Rows.lookup User.email (invoice.customerEmail.getD "") w.db.users = some user)
    (hown : ∀ row ∈ w.db.billings, row.externalSubscriptionId = sub.id → row.userId = user.id)
    (h₁ : Handled P w (.invoicePaid invoice) a v)
    (h₂ : Handled P v (.subscriptionUpdated sub) b v')
    (k₂ : Handled P w (.subscriptionUpdated sub) c x)
    (k₁ : Handled P x (.invoicePaid invoice) d x') : SameRenewal [(a, d)] v'.db x'.db := by
  obtain ⟨hv, hf₁⟩ := h₁.follows htrx
  obtain ⟨-, hf₂⟩ := h₂.follows hv
  obtain ⟨hx, kf₂⟩ := k₂.follows htrx
  obtain ⟨-, kf₁⟩ := k₁.follows hx
  obtain ⟨user', hu', hid⟩ := kf₂.lookup_email hu
  cases hplan : plan w.db (.invoicePaid invoice) with
  | none =>
    -- only the update writes, once on either side
    rw [hplan] at hf₁
    rw [plan_invoicePaid_none kf₂.products hu hu' hplan] at kf₁
    have heq : v.db = w.db := hf₁
    have heq' : x'.db = x.db := kf₁
    rw [heq] at hf₂
    rw [heq']
    exact hf₂.sameRenewal kf₂
  | some change =>
    obtain ⟨input, customer, hinput, hcustomer, rfl⟩ := plan_invoicePaid_some hu hplan
    have hsub := (h.inputs hinput).1
    have hfit := (fittingCustomer_eq_some.mp hcustomer).2
    rw [hplan] at hf₁
    have hw : (paidChange w.db input user customer).Writes a w.db v.db := hf₁
    -- after the invoice the update has nothing left to write
    have howned := owned_of_writes hw (hsub ▸ hown)
    obtain ⟨husers, hbillings⟩ := hf₂.touched
      (h.plan_updated ((paidInput_congr hw.products invoice).trans hinput) hfit)
      fun row hrow hs => settled_of_writes hw howners row hrow
        (howned row hrow (hs.trans hsub.symm))
    -- after the update the invoice writes the same again
    rw [plan_invoicePaid hu', paidInput_congr kf₂.products, hinput] at kf₁
    dsimp only at kf₁
    rw [hcustomer] at kf₁
    have kw : (paidChange x.db input user' customer).Writes d x.db x'.db := kf₁
    rw [h.plan_updated hinput hfit] at kf₂
    have kw' := kf₂.writes_paid howners hid hown kw
    exact (paidChange_same hw kw').touched husers hbillings

namespace Sample

/-- Bob's first payment, and the update of his subscription that comes with it. -/
def bobInvoice : Invoice := { paidInvoice with
  customerEmail := some "bob@mail"
  customer := some "cus_2"
  parentSubscription := some (.id "sub_2") }

def bobSubscription : Subscription := { subscription "active" with id := "sub_2" }

def paidFirst : World := handled crowded (.invoicePaid bobInvoice) (secondsLater 1 "b1")
def updatedFirst : World :=
  handled crowded (.subscriptionUpdated bobSubscription) (secondsLater 2 "b2")

def paidThenUpdated : World :=
  handled paidFirst (.subscriptionUpdated bobSubscription) (secondsLater 3 "b3")
def updatedThenPaid : World :=
  handled updatedFirst (.invoicePaid bobInvoice) (secondsLater 4 "b4")

def subscriber : User := crowded.db.users.getD 1 default

theorem renews_bob : Renews bobInvoice bobSubscription where
  subscription := rfl
  status := rfl
  cancelAt := rfl
  item := ⟨_, _, _, _, rfl, rfl, rfl, rfl⟩

set_option maxRecDepth 10000 in
theorem renewal_facts :
    (crowded.trx.isNone = true ∧ (crowded.db.billings.map Billing.userId).Nodup) ∧
    Rows.lookup User.email (bobInvoice.customerEmail.getD "") crowded.db.users = some subscriber ∧
    (∀ row ∈ crowded.db.billings, row.externalSubscriptionId ≠ bobSubscription.id) ∧
    ((∀ row ∈ crowded.db.billings, row.id ≠ "b1" ∧ row.id ≠ "b2") ∧
      (∀ row ∈ paidFirst.db.billings, row.id ≠ "b3") ∧
      ∀ row ∈ updatedFirst.db.billings, row.id ≠ "b4") ∧
    paidThenUpdated.db.billings.length = 2 := by decide +kernel

end Sample

/-- Bob's row is created before the update or after it. -/
theorem renewal_confluent_first : Sample.paidThenUpdated.db.billings.length = 2 ∧
    SameRenewal [(Sample.secondsLater 1 "b1", Sample.secondsLater 4 "b4")]
      Sample.paidThenUpdated.db Sample.updatedThenPaid.db := by
  obtain ⟨⟨htrx, howners⟩, hu, hown, ⟨hids, hpaid, hupdated⟩, htwo⟩ := Sample.renewal_facts
  refine ⟨htwo, renewal_confluent (Option.isNone_iff_eq_none.mp htrx) howners Sample.renews_bob hu
    (fun row hrow hs => absurd hs (hown row hrow))
    (Sample.handled_handled fun row hrow => (hids row hrow).1) (Sample.handled_handled hpaid)
    (Sample.handled_handled fun row hrow => (hids row hrow).2) (Sample.handled_handled hupdated)⟩

end CodebaseTrpc
