import CodebaseTrpc.Properties.WebhookOrder

/-! A webhook event that is delivered twice in a row. -/
namespace CodebaseTrpc
variable {P : Packages} {w : World} {db db' : Db} {event : BillingEvent} {c c' : Change}
  {env env' : Environment}

/-- Of two writings of the same event the later one stays. -/
theorem Rewrite.apply_apply (f : Rewrite) (n m : ℕ) (b : Billing) :
    f.apply m (f.apply n b) = f.apply m b := by
  cases f with
  | paid input c => rfl
  | failed => rfl
  | updated input =>
    simp only [Rewrite.apply, updatedBilling]
    cases spread input.productId <;> cases spread input.status <;> rfl
  | deleted => rfl

/-- `c'` writes again what `c` wrote in the surroundings `env`; the user's product is not written
where the billing row has it already. -/
structure Change.Again (env : Environment) (c c' : Change) : Prop where
  userId : c'.userId = c.userId
  product : c'.product = c.product ∨ c'.product = none
  billing : c'.billing = match c.billing with
    | .create input customer =>
      .rewrite (newBilling input customer c.userId env) (.paid input customer)
    | .rewrite b f => .rewrite (f.apply env.now b) f

theorem Change.Writes.lookup_user (hw : c.Writes env db db') {col : User → String} {v : String}
    {u : User} (hcol : ∀ p u, col ((setProduct p).apply env.now u) = col u)
    (hu : Rows.lookup col v db.users = some u) :
    ∃ u', Rows.lookup col v db'.users = some u' ∧ u'.id = u.id := by
  rw [hw.users, Change.users]
  split
  · exact ⟨u, hu, rfl⟩
  · rw [Rows.lookup_update (hcol _), hu]
    refine ⟨_, rfl, ?_⟩
    dsimp only
    split_ifs <;> rfl

/-- The row that was rewritten is found again by a column that the event keeps. -/
theorem Change.Writes.lookup_rewritten (hw : c.Writes env db db') {b : Billing} {f : Rewrite}
    (hb : c.billing = .rewrite b f) {col : Billing → String} {v : String}
    (hcol : ∀ x, col (f.apply env.now x) = col x) (hl : Rows.lookup col v db.billings = some b) :
    Rows.lookup col v db'.billings = some (f.apply env.now b) := by
  rw [hw.billings, Change.billings, hb]
  dsimp only
  rw [Rows.lookup_update hcol, hl]
  simp

/-- The same for an event that looks its row up by the subscription. -/
theorem Change.Writes.onFile_again (hw : c.Writes env db db') {s : String} {b : Billing}
    (f : Rewrite) (product : Billing → Option String) (hs : s ≠ "")
    (hl : Rows.lookup Billing.externalSubscriptionId s db.billings = some b)
    (hc : c = ⟨b.userId, product b, .rewrite b f⟩)
    (hcol : ∀ x, (f.apply env.now x).externalSubscriptionId = x.externalSubscriptionId) :
    onFile db' s f product =
      some ⟨b.userId, product (f.apply env.now b), .rewrite (f.apply env.now b) f⟩ := by
  have hagain := hw.lookup_rewritten (b := b) (f := f) (by rw [hc]) hcol hl
  rw [onFile_of_lookup hs hagain, f.apply_userId]

theorem Change.Writes.paidChange_again {input : UpdateUserBillingInput} {user user' : User}
    {customer : String} (hw : (paidChange db input user customer).Writes env db db')
    (hid : user'.id = user.id) :
    (paidChange db input user customer).Again env (paidChange db' input user' customer) := by
  refine ⟨hid, .inl rfl, ?_⟩
  have hbillings := hw.billings
  simp only [paidChange, Change.billings, hid] at hbillings ⊢
  cases hl : Rows.lookup Billing.userId user.id db.billings with
  | none =>
    simp only [hl] at hbillings ⊢
    have hnew : Rows.lookup Billing.userId user.id db'.billings =
        some (newBilling input customer user.id env) := by
      rw [hbillings]
      exact Rows.lookup_append_self (y := newBilling input customer user.id env) hl
    rw [hnew]
  | some b =>
    simp only [hl] at hbillings ⊢
    have hfound := hw.lookup_rewritten (b := b) (f := .paid input customer)
      (by simp [paidChange, hl]) (fun _ => rfl) hl
    rw [hfound]

/-- Once the billing row names the product of the update, the user is left alone. -/
theorem productWritten_again (free : Option Product) (input : SubscriptionUpdate) (now : ℕ)
    (b : Billing) :
    productWritten free input (updatedBilling input now b) = productWritten free input b ∨
      productWritten free input (updatedBilling input now b) = none := by
  unfold productWritten
  split_ifs with hend
  · exact .inl rfl
  · right
    cases hp : spread input.productId with
    | undefined => rfl
    | set p => simp [updatedBilling, hp]

theorem plan_again (hplan : plan db event = some c) (hw : c.Writes env db db') :
    ∃ c', plan db' event = some c' ∧ c.Again env c' := by
  cases event with
  | invoicePaid invoice =>
    simp only [plan, paidInput_congr hw.products] at hplan ⊢
    split at hplan
    next input hinput =>
      obtain ⟨user, hu, hplan⟩ := Option.bind_eq_some_iff.mp hplan
      obtain ⟨customer, hcustomer, rfl⟩ := Option.map_eq_some_iff.mp hplan
      obtain ⟨user', hu', hid⟩ := hw.lookup_user (fun _ _ => rfl) hu
      refine ⟨paidChange db' input user' customer, ?_, hw.paidChange_again hid⟩
      simp [hu', hcustomer]
    next => cases hplan
  | invoicePaymentFailed invoice =>
    obtain ⟨s, hs, hplan⟩ := Option.bind_eq_some_iff.mp hplan
    obtain ⟨hne, b, hb, hc⟩ := onFile_some hplan
    have hagain := hw.onFile_again .failed (fun _ => none) hne hb hc fun _ => rfl
    have heq : plan db' (.invoicePaymentFailed invoice) = onFile db' s .failed fun _ => none := by
      simp [plan, hs]
    subst hc
    exact ⟨_, heq.trans hagain, rfl, .inl rfl, rfl⟩
  | subscriptionUpdated sub =>
    obtain ⟨input, hinput, hplan⟩ := Option.bind_eq_some_iff.mp hplan
    split_ifs at hplan with hend
    obtain ⟨hne, b, hb, hc⟩ := onFile_some hplan
    have hagain := hw.onFile_again (.updated input) _ hne hb hc fun _ => rfl
    have heq : plan db' (.subscriptionUpdated sub) =
        onFile db' sub.id (.updated input) (productWritten db.freeTier input) := by
      simp only [plan, updateInput_congr hw.products, hinput, Option.bind_some, hw.freeTier_eq,
        if_neg hend]
    subst hc
    exact ⟨_, heq.trans hagain, rfl, productWritten_again _ input env.now b, rfl⟩
  | subscriptionDeleted sub =>
    obtain ⟨free, hfree, hplan⟩ := Option.bind_eq_some_iff.mp hplan
    obtain ⟨hne, b, hb, hc⟩ := onFile_some hplan
    have hagain := hw.onFile_again .deleted (fun _ => some free.id) hne hb hc fun _ => rfl
    have heq : plan db' (.subscriptionDeleted sub) =
        onFile db' sub.id .deleted fun _ => some free.id := by
      simp [plan, hw.freeTier_eq, hfree]
    subst hc
    exact ⟨_, heq.trans hagain, rfl, .inl rfl, rfl⟩
  | other type => cases hplan

/-- The event makes its billing row expire at the moment it is handled. -/
def BillingEvent.ExpiresNow : BillingEvent → Prop
  | .subscriptionDeleted _ => True
  | _ => False

/-- A user row up to its time of writing. -/
def SameButTime (u u' : User) : Prop := u' = { u with updatedAt := u'.updatedAt }

theorem SameButTime.refl (u : User) : SameButTime u u := rfl

/-- A billing row up to its time of writing, and the instant it expires after a deletion. -/
structure SameRow (event : BillingEvent) (b b' : Billing) : Prop where
  columns : b' = { b with expiresAt := b'.expiresAt, updatedAt := b'.updatedAt }
  expiresAt : ¬ event.ExpiresNow → b'.expiresAt = b.expiresAt

/-- The tables up to times of writing, and the instant of expiry after a deletion. -/
structure SameOnce (event : BillingEvent) (db db' : Db) : Prop where
  products : db'.products = db.products
  users : List.Forall₂ SameButTime db.users db'.users
  billings : List.Forall₂ (SameRow event) db.billings db'.billings

theorem SameOnce.refl (event : BillingEvent) (db : Db) : SameOnce event db db :=
  ⟨rfl, Rows.forall₂_refl SameButTime.refl _, Rows.forall₂_refl (fun _ => ⟨rfl, fun _ => rfl⟩) _⟩

theorem Change.Again.users (h : c.Again env c') (users : List User) :
    List.Forall₂ SameButTime (c.users env users) (c'.users env' (c.users env users)) := by
  unfold Change.users
  rcases h.product with hp | hp <;> rw [hp]
  · cases c.product with
    | none => exact Rows.forall₂_refl SameButTime.refl _
    | some p =>
      dsimp only
      rw [h.userId]
      refine Rows.forall₂_update SameButTime.refl fun u hu hid => ?_
      obtain ⟨v, -, rfl⟩ := Rows.exists_of_mem_update hu
      split_ifs at hid ⊢ with hv
      · rfl
      · exact absurd hid hv
  · exact Rows.forall₂_refl SameButTime.refl _

/-- A rewriting of the rows it rewrote. -/
theorem Rewrite.sameRow {f : Rewrite} (hf : event.ExpiresNow ∨ f ≠ .deleted) (n m : ℕ)
    (b : Billing) : SameRow event (f.apply n b) (f.apply m (f.apply n b)) := by
  rw [f.apply_apply]
  cases f with
  | deleted => exact ⟨rfl, fun h => absurd (hf.resolve_right fun hne => hne rfl) h⟩
  | _ => exact ⟨rfl, fun _ => rfl⟩

/-- Only a deletion makes a row expire when it is handled. -/
theorem expiresNow_of_plan (hplan : plan db event = some c) {b : Billing} {f : Rewrite}
    (hb : c.billing = .rewrite b f) : event.ExpiresNow ∨ f ≠ .deleted := by
  cases event with
  | subscriptionDeleted sub => exact .inl trivial
  | invoicePaid invoice =>
    right
    simp only [plan] at hplan
    split at hplan
    next input _ =>
      obtain ⟨user, -, hplan⟩ := Option.bind_eq_some_iff.mp hplan
      obtain ⟨customer, -, rfl⟩ := Option.map_eq_some_iff.mp hplan
      simp only [paidChange] at hb
      split at hb <;> cases hb
      simp
    next => cases hplan
  | invoicePaymentFailed invoice =>
    right
    obtain ⟨s, -, hplan⟩ := Option.bind_eq_some_iff.mp hplan
    obtain ⟨-, b, -, rfl⟩ := onFile_some hplan
    cases hb
    simp
  | subscriptionUpdated sub =>
    right
    obtain ⟨input, -, hplan⟩ := Option.bind_eq_some_iff.mp hplan
    split_ifs at hplan
    obtain ⟨-, b, -, rfl⟩ := onFile_some hplan
    cases hb
    simp
  | other type => cases hplan

theorem Change.Again.billings (h : c.Again env c') (hplan : plan db event = some c)
    (hnew : ∀ b ∈ db.billings, b.id ≠ env.uuid) :
    List.Forall₂ (SameRow event) (c.billings env db.billings)
      (c'.billings env' (c.billings env db.billings)) := by
  have hrefl : ∀ b : Billing, SameRow event b b := fun _ => ⟨rfl, fun _ => rfl⟩
  have hagain := h.billing
  unfold Change.billings
  cases hb : c.billing with
  | create input customer =>
    simp only [hb] at hagain
    rw [hagain]
    dsimp only
    refine Rows.forall₂_update hrefl fun b hmem hid => ?_
    rcases List.mem_append.mp hmem with hmem | hmem
    · exact absurd hid (hnew b hmem)
    · obtain rfl := List.mem_singleton.mp hmem
      exact ⟨rfl, fun _ => rfl⟩
  | rewrite b f =>
    simp only [hb] at hagain
    rw [hagain]
    dsimp only
    rw [f.apply_id]
    refine Rows.forall₂_update hrefl fun x hx hid => ?_
    obtain ⟨y, -, rfl⟩ := Rows.exists_of_mem_update hx
    split_ifs at hid ⊢ with hy
    · exact f.sameRow (expiresNow_of_plan hplan hb) env.now env'.now y
    · exact absurd hid hy

theorem Change.Again.sameOnce {db'' : Db} (h : c.Again env c') (hplan : plan db event = some c)
    (hnew : ∀ b ∈ db.billings, b.id ≠ env.uuid) (hw : c.Writes env db db')
    (hw' : c'.Writes env' db' db'') : SameOnce event db' db'' := by
  refine ⟨hw'.products, ?_, ?_⟩
  · rw [hw'.users, hw.users]
    exact h.users _
  · rw [hw'.billings, hw.billings]
    exact h.billings hplan hnew

/-- An event that is delivered again, right after it was handled, changes times of writing at
most, and after a deletion the instant of expiry. -/
theorem redelivery_harmless {v v' : World} (htrx : w.trx = none) (h : Handled P w event env v)
    (h' : Handled P v event env' v') : SameOnce event v.db v'.db := by
  obtain ⟨hv, hf⟩ := h.follows htrx
  obtain ⟨-, hf'⟩ := h'.follows hv
  cases hplan : plan w.db event with
  | none =>
    rw [hplan] at hf
    simp only [Follows] at hf
    rw [hf, hplan] at hf'
    simp only [Follows] at hf'
    rw [hf', hf]
    exact .refl event w.db
  | some c =>
    have hw : c.Writes env w.db v.db := by simpa only [Follows, hplan] using hf
    obtain ⟨c', hplan', hagain⟩ := plan_again hplan hw
    have hw' : c'.Writes env' v.db v'.db := by simpa only [Follows, hplan'] using hf'
    exact hagain.sameOnce hplan h.fresh hw hw'

namespace Sample

/-- Bob's first payment, and the same event a second later. -/
def bobPaid : World := handled crowded bobPays (secondsLater 3 "b2")
def bobPaidAgain : World := handled bobPaid bobPays (secondsLater 4 "b4")

set_option maxRecDepth 10000 in
theorem again_facts : (∀ row ∈ crowded.db.billings, row.id ≠ "b2") ∧
    (∀ row ∈ bobPaid.db.billings, row.id ≠ "b4") ∧ bobPaid.db.billings.length = 2 ∧
    crowded.trx.isNone = true := by decide +kernel

end Sample

/-- The second delivery finds the row that the first one created. -/
theorem redelivery_harmless_created : Sample.bobPaid.db.billings.length = 2 ∧
    SameOnce Sample.bobPays Sample.bobPaid.db Sample.bobPaidAgain.db := by
  obtain ⟨hfirst, hsecond, hcreated, htrx⟩ := Sample.again_facts
  exact ⟨hcreated, redelivery_harmless (Option.isNone_iff_eq_none.mp htrx)
    (Sample.handled_handled hfirst) (Sample.handled_handled hsecond)⟩

end CodebaseTrpc
