import CodebaseTrpc.Invariants.Billings

/-! What a deleted subscription stays. Events are processed in the order of their delivery and
none is recognised as old or as seen before, so a later event of the subscription can bring its
row back. -/
namespace CodebaseTrpc
variable {P : Packages} {w w' : World} {s userId email : String} {tier : Product}

/-- The paid invoices of the user are those of the subscription. -/
def Consistent (s email : String) : BillingEvent → Prop
  | .invoicePaid invoice => subscriptionIdOf invoice.parentSubscription = some s ↔
      invoice.customerEmail.getD "" = email
  | _ => True

/-- An event of the subscription that writes another status than `canceled`. -/
def Revives (s : String) : BillingEvent → Prop
  | .invoicePaid invoice => subscriptionIdOf invoice.parentSubscription = some s
  | .invoicePaymentFailed invoice => failedSubscription invoice = some s
  | .subscriptionUpdated sub => sub.id = s ∧ sub.status ≠ "canceled"
  | _ => False

/-- The user exists, has one billing row at most, and no other user's row carries the
subscription. -/
structure Owned (s userId email : String) (db : Db) : Prop where
  user : ∃ u ∈ db.users, u.id = userId ∧ u.email = email
  rows : ∀ b ∈ db.billings, b.externalSubscriptionId = s → b.userId = userId
  single : ∀ b ∈ db.billings, ∀ b' ∈ db.billings, b.userId = userId → b'.userId = userId → b = b'

/-- The user's row carries the subscription, canceled, and the user is on the free tier. -/
structure Closed (s userId email : String) (tier : Product) (db : Db) : Prop
    extends Owned s userId email db where
  canceled : ∃ b ∈ db.billings, b.userId = userId ∧ b.externalSubscriptionId = s ∧
    b.status = "canceled"
  product : ∀ u ∈ db.users, u.id = userId → u.currentProductId = some tier.id

/-- The user is still there after an update that leaves ids and emails alone. -/
theorem Owned.user_updated {db db' : Db} {id : String} {f : User → User}
    (h : Owned s userId email db) (hf : ∀ u, (f u).id = u.id ∧ (f u).email = u.email)
    (husers : db'.users = Rows.update User.id id f db.users) :
    ∃ u ∈ db'.users, u.id = userId ∧ u.email = email := by
  obtain ⟨u, hu, hid, he⟩ := h.user
  refine ⟨_, husers ▸ Rows.mem_update_of_mem hu, ?_⟩
  split_ifs
  · exact ⟨(hf u).1.trans hid, (hf u).2.trans he⟩
  · exact ⟨hid, he⟩

section Rewrite
variable {db db' : Db} {b : Billing} {f : User → User} {g : Billing → Billing}

theorem Owned.rewrite (h : Owned s userId email db) (hb : b ∈ db.billings)
    (hf : ∀ u, (f u).id = u.id ∧ (f u).email = u.email) (hg : (g b).userId = b.userId)
    (hs : (g b).externalSubscriptionId = s → b.userId = userId)
    (husers : db'.users = Rows.update User.id b.userId f db.users)
    (hbillings : db'.billings = Rows.update Billing.id b.id g db.billings) :
    Owned s userId email db' := by
  have hmem : ∀ r ∈ db'.billings, r = g b ∨ (r ∈ db.billings ∧ r.id ≠ b.id) := by
    intro r hr
    rw [hbillings] at hr
    rcases Rows.mem_update.mp hr with ⟨y, hy, hk, rfl⟩ | hr
    · rw [Db.billing_eq hy hb hk]
      exact .inl rfl
    · exact .inr hr
  -- a row of the user other than `b` excludes that `b` is the user's
  have hother : ∀ r ∈ db.billings, r.id ≠ b.id → r.userId = userId → (g b).userId ≠ userId := by
    intro r hr hne hown hown'
    exact hne (congrArg Billing.id (h.single r hr b hb hown (hg.symm.trans hown')))
  refine ⟨?_, ?_, ?_⟩
  · exact h.user_updated hf husers
  · intro r hr hsub
    rcases hmem r hr with rfl | ⟨hr, -⟩
    · exact hg.trans (hs hsub)
    · exact h.rows r hr hsub
  · intro r hr r' hr' hown hown'
    rcases hmem r hr with rfl | ⟨hr, hne⟩ <;> rcases hmem r' hr' with rfl | ⟨hr', hne'⟩
    · rfl
    · exact absurd hown (hother r' hr' hne' hown')
    · exact absurd hown' (hother r hr hne hown)
    · exact h.single r hr r' hr' hown hown'

/-- The row stays closed if it is not the one rewritten, or is rewritten as closed. -/
theorem Closed.rewrite (h : Closed s userId email tier db) (hb : b ∈ db.billings)
    (hf : ∀ u, (f u).id = u.id) (hg : (g b).userId = b.userId)
    (hclosed : b.externalSubscriptionId = s → (g b).externalSubscriptionId = s ∧
      (g b).status = "canceled" ∧ ∀ u, (f u).currentProductId = some tier.id)
    (husers : db'.users = Rows.update User.id b.userId f db.users)
    (hbillings : db'.billings = Rows.update Billing.id b.id g db.billings)
    (howned : Owned s userId email db') : Closed s userId email tier db' := by
  obtain ⟨r, hr, hown, hsub, hstatus⟩ := h.canceled
  by_cases hbr : b = r
  · subst hbr
    obtain ⟨hs, hst, hproduct⟩ := hclosed hsub
    refine { howned with canceled := ⟨g b, ?_, hg.trans hown, hs, hst⟩, product := ?_ }
    · rw [hbillings]
      exact Rows.mem_update_self Billing.id g hb
    · intro u hu hid
      rw [husers] at hu
      rcases Rows.mem_update.mp hu with ⟨v, -, -, rfl⟩ | ⟨-, hk⟩
      · exact hproduct v
      · exact absurd (hid.trans hown.symm) hk
  · have hid : r.id ≠ b.id := fun hid =>
      hbr (Db.billing_eq hb hr hid.symm)
    refine { howned with canceled := ⟨r, ?_, hown, hsub, hstatus⟩, product := ?_ }
    · rw [hbillings]
      exact Rows.mem_update.mpr (.inr ⟨hr, hid⟩)
    · intro u hu huid
      rw [husers] at hu
      rcases Rows.mem_update.mp hu with ⟨v, -, hk, rfl⟩ | ⟨hu, -⟩
      · have hown' : b.userId = userId := hk.symm.trans ((hf v).symm.trans huid)
        exact absurd (h.single b hb r hr hown' hown) hbr
      · exact h.product u hu huid

end Rewrite

theorem Owned.first {db db' : Db} (h : Owned s userId email db) {id : String} {row : Billing}
    {f : User → User} (hnone : Rows.lookup Billing.userId id db.billings = none)
    (hrow : row.userId = id) (hf : ∀ u, (f u).id = u.id ∧ (f u).email = u.email)
    (hs : row.externalSubscriptionId = s → id = userId)
    (husers : db'.users = Rows.update User.id id f db.users)
    (hbillings : db'.billings = db.billings ++ [row]) : Owned s userId email db' := by
  have hmem : ∀ r, r ∈ db'.billings ↔ r ∈ db.billings ∨ r = row := by
    intro r
    rw [hbillings, List.mem_append, List.mem_singleton]
  have hnew : ∀ r ∈ db.billings, r.userId = userId → row.userId ≠ userId := by
    intro r hr hown hown'
    exact Rows.lookup_eq_none.mp hnone r hr (hown.trans (hown'.symm.trans hrow))
  refine ⟨?_, ?_, ?_⟩
  · exact h.user_updated hf husers
  · intro r hr hsub
    rcases (hmem r).mp hr with hr | rfl
    · exact h.rows r hr hsub
    · exact hrow.trans (hs hsub)
  · intro r hr r' hr' hown hown'
    rcases (hmem r).mp hr with hr | rfl <;> rcases (hmem r').mp hr' with hr' | rfl
    · exact h.single r hr r' hr' hown hown'
    · exact absurd hown' (hnew r hr hown)
    · exact absurd hown (hnew r' hr' hown')
    · rfl

/-- The payer of an invoice is the user exactly if the invoice is for the subscription. -/
theorem payer_iff {invoice : Invoice} {input : UpdateUserBillingInput} {x : User}
    (h : Owned s userId email w.db) (hc : Consistent s email (.invoicePaid invoice))
    (hinput : paidInput w.db invoice = .ok (some input))
    (hx : Rows.lookup User.email input.userEmail w.db.users = some x) :
    input.externalSubscriptionId = s ↔ x.id = userId := by
  obtain ⟨he, -, hsub, -⟩ := paidInput_some hinput
  obtain ⟨u, hu, hid, hemail⟩ := h.user
  have hmail : x.email = invoice.customerEmail.getD "" := (Rows.lookup_key hx).trans he
  have hc' : input.externalSubscriptionId = s ↔ invoice.customerEmail.getD "" = email := by
    simpa [Consistent, hsub] using hc
  rw [hc', ← hmail, ← hemail, ← hid]
  constructor
  · intro h
    rw [List.inj_on_of_nodup_map w.db.sound.users_email (Rows.lookup_mem hx) hu h]
  · intro h
    rw [Db.user_eq (Rows.lookup_mem hx) hu h]

/-- No event takes the subscription to another user's row. -/
theorem Owned.billed {event : BillingEvent} {db : Db} (h : Owned s userId email w.db)
    (hc : Consistent s email event) (hb : Billed w event db) : Owned s userId email db := by
  cases hb with
  | @paid invoice input x c _ hinput hx hpaid =>
    have hpayer := payer_iff h hc hinput hx
    have hbillings := hpaid.billings
    cases hl : Rows.lookup Billing.userId x.id w.db.billings with
    | none =>
      rw [hl] at hbillings
      exact h.first hl rfl (setProduct_frame _ _) hpayer.mp hpaid.users hbillings
    | some b =>
      rw [hl] at hbillings
      obtain hown := Rows.lookup_key hl
      refine h.rewrite (Rows.lookup_mem hl) (setProduct_frame _ _) rfl (fun hs => ?_)
        (hown ▸ hpaid.users) hbillings
      exact hown.trans (hpayer.mp hs)
  | @failed invoice s' b _ hs hb husers _ hbillings =>
    have hmem := Rows.lookup_mem hb
    exact h.rewrite hmem (f := id) (fun _ => ⟨rfl, rfl⟩) rfl (h.rows b hmem)
      (by rw [husers, Rows.update_id]) hbillings
  | @updated sub input b _ hinput hne hb hup =>
    have hmem := Rows.lookup_mem hb
    obtain ⟨f, hf, -, husers⟩ := hup.owner
    exact h.rewrite hmem hf rfl (h.rows b hmem) husers hup.billings
  | @deleted sub b _ hne hb hdel =>
    have hmem := Rows.lookup_mem hb
    obtain ⟨p, -, husers⟩ := hdel.users
    exact h.rewrite hmem (setProduct_frame _ _) rfl (h.rows b hmem) husers hdel.billings

/-- No event but a reviving one opens the row again. -/
theorem Closed.billed {event : BillingEvent} {db : Db} (h : Closed s userId email tier w.db)
    (hc : Consistent s email event) (hr : ¬ Revives s event) (hfree : w.freeTier = some tier)
    (hb : Billed w event db) : Closed s userId email tier db := by
  have howned := h.toOwned.billed hc hb
  cases hb with
  | @paid invoice input x c _ hinput hx hpaid =>
    have hpayer := payer_iff h.toOwned hc hinput hx
    have hsub : input.externalSubscriptionId ≠ s := by
      rintro rfl
      exact hr (paidInput_some hinput).2.2.1
    have hx' : x.id ≠ userId := fun hid => hsub (hpayer.mpr hid)
    have hbillings := hpaid.billings
    cases hl : Rows.lookup Billing.userId x.id w.db.billings with
    | none =>
      rw [hl] at hbillings
      obtain ⟨r, hr, hrest⟩ := h.canceled
      refine { howned with canceled := ⟨r, ?_, hrest⟩, product := ?_ }
      · rw [hbillings]
        exact List.mem_append_left _ hr
      · intro u hu hid
        rw [hpaid.users] at hu
        rcases Rows.mem_update.mp hu with ⟨v, -, hk, rfl⟩ | ⟨hu, -⟩
        · exact absurd (hk.symm.trans hid) hx'
        · exact h.product u hu hid
    | some b =>
      rw [hl] at hbillings
      have hown := Rows.lookup_key hl
      have hmem := Rows.lookup_mem hl
      refine h.rewrite hmem (fun _ => UserUpdates.apply_id ..) rfl (fun hs => ?_)
        (hown ▸ hpaid.users) hbillings howned
      exact absurd (hown.symm.trans (h.rows b hmem hs)) hx'
  | @failed invoice s' b _ hs hb husers _ hbillings =>
    refine h.rewrite (Rows.lookup_mem hb) (f := id) (fun _ => rfl) rfl (fun hsub => ?_)
      (by rw [husers, Rows.update_id]) hbillings howned
    rw [← hsub, Rows.lookup_key hb] at hr
    exact absurd hs hr
  | @updated sub input b _ hinput hne hb hup =>
    obtain ⟨f, hf, hproduct, husers⟩ := hup.owner
    refine h.rewrite (Rows.lookup_mem hb) (fun u => (hf u).1) rfl (fun hsub => ?_) husers
      hup.billings howned
    have hst : sub.status = "canceled" := by
      by_contra hst
      exact hr ⟨(Rows.lookup_key hb).symm.trans hsub, hst⟩
    have hinst : input.status = some "canceled" := hst ▸ (updateInput_product hinput).2.1
    refine ⟨hsub, by simp [updatedBilling, hinst, spread], fun u => ?_⟩
    rw [hproduct, productWritten, if_pos (.inl hinst), hfree]
    rfl
  | @deleted sub b _ hne hb hdel =>
    obtain ⟨p, hp, husers⟩ := hdel.users
    refine h.rewrite (Rows.lookup_mem hb) (fun _ => UserUpdates.apply_id ..) rfl (fun hsub => ?_)
      husers hdel.billings howned
    exact ⟨hsub, rfl, fun u => congrArg (fun p : Product => some p.id)
      (Option.some.inj (hp.symm.trans hfree))⟩

/-- The deletion of a subscription on file closes its row. -/
theorem closed_of_deleted {sub : Subscription} {b : Billing} {db : Db}
    (h : Owned sub.id userId email w.db) (hfree : w.freeTier = some tier) (hne : sub.id ≠ "")
    (hb : Rows.lookup Billing.externalSubscriptionId sub.id w.db.billings = some b)
    (hdel : Deleted w b db) : Closed sub.id userId email tier db := by
  have hbilled : Billed w (.subscriptionDeleted sub) db := .deleted hne hb hdel
  have howned : Owned sub.id userId email db := Owned.billed h (by trivial) hbilled
  have hmem := Rows.lookup_mem hb
  have hsub : b.externalSubscriptionId = sub.id := Rows.lookup_key hb
  have hown := h.rows b hmem hsub
  obtain ⟨p, hp, husers⟩ := hdel.users
  refine { howned with canceled := ⟨deletedBilling w.env.now b, ?_, hown, hsub, rfl⟩,
                       product := ?_ }
  · rw [hdel.billings]
    exact Rows.mem_update_self Billing.id _ hmem
  · intro u hu hid
    rw [husers] at hu
    rcases Rows.mem_update.mp hu with ⟨v, -, -, rfl⟩ | ⟨-, hk⟩
    · exact congrArg (fun p : Product => some p.id) (Option.some.inj (hp.symm.trans hfree))
    · exact absurd (hid.trans hown.symm) hk

/-- The exchange is the delivery of an event that the condition admits. -/
def Delivers (Q : BillingEvent → Prop) (x : Exchange) : Prop :=
  ∃ event, x.request = .webhook event ∧ Q event

/-- What a delivery left: nothing changed, or the tables after the event. -/
theorem billed_of_delivery {event : BillingEvent} {reply : Except Err Reply}
    (h : Effect P w (.webhook event) reply w') : w' = w ∨ ∃ db, w' = { w with db } ∧
      Billed w event db := by
  cases h with
  | none => exact .inl rfl
  | webhook hb => exact .inr ⟨_, rfl, hb⟩

section Run
variable {w₀ : World} {tr : List Entry}

theorem owned_of_run (hrun : RunWhere P (fun _ x => Delivers (Consistent s email) x) w₀ tr w)
    (h₀ : w₀.trx = none) (h : Owned s userId email w₀.db) : Owned s userId email w.db := by
  refine (Trace.Run.invariant (I := fun _ w => w.trx = none ∧ Owned s userId email w.db) hrun
    ⟨h₀, h⟩ ?_).2
  rintro tr v _ _ ⟨htrx, hv⟩ ⟨hle | hx, hC⟩
  · exact ⟨htrx, hv⟩
  · have heff := effect_of_exec htrx hx
    obtain ⟨event, hr, hc⟩ := hC _ rfl
    dsimp only at hr
    subst hr
    rcases billed_of_delivery heff with rfl | ⟨db, rfl, hb⟩
    · exact ⟨htrx, hv⟩
    · exact ⟨htrx, hv.billed hc hb⟩

/-- Deliveries one after another: once a deletion finds the subscription on file, and no event
that revives it comes later, its rows stay canceled and its user on the free tier. -/
theorem cancellation_final {pre post : List Entry} {x : Exchange} {sub : Subscription}
    (hrun : RunWhere P (fun _ x => Delivers (Consistent s email) x) w₀
      (post ++ .call x :: pre) w) (h₀ : w₀.trx = none) (hfree : w₀.freeTier = some tier)
    (howned : Owned s userId email w₀.db) (hx : x.request = .webhook (.subscriptionDeleted sub))
    (hsub : sub.id = s) (hne : s ≠ "")
    (hfile : ∃ b ∈ x.before.db.billings, b.externalSubscriptionId = s)
    (hlater : ∀ y event, .call y ∈ post → y.request = .webhook event → ¬ Revives s event) :
    (∀ b ∈ w.db.billings, b.externalSubscriptionId = s → b.status = "canceled") ∧
      ∀ u ∈ w.db.users, u.id = userId → u.currentProductId = some tier.id := by
  have hclosed : (w.trx = none ∧ w.freeTier = some tier) ∧ Closed s userId email tier w.db := by
    refine Trace.Run.since (I := fun w => (w.trx = none ∧ w.freeTier = some tier) ∧
      Closed s userId email tier w.db) hrun ?_ ?_
    · rintro u v hpre ⟨hserves, -⟩
      have htrx := RunWhere.trx hpre h₀
      have hf : u.freeTier = some tier := (RunWhere.freeTier hpre h₀).trans hfree
      have ho := owned_of_run hpre h₀ howned
      cases hserves with
      | call hexec =>
        dsimp only at hx hfile
        subst hx hsub
        obtain ⟨b₀, hb₀, hon⟩ := hfile
        obtain ⟨b, hb⟩ := Rows.exists_lookup Billing.externalSubscriptionId hb₀ hon
        obtain ⟨o, ho', hoid⟩ := u.db.sound.billings_user b (Rows.lookup_mem hb)
        obtain ⟨db, hdone, hdel⟩ := run_subscriptionDeleted_ok htrx hne hb
          (hoid ▸ lookup_of_mem ho') (by simp [hf])
        obtain ⟨-, rfl⟩ := exec_webhook_ok hdone hexec
        refine ⟨⟨htrx, ?_⟩, closed_of_deleted ho hf hne hb hdel⟩
        rw [World.freeTier, hdel.products]
        exact hf
    · rintro tr u _ v hj ⟨⟨htrx, hf⟩, hu⟩ ⟨hle | hexec, hC⟩
      · exact ⟨⟨htrx, hf⟩, hu⟩
      · have heff := effect_of_exec htrx hexec
        obtain ⟨event, hr, hc⟩ := hC _ rfl
        have hrev := hlater _ event hj hr
        dsimp only at hr
        subst hr
        rcases billed_of_delivery heff with rfl | ⟨db, rfl, hb⟩
        · exact ⟨⟨htrx, hf⟩, hu⟩
        · refine ⟨⟨htrx, ?_⟩, hu.billed hc hrev hf hb⟩
          rw [World.freeTier, hb.products]
          exact hf
  obtain ⟨-, hc⟩ := hclosed
  obtain ⟨r, hr, hown, -, hstatus⟩ := hc.canceled
  refine ⟨fun b hb hon => ?_, hc.product⟩
  rw [hc.single b hb r hr (hc.rows b hb hon) hown]
  exact hstatus

end Run

namespace Sample

def failedInvoice : Invoice where
  customerEmail := some "ann@mail"
  customer := some "cus_1"
  parentSubscription := some (.id "sub_1")
  lines := some [{ subscription := some (.id "sub_1"), price := some "price_1"
                   periodEnd := 1702592000 }]

def deletion : BillingEvent := .subscriptionDeleted (subscription "canceled")

/-- The deletion arrives, and then the update it followed. -/
def lateUpdate : List Move := [.ask (.webhook deletion),
  .ask (.webhook (.subscriptionUpdated (subscription "canceled")))]

/-- The deletion arrives before the failed payment that led to it. -/
def lateFailure : List Move := [.ask (.webhook deletion),
  .ask (.webhook (.invoicePaymentFailed failedInvoice))]

def reopened : World := play packages bought lateFailure

set_option maxRecDepth 10000 in
theorem reopened_facts : bought.trx.isNone = true ∧ bought.freeTier = some free ∧
    buyer bought ∈ bought.db.users ∧ (buyer bought).email = "ann@mail" ∧
    bought.db.billings.map Billing.userId = [(buyer bought).id] ∧
    bought.db.billings.map Billing.externalSubscriptionId = ["sub_1"] ∧
    bill reopened ∈ reopened.db.billings ∧ (bill reopened).externalSubscriptionId = "sub_1" ∧
    (bill reopened).status = "past_due" := by decide +kernel

theorem owned_bought : Owned "sub_1" (buyer bought).id "ann@mail" bought.db := by
  obtain ⟨-, -, hu, he, howners, -⟩ := reopened_facts
  obtain ⟨b, hb, hown⟩ := List.map_eq_singleton_iff.mp howners
  refine ⟨⟨_, hu, rfl, he⟩, ?_, ?_⟩ <;> simp [hb, hown]

theorem on_file_bought : ∃ b ∈ bought.db.billings, b.externalSubscriptionId = "sub_1" := by
  obtain ⟨-, -, -, -, -, hsubs, -⟩ := reopened_facts
  obtain ⟨b, hb, hsub⟩ := List.map_eq_singleton_iff.mp hsubs
  exact ⟨b, by simp [hb], hsub⟩

end Sample

/-- The update that a deletion overtook changes nothing. -/
theorem cancellation_final_late_update :
    let w := play Sample.packages Sample.bought Sample.lateUpdate
    (∀ b ∈ w.db.billings, b.externalSubscriptionId = "sub_1" → b.status = "canceled") ∧
      ∀ u ∈ w.db.users, u.id = (Sample.buyer Sample.bought).id →
        u.currentProductId = some Sample.free.id := by
  have hrun := runWhere_play Sample.packages
    (fun _ x => Delivers (Consistent "sub_1" "ann@mail") x) Sample.bought Sample.lateUpdate
    fun request hr _ _ _ _ => by
      simp only [Sample.lateUpdate, List.mem_cons, Move.ask.injEq, List.not_mem_nil, or_false] at hr
      rcases hr with rfl | rfl <;> exact ⟨_, rfl, trivial⟩
  obtain ⟨htrx, hfree, -⟩ := Sample.reopened_facts
  refine cancellation_final (x := ⟨Sample.bought, _, _, _⟩) (show RunWhere _ _ _
    ([.call _] ++ .call ⟨Sample.bought, _, _, _⟩ :: []) _ from hrun)
    (Option.isNone_iff_eq_none.mp htrx) hfree Sample.owned_bought rfl rfl (by decide)
    Sample.on_file_bought ?_
  intro y event hy hrequest
  cases List.mem_singleton.mp hy
  cases hrequest
  simp [Revives, Sample.subscription]

/-- A failed payment that is delivered after the deletion opens the row again. -/
theorem late_failure_reopens : ¬ ∀ (w₀ w : World) (tr : List Entry) (s : String) (u : User)
    (free : Product), w₀.trx = none → w₀.freeTier = some free → u ∈ w₀.db.users →
      (∀ b ∈ w₀.db.billings, ∀ b' ∈ w₀.db.billings, b.userId = u.id → b'.userId = u.id → b = b') →
      RunWhere Sample.packages (fun _ x => Delivers (fun event => subscriptionOf event = some s) x)
        w₀ tr w →
      (∃ x sub, .call x ∈ tr ∧ x.request = .webhook (.subscriptionDeleted sub) ∧ sub.id = s) →
      (∀ b ∈ w.db.billings, b.externalSubscriptionId = s → b.status = "canceled") ∧
        ∀ v ∈ w.db.users, v.id = u.id → v.currentProductId = some free.id := by
  intro h
  have hrun := runWhere_play Sample.packages
    (fun _ x => Delivers (fun event => subscriptionOf event = some "sub_1") x)
    Sample.bought Sample.lateFailure fun request hr _ _ _ _ => by
      simp only [Sample.lateFailure, List.mem_cons, Move.ask.injEq, List.not_mem_nil,
        or_false] at hr
      rcases hr with rfl | rfl <;> exact ⟨_, rfl, rfl⟩
  obtain ⟨htrx, hfree, hu, -, -, -, hmem, hsub, hstatus⟩ := Sample.reopened_facts
  have hfinal := (h _ _ _ "sub_1" _ _ (Option.isNone_iff_eq_none.mp htrx) hfree hu
    Sample.owned_bought.single hrun
    ⟨_, _, List.mem_cons_of_mem _ List.mem_cons_self, rfl, rfl⟩).1 _ hmem hsub
  rw [hstatus] at hfinal
  revert hfinal
  decide

end CodebaseTrpc
