import CodebaseTrpc.Spec.Columns
import CodebaseTrpc.Spec.Frames
import CodebaseTrpc.Spec.Interleavings

/-! What a set of requests may change in the tables, as an invariant of every single step of
their handlers. -/
namespace CodebaseTrpc
variable {P : Packages} {w w' : World}

/-- The cells that may be written, and whether rows may be added and billings written. -/
structure Permit where
  cell : String → Column → Prop
  joins : Prop
  bills : Prop

/-- A row of users, before and after. -/
structure Kept (cell : String → Column → Prop) (u u' : User) : Prop where
  id : u'.id = u.id
  createdAt : u'.createdAt = u.createdAt
  /-- A verified address stays verified. -/
  verified : u.emailVerified = true → u'.emailVerified = true
  cells : ∀ c, ¬ cell u.id c → c.Same u u'

/-- A row of billings, before and after. -/
structure KeptBilling (bills : Prop) (b b' : Billing) : Prop where
  id : b'.id = b.id
  userId : b'.userId = b.userId
  createdAt : b'.createdAt = b.createdAt
  frozen : ¬ bills → b' = b

section Kept
variable {cell : String → Column → Prop}

theorem Kept.refl (u : User) : Kept cell u u :=
  ⟨rfl, rfl, fun h => h, fun c _ => .refl c u⟩

theorem Kept.trans {u v x : User} (h : Kept cell u v) (h' : Kept cell v x) : Kept cell u x where
  id := h'.id.trans h.id
  createdAt := h'.createdAt.trans h.createdAt
  verified := fun hu => h'.verified (h.verified hu)
  cells := fun c hc => (h.cells c hc).trans (h'.cells c (h.id ▸ hc))

theorem Kept.apply {updates : UserUpdates} {u : User} (hW : ∀ c, updates.Writes c → cell u.id c)
    (hv : updates.emailVerified ≠ .set false) (now : ℕ) : Kept cell u (updates.apply now u) where
  id := rfl
  createdAt := rfl
  verified := by
    intro hu
    cases h : updates.emailVerified with
    | undefined => simpa [h] using hu
    | set value =>
      cases value with
      | false => exact absurd h hv
      | true => simp [h]
  cells := fun c hc => UserUpdates.same_apply (fun h => hc (hW c h)) now u

end Kept

theorem KeptBilling.refl {bills : Prop} (b : Billing) : KeptBilling bills b b :=
  ⟨rfl, rfl, rfl, fun _ => rfl⟩

theorem KeptBilling.trans {bills : Prop} {b c d : Billing} (h : KeptBilling bills b c)
    (h' : KeptBilling bills c d) : KeptBilling bills b d where
  id := h'.id.trans h.id
  userId := h'.userId.trans h.userId
  createdAt := h'.createdAt.trans h.createdAt
  frozen := fun hb => (h'.frozen hb).trans (h.frozen hb)

/-- From the first world to the second nothing changed but what is permitted. -/
structure Confined (g : Permit) (w₀ w : World) : Prop where
  trx : w.trx = none
  products : w.db.products = w₀.db.products
  users : Rows.Evolved (Kept g.cell) (fun _ => g.joins) w₀.db.users w.db.users
  billings : Rows.Evolved (KeptBilling g.bills) (fun _ => g.bills) w₀.db.billings w.db.billings

section Confined
variable {g : Permit} {w₀ : World}

theorem Confined.refl (h : w₀.trx = none) : Confined g w₀ w₀ :=
  ⟨h, rfl, .refl Kept.refl _, .refl KeptBilling.refl _⟩

/-- Only the tables and the open transaction matter. -/
theorem Confined.frame (h : Confined g w₀ w) (hdb : w'.db = w.db) (htrx : w'.trx = w.trx) :
    Confined g w₀ w' :=
  ⟨htrx.trans h.trx, hdb ▸ h.products, hdb ▸ h.users, hdb ▸ h.billings⟩

theorem Confined.rewrite {users : List User} {billings : List Billing} (h : Confined g w₀ w)
    (htrx : w'.trx = none) (hp : w'.db.products = w.db.products)
    (hu : w'.db.users = users) (hb : w'.db.billings = billings)
    (husers : List.Forall₂ (Kept g.cell) w.db.users users)
    (hbillings : Rows.Evolved (KeptBilling g.bills) (fun _ => g.bills) w.db.billings billings) :
    Confined g w₀ w' where
  trx := htrx
  products := hp.trans h.products
  users := hu ▸ h.users.forall₂ husers (fun _ _ _ => Kept.trans) fun _ _ hj _ => hj
  billings := hb ▸ h.billings.trans hbillings (fun _ _ _ => KeptBilling.trans) fun _ _ hj _ => hj

theorem Confined.update {id : String} {updates : UserUpdates} (h : Confined g w₀ w)
    (hW : ∀ c, updates.Writes c → g.cell id c) (hv : updates.emailVerified ≠ .set false) :
    Confined g w₀ (w.exec (updateUser id updates)) := by
  refine h.rewrite (by simpa using h.trx) (by simp) rfl (by simp) ?_ (.refl KeptBilling.refl _)
  exact rows_updateUser Kept.refl fun u _ hid => Kept.apply (hid ▸ hW) hv _

theorem Confined.insert {input : CreateUserInput} (h : Confined g w₀ w) (hj : g.joins) :
    Confined g w₀ (w.exec (insertUser input)) where
  trx := by simpa using h.trx
  products := by simpa using h.products
  billings := by simpa using h.billings
  users := by
    rcases hs : insertUser input w w.db with e | ⟨u, db⟩
    · simpa [World.exec, hs] using h.users
    · have hadd : Rows.Evolved (Kept g.cell) (fun _ => g.joins) w.db.users
          (w.exec (insertUser input)).db.users := by
        rw [exec_ok hs, (insertUser_ok hs).2.1]
        exact .append Kept.refl hj
      exact h.users.trans hadd (fun _ _ _ => Kept.trans) fun _ _ hj _ => hj

/-- A row that was just added has an id of its own. -/
theorem Db.id_ne_added {db : Db} {rows : List User} {u row : User} (h : db.users = rows ++ [row])
    (hu : u ∈ rows) : u.id ≠ row.id := by
  have hids := db.sound.users_id
  rw [h, List.map_append, List.nodup_append] at hids
  exact hids.2.2 u.id (List.mem_map_of_mem hu) row.id (by simp)

/-- Its id is none of the first world. -/
theorem Confined.fresh {input : CreateUserInput} {u : User} {db : Db} (h : Confined g w₀ w)
    (hs : insertUser input w w.db = .ok (u, db)) : ∀ v ∈ w₀.db.users, v.id ≠ u.id := by
  intro v hv
  obtain ⟨v', hv', hkept⟩ := h.users.exists_new hv
  rw [← hkept.id]
  exact Db.id_ne_added (insertUser_ok hs).2.1 hv'

/-- What the transactions of the handlers write: a product of a user, and a billing row. -/
theorem Confined.bill {db : Db} (h : Confined g w₀ w)
    (hbills : g.bills) (hp : db.products = w.db.products)
    (hu : db.users = w.db.users ∨ ∃ id product, g.cell id .currentProductId ∧
      db.users = Rows.update User.id id ((setProduct product).apply w.env.now) w.db.users)
    (hb : (∃ b, db.billings = w.db.billings ++ [b]) ∨ ∃ id, ∃ f : Rewrite,
      db.billings = Rows.update Billing.id id (f.apply w.env.now) w.db.billings) :
    Confined g w₀ { w with db } := by
  refine h.rewrite h.trx hp rfl rfl ?_ ?_
  · rcases hu with hu | ⟨id, product, hcell, hu⟩ <;> rw [hu]
    · exact Rows.forall₂_refl Kept.refl _
    · have hv : (setProduct product).emailVerified ≠ .set false := by simp [setProduct]
      refine Rows.forall₂_update Kept.refl fun u _ hid => Kept.apply (fun c hc => ?_) hv _
      rw [writes_setProduct.mp hc, hid]
      exact hcell
  · rcases hb with ⟨b, hb⟩ | ⟨id, f, hb⟩ <;> rw [hb]
    · exact .append KeptBilling.refl hbills
    · refine .of_forall₂ (Rows.forall₂_update KeptBilling.refl fun b _ _ => ?_)
      exact ⟨f.apply_id _ b, f.apply_userId _ b, by cases f <;> rfl, fun hn => absurd hbills hn⟩

theorem Confined.registerUserBilling {input : UpdateUserBillingInput} {user : User}
    {billing : Option Billing} (hcell : g.cell user.id .currentProductId) (hbills : g.bills)
    (h : Confined g w₀ w) :
    Confined g w₀ ((transaction (writeUserBilling input user billing)).run w).2 := by
  rcases run_writeUserBilling_cases h.trx rfl with ⟨-, hw⟩ | ⟨c, db, -, hw, hpaid⟩ <;> rw [hw]
  · exact h
  · refine h.bill hbills hpaid.products (.inr ⟨_, _, hcell, hpaid.users⟩) ?_
    have hb := hpaid.billings
    cases billing with
    | none => exact .inl ⟨_, hb⟩
    | some b => exact .inr ⟨_, .paid input c, hb⟩

theorem Confined.subscriptionUpdated {input : SubscriptionUpdate} {b : Billing}
    (hcell : g.cell b.userId .currentProductId) (hbills : g.bills) (h : Confined g w₀ w) :
    Confined g w₀ ((transaction (writeSubscriptionUpdate input b)).run w).2 := by
  rcases run_writeSubscriptionUpdate_cases h.trx rfl with ⟨-, hw⟩ | ⟨db, -, hw, hup⟩ <;> rw [hw]
  · exact h
  · refine h.bill hbills hup.products ?_ (.inr ⟨_, .updated input, hup.billings⟩)
    have hu := hup.users
    cases hp : productWritten w.freeTier input b with
    | none => exact .inl (by simpa [hp] using hu)
    | some product => exact .inr ⟨_, product, hcell, by simpa [hp] using hu⟩

theorem Confined.subscriptionDeleted {b : Billing} (hcell : g.cell b.userId .currentProductId)
    (hbills : g.bills) (h : Confined g w₀ w) :
    Confined g w₀ ((transaction (writeSubscriptionDeleted b)).run w).2 := by
  rcases run_writeSubscriptionDeleted_cases h.trx rfl with ⟨-, hw⟩ | ⟨db, -, hw, hdel⟩ <;> rw [hw]
  · exact h
  · obtain ⟨free, -, hu⟩ := hdel.users
    exact h.bill hbills hdel.products (.inr ⟨_, free.id, hcell, hu⟩)
      (.inr ⟨_, .deleted, hdel.billings⟩)

theorem Confined.paymentFailed {b : Billing} (hbills : g.bills) (h : Confined g w₀ w) :
    Confined g w₀ (w.exec (updateBilling b.id failedUpdates)) := by
  rcases hs : updateBilling b.id failedUpdates w w.db with e | ⟨row, db⟩
  · simpa [World.exec, hs] using h
  · obtain ⟨-, hu, hp, hb⟩ := updateBilling_ok_of_apply (applyTo_failed w.env.now) hs
    rw [exec_ok hs]
    exact h.bill hbills hp (.inl hu) (.inr ⟨_, .failed, hb⟩)

end Confined

end CodebaseTrpc
