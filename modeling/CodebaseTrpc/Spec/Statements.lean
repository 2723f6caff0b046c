import CodebaseTrpc.Model.Repositories

/-! What each statement leaves in the tables, and when the constraints refuse it. -/
namespace CodebaseTrpc

/-- The update touches no column that a constraint speaks of. -/
structure UserUpdates.Quiet (updates : UserUpdates) : Prop where
  email : updates.email = .undefined := by rfl
  fullName : updates.fullName = .undefined := by rfl
  phone : updates.phone = .undefined := by rfl
  age : updates.age = .undefined := by rfl
  passwordHash : updates.passwordHash = .undefined := by rfl
  googleId : updates.googleId = .undefined := by rfl

theorem Db.user_eq {db : Db} {u v : User} (hu : u ∈ db.users) (hv : v ∈ db.users)
    (h : u.id = v.id) : u = v :=
  List.inj_on_of_nodup_map db.sound.users_id hu hv h

/-- An update of one user writes one row. -/
theorem Db.update_user {db : Db} {u : User} (hu : u ∈ db.users) (f : User → User) :
    Rows.update User.id u.id f db.users = Rows.update User.id u.id (fun _ => f u) db.users := by
  refine List.map_congr_left fun v hv => ?_
  split_ifs with hid
  · rw [Db.user_eq hv hu hid]
  · rfl

theorem Db.billing_eq {db : Db} {b c : Billing} (hb : b ∈ db.billings) (hc : c ∈ db.billings)
    (h : b.id = c.id) : b = c :=
  List.inj_on_of_nodup_map db.sound.billings_id hb hc h

section Constraints
variable {us : List User} {ps : List Product} {bs : List Billing} {id : String} {now : ℕ}
  {updates : UserUpdates} {u : User}

/-- An accepted update of the user `u`: its new email and Google id are no other user's and
its columns have room. -/
theorem constraints_updateUser (h : Constraints us ps bs) (hu : u ∈ us) (hid : u.id = id) :
    Constraints (Rows.update User.id id (updates.apply now) us) ps bs ↔
      (∀ v ∈ us, v.id ≠ id → v.email ≠ updates.email.apply u.email) ∧
      (∀ v ∈ us, v.id ≠ id → ∀ g ∈ v.googleId, updates.googleId.apply u.googleId ≠ some g) ∧
      (updates.apply now u).Fits := by
  have hmap : (Rows.update User.id id (updates.apply now) us).map User.id = us.map User.id :=
    Rows.map_update fun _ => rfl
  have hemail := Rows.nodup_map_update (f := updates.apply now) h.users_id h.users_email hu hid
  have hgoogle := Rows.nodup_filterMap_update (f := updates.apply now) h.users_id h.users_google
    hu hid
  constructor
  · intro h'
    refine ⟨hemail.mp h'.users_email, hgoogle.mp h'.users_google, ?_⟩
    simpa [hid] using h'.users_fit _ (Rows.mem_update_of_mem hu)
  · rintro ⟨he, hg, hf⟩
    refine { h with
      users_id := hmap ▸ h.users_id
      users_email := hemail.mpr he
      users_google := hgoogle.mpr hg
      users_fit := ?_
      billings_user := ?_ }
    · intro v hv
      rcases Rows.mem_update.mp hv with ⟨y, hy, hk, rfl⟩ | ⟨hv, -⟩
      · rwa [List.inj_on_of_nodup_map h.users_id hy hu (hk.trans hid.symm)]
      · exact h.users_fit v hv
    · intro b hb
      obtain ⟨v, hv, hvb⟩ := h.billings_user b hb
      exact ⟨_, Rows.mem_update_of_mem hv, by split_ifs <;> simpa using hvb⟩

theorem Constraints.updateUser_quiet (h : Constraints us ps bs) (hq : updates.Quiet) :
    Constraints (Rows.update User.id id (updates.apply now) us) ps bs := by
  by_cases hex : ∃ u ∈ us, u.id = id
  · obtain ⟨u, hu, hid⟩ := hex
    refine (constraints_updateUser h hu hid).mpr ⟨?_, ?_, ?_⟩
    · intro v hv hne heq
      rw [hq.email, Patch.apply_undefined] at heq
      exact hne ((List.inj_on_of_nodup_map h.users_email hv hu heq).symm ▸ hid)
    · intro v hv hne g hg heq
      rw [hq.googleId, Patch.apply_undefined] at heq
      obtain ⟨l₁, l₂, rfl⟩ := List.append_of_mem hu
      have hn := h.users_google
      rw [List.filterMap_append, List.filterMap_cons_some heq, List.nodup_middle,
        List.nodup_cons, ← List.filterMap_append] at hn
      refine hn.1 (List.mem_filterMap.mpr ⟨v, ?_, hg⟩)
      rcases List.mem_append.mp hv with hv | hv
      · exact List.mem_append_left _ hv
      · rcases List.mem_cons.mp hv with rfl | hv
        · exact absurd hid hne
        · exact List.mem_append_right _ hv
    · simpa [User.Fits, hq.email, hq.fullName, hq.phone, hq.age, hq.passwordHash, hq.googleId]
        using h.users_fit u hu
  · rwa [Rows.update_of_notMem fun u hu hid => hex ⟨u, hu, hid⟩]

/-- An update of billing rows that keeps ids and owners, names a product that exists and fits. -/
theorem Constraints.updateBilling (h : Constraints us ps bs) {f : Billing → Billing}
    (hid : ∀ b, (f b).id = b.id) (huser : ∀ b, (f b).userId = b.userId)
    (hproduct : ∀ b ∈ bs, b.id = id → ∃ p ∈ ps, p.id = (f b).productId)
    (hfit : ∀ b ∈ bs, b.id = id → (f b).Fits) :
    Constraints us ps (Rows.update Billing.id id f bs) := by
  have hmap : (Rows.update Billing.id id f bs).map Billing.id = bs.map Billing.id :=
    Rows.map_update hid
  refine { h with
    billings_id := hmap ▸ h.billings_id
    billings_user := ?_
    billings_product := ?_
    billings_fit := ?_ }
  · intro b hb
    rcases Rows.mem_update.mp hb with ⟨y, hy, -, rfl⟩ | ⟨hb, -⟩
    · exact huser y ▸ h.billings_user y hy
    · exact h.billings_user b hb
  · intro b hb
    rcases Rows.mem_update.mp hb with ⟨y, hy, hk, rfl⟩ | ⟨hb, -⟩
    · exact hproduct y hy hk
    · exact h.billings_product b hb
  · intro b hb
    rcases Rows.mem_update.mp hb with ⟨y, hy, hk, rfl⟩ | ⟨hb, -⟩
    · exact hfit y hy hk
    · exact h.billings_fit b hb

/-- A new billing row, of a user and a product that exist. -/
theorem Constraints.insertBilling (h : Constraints us ps bs) {row : Billing}
    (hid : ∀ b ∈ bs, b.id ≠ row.id) (huser : ∃ u ∈ us, u.id = row.userId)
    (hproduct : ∃ p ∈ ps, p.id = row.productId) (hfit : row.Fits) :
    Constraints us ps (bs ++ [row]) := by
  refine { h with
    billings_id := ?_
    billings_user := ?_
    billings_product := ?_
    billings_fit := ?_ }
  · rw [List.map_append, List.nodup_append]
    refine ⟨h.billings_id, by simp, fun a ha b hb => ?_⟩
    obtain ⟨x, hx, rfl⟩ := List.mem_map.mp ha
    obtain rfl : b = row.id := by simpa using hb
    exact hid x hx
  · rintro b hb
    rcases List.mem_append.mp hb with hb | hb
    · exact h.billings_user b hb
    · exact List.mem_singleton.mp hb ▸ huser
  · rintro b hb
    rcases List.mem_append.mp hb with hb | hb
    · exact h.billings_product b hb
    · exact List.mem_singleton.mp hb ▸ hproduct
  · rintro b hb
    rcases List.mem_append.mp hb with hb | hb
    · exact h.billings_fit b hb
    · exact List.mem_singleton.mp hb ▸ hfit

theorem store?_some {us' : List User} {ps' : List Product} {bs' : List Billing} {db : Db}
    (h : Db.store? us' ps' bs' = some db) :
    db.users = us' ∧ db.products = ps' ∧ db.billings = bs' := by
  unfold Db.store? at h
  split_ifs at h
  cases h
  exact ⟨rfl, rfl, rfl⟩

theorem store?_of_constraints (h : Constraints us ps bs) :
    Db.store? us ps bs = some ⟨us, ps, bs, h⟩ := dif_pos h

theorem store?_of_not (h : ¬ Constraints us ps bs) : Db.store? us ps bs = none := dif_neg h

end Constraints

section Statement
variable {w : World} {db db' : Db}

theorem insertUser_ok {input : CreateUserInput} {u : User}
    (h : insertUser input w db = .ok (u, db')) :
    u = input.row w.env.uuid w.env.now ∧ db'.users = db.users ++ [u] ∧
      db'.products = db.products ∧ db'.billings = db.billings := by
  simp only [insertUser] at h
  split at h
  next => cases h
  next hs => cases h; exact ⟨rfl, store?_some hs⟩

theorem updateUser_ok {id : String} {updates : UserUpdates} {u : User}
    (h : updateUser id updates w db = .ok (u, db')) :
    ∃ old, Rows.lookup User.id id db.users = some old ∧ u = updates.apply w.env.now old ∧
      db'.users = Rows.update User.id id (updates.apply w.env.now) db.users ∧
      db'.products = db.products ∧ db'.billings = db.billings := by
  simp only [updateUser] at h
  split at h
  next => cases h
  next old hold =>
    split at h
    next => cases h
    next hs => cases h; exact ⟨old, hold, rfl, store?_some hs⟩

theorem insertBilling_ok {input : CreateBilling} {b : Billing}
    (h : insertBilling input w db = .ok (b, db')) :
    some b.externalCustomerId = input.externalCustomerId ∧
      b = { id := w.env.uuid, userId := input.userId, productId := input.productId
            externalSubscriptionId := input.externalSubscriptionId
            externalCustomerId := b.externalCustomerId, status := input.status
            expiresAt := input.expiresAt, createdAt := w.env.now, updatedAt := w.env.now } ∧
      db'.users = db.users ∧ db'.products = db.products ∧ db'.billings = db.billings ++ [b] := by
  simp only [insertBilling] at h
  split at h
  next => cases h
  next c hc =>
    split at h
    next => cases h
    next hs => cases h; exact ⟨hc.symm, rfl, store?_some hs⟩

theorem updateBilling_ok {id : String} {updates : BillingUpdates} {b : Billing}
    (h : updateBilling id updates w db = .ok (b, db')) :
    ∃ old, Rows.lookup Billing.id id db.billings = some old ∧
      updates.applyTo w.env.now old = some b ∧ db'.users = db.users ∧
      db'.products = db.products ∧ db'.billings = Rows.update Billing.id id
        (fun b => (updates.applyTo w.env.now b).getD b) db.billings := by
  simp only [updateBilling] at h
  split at h
  next => cases h
  next old hold =>
    split at h
    next => cases h
    next b' hb' =>
      split at h
      next => cases h
      next hs => cases h; exact ⟨old, hold, hb', store?_some hs⟩

/-- The row that a statement returns is stored, so it fits. -/
theorem insertBilling_fits {input : CreateBilling} {b : Billing}
    (h : insertBilling input w db = .ok (b, db')) : b.Fits := by
  obtain ⟨-, -, -, -, hbs⟩ := insertBilling_ok h
  exact db'.sound.billings_fit b (by simp [hbs])

theorem updateBilling_fits {id : String} {updates : BillingUpdates} {b : Billing}
    (h : updateBilling id updates w db = .ok (b, db')) : b.Fits := by
  obtain ⟨old, hold, hb, -, -, hbs⟩ := updateBilling_ok h
  refine db'.sound.billings_fit b ?_
  rw [hbs]
  have hmem := Rows.mem_update_self Billing.id (fun b => (updates.applyTo w.env.now b).getD b)
    (Rows.lookup_mem hold)
  simpa [hb, Rows.lookup_key hold] using hmem

/-- A quiet update of an existing user is accepted. -/
theorem updateUser_quiet {id : String} {updates : UserUpdates} {old : User}
    (hold : Rows.lookup User.id id db.users = some old) (hq : updates.Quiet) :
    ∃ db', updateUser id updates w db = .ok (updates.apply w.env.now old, db') := by
  simp only [updateUser, hold]
  rw [store?_of_constraints (db.sound.updateUser_quiet hq)]
  exact ⟨_, rfl⟩

end Statement

end CodebaseTrpc
