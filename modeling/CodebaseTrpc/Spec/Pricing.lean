import CodebaseTrpc.Model.Pricing
import CodebaseTrpc.Spec.Calls

/-! What the pricing validation accepts, and what the seed leaves in the tables. -/
namespace CodebaseTrpc
variable {plans : List PricingPlan} {plan : PricingPlan} {uuids : ℕ → String} {w w' : World}

/-- One free tier, which costs nothing, and a price id on every other plan. -/
structure PricingAccepted (plans : List PricingPlan) : Prop where
  freeTier : ∃ free, plans.filter (·.isFreeTier) = [free] ∧ free.priceInCents = 0
  priceId : ∀ plan ∈ plans, plan.isFreeTier = false → ∃ price, plan.externalPriceId = some price ∧
    price ≠ ""

theorem truthyText_ne_none {text : Option String} :
    truthyText text ≠ none ↔ ∃ s, text = some s ∧ s ≠ "" := by
  cases text with
  | none => simp [truthyText]
  | some s => simp [truthyText]

theorem validatePricingConfig_ok :
    validatePricingConfig plans = .ok () ↔ PricingAccepted plans := by
  have hpaid : (plans.filter (!·.isFreeTier)).find?
      (fun plan => truthyText plan.externalPriceId = none) = none ↔
      ∀ plan ∈ plans, plan.isFreeTier = false → ∃ price, plan.externalPriceId = some price ∧
        price ≠ "" := by
    simp only [List.find?_eq_none, List.mem_filter, Bool.not_eq_true', decide_eq_true_eq,
      ← ne_eq, truthyText_ne_none, and_imp]
  unfold validatePricingConfig
  constructor
  · intro h
    dsimp only at h
    split at h
    next => cases h
    next free others hfree =>
      split_ifs at h with hothers hprice
      rw [not_not] at hothers hprice
      split at h
      next => cases h
      next hnone => exact ⟨⟨free, hothers ▸ hfree, hprice⟩, hpaid.mp hnone⟩
  · rintro ⟨⟨free, hfree, hprice⟩, hids⟩
    simp [hfree, hprice, hpaid.mpr hids]

/-- The number has room in an `integer` column. -/
def FitsInt4 (q : ℚ) : Prop := q.den = 1 ∧ -2147483648 ≤ q.num ∧ q.num ≤ 2147483647

instance (q : ℚ) : Decidable (FitsInt4 q) := by unfold FitsInt4; infer_instance

/-- The plan has room in the columns of `products`. -/
def PricingPlan.Fits (plan : PricingPlan) : Prop :=
  plan.name.length ≤ 255 ∧ FitsInt4 plan.priceInCents ∧
    (∀ s ∈ plan.externalProductId, s.length ≤ 255) ∧ (∀ s ∈ plan.externalPriceId, s.length ≤ 255) ∧
    ∀ q ∈ plan.maxProjects, FitsInt4 q

instance (plan : PricingPlan) : Decidable plan.Fits := by unfold PricingPlan.Fits; infer_instance

/-- The row of a plan. -/
def PricingPlan.row (plan : PricingPlan) (id : String) : Product where
  id := id
  name := plan.name
  description := plan.description
  priceInCents := plan.priceInCents.num
  externalProductId := plan.externalProductId
  externalPriceId := plan.externalPriceId
  active := plan.active
  isFreeTier := plan.isFreeTier
  maxProjects := plan.maxProjects.map Rat.num

theorem toSnakeCase_planKeys :
    toSnakeCase "name" = "name" ∧ toSnakeCase "description" = "description" ∧
    toSnakeCase "priceInCents" = "price_in_cents" ∧
    toSnakeCase "externalProductId" = "external_product_id" ∧
    toSnakeCase "externalPriceId" = "external_price_id" ∧ toSnakeCase "active" = "active" ∧
    toSnakeCase "isFreeTier" = "is_free_tier" ∧ toSnakeCase "maxProjects" = "max_projects" := by
  decide

theorem dbRecord_eq (plan : PricingPlan) : dbRecord plan =
    [("name", .text plan.name), ("description", .text plan.description),
      ("price_in_cents", .json (jsonNumber plan.priceInCents)),
      ("external_product_id", .json (jsonOrNull .string plan.externalProductId)),
      ("external_price_id", .json (jsonOrNull .string plan.externalPriceId)),
      ("active", .json (.bool plan.active)), ("is_free_tier", .json (.bool plan.isFreeTier)),
      ("max_projects", .json (jsonOrNull jsonNumber plan.maxProjects))] := by
  obtain ⟨h₁, h₂, h₃, h₄, h₅, h₆, h₇, h₈⟩ := toSnakeCase_planKeys
  simp [dbRecord, keysToSnakeCase, convertKeys, assignProperty, setProperty, h₁, h₂, h₃, h₄, h₅, h₆,
    h₇, h₈]

section Columns
variable (p : Product)

theorem setProductColumn_name (s : String) : setProductColumn "name" (.text s) p =
    if s.length ≤ 255 then some { p with name := s } else none := by
  simp only [setProductColumn, varchar]
  split_ifs <;> rfl

theorem setProductColumn_price (q : ℚ) :
    setProductColumn "price_in_cents" (.json (jsonNumber q)) p =
      if FitsInt4 q then some { p with priceInCents := q.num } else none := by
  by_cases hd : q.den = 1
  · simp only [jsonNumber, FitsInt4, hd, if_true, setProductColumn, int4, true_and]
    split_ifs <;> rfl
  · simp [jsonNumber, FitsInt4, hd, setProductColumn]

theorem setProductColumn_externalIds (o : Option String) :
    setProductColumn "external_product_id" (.json (jsonOrNull .string o)) p =
        (if ∀ s ∈ o, s.length ≤ 255 then some { p with externalProductId := o } else none) ∧
      setProductColumn "external_price_id" (.json (jsonOrNull .string o)) p =
        if ∀ s ∈ o, s.length ≤ 255 then some { p with externalPriceId := o } else none := by
  cases o with
  | none => simp [jsonOrNull, setProductColumn]
  | some s =>
    simp only [jsonOrNull, setProductColumn, varchar, Option.mem_def, Option.some.injEq, forall_eq']
    split_ifs <;> exact ⟨rfl, rfl⟩

theorem setProductColumn_maxProjects (o : Option ℚ) :
    setProductColumn "max_projects" (.json (jsonOrNull jsonNumber o)) p =
      if ∀ q ∈ o, FitsInt4 q then some { p with maxProjects := o.map Rat.num } else none := by
  cases o with
  | none => simp [jsonOrNull, setProductColumn]
  | some q =>
    by_cases hd : q.den = 1
    · simp only [jsonOrNull, jsonNumber, FitsInt4, hd, if_true, setProductColumn, int4, true_and,
        Option.mem_def, Option.some.injEq, forall_eq', Option.map_some]
      split_ifs <;> rfl
    · simp [jsonOrNull, jsonNumber, FitsInt4, hd, setProductColumn]

theorem setProductColumn_description (s : String) :
    setProductColumn "description" (.text s) p = some { p with description := s } := rfl

theorem setProductColumn_flags (b : Bool) :
    setProductColumn "active" (.json (.bool b)) p = some { p with active := b } ∧
      setProductColumn "is_free_tier" (.json (.bool b)) p = some { p with isFreeTier := b } :=
  ⟨rfl, rfl⟩

end Columns

theorem guard_bind {α β : Type} (c : Prop) [Decidable c] (a : α) (f : α → Option β) :
    (if c then some a else none).bind f = if c then f a else none := by
  split_ifs <;> rfl

/-- The record of a plan is its row, if it has room. -/
theorem productOf_dbRecord (plan : PricingPlan) (id : String) :
    productOf (dbRecord plan) id = if plan.Fits then some (plan.row id) else none := by
  have hrequired : (requiredProductColumns.all fun column =>
      ((dbRecord plan).lookup column).isSome) = true := by
    rw [dbRecord_eq]
    rfl
  rw [productOf, if_pos hrequired, dbRecord_eq]
  simp only [List.foldlM_cons, List.foldlM_nil, Option.bind_eq_bind, Option.bind_some, guard_bind,
    setProductColumn_name, setProductColumn_description, setProductColumn_price,
    (setProductColumn_externalIds _ _).1, (setProductColumn_externalIds _ _).2,
    (setProductColumn_flags _ _).1, (setProductColumn_flags _ _).2, setProductColumn_maxProjects]
  simp only [← ite_and, PricingPlan.Fits]
  rfl

/-- The rows of the plans, in their order, with the ids drawn for them. -/
def seededRows (plans : List PricingPlan) (uuids : ℕ → String) : List Product :=
  plans.zipIdx.map fun p => p.1.row (uuids p.2)

theorem records_rows (plans : List PricingPlan) (uuids : ℕ → String) (k : ℕ) :
    ((plans.map dbRecord).zipIdx k).mapM (fun record => productOf record.1 (uuids record.2)) =
      if ∀ plan ∈ plans, plan.Fits then
        some ((plans.zipIdx k).map fun p => p.1.row (uuids p.2)) else none := by
  induction plans generalizing k with
  | nil => simp
  | cons plan plans ih =>
    simp only [List.map_cons, List.zipIdx_cons, List.mapM_cons, productOf_dbRecord, ih,
      List.forall_mem_cons, Option.bind_eq_bind, guard_bind]
    split_ifs with h₁ h₂ <;> simp_all

/-- Without products there are no billings. -/
theorem deleteProducts_ok (db : Db) : ∃ db', deleteProducts db = .ok ((), db') ∧
    db'.users = db.users ∧ db'.products = [] ∧ db'.billings = [] := by
  have hkept : (db.billings.filter fun b => !db.products.any fun p => p.id = b.productId) = [] := by
    simpa [List.filter_eq_nil_iff] using db.sound.billings_product
  have hsound : Constraints db.users [] [] :=
    ⟨db.sound.users_id, db.sound.users_email, db.sound.users_google, db.sound.users_fit,
      .nil, .nil, .nil, by simp, by simp, by simp⟩
  refine ⟨⟨db.users, [], [], hsound⟩, ?_, rfl, rfl, rfl⟩
  simp only [deleteProducts, hkept, store?_of_constraints hsound]

theorem seededRows_ids (plans : List PricingPlan) (uuids : ℕ → String) :
    (seededRows plans uuids).map Product.id = (List.range plans.length).map uuids := by
  have hsnd : plans.zipIdx.map Prod.snd = List.range plans.length := by
    rw [List.zipIdx_map_snd, List.range_eq_range']
  rw [← hsnd, seededRows, List.map_map, List.map_map]
  rfl

theorem seededRows_isFreeTier (plans : List PricingPlan) (uuids : ℕ → String) :
    (seededRows plans uuids).map Product.isFreeTier = plans.map (·.isFreeTier) := by
  have hfst : plans.zipIdx.map Prod.fst = plans := List.zipIdx_map_fst ..
  conv_rhs => rw [← hfst]
  rw [seededRows, List.map_map, List.map_map]
  rfl

/-- The constraints accept the rows of a configuration that the validation accepts. -/
theorem constraints_seededRows (db : Db) (h : PricingAccepted plans)
    (huuids : Function.Injective uuids) : Constraints db.users (seededRows plans uuids) [] := by
  refine ⟨db.sound.users_id, db.sound.users_email, db.sound.users_google, db.sound.users_fit,
    ?_, ?_, .nil, by simp, by simp, by simp⟩
  · rw [seededRows_ids]
    exact List.nodup_range.map huuids
  · obtain ⟨free, hfree, -⟩ := h.freeTier
    have hflags : ∀ ps : List Product, (ps.filter Product.isFreeTier).map Product.isFreeTier =
        (ps.map Product.isFreeTier).filter id := fun ps => by rw [List.filter_map]; rfl
    have hone : (plans.map (·.isFreeTier)).filter id = [free.isFreeTier] := by
      rw [List.filter_map]
      exact congrArg (List.map PricingPlan.isFreeTier) hfree
    rw [hflags, seededRows_isFreeTier, hone]
    exact List.nodup_singleton _

theorem insertProducts_dbRecords (plans : List PricingPlan) (uuids : ℕ → String) (db : Db) :
    insertProducts (plans.map dbRecord) uuids db =
      if ∀ plan ∈ plans, plan.Fits then
        match Db.store? db.users (db.products ++ seededRows plans uuids) db.billings with
        | none => .error constraintViolated
        | some db' => .ok ((), db')
      else .error constraintViolated := by
  simp only [insertProducts, records_rows plans uuids 0]
  split_ifs <;> rfl

/-- The seed is the insert, run on the tables that the deletion left. -/
theorem run_seed_eq (plans : List PricingPlan) (uuids : ℕ → String) (w : World) :
    ∃ db, db.users = w.db.users ∧ db.products = [] ∧ db.billings = [] ∧
      (seed plans uuids).run w = (((insertProducts (plans.map dbRecord) uuids db).map Prod.fst),
        World.exec { w with db } fun _ => insertProducts (plans.map dbRecord) uuids) := by
  obtain ⟨db, hdb, husers, hproducts, hbillings⟩ := deleteProducts_ok w.db
  refine ⟨db, husers, hproducts, hbillings, ?_⟩
  have hdelete : (write .knex fun _ => deleteProducts).run w = (.ok (), { w with db }) := by
    rw [run_write, hdb, exec_ok hdb]
    rfl
  exact (Async.run_bind_ok hdelete).trans run_write

/-- What a seed that went through left. -/
theorem run_seed_ok (h : (seed plans uuids).run w = (.ok (), w')) : w'.db.users = w.db.users ∧
    w'.db.products = seededRows plans uuids ∧ w'.db.billings = [] := by
  obtain ⟨db, husers, hproducts, hbillings, hrun⟩ := run_seed_eq plans uuids w
  obtain ⟨hok, rfl⟩ := Prod.mk.inj (hrun.symm.trans h)
  rw [World.exec]
  rw [insertProducts_dbRecords] at hok ⊢
  split_ifs at hok ⊢ with hfit
  · cases hs : Db.store? db.users (db.products ++ seededRows plans uuids) db.billings with
    | none =>
      rw [hs] at hok
      cases hok
    | some db' =>
      obtain ⟨hu, hp, hb⟩ := store?_some hs
      rw [hproducts, List.nil_append] at hp
      exact ⟨hu.trans husers, hp, hb.trans hbillings⟩
  · cases hok

/-- What a seed of an accepted configuration leaves, whether its insert goes through or not. -/
theorem run_seed (h : PricingAccepted plans) (huuids : Function.Injective uuids) (w : World) :
    ((seed plans uuids).run w).2.db.users = w.db.users ∧
    ((seed plans uuids).run w).2.db.billings = [] ∧
    ((seed plans uuids).run w).2.db.products =
      if ∀ plan ∈ plans, plan.Fits then seededRows plans uuids else [] := by
  obtain ⟨db, husers, hproducts, hbillings, hrun⟩ := run_seed_eq plans uuids w
  rw [hrun, World.exec]
  dsimp only
  rw [insertProducts_dbRecords]
  split_ifs with hfit
  · have hsound := constraints_seededRows w.db h huuids
    rw [hproducts, List.nil_append, husers, hbillings, store?_of_constraints hsound]
    exact ⟨rfl, rfl, rfl⟩
  · exact ⟨husers, hbillings, hproducts⟩

end CodebaseTrpc
