import CodebaseTrpc.Properties.Provenance
import CodebaseTrpc.Spec.Pricing

/-! The seed of the products, run on a database with customers, and on an empty table. -/
namespace CodebaseTrpc
variable {plans : List PricingPlan} {uuids : ℕ → String} {w w' : World}

/-- No billing row is lost, every product that a row refers to exists, and there is a free tier. -/
structure CustomersKept (w w' : World) : Prop where
  billings : w'.db.billings = w.db.billings
  userProducts : ∀ u ∈ w'.db.users, ∀ id ∈ u.currentProductId, ∃ p ∈ w'.db.products, p.id = id
  billingProducts : ∀ b ∈ w'.db.billings, ∃ p ∈ w'.db.products, p.id = b.productId
  freeTier : ∃ free, (getFreeTierProduct.run w').1 = .ok free

theorem freeTier_of_flag (h : true ∈ w.db.products.map Product.isFreeTier) :
    ∃ free, (getFreeTierProduct.run w).1 = .ok free := by
  obtain ⟨p, hp, hfree⟩ := List.mem_map.mp h
  obtain ⟨free, hlookup⟩ := Rows.exists_lookup Product.isFreeTier hp hfree
  refine ⟨free, ?_⟩
  rw [run_getFreeTierProduct, World.freeTier, hlookup]

theorem PricingAccepted.flag (h : PricingAccepted plans) : true ∈ plans.map (·.isFreeTier) := by
  obtain ⟨free, hfree, -⟩ := h.freeTier
  have hmem : free ∈ plans.filter (·.isFreeTier) := hfree ▸ List.mem_singleton_self free
  obtain ⟨hplan, hflag⟩ := List.mem_filter.mp hmem
  exact List.mem_map.mpr ⟨free, hplan, hflag⟩

/-- The seed deletes every billing row and draws new ids for the products, so it keeps customers
only where there are none. -/
theorem seed_keeps_customers_iff (h : validatePricingConfig plans = .ok ())
    (huuids : Function.Injective uuids)
    (hfresh : ∀ u ∈ w.db.users, ∀ i, u.currentProductId ≠ some (uuids i)) :
    CustomersKept w ((seed plans uuids).run w).2 ↔ w.db.billings = [] ∧
      (∀ u ∈ w.db.users, u.currentProductId = none) ∧ ∀ plan ∈ plans, plan.Fits := by
  have hacc := validatePricingConfig_ok.mp h
  obtain ⟨husers, hbillings, hproducts⟩ := run_seed hacc huuids w
  constructor
  · intro hkept
    obtain ⟨free, hfree⟩ := hkept.freeTier
    have hfit : ∀ plan ∈ plans, plan.Fits := by
      by_contra hfit
      rw [run_getFreeTierProduct, World.freeTier, hproducts, if_neg hfit] at hfree
      cases hfree
    refine ⟨hkept.billings.symm.trans hbillings, fun u hu => ?_, hfit⟩
    by_contra hsome
    obtain ⟨id, hid⟩ := Option.ne_none_iff_exists'.mp hsome
    obtain ⟨p, hp, rfl⟩ := hkept.userProducts u (husers ▸ hu) id hid
    rw [hproducts, if_pos hfit, seededRows] at hp
    obtain ⟨⟨plan, i⟩, -, rfl⟩ := List.mem_map.mp hp
    exact hfresh u hu i hid
  · rintro ⟨hnone, hnull, hfit⟩
    rw [if_pos hfit] at hproducts
    refine ⟨hbillings.trans hnone.symm, fun u hu id hid => ?_, fun b hb => ?_, ?_⟩
    · rw [husers] at hu
      rw [hnull u hu] at hid
      cases hid
    · rw [hbillings] at hb
      cases hb
    · refine freeTier_of_flag ?_
      rw [hproducts, seededRows_isFreeTier]
      exact hacc.flag

namespace Sample

def freePlan : PricingPlan where
  name := "Free"
  description := ""
  priceInCents := 0
  externalProductId := none
  externalPriceId := none
  active := true
  isFreeTier := true
  maxProjects := some 5

def proPlan : PricingPlan where
  name := "Pro"
  description := ""
  priceInCents := 2990
  externalProductId := some "prod_1"
  externalPriceId := some "price_1"
  active := true
  isFreeTier := false
  maxProjects := none

/-- Ids for the seed: as many signs as it takes. -/
def drawn (i : ℕ) : String := String.ofList (List.replicate (i + 1) '#')

theorem drawn_injective : Function.Injective drawn := by
  intro i j h
  have hlen := congrArg (fun s : String => s.toList.length) h
  simpa [drawn] using hlen

set_option maxRecDepth 10000 in
theorem bought_products : (∀ u ∈ bought.db.users, u.currentProductId = some "pro") ∧
    bought.db.billings ≠ [] := by decide +kernel

theorem drawn_fresh : ∀ u ∈ bought.db.users, ∀ i, u.currentProductId ≠ some (drawn i) := by
  intro u hu i h
  have hpro := Option.some.inj ((bought_products.1 u hu).symm.trans h)
  have hlist := congrArg String.toList hpro
  simp [drawn, List.replicate_succ] at hlist

end Sample

/-- The seed on a database with one paying customer. -/
theorem seed_keeps_customers_iff_bought :
    CustomersKept Sample.bought
        ((seed [Sample.freePlan, Sample.proPlan] Sample.drawn).run Sample.bought).2 ↔
      Sample.bought.db.billings = [] ∧
        (∀ u ∈ Sample.bought.db.users, u.currentProductId = none) ∧
        ∀ plan ∈ [Sample.freePlan, Sample.proPlan], plan.Fits :=
  seed_keeps_customers_iff rfl Sample.drawn_injective Sample.drawn_fresh

/-- Seeding again takes the billing row of a paying customer away. -/
theorem seed_loses_billing : ¬ ∀ (P : Packages) (w₀ w : World) (tr : List Entry)
    (plans : List PricingPlan) (uuids : ℕ → String), Fresh w₀ → ServerRun P w₀ tr w →
      validatePricingConfig plans = .ok () → Function.Injective uuids →
        (∀ u ∈ w.db.users, ∀ i, u.currentProductId ≠ some (uuids i)) →
          CustomersKept w ((seed plans uuids).run w).2 := by
  intro h
  obtain ⟨tr, hrun⟩ := serverRun_play Sample.packages Sample.start Sample.purchase
  have hvalid : validatePricingConfig [Sample.freePlan, Sample.proPlan] = .ok () := rfl
  have hkept := h _ _ _ _ _ _ Sample.start_fresh hrun hvalid Sample.drawn_injective
    Sample.drawn_fresh
  have hgone := (run_seed (validatePricingConfig_ok.mp hvalid) Sample.drawn_injective
    Sample.bought).2.1
  exact Sample.bought_products.2 (hkept.billings.symm.trans hgone)

def notAvailable : Err := .trpc .badRequest "This product is not available for purchase"

/-- The free tier is the plan that is free, and every paid plan is found by its price and can be
bought. -/
structure Sellable (plans : List PricingPlan) (uuids : ℕ → String) (w : World) : Prop where
  freeTier : ∀ (i : ℕ) (plan : PricingPlan), plans[i]? = some plan → plan.isFreeTier = true →
    (getFreeTierProduct.run w).1 = .ok (plan.row (uuids i))
  byPrice : ∀ (i : ℕ) (plan : PricingPlan), plans[i]? = some plan → plan.isFreeTier = false →
    ∀ price ∈ plan.externalPriceId,
      (getProductByExternalPriceId price).run w = (.ok (some (plan.row (uuids i))), w)
  checkout : ∀ (i : ℕ) (plan : PricingPlan), plans[i]? = some plan → plan.isFreeTier = false →
    ∀ price ∈ plan.externalPriceId,
    ∀ (input : CreateCheckoutSessionInput) (user : User) (v : World),
      input.priceId = price → v.db.products = w.db.products →
        ((createCheckoutSession input user).run v).1 ≠ .error notAvailable

variable (uuids) in
theorem getElem?_seededRows {i : ℕ} {plan : PricingPlan} (h : plans[i]? = some plan) :
    (seededRows plans uuids)[i]? = some (plan.row (uuids i)) := by
  simp [seededRows, h]

/-- Of two free plans there is one. -/
theorem PricingAccepted.free_eq (h : PricingAccepted plans) {i j : ℕ} (hj : j < plans.length)
    (hij : i < j) (hi : plans[i].isFreeTier = true) : plans[j].isFreeTier = false := by
  obtain ⟨free, hfree, -⟩ := h.freeTier
  have hnone : (plans.filter (·.isFreeTier)).Pairwise fun _ _ => False :=
    hfree ▸ List.pairwise_singleton _ _
  have hpair := List.pairwise_iff_getElem.mp (List.pairwise_filter.mp hnone) i j
    (Nat.lt_trans hij hj) hj hij
  exact Bool.eq_false_iff.mpr fun hfree => hpair hi hfree

theorem run_createCheckoutSession_own {input : CreateCheckoutSessionInput} {user : User}
    {p : Product} {price : String} (hprice : p.externalPriceId = some price) (hne : price ≠ "")
    (hp : Rows.lookup Product.externalPriceId (some input.priceId) w.db.products = some p) :
    ((createCheckoutSession input user).run w).1 = .error notAvailable ↔
      truthyText p.externalProductId = none := by
  rw [createCheckoutSession, Async.bind_eq, Async.run_bind_ok (run_getProductByExternalPriceId ..),
    hp]
  dsimp only
  rw [hprice, truthyText_of_ne hne]
  cases hx : truthyText p.externalProductId with
  | none => simp [notAvailable]
  | some x =>
    dsimp only
    rw [Async.bind_eq, Async.run_bind_ok (run_getBillingByUserId ..), Async.run_act]
    cases w.env.stripe with
    | rejected message => simp [notAvailable]
    | created => cases truthyText w.env.sessionUrl <;> simp [notAvailable]

/-- A plan is found by its price exactly if no plan before it has the same price. -/
theorem lookup_seededRows {i : ℕ} {plan : PricingPlan} {price : String}
    (hn : (seededRows plans uuids).Nodup) (hi : plans[i]? = some plan)
    (hprice : plan.externalPriceId = some price) :
    Rows.lookup Product.externalPriceId (some price) (seededRows plans uuids) =
        some (plan.row (uuids i)) ↔
      ∀ j p, plans[j]? = some p → j < i → p.externalPriceId ≠ some price := by
  obtain ⟨hlen, hrow⟩ := List.getElem?_eq_some_iff.mp (getElem?_seededRows uuids hi)
  have hfirst := Rows.lookup_getElem Product.externalPriceId hn hlen
  rw [hrow] at hfirst
  have hkey : (plan.row (uuids i)).externalPriceId = some price := hprice
  rw [hkey] at hfirst
  rw [hfirst]
  constructor
  · intro h j p hj hji
    obtain ⟨hlen', hrow'⟩ := List.getElem?_eq_some_iff.mp (getElem?_seededRows uuids hj)
    have hne := h j hji
    rw [hrow'] at hne
    exact hne
  · intro h j hji
    have hj : j < plans.length := Nat.lt_trans hji (List.getElem?_eq_some_iff.mp hi).1
    obtain ⟨hlen', hrow'⟩ := List.getElem?_eq_some_iff.mp
      (getElem?_seededRows uuids (List.getElem?_eq_getElem hj))
    rw [hrow']
    exact h j _ (List.getElem?_eq_getElem hj) hji

theorem lookup_seededRows_free {i : ℕ} {plan : PricingPlan} (h : PricingAccepted plans)
    (hn : (seededRows plans uuids).Nodup) (hi : plans[i]? = some plan)
    (hfree : plan.isFreeTier = true) :
    Rows.lookup Product.isFreeTier true (seededRows plans uuids) = some (plan.row (uuids i)) := by
  obtain ⟨hlen, hrow⟩ := List.getElem?_eq_some_iff.mp (getElem?_seededRows uuids hi)
  have hfirst := Rows.lookup_getElem Product.isFreeTier hn hlen
  have hkey : (plan.row (uuids i)).isFreeTier = true := hfree
  rw [hrow, hkey] at hfirst
  refine hfirst.mpr fun j hji hj => ?_
  obtain ⟨hi', rfl⟩ := List.getElem?_eq_some_iff.mp hi
  have hj' : j < plans.length := Nat.lt_trans hji hi'
  obtain ⟨hlen', hrow'⟩ := List.getElem?_eq_some_iff.mp
    (getElem?_seededRows uuids (List.getElem?_eq_getElem hj'))
  rw [hrow'] at hj
  have hpaid := h.free_eq hi' hji hj
  rw [hfree] at hpaid
  cases hpaid

/-- What the validation leaves out: each paid plan is the first of its price, and names the
product it is sold as. -/
structure SellsEachPlan (plans : List PricingPlan) : Prop where
  prices : plans.Pairwise fun a b => b.isFreeTier = false → a.externalPriceId ≠ b.externalPriceId
  products : ∀ plan ∈ plans, plan.isFreeTier = false → truthyText plan.externalProductId ≠ none

/-- The seed of an accepted configuration that goes through makes every plan sellable exactly if
the configuration does what the validation leaves out. -/
theorem seed_sellable_iff (h : validatePricingConfig plans = .ok ())
    (hseed : (seed plans uuids).run w = (.ok (), w')) :
    Sellable plans uuids w' ↔ SellsEachPlan plans := by
  have hacc := validatePricingConfig_ok.mp h
  obtain ⟨-, hproducts, -⟩ := run_seed_ok hseed
  have hn : (seededRows plans uuids).Nodup := by
    rw [← hproducts]
    exact w'.db.sound.products_id.of_map _
  have hbyPrice : ∀ {price : String} {p : Product},
      (getProductByExternalPriceId price).run w' = (.ok (some p), w') ↔
        Rows.lookup Product.externalPriceId (some price) w'.db.products = some p := by
    intro price p
    rw [run_getProductByExternalPriceId]
    simp
  constructor
  · intro hs
    refine ⟨List.pairwise_iff_getElem.mpr fun i j hi hj hij hpaid heq => ?_,
      fun plan hplan hpaid => ?_⟩
    · obtain ⟨price, hprice, -⟩ := hacc.priceId _ (List.getElem_mem hj) hpaid
      have hfound := hbyPrice.mp (hs.byPrice j _ (List.getElem?_eq_getElem hj) hpaid price hprice)
      rw [hproducts, lookup_seededRows hn (List.getElem?_eq_getElem hj) hprice] at hfound
      exact hfound i _ (List.getElem?_eq_getElem hi) hij (heq.trans hprice)
    · obtain ⟨i, hi⟩ := List.getElem?_of_mem hplan
      obtain ⟨price, hprice, hne⟩ := hacc.priceId plan hplan hpaid
      have hfound := hbyPrice.mp (hs.byPrice i plan hi hpaid price hprice)
      have hbuy := hs.checkout i plan hi hpaid price hprice ⟨price, "", ""⟩ default w' rfl rfl
      exact fun hnone => hbuy ((run_createCheckoutSession_own (p := plan.row (uuids i)) hprice hne
        hfound).mpr hnone)
  · intro hplans
    have hfound : ∀ (i : ℕ) (plan : PricingPlan), plans[i]? = some plan →
        plan.isFreeTier = false → ∀ price ∈ plan.externalPriceId,
        Rows.lookup Product.externalPriceId (some price) w'.db.products =
          some (plan.row (uuids i)) := by
      intro i plan hi hpaid price hprice
      rw [hproducts, lookup_seededRows hn hi hprice]
      intro j p hj hji heq
      obtain ⟨hi', rfl⟩ := List.getElem?_eq_some_iff.mp hi
      obtain ⟨hj', rfl⟩ := List.getElem?_eq_some_iff.mp hj
      exact List.pairwise_iff_getElem.mp hplans.prices j i hj' hi' hji hpaid (heq.trans hprice.symm)
    refine ⟨fun i plan hi hfree => ?_, fun i plan hi hpaid price hprice => ?_, ?_⟩
    · rw [run_getFreeTierProduct, World.freeTier, hproducts,
        lookup_seededRows_free hacc hn hi hfree]
    · exact hbyPrice.mpr (hfound i plan hi hpaid price hprice)
    · rintro i plan hi hpaid price hprice input user v rfl hv hrefused
      have hplan := List.mem_of_getElem? hi
      obtain ⟨price, hprice', hne⟩ := hacc.priceId plan hplan hpaid
      obtain rfl := Option.some.inj (hprice'.symm.trans hprice)
      have hlookup := hv ▸ hfound i plan hi hpaid _ hprice
      exact hplans.products plan hplan hpaid ((run_createCheckoutSession_own hprice hne
        hlookup).mp hrefused)

namespace Sample

/-- The tables after the migrations. -/
def migrated : World where
  db := ⟨[], [], [], by decide⟩
  env := env

/-- Another plan at the price id of the first. -/
def teamPlan : PricingPlan := { proPlan with name := "Team", externalProductId := some "prod_2" }

def stocked (plans : List PricingPlan) : World := ((seed plans drawn).run migrated).2

theorem seed_run {plans : List PricingPlan}
    (h : ((seed plans drawn).run migrated).1.isOk = true) :
    (seed plans drawn).run migrated = (.ok (), stocked plans) := by
  rcases hr : (seed plans drawn).run migrated with ⟨r, w⟩
  rw [hr] at h
  cases r with
  | error e => cases h
  | ok a => simp [stocked, hr]

theorem seed_facts : ((seed [freePlan, proPlan] drawn).run migrated).1.isOk = true ∧
    ((seed [freePlan, proPlan, teamPlan] drawn).run migrated).1.isOk = true ∧
    Rows.lookup Product.externalPriceId (some "price_1")
      (stocked [freePlan, proPlan, teamPlan]).db.products = some (proPlan.row "##") := by
  decide +kernel

end Sample

/-- The free tier and one paid plan. -/
theorem seed_sellable_iff_pro :
    Sellable [Sample.freePlan, Sample.proPlan] Sample.drawn
        (Sample.stocked [Sample.freePlan, Sample.proPlan]) ↔
      SellsEachPlan [Sample.freePlan, Sample.proPlan] :=
  seed_sellable_iff rfl (Sample.seed_run Sample.seed_facts.1)

/-- The validation accepts two plans at one price id; the second cannot be bought. -/
theorem seed_hides_plan : ¬ ∀ (plans : List PricingPlan) (uuids : ℕ → String) (w w' : World),
    validatePricingConfig plans = .ok () → w.db.products = [] →
      (seed plans uuids).run w = (.ok (), w') → Sellable plans uuids w' := by
  intro h
  obtain ⟨-, hok, hfirst⟩ := Sample.seed_facts
  have hs := h [Sample.freePlan, Sample.proPlan, Sample.teamPlan] _ _ _ rfl rfl
    (Sample.seed_run hok)
  have hteam := hs.byPrice 2 Sample.teamPlan rfl rfl "price_1" rfl
  rw [run_getProductByExternalPriceId, hfirst] at hteam
  simp [PricingPlan.row, Sample.teamPlan, Sample.proPlan] at hteam

end CodebaseTrpc
