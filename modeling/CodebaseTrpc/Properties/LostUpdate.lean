import CodebaseTrpc.Spec.Interleavings
import CodebaseTrpc.Spec.Server

/-! Two `customer.subscription.updated` handlers for one subscription, side by side. Each
decides whether to write the user from the billing row it read before its transaction. -/
namespace CodebaseTrpc
variable {w v v' : World} {s : String} {b : Billing}

def User.undated (u : User) : User := { u with updatedAt := 0 }

def Billing.undated (b : Billing) : Billing := { b with updatedAt := 0 }

def User.onProduct (product : String) (u : User) : User :=
  { u with currentProductId := some product }

section Undated
variable (product id s : String) (input : SubscriptionUpdate) (now : ℕ)

theorem undated_setProduct (users : List User) :
    (Rows.update User.id id ((setProduct product).apply now) users).map User.undated =
      Rows.update User.id id (User.onProduct product) (users.map User.undated) :=
  Rows.map_update_of_comm (fun _ => rfl) fun _ => rfl

theorem undated_updatedBilling (billings : List Billing) :
    (Rows.update Billing.id id (updatedBilling input now) billings).map Billing.undated =
      Rows.update Billing.id id (updatedBilling input 0) (billings.map Billing.undated) :=
  Rows.map_update_of_comm (fun _ => rfl) fun _ => rfl

theorem lookup_undated (billings : List Billing) :
    Rows.lookup Billing.externalSubscriptionId s (billings.map Billing.undated) =
      (Rows.lookup Billing.externalSubscriptionId s billings).map Billing.undated :=
  Rows.lookup_map fun _ => rfl

end Undated

structure Db.Same (d d' : Db) : Prop where
  products : d.products = d'.products
  users : d.users.map User.undated = d'.users.map User.undated
  billings : d.billings.map Billing.undated = d'.billings.map Billing.undated

/-- The user of the billing row of `s` is on the product of that row. -/
def Agrees (db : Db) (s : String) : Prop :=
  ∀ b, Rows.lookup Billing.externalSubscriptionId s db.billings = some b →
    ∀ u ∈ db.users, u.id = b.userId → u.currentProductId = some b.productId

theorem ite_ne_left (p q : String) : (if p ≠ q then p else q) = p := by
  split_ifs with h
  · rfl
  · exact (not_not.mp h).symm

/-- The product of the table that carries the price of the event. -/
def knownProduct (db : Db) (sub : Subscription) : Option String :=
  (truthyText (do (← sub.items.head?).priceId)).bind fun priceId =>
    (Rows.lookup Product.externalPriceId (some priceId) db.products).map Product.id

/-- A `customer.subscription.updated` for `s` that names a known product and goes on. -/
structure PlanChange (db : Db) (s : String) where
  sub : Subscription
  product : String
  subscription : sub.id = s
  known : spread (knownProduct db sub) = .set product
  goesOn : sub.status ≠ "canceled" ∧ sub.status ≠ "unpaid"

/-- The handler acts on the event: it has an id and a period end, and what it writes fits. -/
def PlanChange.Complete {db : Db} (e : PlanChange db s) : Prop :=
  e.sub.id ≠ "" ∧ truthy (do (← e.sub.items.head?).currentPeriodEnd) ≠ none ∧
    ∀ input ∈ updateInput db e.sub, input.Fits

def PlanChange.handler {db : Db} (e : PlanChange db s) : Promise Unit :=
  processBillingWebhookHandler (.subscriptionUpdated e.sub)

/-- What the event does to the billing row. -/
def PlanChange.change {db : Db} (e : PlanChange db s) : Billing → Billing :=
  match updateInput db e.sub with
  | none => id
  | some input => updatedBilling input 0

namespace PlanChange
variable {db : Db} (e : PlanChange db s)

theorem exists_product : ∃ p ∈ db.products, p.id = e.product := by
  have hknown := spread_eq_set e.known
  simp only [knownProduct, Option.bind_eq_some_iff, Option.map_eq_some_iff] at hknown
  obtain ⟨price, -, p, hp, hid⟩ := hknown
  exact ⟨p, Rows.lookup_mem hp, hid⟩

variable {e}

/-- What a complete event passes on. -/
theorem Complete.input (h : e.Complete) : ∃ input, updateInput db e.sub = some input ∧
    input.externalSubscriptionId = s ∧ s ≠ "" ∧ spread input.productId = .set e.product ∧
    ¬ input.Ended ∧ input.Fits ∧ e.change = updatedBilling input 0 := by
  obtain ⟨hne, hend, hfit⟩ := h
  obtain ⟨periodEnd, hperiod⟩ := Option.ne_none_iff_exists'.mp hend
  have hinput : ∃ input, updateInput db e.sub = some input := by
    unfold updateInput
    rw [hperiod]
    exact ⟨_, rfl⟩
  obtain ⟨input, hinput⟩ := hinput
  obtain ⟨hid, hstatus, -⟩ := updateInput_product hinput
  refine ⟨input, hinput, hid.trans e.subscription, e.subscription ▸ hne, ?_, ?_,
    hfit input hinput, by rw [change, hinput]⟩
  · unfold updateInput at hinput
    rw [hperiod] at hinput
    cases hinput
    exact e.known
  · simp [SubscriptionUpdate.Ended, hstatus, e.goesOn]

theorem change_frame (b : Billing) : (e.change b).id = b.id ∧ (e.change b).userId = b.userId ∧
    (e.change b).externalSubscriptionId = b.externalSubscriptionId := by
  unfold change
  cases updateInput db e.sub <;> exact ⟨rfl, rfl, rfl⟩

theorem Complete.change_product (h : e.Complete) (b : Billing) :
    (e.change b).productId = e.product := by
  obtain ⟨input, -, -, -, hp, -, -, hchange⟩ := h.input
  simp [hchange, updatedBilling, hp]

end PlanChange

/-- The first step looks the price up. -/
theorem next_subscriptionUpdated {db : Db} (e : PlanChange db s) (w : World) :
    e.handler.next w = (updateInput w.db e.sub).map fun input =>
      (updateBillingOnSubscriptionUpdated input, [], w) := by
  have hknown := spread_eq_set e.known
  simp only [knownProduct, Option.bind_eq_some_iff] at hknown
  obtain ⟨price, hprice, -⟩ := hknown
  simp only [PlanChange.handler, processBillingWebhookHandler, subscriptionUpdated, updateInput]
  cases truthy (do (← e.sub.items.head?).currentPeriodEnd) with
  | none => rfl
  | some periodEnd =>
    dsimp only
    rw [hprice]
    rfl

/-- The second reads the billing row. -/
theorem next_updateBillingOnSubscriptionUpdated {input : SubscriptionUpdate} {stale : Billing}
    (hne : input.externalSubscriptionId ≠ "")
    (hl : Rows.lookup Billing.externalSubscriptionId input.externalSubscriptionId w.db.billings =
      some stale) :
    (updateBillingOnSubscriptionUpdated input).next w =
      some (transaction (writeSubscriptionUpdate input stale), [], w) := by
  rw [updateBillingOnSubscriptionUpdated, if_neg hne]
  simp only [getBillingByExternalSubscriptionId, select, Async.bind_eq, Async.bind_stmt, Async.next,
    id_eq, Async.bind_pure_left, hl]

/-- From `w` on, the row `b` went through `f` and its user was put on `product`. -/
structure Written (w : World) (b : Billing) (f : Billing → Billing) (product : String)
    (v : World) : Prop where
  trx : v.trx = none
  products : v.db.products = w.db.products
  users : v.db.users.map User.undated = Rows.update User.id b.userId
    (User.onProduct product) (w.db.users.map User.undated)
  billings : v.db.billings.map Billing.undated =
    Rows.update Billing.id b.id f (w.db.billings.map Billing.undated)
  frame : ∀ b, (f b).id = b.id ∧ (f b).userId = b.userId ∧
    (f b).externalSubscriptionId = b.externalSubscriptionId

variable {f : Billing → Billing} {product : String}

theorem Written.start (htrx : w.trx = none)
    (hb : Rows.lookup Billing.externalSubscriptionId s w.db.billings = some b)
    (h : Agrees w.db s) : Written w b id b.productId w where
  trx := htrx
  products := rfl
  users := by
    have hsame : ∀ y ∈ w.db.users.map User.undated,
        (if y.id = b.userId then y.onProduct b.productId else y) = y := by
      intro y hy
      obtain ⟨u, hu, rfl⟩ := List.mem_map.mp hy
      split_ifs with hid
      · have hprod : u.undated.currentProductId = some b.productId := h b hb u hu hid
        rw [User.onProduct, ← hprod]
      · rfl
    exact ((List.map_congr_left hsame).trans (List.map_id _)).symm
  billings := by simp
  frame _ := ⟨rfl, rfl, rfl⟩

theorem Written.tick (h : Written w b f product v) (ht : Ticks v v') :
    Written w b f product v' := by
  obtain ⟨-⟩ := ht
  exact ⟨h.trx, h.products, h.users, h.billings, h.frame⟩

theorem Written.same (h : Written w b f product v) (h' : Written w b f product v') :
    v.db.Same v'.db :=
  ⟨h.products.trans h'.products.symm, h.users.trans h'.users.symm,
    h.billings.trans h'.billings.symm⟩

/-- The row as it is now. -/
theorem Written.read (h : Written w b f product v)
    (hb : Rows.lookup Billing.externalSubscriptionId s w.db.billings = some b) :
    ∃ b', Rows.lookup Billing.externalSubscriptionId s v.db.billings = some b' ∧
      b'.undated = f b.undated := by
  have hl : Rows.lookup Billing.externalSubscriptionId s (v.db.billings.map Billing.undated) =
      some (f b.undated) := by
    rw [h.billings, Rows.lookup_update fun x => (h.frame x).2.2, lookup_undated, hb]
    simp [Billing.undated]
  rw [lookup_undated] at hl
  obtain ⟨b', hb', heq⟩ := Option.map_eq_some_iff.mp hl
  exact ⟨b', hb', heq⟩

theorem Written.read_frame (h : Written w b f product v) {b' : Billing}
    (hb' : b'.undated = f b.undated) : b'.id = b.id ∧ b'.userId = b.userId ∧
      b'.productId = (f b.undated).productId := by
  obtain ⟨hid, huser, -⟩ := h.frame b.undated
  rw [← hb'] at hid huser ⊢
  exact ⟨hid, huser, rfl⟩

theorem Written.owner (h : Written w b f product v)
    (hb : Rows.lookup Billing.externalSubscriptionId s w.db.billings = some b) :
    ∃ u, Rows.lookup User.id b.userId v.db.users = some u := by
  obtain ⟨b', hb', heq⟩ := h.read hb
  obtain ⟨u, hu, hid⟩ := v.db.sound.billings_user b' (Rows.lookup_mem hb')
  exact Rows.exists_lookup User.id hu (hid.trans (h.read_frame heq).2.1)

theorem Written.agrees_iff (h : Written w b f product v)
    (hb : Rows.lookup Billing.externalSubscriptionId s w.db.billings = some b) :
    Agrees v.db s ↔ product = (f b.undated).productId := by
  obtain ⟨b', hb', heq⟩ := h.read hb
  obtain ⟨-, huser, hprod⟩ := h.read_frame heq
  have hu : ∀ u ∈ v.db.users, u.id = b.userId → u.currentProductId = some product := by
    intro u hu hid
    have hmem : u.undated ∈ v.db.users.map User.undated := List.mem_map_of_mem hu
    rw [h.users, Rows.mem_update] at hmem
    rcases hmem with ⟨y, -, -, hy⟩ | ⟨-, hne⟩
    · exact (congrArg User.currentProductId hy).symm
    · exact absurd hid hne
  constructor
  · intro ha
    obtain ⟨u, hlu⟩ := h.owner hb
    have hmem := Rows.lookup_mem hlu
    have hid := Rows.lookup_key hlu
    have hcur := ha b' hb' u hmem (hid.trans huser.symm)
    rw [hu u hmem hid, hprod] at hcur
    exact Option.some.inj hcur
  · intro heq' x hx u humem hid
    obtain rfl : b' = x := Option.some.inj (hb'.symm.trans hx)
    rw [hu u humem (hid.trans huser), heq', hprod]

/-- The transaction of a handler that read the row as `stale`. -/
theorem Written.write {e : PlanChange w.db s} {input : SubscriptionUpdate} {stale : Billing}
    (h : Written w b f product v)
    (hb : Rows.lookup Billing.externalSubscriptionId s w.db.billings = some b)
    (hc : e.Complete) (hinput : updateInput w.db e.sub = some input)
    (hid : stale.id = b.id) (huser : stale.userId = b.userId) :
    ∃ v', (transaction (writeSubscriptionUpdate input stale)).run v = (.ok (), v') ∧
      Written w b (e.change ∘ f) (if e.product ≠ stale.productId then e.product else product)
        v' := by
  obtain ⟨input', hinput', -, -, hp, hended, hfit, hchange⟩ := hc.input
  obtain rfl : input' = input := Option.some.inj (hinput'.symm.trans hinput)
  obtain ⟨b', hb', heq⟩ := h.read hb
  obtain ⟨u, hu⟩ := h.owner hb
  have hproduct : ∀ p, spread input'.productId = .set p → ∃ q ∈ v.db.products, q.id = p := by
    intro p hp'
    rw [hp] at hp'
    cases hp'
    exact h.products ▸ e.exists_product
  obtain ⟨db, hrun, hup⟩ := run_writeSubscriptionUpdate_ok (b := stale) h.trx (Rows.lookup_mem hb')
    ((h.read_frame heq).1.trans hid.symm) (huser ▸ hu) hproduct
    (fun he => absurd he hended) hfit
  refine ⟨_, hrun, h.trx, hup.products.trans h.products, ?_, ?_, fun x => ?_⟩
  · have husers := hup.users
    have hwritten : productWritten v.freeTier input' stale =
        if e.product ≠ stale.productId then some e.product else none := by
      simp [productWritten, hended, hp]
    rw [hwritten, huser] at husers
    split_ifs with hne
    · rw [if_pos hne] at husers
      dsimp only at husers
      rw [husers, undated_setProduct, h.users,
        Rows.update_update (f := User.onProduct product) fun _ => rfl]
      rfl
    · rw [if_neg hne] at husers
      rw [husers, h.users]
  · rw [hup.billings, hid, undated_updatedBilling, h.billings,
      Rows.update_update fun x => (h.frame x).1, hchange]
  · obtain ⟨h1, h2, h3⟩ := e.change_frame (f x)
    obtain ⟨g1, g2, g3⟩ := h.frame x
    exact ⟨h1.trans g1, h2.trans g2, h3.trans g3⟩

theorem PlanChange.complete_of_input {db : Db} {e : PlanChange db s} {input : SubscriptionUpdate}
    (h : updateInput db e.sub = some input) (hne : e.sub.id ≠ "") (hfit : input.Fits) :
    e.Complete := by
  refine ⟨hne, fun hnone => ?_, fun input' hinput' => ?_⟩
  · unfold updateInput at h
    rw [hnone] at h
    cases h
  · cases h.symm.trans hinput'
    exact hfit

/-- What does not fit is rolled back. -/
theorem run_writeSubscriptionUpdate_refused {input : SubscriptionUpdate} {stale : Billing}
    (htrx : v.trx = none) (hfit : ¬ input.Fits) :
    ∃ error, (transaction (writeSubscriptionUpdate input stale)).run v = (.error error, v) := by
  rcases run_writeSubscriptionUpdate_cases htrx rfl with ⟨⟨error, hr⟩, hv⟩ | ⟨db, -, -, hup⟩
  · exact ⟨error, Prod.ext hr hv⟩
  · exact absurd hup.fits hfit

theorem run_incomplete {e : PlanChange w.db s} (htrx : v.trx = none) (hc : ¬ e.Complete)
    (hproducts : v.db.products = w.db.products) : (e.handler.run v).2 = v := by
  rw [PlanChange.handler, processBillingWebhookHandler, run_subscriptionUpdated,
    updateInput_congr hproducts]
  cases hinput : updateInput w.db e.sub with
  | none => rfl
  | some input =>
    obtain ⟨hid, -, -⟩ := updateInput_product hinput
    dsimp only
    by_cases hempty : input.externalSubscriptionId = ""
    · rw [updateBillingOnSubscriptionUpdated, if_pos hempty]
      rfl
    have hfit : ¬ input.Fits := fun hfit =>
      hc (PlanChange.complete_of_input hinput (hid ▸ hempty) hfit)
    rcases run_updateBillingOnSubscriptionUpdated_cases (w := v) htrx rfl with
      hv | ⟨-, b, db, -, -, -, hup⟩
    · exact hv
    · exact absurd hup.fits hfit

/-- A complete event that finds the tables in agreement. -/
theorem Written.run {e : PlanChange w.db s} (h : Written w b f product v)
    (hb : Rows.lookup Billing.externalSubscriptionId s w.db.billings = some b)
    (hc : e.Complete) (hagree : product = (f b.undated).productId) :
    Written w b (e.change ∘ f) e.product (e.handler.run v).2 := by
  obtain ⟨input, hinput, hid, hne, -⟩ := hc.input
  obtain ⟨stale, hstale, heq⟩ := h.read hb
  obtain ⟨hsid, huser, hproduct⟩ := h.read_frame heq
  obtain ⟨v', hrun, hw⟩ := h.write hb hc hinput hsid huser
  rw [hagree, ← hproduct, ite_ne_left] at hw
  rw [PlanChange.handler, processBillingWebhookHandler, run_subscriptionUpdated,
    updateInput_congr h.products, hinput]
  dsimp only
  rw [updateBillingOnSubscriptionUpdated_eq, hid, run_ifSubscribed _ hne hstale, hrun]
  exact hw

/-- A handler that has written nothing yet; a row it read was on one of the `seen` products. -/
inductive Waits {db : Db} (e : PlanChange db s) (b : Billing) (seen : String → Prop) :
    Promise Unit → Prop
  | received : Waits e b seen e.handler
  | reading {input : SubscriptionUpdate} (h : updateInput db e.sub = some input) :
      Waits e b seen (updateBillingOnSubscriptionUpdated input)
  | holding {input : SubscriptionUpdate} {stale : Billing} (hne : e.sub.id ≠ "")
      (h : updateInput db e.sub = some input) (hid : stale.id = b.id)
      (huser : stale.userId = b.userId) (hseen : seen stale.productId) :
      Waits e b seen (transaction (writeSubscriptionUpdate input stale))
  | refused {error : Err} (hc : ¬ e.Complete) : Waits e b seen (.throw error)

theorem Waits.mono {db : Db} {e : PlanChange db s} {seen seen' : String → Prop}
    {p : Promise Unit} (h : Waits e b seen p) (hsub : ∀ q, seen q → seen' q) :
    Waits e b seen' p := by
  cases h with
  | received => exact .received
  | reading h => exact .reading h
  | holding hne h hid huser hseen => exact .holding hne h hid huser (hsub _ hseen)
  | refused hc => exact .refused hc

/-- A handler with no step left has nothing to write. -/
theorem Waits.settled {e : PlanChange w.db s} {seen : String → Prop} {p : Promise Unit}
    (h : Waits e b seen p) (hp : p.Settled) : ¬ e.Complete := by
  intro hc
  obtain ⟨input, hinput, hid, hne, -⟩ := hc.input
  cases h with
  | received =>
    have hn := next_subscriptionUpdated e w
    rw [hp.next, hinput] at hn
    cases hn
  | reading h =>
    obtain rfl := Option.some.inj (hinput.symm.trans h)
    obtain ⟨r, hr⟩ := hp
    rw [updateBillingOnSubscriptionUpdated, if_neg (hid ▸ hne)] at hr
    cases r <;> cases hr
  | holding =>
    obtain ⟨r, hr⟩ := hp
    cases r <;> cases hr
  | refused h => exact h hc

/-- What a step of a waiting handler does: it reads or is refused, or it writes and is done. -/
theorem Waits.step {e : PlanChange w.db s} {seen : String → Prop} {p p' : Promise Unit}
    {born : List (Async.Detached World Err)} (h : Waits e b seen p)
    (hv : Written w b f product v)
    (hb : Rows.lookup Billing.externalSubscriptionId s w.db.billings = some b)
    (hseen : seen (f b.undated).productId) (hn : p.next v = some (p', born, v')) :
    born = [] ∧ ((Waits e b seen p' ∧ v' = v) ∨
      e.Complete ∧ p' = .pure () ∧ ∃ q, seen q ∧
        Written w b (e.change ∘ f) (if e.product ≠ q then e.product else product) v') := by
  cases h with
  | received =>
    rw [next_subscriptionUpdated, updateInput_congr hv.products, Option.map_eq_some_iff] at hn
    obtain ⟨input, hinput, heq⟩ := hn
    cases heq
    exact ⟨rfl, .inl ⟨.reading hinput, rfl⟩⟩
  | @reading input hinput =>
    obtain ⟨hid, -, -⟩ := updateInput_product hinput
    by_cases hne : e.sub.id = ""
    · rw [updateBillingOnSubscriptionUpdated, if_pos (hid.trans hne)] at hn
      cases hn
    · obtain ⟨stale, hstale, heq⟩ := hv.read hb
      obtain ⟨hsid, huser, hproduct⟩ := hv.read_frame heq
      rw [next_updateBillingOnSubscriptionUpdated (hid ▸ hne)
        ((hid.trans e.subscription).symm ▸ hstale)] at hn
      cases hn
      exact ⟨rfl, .inl ⟨.holding hne hinput hsid huser (hproduct ▸ hseen), rfl⟩⟩
  | @holding input stale hne hinput hid huser hold =>
    by_cases hfit : input.Fits
    · have hc := PlanChange.complete_of_input hinput hne hfit
      obtain ⟨v₁, hrun, hw⟩ := hv.write hb hc hinput hid huser
      rw [next_transaction, hrun] at hn
      cases hn
      exact ⟨rfl, .inr ⟨hc, rfl, _, hold, hw⟩⟩
    · obtain ⟨error, hrun⟩ : ∃ error,
          (transaction (writeSubscriptionUpdate input stale)).run v = (.error error, v) :=
        run_writeSubscriptionUpdate_refused hv.trx hfit
      rw [next_transaction, hrun] at hn
      cases hn
      exact ⟨rfl, .inl ⟨.refused fun hc => hfit (hc.2.2 input hinput), rfl⟩⟩
  | refused => cases hn

section Race
variable (b) (A B : PlanChange w.db s)

/-- Neither handler has written. -/
structure NoneDone (p q : Promise Unit) (v : World) : Prop where
  left : Waits A b (· = b.productId) p
  right : Waits B b (· = b.productId) q
  written : Written w b id b.productId v

/-- The handler of `A` has written, that of `B` has not. -/
structure OneDone (p q : Promise Unit) (v : World) : Prop where
  complete : A.Complete
  left : p = .pure ()
  right : Waits B b (fun product => product = b.productId ∨ product = A.product) q
  written : Written w b A.change A.product v

/-- Both have written, `B` last; the user is on the product of `A` if `B` was decided on the
row before `A` and keeps its product. -/
structure BothDone (p q : Promise Unit) (v : World) : Prop where
  complete : A.Complete ∧ B.Complete
  left : p = .pure ()
  right : q = .pure ()
  written : ∃ product, Written w b (B.change ∘ A.change) product v ∧
    (product = B.product ∨ B.product = b.productId ∧ product = A.product)

def Race (p q : Promise Unit) (v : World) : Prop :=
  NoneDone b A B p q v ∨ OneDone b A B p q v ∨ OneDone b B A q p v ∨
    BothDone b A B p q v ∨ BothDone b B A q p v

end Race

variable {A B : PlanChange w.db s} {p q p' : Promise Unit}

theorem Race.symm (h : Race b A B p q v) : Race b B A q p v := by
  rcases h with h | h | h | h | h
  · exact .inl ⟨h.right, h.left, h.written⟩
  · exact .inr (.inr (.inl h))
  · exact .inr (.inl h)
  · exact .inr (.inr (.inr (.inr h)))
  · exact .inr (.inr (.inr (.inl h)))

theorem Race.tick (h : Race b A B p q v) (ht : Ticks v v') : Race b A B p q v' := by
  rcases h with h | h | h | h | h
  · exact .inl { h with written := h.written.tick ht }
  · exact .inr (.inl { h with written := h.written.tick ht })
  · exact .inr (.inr (.inl { h with written := h.written.tick ht }))
  · obtain ⟨product, hw, hp⟩ := h.written
    exact .inr (.inr (.inr (.inl { h with written := ⟨product, hw.tick ht, hp⟩ })))
  · obtain ⟨product, hw, hp⟩ := h.written
    exact .inr (.inr (.inr (.inr { h with written := ⟨product, hw.tick ht, hp⟩ })))

/-- A step of the first handler. -/
theorem Race.step (h : Race b A B p q v)
    (hb : Rows.lookup Billing.externalSubscriptionId s w.db.billings = some b)
    {born : List (Async.Detached World Err)} (hn : p.next v = some (p', born, v')) :
    born = [] ∧ Race b A B p' q v' := by
  have hdone : ∀ x, (Async.pure () : Promise Unit).next x = none := fun _ => rfl
  rcases h with h | h | h | h | h
  · obtain ⟨hborn, hstep⟩ := h.left.step h.written hb rfl hn
    refine ⟨hborn, ?_⟩
    rcases hstep with ⟨hw, rfl⟩ | ⟨hc, hp', _, rfl, hw⟩
    · exact .inl { h with left := hw }
    · rw [ite_ne_left] at hw
      exact .inr (.inl ⟨hc, hp', h.right.mono fun _ => .inl, hw⟩)
  · rw [h.left, hdone] at hn
    cases hn
  · -- the other handler wrote first
    have hproduct : (B.change b.undated).productId = B.product := h.complete.change_product _
    obtain ⟨hborn, hstep⟩ := h.right.step h.written hb (.inr hproduct) hn
    refine ⟨hborn, ?_⟩
    rcases hstep with ⟨hw, rfl⟩ | ⟨hc, hp', product, hseen, hw⟩
    · exact .inr (.inr (.inl { h with right := hw }))
    · refine .inr (.inr (.inr (.inr ⟨⟨h.complete, hc⟩, h.left, hp', _, hw, ?_⟩)))
      split_ifs with hsame
      · exact .inl rfl
      · rw [not_not] at hsame
        rcases hseen with rfl | rfl
        · exact .inr ⟨hsame, rfl⟩
        · exact .inl hsame.symm
  · rw [h.left, hdone] at hn
    cases hn
  · rw [h.right, hdone] at hn
    cases hn

/-- Every interleaving is such a race. -/
theorem race_of_steps {x : Async.Pool World Err Unit} (htrx : w.trx = none)
    (hb : Rows.lookup Billing.externalSubscriptionId s w.db.billings = some b)
    (hagree : Agrees w.db s)
    (h : Async.Pool.Steps (fun _ => False) Ticks ([⟨A.handler, []⟩, ⟨B.handler, []⟩], w) x) :
    ∃ p q, x.1 = [⟨p, []⟩, ⟨q, []⟩] ∧ Race b A B p q x.2 := by
  induction h with
  | refl => exact ⟨_, _, rfl, .inl ⟨.received, .received, .start htrx hb hagree⟩⟩
  | @tail x y _ hstep ih =>
    obtain ⟨p, q, hx, hr⟩ := ih
    obtain ⟨cs, v⟩ := x
    obtain rfl : cs = [⟨p, []⟩, ⟨q, []⟩] := hx
    rcases hstep.pair with ⟨p', born, t, hn, rfl⟩ | ⟨q', born, t, hn, rfl⟩ | ⟨t, ht, rfl⟩
    · obtain ⟨rfl, hr'⟩ := hr.step hb hn
      exact ⟨p', q, rfl, hr'⟩
    · obtain ⟨rfl, hr'⟩ := hr.symm.step hb hn
      exact ⟨p, q', rfl, hr'.symm⟩
    · exact ⟨p, q, rfl, hr.tick ht⟩

/-- A handler up to its transaction, while the others wait. -/
theorem steps_holding (pre post : List (Async.Call World Err Unit)) (hc : A.Complete)
    (hb : Rows.lookup Billing.externalSubscriptionId s w.db.billings = some b) :
    ∃ input, updateInput w.db A.sub = some input ∧
      Async.Pool.Steps (fun _ => False) Ticks (pre ++ ⟨A.handler, []⟩ :: post, w)
        (pre ++ ⟨transaction (writeSubscriptionUpdate input b), []⟩ :: post, w) := by
  obtain ⟨input, hinput, hid, hne, -⟩ := hc.input
  have hfirst : A.handler.next w = some (updateBillingOnSubscriptionUpdated input, [], w) := by
    rw [next_subscriptionUpdated, hinput]
    rfl
  have hsecond := next_updateBillingOnSubscriptionUpdated (hid ▸ hne) (hid.symm ▸ hb)
  exact ⟨input, hinput, .tail (.single (.call (.main hfirst))) (.call (.main hsecond))⟩

/-- Both read, then the event that changes the product is written, then the one that keeps it. -/
theorem exists_stale (hA : A.Complete) (hB : B.Complete) (htrx : w.trx = none)
    (hb : Rows.lookup Billing.externalSubscriptionId s w.db.billings = some b)
    (hagree : Agrees w.db s) (hkeep : B.product = b.productId) :
    ∃ v, Async.Pool.Steps (fun _ => False) Ticks ([⟨A.handler, []⟩, ⟨B.handler, []⟩], w)
        ([⟨.pure (), []⟩, ⟨.pure (), []⟩], v) ∧
      Written w b (B.change ∘ A.change) A.product v := by
  have hstart := Written.start htrx hb hagree
  obtain ⟨inA, hinA, hreadA⟩ := steps_holding [] [⟨B.handler, []⟩] hA hb
  obtain ⟨inB, hinB, hreadB⟩ := steps_holding
    [⟨transaction (writeSubscriptionUpdate inA b), []⟩] [] hB hb
  obtain ⟨v₁, hrunA, hw₁⟩ := hstart.write hb hA hinA rfl rfl
  rw [ite_ne_left] at hw₁
  obtain ⟨v₂, hrunB, hw₂⟩ := hw₁.write hb hB hinB rfl rfl
  rw [if_neg (not_not.mpr hkeep)] at hw₂
  have hstepA : Async.Pool.Step (fun _ => False) Ticks
      ([⟨transaction (writeSubscriptionUpdate inA b), []⟩,
        ⟨transaction (writeSubscriptionUpdate inB b), []⟩], w)
      ([⟨.pure (), []⟩, ⟨transaction (writeSubscriptionUpdate inB b), []⟩], v₁) :=
    .call_at [] [_] (by rw [next_transaction, hrunA]; rfl)
  have hstepB : Async.Pool.Step (fun _ => False) Ticks
      ([⟨.pure (), []⟩, ⟨transaction (writeSubscriptionUpdate inB b), []⟩], v₁)
      ([⟨.pure (), []⟩, ⟨.pure (), []⟩], v₂) :=
    .call_at [_] [] (by rw [next_transaction, hrunB]; rfl)
  exact ⟨v₂, ((hreadA.trans hreadB).tail hstepA).tail hstepB, hw₂⟩

/-- Such a race ends with the user off the product of the row. -/
theorem stale_disagrees (hB : B.Complete)
    (hb : Rows.lookup Billing.externalSubscriptionId s w.db.billings = some b)
    (hw : Written w b (B.change ∘ A.change) A.product v) (hne : A.product ≠ B.product) :
    ¬ Agrees v.db s := by
  rw [hw.agrees_iff hb, Function.comp_apply, hB.change_product]
  exact hne

/-- The world after the two events, one after the other. -/
def serially (A B : PlanChange w.db s) : World := (B.handler.run (A.handler.run w).2).2

theorem Written.serially (htrx : w.trx = none)
    (hb : Rows.lookup Billing.externalSubscriptionId s w.db.billings = some b)
    (hagree : Agrees w.db s) (hA : A.Complete) (hB : B.Complete) :
    Written w b (B.change ∘ A.change) B.product (serially A B) :=
  ((Written.start htrx hb hagree).run hb hA rfl).run hb hB (hA.change_product _).symm

/-- An event that is not complete leaves the other one alone. -/
theorem Written.serially_left (htrx : w.trx = none)
    (hb : Rows.lookup Billing.externalSubscriptionId s w.db.billings = some b)
    (hagree : Agrees w.db s) (hA : A.Complete) (hB : ¬ B.Complete) :
    Written w b A.change A.product (CodebaseTrpc.serially A B) := by
  have hw := (Written.start htrx hb hagree).run hb hA rfl
  rw [CodebaseTrpc.serially, run_incomplete hw.trx hB hw.products]
  exact hw

theorem NoneDone.ends (h : NoneDone b A B p q v) (hp : p.Settled) (hq : q.Settled)
    (htrx : w.trx = none)
    (hb : Rows.lookup Billing.externalSubscriptionId s w.db.billings = some b)
    (hagree : Agrees w.db s) : Agrees v.db s ∧ v.db.Same (serially A B).db := by
  refine ⟨(h.written.agrees_iff hb).mpr rfl, ?_⟩
  have hA := run_incomplete (v := w) htrx (h.left.settled hp) rfl
  rw [serially, hA, run_incomplete htrx (h.right.settled hq) rfl]
  exact h.written.same (.start htrx hb hagree)

theorem OneDone.ends (h : OneDone b A B p q v) (hq : q.Settled) (htrx : w.trx = none)
    (hb : Rows.lookup Billing.externalSubscriptionId s w.db.billings = some b)
    (hagree : Agrees w.db s) : Agrees v.db s ∧ v.db.Same (serially A B).db :=
  ⟨(h.written.agrees_iff hb).mpr (h.complete.change_product _).symm,
    h.written.same (.serially_left htrx hb hagree h.complete (h.right.settled hq))⟩

/-- The only race that is lost: the last event keeps the product, the first one changed it. -/
theorem BothDone.ends (h : BothDone b A B p q v) (htrx : w.trx = none)
    (hb : Rows.lookup Billing.externalSubscriptionId s w.db.billings = some b)
    (hagree : Agrees w.db s) (hiff : B.product = b.productId → A.product = b.productId) :
    Agrees v.db s ∧ v.db.Same (serially A B).db := by
  obtain ⟨hA, hB⟩ := h.complete
  obtain ⟨product, hw, hproduct⟩ := h.written
  obtain rfl : product = B.product := by
    rcases hproduct with rfl | ⟨hkeep, rfl⟩
    · rfl
    · rw [hiff hkeep, hkeep]
  exact ⟨(hw.agrees_iff hb).mpr (hB.change_product _).symm,
    hw.same (.serially htrx hb hagree hA hB)⟩

/-- Two such handlers leave what one of the serial orders leaves, and the user on the product of
the row, in every interleaving iff both events change the product or both keep it; an event that is
not complete changes nothing. -/
theorem updates_serial_iff (A B : PlanChange w.db s) (htrx : w.trx = none)
    (hb : Rows.lookup Billing.externalSubscriptionId s w.db.billings = some b)
    (hagree : Agrees w.db s) :
    (∀ x, Async.Pool.Steps (fun _ => False) Ticks ([⟨A.handler, []⟩, ⟨B.handler, []⟩], w) x →
      (∀ c ∈ x.1, c.main.Settled) → Agrees x.2.db s ∧
        (x.2.db.Same (serially A B).db ∨ x.2.db.Same (serially B A).db)) ↔
    (A.Complete → B.Complete → (A.product = b.productId ↔ B.product = b.productId)) := by
  constructor
  · intro h hA hB
    by_contra hiff
    have hsettled : (Async.pure () : Promise Unit).Settled := ⟨.ok (), rfl⟩
    by_cases hkeep : B.product = b.productId
    · have hne : A.product ≠ B.product := fun hAB => hiff ⟨fun _ => hkeep, fun _ => hAB.trans hkeep⟩
      obtain ⟨v, hsteps, hw⟩ := exists_stale hA hB htrx hb hagree hkeep
      exact stale_disagrees hB hb hw hne (h _ hsteps (by simp [hsettled])).1
    · have hkeepA : A.product = b.productId := by
        by_contra hA'
        exact hiff ⟨fun hA => absurd hA hA', fun hB => absurd hB hkeep⟩
      -- the same race with the calls in the other places
      obtain ⟨v, hsteps, hw⟩ := exists_stale hB hA htrx hb hagree hkeepA
      obtain ⟨cs, hsteps', hperm⟩ := Async.Pool.Steps.perm hsteps (.swap ..)
      have hdone : ∀ c ∈ cs, c.main.Settled := by
        intro c hc
        have hmem := hperm.mem_iff.mpr hc
        simp only [List.mem_cons, List.not_mem_nil, or_false, or_self] at hmem
        exact hmem ▸ hsettled
      exact stale_disagrees hA hb hw (fun hBA => hkeep (hBA.trans hkeepA))
        (h _ hsteps' hdone).1
  · intro hiff x hx hsettled
    obtain ⟨p, q, hcs, hr⟩ := race_of_steps htrx hb hagree hx
    rw [hcs] at hsettled
    have hp : p.Settled := hsettled ⟨p, []⟩ (by simp)
    have hq : q.Settled := hsettled ⟨q, []⟩ (by simp)
    rcases hr with h | h | h | h | h
    · exact (h.ends hp hq htrx hb hagree).imp_right .inl
    · exact (h.ends hq htrx hb hagree).imp_right .inl
    · exact (h.ends hp htrx hb hagree).imp_right .inr
    · obtain ⟨hA, hB⟩ := h.complete
      exact (h.ends htrx hb hagree (hiff hA hB).mpr).imp_right .inl
    · obtain ⟨hB, hA⟩ := h.complete
      exact (h.ends htrx hb hagree (hiff hA hB).mp).imp_right .inr

namespace Sample

def team : Product := { pro with id := "team", externalPriceId := some "price_2" }

/-- Ann has bought `pro` where a second plan is on sale. -/
def onPro : World :=
  play packages { start with db := ⟨[], [free, pro, team], [], by decide⟩ } purchase

def changeTo (priceId : String) : Subscription :=
  { subscription "active" with
    items := [{ currentPeriodEnd := some 1702592000, priceId := some priceId }] }

set_option maxRecDepth 10000 in
theorem onPro_facts : onPro.trx.isNone = true ∧
    Rows.lookup Billing.externalSubscriptionId "sub_1" onPro.db.billings = some (bill onPro) ∧
    (∀ u ∈ onPro.db.users, u.currentProductId = some (bill onPro).productId) ∧
    (bill onPro).productId = pro.id ∧
    spread (knownProduct onPro.db (changeTo "price_1")) = .set pro.id ∧
    spread (knownProduct onPro.db (changeTo "price_2")) = .set team.id := by decide +kernel

theorem agrees_onPro : Agrees onPro.db "sub_1" := by
  obtain ⟨-, hb, hu, -⟩ := onPro_facts
  intro b hb' u hmem _
  rw [← Option.some.inj (hb.symm.trans hb')]
  exact hu u hmem

/-- One event moves Ann to `team`, the other keeps her on `pro`. -/
def toTeam : PlanChange onPro.db "sub_1" where
  sub := changeTo "price_2"
  product := team.id
  subscription := rfl
  known := onPro_facts.2.2.2.2.2
  goesOn := by decide

def keepPro : PlanChange onPro.db "sub_1" where
  sub := changeTo "price_1"
  product := pro.id
  subscription := rfl
  known := onPro_facts.2.2.2.2.1
  goesOn := by decide

end Sample

/-- Two deliveries of one plan change. -/
theorem updates_serial_iff_twice : Sample.toTeam.Complete ∧
    ∀ x, Async.Pool.Steps (fun _ => False) Ticks
      ([⟨Sample.toTeam.handler, []⟩, ⟨Sample.toTeam.handler, []⟩], Sample.onPro) x →
      (∀ c ∈ x.1, c.main.Settled) → Agrees x.2.db "sub_1" := by
  obtain ⟨htrx, hb, -⟩ := Sample.onPro_facts
  have hserial := (updates_serial_iff Sample.toTeam Sample.toTeam
    (Option.isNone_iff_eq_none.mp htrx) hb Sample.agrees_onPro).mpr fun _ _ => Iff.rfl
  exact ⟨⟨by decide, by decide⟩, fun x hx hsettled => (hserial x hx hsettled).1⟩

/-- A change of plan that is written before a renewal decided on the old row is lost. -/
theorem plan_change_lost : ¬ ∀ (w : World) (s : String) (b : Billing) (A B : PlanChange w.db s)
    (x : Async.Pool World Err Unit), w.trx = none →
      Rows.lookup Billing.externalSubscriptionId s w.db.billings = some b → Agrees w.db s →
      Async.Pool.Steps (fun _ => False) Ticks ([⟨A.handler, []⟩, ⟨B.handler, []⟩], w) x →
      (∀ c ∈ x.1, c.main.Settled) → Agrees x.2.db s := by
  intro h
  obtain ⟨htrx, hb, -, hpro, -⟩ := Sample.onPro_facts
  have hteam : Sample.toTeam.Complete := ⟨by decide, by decide⟩
  have hkeep : Sample.keepPro.Complete := ⟨by decide, by decide⟩
  obtain ⟨v, hsteps, hw⟩ := exists_stale hteam hkeep (Option.isNone_iff_eq_none.mp htrx) hb
    Sample.agrees_onPro hpro.symm
  have hne : Sample.toTeam.product ≠ Sample.keepPro.product := by decide
  have hsettled : (Async.pure () : Promise Unit).Settled := ⟨.ok (), rfl⟩
  exact stale_disagrees hkeep hb hw hne
    (h _ _ _ _ _ _ (Option.isNone_iff_eq_none.mp htrx) hb Sample.agrees_onPro hsteps
      (by simp [hsettled]))

end CodebaseTrpc
