import CodebaseTrpc.Spec.Plan
import CodebaseTrpc.Spec.Server

/-! Which line items of an invoice count. `invoice.paid` takes the subscription from the parent of
the invoice and the price and period end from its first line; `invoice.payment_failed` takes the
subscription from that line. -/
namespace CodebaseTrpc
variable {w : World} {invoice : Invoice} {line : LineItem} {lines lines' : List LineItem}

namespace Sample

end Sample

/-- The event of the same invoice with other lines. -/
def Invoice.withLines (invoice : Invoice) (lines : List LineItem) : BillingEvent :=
  .invoicePaid { invoice with lines := some lines }

/-- The same rejection, or the same plan, status and expiry in every row. -/
def SameOutcome (o o' : Except Err Unit × World) : Prop :=
  o.1 = o'.1 ∧
  (o.2.db.billings.map fun b => (b.userId, b.productId, b.expiresAt, b.status)) =
    (o'.2.db.billings.map fun b => (b.userId, b.productId, b.expiresAt, b.status)) ∧
  o.2.db.users.map User.currentProductId = o'.2.db.users.map User.currentProductId

theorem SameOutcome.refl (o : Except Err Unit × World) : SameOutcome o o := ⟨rfl, rfl, rfl⟩

theorem SameOutcome.symm {o o' : Except Err Unit × World} (h : SameOutcome o o') :
    SameOutcome o' o := ⟨h.1.symm, h.2.1.symm, h.2.2.symm⟩

theorem SameOutcome.trans {o o' o'' : Except Err Unit × World} (h : SameOutcome o o')
    (h' : SameOutcome o' o'') : SameOutcome o o'' :=
  ⟨h.1.trans h'.1, h.2.1.trans h'.2.1, h.2.2.trans h'.2.2⟩

/-- What the invoice with these lines leads to. -/
def outcome (w : World) (invoice : Invoice) (lines : List LineItem) : Except Err Unit × World :=
  (processBillingWebhookHandler (invoice.withLines lines)).run w

/-- Only the first line is read. -/
theorem outcome_cons (w : World) (invoice : Invoice) (line : LineItem) (lines : List LineItem) :
    outcome w invoice (line :: lines) = outcome w invoice [line] := rfl

/-- Of that line, its price and the end of its period. -/
theorem outcome_congr (w : World) (invoice : Invoice) {line line' : LineItem}
    (hprice : line.price = line'.price) (hend : line.periodEnd = line'.periodEnd) :
    outcome w invoice [line] = outcome w invoice [line'] := by
  simp only [outcome, Invoice.withLines, processBillingWebhookHandler, run_invoicePaid, paidInput,
    hprice, hend]

/-- Each order puts some line first, and each line can be put first. -/
theorem forall_perm_sameOutcome (w : World) (invoice : Invoice) (lines : List LineItem) :
    (∀ lines', lines.Perm lines' →
      SameOutcome (outcome w invoice lines) (outcome w invoice lines')) ↔
    ∀ line ∈ lines, SameOutcome (outcome w invoice lines) (outcome w invoice [line]) := by
  constructor
  · intro h line hline
    rw [← outcome_cons w invoice line (lines.erase line)]
    exact h _ (List.perm_cons_erase hline)
  · intro h lines' hperm
    cases lines' with
    | nil =>
      rw [hperm.eq_nil]
      exact .refl _
    | cons line' rest => exact h line' (hperm.mem_iff.mpr List.mem_cons_self)

/-- What a line is paid for: a product, and the end of its period, if a `Date` has it. -/
def charge (db : Db) (line : LineItem) : Option (String × ℕ) :=
  (truthyText line.price).bind fun price =>
    (Rows.lookup Product.externalPriceId (some price) db.products).bind fun product =>
      if line.periodEnd = 0 ∨ maxTimestamp < unixTimestampToDate line.periodEnd then none
      else some (product.id, line.periodEnd)

/-- The rest of the invoice is in order and fits, and an inserted row will get a new id. -/
structure Payable (w : World) (invoice : Invoice) (user : User) (customer s : String) : Prop where
  trx : w.trx = none
  fresh : ∀ b ∈ w.db.billings, b.id ≠ w.env.uuid
  fits : s.length ≤ 255 ∧ customer.length ≤ 255
  user : Rows.lookup User.email (invoice.customerEmail.getD "") w.db.users = some user
  customer : invoice.customer = some customer
  subscription : subscriptionIdOf invoice.parentSubscription = some s

/-- What the handler passes on for a line that is paid for. -/
def payment (invoice : Invoice) (s productId : String) (periodEnd : ℕ) :
    UpdateUserBillingInput where
  userEmail := invoice.customerEmail.getD ""
  productId := productId
  externalCustomerId := invoice.customer
  externalSubscriptionId := s
  expiresAt := periodEnd

section Payable
variable {user : User} {customer s p p' : String} {e e' : ℕ} {line' : LineItem}
  (h : Payable w invoice user customer s)
include h

theorem Payable.input (hline : charge w.db line = some (p, e)) :
    paidInput w.db { invoice with lines := some [line] } = .ok (some (payment invoice s p e)) ∧
      (payment invoice s p e).Fits customer := by
  obtain ⟨price, hprice, hline⟩ := Option.bind_eq_some_iff.mp hline
  obtain ⟨product, hproduct, hline⟩ := Option.bind_eq_some_iff.mp hline
  split_ifs at hline with hend
  obtain ⟨rfl, rfl⟩ := Prod.mk.inj (Option.some.inj hline)
  obtain ⟨hend, hdate⟩ := not_or.mp hend
  exact ⟨(paidInput_eq_some rfl).mpr
    ⟨s, price, product, h.subscription, hprice, hproduct, hend, rfl⟩,
    h.fits.1, h.fits.2, Nat.le_of_not_lt hdate⟩

theorem Payable.paid (hline : charge w.db line = some (p, e)) :
    ∃ db, outcome w invoice [line] = (.ok (), { w with db }) ∧ Paid w (payment invoice s p e) user
      (Rows.lookup Billing.userId user.id w.db.billings) customer db :=
  run_invoicePaid_ok h.trx (fun _ => h.fresh) (h.input hline).1 h.user h.customer (h.input hline).2

/-- Two lines come to the same outcome only where they are paid for the same. -/
theorem Payable.sameOutcome_iff (hline : charge w.db line = some (p, e))
    (hline' : charge w.db line' = some (p', e')) :
    SameOutcome (outcome w invoice [line]) (outcome w invoice [line']) ↔ (p, e) = (p', e') := by
  constructor
  · rintro ⟨-, hsame, -⟩
    obtain ⟨db, hrun, hpaid⟩ := h.paid hline
    obtain ⟨db', hrun', hpaid'⟩ := h.paid hline'
    rw [hrun, hrun'] at hsame
    dsimp only at hsame
    rw [hpaid.billings, hpaid'.billings] at hsame
    have hpe : p = p' ∧ unixTimestampToDate e = unixTimestampToDate e' := by
      cases hl : Rows.lookup Billing.userId user.id w.db.billings with
      | none =>
        rw [hl] at hsame
        simpa [newBilling, payment] using hsame
      | some b =>
        rw [hl] at hsame
        simp only [Rows.update, List.map_map] at hsame
        have hb := List.map_inj_left.mp hsame b (Rows.lookup_mem hl)
        simpa [paidBilling, payment] using hb
    obtain ⟨rfl, he⟩ := hpe
    rw [Nat.eq_of_mul_eq_mul_right (by decide) he]
  · intro heq
    obtain ⟨rfl, rfl⟩ := Prod.mk.inj heq
    have hrun : outcome w invoice [line] = outcome w invoice [line'] := by
      simp only [outcome, Invoice.withLines, processBillingWebhookHandler, run_invoicePaid,
        (h.input hline).1, (h.input hline').1]
    rw [hrun]
    exact .refl _

end Payable

/-- The first line alone decides. Every order of the lines leads to the same outcome iff each line
alone does; for an invoice in order whose lines are all paid for, iff all are paid for the same. -/
theorem line_order (w : World) (invoice : Invoice) (lines : List LineItem) :
    (∀ line rest line' rest', lines = line :: rest → line'.price = line.price →
      line'.periodEnd = line.periodEnd →
      outcome w invoice (line' :: rest') = outcome w invoice lines) ∧
    ((∀ lines', lines.Perm lines' →
      SameOutcome (outcome w invoice lines) (outcome w invoice lines')) ↔
      ∀ line ∈ lines, SameOutcome (outcome w invoice lines) (outcome w invoice [line])) ∧
    ∀ user customer s, Payable w invoice user customer s →
      (∀ line ∈ lines, charge w.db line ≠ none) →
      ((∀ lines', lines.Perm lines' →
        SameOutcome (outcome w invoice lines) (outcome w invoice lines')) ↔
        ∀ line ∈ lines, ∀ line' ∈ lines, charge w.db line = charge w.db line') := by
  refine ⟨?_, forall_perm_sameOutcome w invoice lines, fun user customer s h hcharge => ?_⟩
  · rintro line rest line' rest' rfl hprice hend
    rw [outcome_cons, outcome_cons w invoice line rest]
    exact outcome_congr w invoice hprice hend
  rw [forall_perm_sameOutcome]
  -- two lines of the invoice against each other
  have hpair : ∀ line ∈ lines, ∀ line' ∈ lines,
      (SameOutcome (outcome w invoice [line]) (outcome w invoice [line']) ↔
        charge w.db line = charge w.db line') := by
    intro line hline line' hline'
    obtain ⟨⟨p, e⟩, hpe⟩ := Option.ne_none_iff_exists'.mp (hcharge line hline)
    obtain ⟨⟨p', e'⟩, hpe'⟩ := Option.ne_none_iff_exists'.mp (hcharge line' hline')
    rw [h.sameOutcome_iff hpe hpe', hpe, hpe', Option.some.injEq]
  constructor
  · intro hsame line hline line' hline'
    exact (hpair line hline line' hline').mp ((hsame line hline).symm.trans (hsame line' hline'))
  · intro hsame line hline
    cases lines with
    | nil => cases hline
    | cons first rest =>
      rw [outcome_cons]
      exact (hpair first List.mem_cons_self line hline).mpr
        (hsame first List.mem_cons_self line hline)

namespace Sample

def business : Product :=
  { pro with id := "business", name := "Business", externalPriceId := some "price_2" }

/-- Ann moves from one paid plan to another: a credit for the old price, a charge for the new. -/
def upgrading : World := { signedIn with
  db := ⟨signedIn.db.users, [free, pro, business], [], by decide +kernel⟩ }

def credit : LineItem := { price := some "price_1", periodEnd := 1702592000 }
def newCharge : LineItem := { price := some "price_2", periodEnd := 1702592000 }

set_option maxRecDepth 10000 in
theorem upgrading_facts :
    (outcome upgrading paidInvoice [credit, newCharge]).2.db.users.map User.currentProductId ≠
      (outcome upgrading paidInvoice [newCharge, credit]).2.db.users.map User.currentProductId ∧
    upgrading.trx.isNone = true ∧
    Rows.lookup User.email (paidInvoice.customerEmail.getD "") upgrading.db.users =
      some (buyer upgrading) ∧
    charge upgrading.db credit = some ("pro", 1702592000) ∧
    charge upgrading.db newCharge = some ("business", 1702592000) := by
  decide +kernel

theorem payable_upgrading : Payable upgrading paidInvoice (buyer upgrading) "cus_1" "sub_1" where
  trx := Option.isNone_iff_eq_none.mp upgrading_facts.2.1
  fresh := fun _ h => by cases h
  user := upgrading_facts.2.2.1
  customer := rfl
  subscription := rfl
  fits := by decide

end Sample

/-- Credit and charge are paid for different products, so their order matters. -/
theorem line_order_upgrade : ¬ ∀ lines', [Sample.credit, Sample.newCharge].Perm lines' →
    SameOutcome (outcome Sample.upgrading Sample.paidInvoice [Sample.credit, Sample.newCharge])
      (outcome Sample.upgrading Sample.paidInvoice lines') := by
  obtain ⟨-, -, -, hcredit, hcharge⟩ := Sample.upgrading_facts
  obtain ⟨-, -, hiff⟩ := line_order Sample.upgrading Sample.paidInvoice
    [Sample.credit, Sample.newCharge]
  rw [hiff _ _ _ Sample.payable_upgrading (by simp [hcredit, hcharge])]
  intro h
  have hsame := h Sample.credit (by simp) Sample.newCharge (by simp)
  rw [hcredit, hcharge] at hsame
  simp at hsame

/-- Which line comes first decides the plan. -/
theorem upgrade_depends_on_order : ¬ ∀ (w : World) (invoice : Invoice)
    (lines lines' : List LineItem), lines.Perm lines' →
      SameOutcome (outcome w invoice lines) (outcome w invoice lines') := by
  intro h
  obtain ⟨-, -, hproduct⟩ := h Sample.upgrading Sample.paidInvoice _ _
    (List.Perm.swap Sample.newCharge Sample.credit [])
  exact Sample.upgrading_facts.1 hproduct

end CodebaseTrpc
