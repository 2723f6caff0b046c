import CodebaseTrpc.Spec.Interleavings
import CodebaseTrpc.Spec.Server
import CodebaseTrpc.Invariants.Billings

/-! How many billing rows a user can have when webhook handlers run side by side. A row is
added by a handler that read none for its user, in a transaction that does not look again, and
no index of the table refuses a second row. -/
namespace CodebaseTrpc
variable {P : Packages} {w w' : World}

/-- A webhook handler. -/
def Handler (p : Promise Unit) : Prop := ∃ event, p = processBillingWebhookHandler event

/-- If the handler is about to add a first row for a user, the user still has none, or the
insert names no customer and is refused. -/
def StillFirst (p : Promise Unit) (w : World) : Prop :=
  ∀ input user, p = transaction (writeUserBilling input user none) →
    input.externalCustomerId ≠ none → ∀ b ∈ w.db.billings, b.userId ≠ user.id

/-- Between two steps: no transaction is open, and no user has two rows. -/
def Single (w : World) : Prop := w.trx = none ∧ UniqueOwners w.db.billings

theorem single_of_update {db : Db} {id : String} {g : Billing → Billing} (h : Single w)
    (hg : ∀ b, (g b).userId = b.userId)
    (hdb : db.billings = Rows.update Billing.id id g w.db.billings) : Single { w with db } :=
  ⟨h.1, by
    rw [hdb]
    exact h.2.update hg⟩

theorem keeps_writeUserBilling (input : UpdateUserBillingInput) (user : User) (b : Billing) :
    (transaction (writeUserBilling input user (some b))).Keeps Single := by
  refine keeps_transaction fun w hw => ?_
  rcases run_writeUserBilling_cases hw.1 rfl with ⟨-, h⟩ | ⟨c, db, -, h, hpaid⟩
  · rwa [h]
  · rw [h]
    exact single_of_update (g := paidBilling input c w.env.now) hw (fun _ => rfl) hpaid.billings

theorem keepsWhere_writeUserBilling (input : UpdateUserBillingInput) (user : User)
    (billing : Option Billing) :
    (transaction (writeUserBilling input user billing)).KeepsWhere StillFirst Single := by
  cases billing with
  | some b => exact .of_keeps (keeps_writeUserBilling input user b)
  | none =>
    refine .mk ?_ ?_ ?_ <;> intro w p' born t hw hC hn <;> rw [next_transaction] at hn <;> cases hn
    · rcases run_writeUserBilling_cases hw.1 rfl with ⟨-, h⟩ | ⟨c, db, -, h, hpaid⟩
      · rwa [h]
      · rw [h]
        refine ⟨hw.1, ?_⟩
        rw [hpaid.billings]
        exact hw.2.append (hC input user rfl (by simp [hpaid.customer]))
    · simp
    · exact .of_settled (Async.settled_settled _)

theorem keepsWhere_registerUserBilling (input : UpdateUserBillingInput) :
    (registerUserBilling input).KeepsWhere StillFirst Single := by
  refine .bind (keeps_select _ _) fun user => ?_
  cases user with
  | none => exact .of_settled ⟨.error _, rfl⟩
  | some user => exact .bind (keeps_select _ _) fun b => keepsWhere_writeUserBilling input user b

theorem keepsWhere_invoicePaid (invoice : Invoice) :
    (invoicePaid invoice).KeepsWhere StillFirst Single := by
  unfold invoicePaid
  split
  next => exact .of_settled ⟨.error _, rfl⟩
  next => exact .of_settled ⟨.ok (), rfl⟩
  next =>
    split
    next => exact .of_settled ⟨.error _, rfl⟩
    next =>
      split
      next => exact .of_settled ⟨.error _, rfl⟩
      next =>
        refine .bind (keeps_select _ _) fun product => ?_
        cases product with
        | none => exact .of_settled ⟨.ok (), rfl⟩
        | some product =>
          dsimp only
          split_ifs
          · exact .of_settled ⟨.error _, rfl⟩
          · exact keepsWhere_registerUserBilling _

theorem keeps_ifSubscribed {s : String} {write : Billing → Promise Unit}
    (h : ∀ b, (write b).Keeps Single) : (ifSubscribed s write).Keeps Single := by
  unfold ifSubscribed
  split_ifs
  · trivial
  refine (keeps_select _ _).bind fun billing => ?_
  cases billing with
  | none => trivial
  | some b => exact h b

theorem keeps_updateBillingOnPaymentFailed (s : String) :
    (updateBillingOnPaymentFailed s).Keeps Single := by
  refine keeps_ifSubscribed fun b => (keeps_write fun w hw => ?_).bind fun _ => trivial
  rcases hs : updateBilling b.id failedUpdates w w.db with e | ⟨row, db⟩
  · have hw' : w.exec (updateBilling b.id failedUpdates) = w := by simp [World.exec, hs]
    exact hw'.symm ▸ hw
  · obtain ⟨-, -, -, hdb⟩ := updateBilling_ok_of_apply (applyTo_failed w.env.now) hs
    have hw' := single_of_update (g := failedBilling w.env.now) hw (fun _ => rfl) hdb
    rwa [← exec_ok hs] at hw'

theorem keeps_updateBillingOnSubscriptionUpdated (input : SubscriptionUpdate) :
    (updateBillingOnSubscriptionUpdated input).Keeps Single := by
  refine keeps_ifSubscribed fun b => keeps_transaction fun w hw => ?_
  rcases run_writeSubscriptionUpdate_cases hw.1 rfl with ⟨-, h⟩ | ⟨db, -, h, hup⟩
  · rwa [h]
  · rw [h]
    exact single_of_update (g := updatedBilling input w.env.now) hw (fun _ => rfl) hup.billings

theorem keeps_updateBillingOnSubscriptionDeleted (s : String) :
    (updateBillingOnSubscriptionDeleted s).Keeps Single := by
  refine keeps_ifSubscribed fun b => keeps_transaction fun w hw => ?_
  rcases run_writeSubscriptionDeleted_cases hw.1 rfl with ⟨-, h⟩ | ⟨db, -, h, hdel⟩
  · rwa [h]
  · rw [h]
    exact single_of_update (g := deletedBilling w.env.now) hw (fun _ => rfl) hdel.billings

theorem keeps_subscriptionUpdated (sub : Subscription) :
    (subscriptionUpdated sub).Keeps Single := by
  unfold subscriptionUpdated
  dsimp only
  split
  next => trivial
  next =>
    split
    next => exact keeps_updateBillingOnSubscriptionUpdated _
    next =>
      exact (keeps_select _ _).bind fun _ => keeps_updateBillingOnSubscriptionUpdated _

/-- Only the first row of a user needs the condition. -/
theorem keepsWhere_handler {p : Promise Unit} (h : Handler p) : p.KeepsWhere StillFirst Single := by
  obtain ⟨event, rfl⟩ := h
  cases event with
  | invoicePaid invoice => exact keepsWhere_invoicePaid invoice
  | invoicePaymentFailed invoice =>
    rw [processBillingWebhookHandler, invoicePaymentFailed_eq]
    split
    next => exact .of_settled ⟨.error _, rfl⟩
    next => exact .of_keeps (keeps_updateBillingOnPaymentFailed _)
  | subscriptionUpdated sub => exact .of_keeps (keeps_subscriptionUpdated sub)
  | subscriptionDeleted sub => exact .of_keeps (keeps_updateBillingOnSubscriptionDeleted _)
  | other type => exact .of_settled ⟨.ok (), rfl⟩

/-- From an empty table, and with handlers starting at any time, no user has two rows as long
as every handler about to add a first row finds its user still without one. -/
theorem one_row_per_user {w₀ : World} {x : Async.Pool World Err Unit} (h₀ : w₀.trx = none)
    (hb : w₀.db.billings = [])
    (hrun : Async.Pool.StepsWhere Handler Ticks StillFirst ([], w₀) x) :
    UniqueOwners x.2.db.billings := by
  refine (hrun.keeps (I := Single) (fun p => keepsWhere_handler) ?_ (by simp)
    ⟨h₀, by simp [UniqueOwners, hb]⟩).1.2
  rintro v _ ⟨-⟩ hv
  exact hv

theorem stillFirst_of_empty {p : Promise Unit} (h : w.db.billings = []) : StillFirst p w := by
  intro input user _ _
  simp [h]

namespace Sample

/-- One or two deliveries of the same paid invoice, just received. -/
def paying : Async.Pool World Err Unit :=
  ([⟨processBillingWebhookHandler (.invoicePaid paidInvoice), []⟩], signedIn)

def payingTwice : Async.Pool World Err Unit :=
  ([⟨processBillingWebhookHandler (.invoicePaid paidInvoice), []⟩,
    ⟨processBillingWebhookHandler (.invoicePaid paidInvoice), []⟩], signedIn)

/-- Both read before the first one writes. -/
def firstPaid : Async.Pool World Err Unit := payingTwice.runSchedule [0, 0, 0, 1, 1, 1, 0]

def laterEnv : Environment := { env with uuid := "u2" }

def bothPaid : Async.Pool World Err Unit :=
  Async.Pool.runSchedule [1] (firstPaid.1, { firstPaid.2 with env := laterEnv })

set_option maxRecDepth 10000 in
theorem paying_facts : signedIn.trx.isNone = true ∧ signedIn.db.billings = [] ∧
    (∀ n < 4, (paying.runSchedule ([0, 0, 0, 0].take n)).2.db.billings = []) ∧
    (paying.runSchedule [0, 0, 0, 0]).2.db.billings.length = 1 ∧
    firstPaid.2.env.now ≤ laterEnv.now ∧
    ¬ (bothPaid.2.db.billings.map Billing.userId).Nodup := by decide +kernel

end Sample

/-- One paid invoice, handled step by step. -/
theorem one_row_per_user_first : Async.Pool.StepsWhere Handler Ticks StillFirst
      ([], Sample.signedIn) (Sample.paying.runSchedule [0, 0, 0, 0]) ∧
    (Sample.paying.runSchedule [0, 0, 0, 0]).2.db.billings.length = 1 ∧
    UniqueOwners (Sample.paying.runSchedule [0, 0, 0, 0]).2.db.billings := by
  obtain ⟨htrx, hb, hempty, hlen, -⟩ := Sample.paying_facts
  have hrun : Async.Pool.StepsWhere Handler Ticks StillFirst ([], Sample.signedIn)
      (Sample.paying.runSchedule [0, 0, 0, 0]) :=
    .head ⟨.arrive ⟨_, rfl⟩, by simp⟩ (Async.Pool.stepsWhere_runSchedule [0, 0, 0, 0] Sample.paying
      fun n hn _ _ => stillFirst_of_empty (hempty n hn))
  exact ⟨hrun, hlen, one_row_per_user (Option.isNone_iff_eq_none.mp htrx) hb hrun⟩

/-- Two deliveries that both read before the first one writes leave the user two rows. -/
theorem two_rows_for_one_user : ¬ ∀ (w₀ : World) (x : Async.Pool World Err Unit),
    w₀.trx = none → w₀.db.billings = [] →
      Async.Pool.Steps Handler Ticks ([], w₀) x → UniqueOwners x.2.db.billings := by
  intro h
  obtain ⟨htrx, hb, -, -, hle, htwo⟩ := Sample.paying_facts
  have harrive : Async.Pool.Steps Handler Ticks ([], Sample.signedIn) Sample.payingTwice :=
    .tail (.single (.arrive ⟨.invoicePaid Sample.paidInvoice, rfl⟩)) (.arrive ⟨_, rfl⟩)
  have hfirst : Async.Pool.Steps Handler Ticks ([], Sample.signedIn) Sample.firstPaid :=
    harrive.trans (Async.Pool.steps_runSchedule ..)
  have hboth : Async.Pool.Steps Handler Ticks ([], Sample.signedIn) Sample.bothPaid :=
    (hfirst.tail (.tick (.tick hle))).trans (Async.Pool.steps_runSchedule ..)
  exact htwo (h _ _ (Option.isNone_iff_eq_none.mp htrx) hb hboth)

end CodebaseTrpc
