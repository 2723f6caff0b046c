import CodebaseTrpc.Invariants.Billings

/-! Whom a paid invoice is credited to. The handler finds the payer by the email the invoice
carries, not by the subscription or the customer it names. -/
namespace CodebaseTrpc
variable {P : Packages} {w w' : World}

/-- The invoice names the subscription or the customer of the billing row. -/
def Recorded (invoice : Invoice) (b : Billing) : Prop :=
  subscriptionIdOf invoice.parentSubscription = some b.externalSubscriptionId ∨
    invoice.customer = some b.externalCustomerId

/-- Processed at any instant, the invoice updates this billing row and this user's product, and
nothing else of the two tables. -/
def Attributed (w : World) (invoice : Invoice) (u : User) (b : Billing) : Prop :=
  ∀ (env : Environment) r w',
    (processBillingWebhookHandler (.invoicePaid invoice)).Exec { w with env } r w' →
      ∃ p s c periodEnd, Complete w.db invoice p s c periodEnd ∧ r = .ok () ∧
        w'.db.users = Rows.update User.id u.id ((setProduct p.id).apply env.now) w.db.users ∧
        w'.db.billings = Rows.update Billing.id b.id (fun row =>
          { row with
            productId := p.id
            externalSubscriptionId := s
            externalCustomerId := c
            status := "active"
            expiresAt := unixTimestampToDate periodEnd
            updatedAt := env.now }) w.db.billings

/-- The payer is found by email; a complete invoice of this user's email updates its row. -/
theorem attributed_of_email {invoice : Invoice} {u : User} {b : Billing} {p : Product}
    {s c : String} {periodEnd : ℕ} (htrx : w.trx = none) (hunique : UniqueOwners w.db.billings)
    (hu : u ∈ w.db.users) (hb : b ∈ w.db.billings) (hown : b.userId = u.id)
    (hc : Complete w.db invoice p s c periodEnd) (he : invoice.customerEmail.getD "" = u.email) :
    Attributed w invoice u b := by
  intro env r w' hx
  rw [Async.exec_iff_run (awaits_processBillingWebhookHandler _)] at hx
  have hlook : Rows.lookup User.email (invoice.customerEmail.getD "") w.db.users = some u :=
    (Rows.lookup_eq_some w.db.sound.users_email).mpr ⟨hu, he.symm⟩
  obtain ⟨db, hrun, hpaid⟩ := run_invoicePaid_of_complete (w := { w with env }) htrx hc hlook
    (hown ▸ lookup_owner hunique hb)
  obtain ⟨rfl, rfl⟩ := Prod.mk.inj (hx.symm.trans hrun)
  exact ⟨p, s, c, periodEnd, hc, rfl, hpaid.users, hpaid.billings⟩

/-- An invoice that updates the user's row carries the user's email. -/
theorem email_of_attributed {invoice : Invoice} {u : User} {b : Billing} (htrx : w.trx = none)
    (hu : u ∈ w.db.users) (h : Attributed w invoice u b) :
    (∃ p s c periodEnd, Complete w.db invoice p s c periodEnd) ∧
      invoice.customerEmail.getD "" = u.email := by
  -- an instant at which the update of the user shows in its row
  let env : Environment := w.env.notAt u.updatedAt
  let v : World := { w with env }
  have hx := Async.exec_run (processBillingWebhookHandler (.invoicePaid invoice)) v
  obtain ⟨p, s, c, periodEnd, hc, -, husers, -⟩ := h env _ _ hx
  refine ⟨⟨p, s, c, periodEnd, hc⟩, ?_⟩
  by_contra hne
  have hrow : (setProduct p.id).apply env.now u ∈ ((processBillingWebhookHandler
      (.invoicePaid invoice)).run v).2.db.users := by
    rw [husers]
    exact Rows.mem_update_self User.id _ hu
  -- whoever the email belongs to, it is not this user whose row is written
  have hkept : u ∈ ((processBillingWebhookHandler (.invoicePaid invoice)).run v).2.db.users := by
    rcases run_processBillingWebhookHandler_cases (w := v) htrx rfl with hw | ⟨db, -, hw, hbilled⟩
    · rw [hw]
      exact hu
    · rw [hw]
      cases hbilled with
      | @paid _ input x _ _ hinput hlook hpaid =>
        have hemail : x.email = invoice.customerEmail.getD "" :=
          (Rows.lookup_key hlook).trans (paidInput_some hinput).1
        rw [hpaid.users]
        refine Rows.mem_update.mpr (.inr ⟨hu, fun hid => hne ?_⟩)
        rw [← hemail, Db.user_eq hu (Rows.lookup_mem hlook) hid]
  have hsame := Db.user_eq hrow hkept rfl
  exact w.env.notAt_now u.updatedAt (congrArg User.updatedAt hsame)

/-- In every reachable world, a paid invoice updates a user's billing row exactly if it is
complete and carries the email the user has now. -/
theorem attributed_iff {w₀ : World} {tr : List Entry} {invoice : Invoice} {u : User} {b : Billing}
    (hrun : ServerRun P w₀ tr w) (h₀ : Fresh w₀) (hu : u ∈ w.db.users) (hb : b ∈ w.db.billings)
    (hown : b.userId = u.id) : Attributed w invoice u b ↔
      (∃ p s c periodEnd, Complete w.db invoice p s c periodEnd) ∧
        invoice.customerEmail.getD "" = u.email := by
  have htrx := RunWhere.trx hrun h₀.trx
  have hunique := RunWhere.uniqueOwners hrun h₀.trx (by simp [UniqueOwners, h₀.billings])
  constructor
  · exact email_of_attributed htrx hu
  · rintro ⟨⟨p, s, c, periodEnd, hc⟩, he⟩
    exact attributed_of_email htrx hunique hu hb hown hc he

namespace Sample

def rename : Move := .ask (.updateUserById (some accessToken.text) { email := some "ann@new" })

def renamed : World := play packages start (purchase ++ [rename])

set_option maxRecDepth 10000 in
theorem bought_facts : buyer bought ∈ bought.db.users ∧ bill bought ∈ bought.db.billings ∧
    (bill bought).userId = (buyer bought).id := by decide +kernel

set_option maxRecDepth 10000 in
theorem renamed_facts : buyer renamed ∈ renamed.db.users ∧ bill renamed ∈ renamed.db.billings ∧
    (bill renamed).userId = (buyer renamed).id ∧
    (bill renamed).externalSubscriptionId = "sub_1" ∧
    paidInvoice.customerEmail ∈ renamed.checkouts.map CheckoutSession.customerEmail ∧
    (buyer renamed).email = "ann@new" := by decide +kernel

end Sample

/-- The renewal of a subscription whose user kept its email. -/
theorem attributed_iff_bought :
    Attributed Sample.bought Sample.paidInvoice (Sample.buyer Sample.bought)
      (Sample.bill Sample.bought) ↔
    (∃ p s c periodEnd, Complete Sample.bought.db Sample.paidInvoice p s c periodEnd) ∧
      Sample.paidInvoice.customerEmail.getD "" = (Sample.buyer Sample.bought).email := by
  obtain ⟨tr, hrun⟩ := serverRun_play Sample.packages Sample.start Sample.purchase
  obtain ⟨hu, hb, hown⟩ := Sample.bought_facts
  exact attributed_iff hrun Sample.start_fresh hu hb hown

/-- After a change of email the renewal of the subscription on file reaches nobody. -/
theorem renewal_lost_after_rename : ¬ ∀ (tr : List Entry) (w : World) (u : User) (b : Billing)
    (invoice : Invoice), ServerRun Sample.packages Sample.start tr w → u ∈ w.db.users →
      b ∈ w.db.billings → b.userId = u.id → Recorded invoice b →
      invoice.customerEmail ∈ w.checkouts.map CheckoutSession.customerEmail →
      Attributed w invoice u b := by
  intro h
  obtain ⟨tr, hrun⟩ := serverRun_play Sample.packages Sample.start
    (Sample.purchase ++ [Sample.rename])
  obtain ⟨hu, hb, hown, hsub, hcheckout, hemail⟩ := Sample.renamed_facts
  have hat := h tr _ _ _ Sample.paidInvoice hrun hu hb hown (.inl (congrArg some hsub.symm))
    hcheckout
  have he := (email_of_attributed (RunWhere.trx hrun rfl) hu hat).2
  rw [hemail] at he
  revert he
  decide

end CodebaseTrpc
