import CodebaseTrpc.Spec.Effect

/-! A webhook event as a value: whose rows it writes, and what it writes there. The handler does
what the plan says. -/
namespace CodebaseTrpc
variable {w : World} {db db' : Db} {event : BillingEvent}

/-- What becomes of a billing row. -/
inductive Rewrite where
  | paid (input : UpdateUserBillingInput) (customer : String)
  | failed
  | updated (input : SubscriptionUpdate)
  | deleted

def Rewrite.apply : Rewrite → ℕ → Billing → Billing
  | .paid input c => paidBilling input c
  | .failed => failedBilling
  | .updated input => updatedBilling input
  | .deleted => deletedBilling

@[simp] theorem Rewrite.apply_id (f : Rewrite) (now : ℕ) (b : Billing) :
    (f.apply now b).id = b.id := by cases f <;> rfl
@[simp] theorem Rewrite.apply_userId (f : Rewrite) (now : ℕ) (b : Billing) :
    (f.apply now b).userId = b.userId := by cases f <;> rfl

inductive BillingChange where
  | create (input : UpdateUserBillingInput) (customer : String)
  | rewrite (billing : Billing) (f : Rewrite)

/-- The writes of one event: the product of its user, if it changes, and a billing row. -/
structure Change where
  userId : String
  product : Option String
  billing : BillingChange

/-- The tables after the change, made in the surroundings `env`. -/
def Change.users (c : Change) (env : Environment) (users : List User) : List User :=
  match c.product with
  | none => users
  | some p => Rows.update User.id c.userId ((setProduct p).apply env.now) users

def Change.billings (c : Change) (env : Environment) (billings : List Billing) : List Billing :=
  match c.billing with
  | .create input customer => billings ++ [newBilling input customer c.userId env]
  | .rewrite b f => Rows.update Billing.id b.id (f.apply env.now) billings

structure Change.Writes (c : Change) (env : Environment) (db db' : Db) : Prop where
  products : db'.products = db.products
  users : db'.users = c.users env db.users
  billings : db'.billings = c.billings env db.billings

/-- The rewriting of the row with the subscription on file. -/
def onFile (db : Db) (s : String) (f : Rewrite) (product : Billing → Option String) :
    Option Change :=
  if s = "" then none
  else (Rows.lookup Billing.externalSubscriptionId s db.billings).map fun b =>
    ⟨b.userId, product b, .rewrite b f⟩

/-- A paid invoice creates the billing row of its user, or rewrites it. -/
def paidChange (db : Db) (input : UpdateUserBillingInput) (user : User) (c : String) : Change where
  userId := user.id
  product := some input.productId
  billing := match Rows.lookup Billing.userId user.id db.billings with
    | none => .create input c
    | some b => .rewrite b (.paid input c)

/-- The customer of a paid invoice, if what it writes fits the columns. -/
def UpdateUserBillingInput.fittingCustomer (input : UpdateUserBillingInput) : Option String :=
  input.externalCustomerId.filter fun c => input.Fits c

theorem fittingCustomer_eq_some {input : UpdateUserBillingInput} {c : String} :
    input.fittingCustomer = some c ↔ input.externalCustomerId = some c ∧ input.Fits c := by
  simp [UpdateUserBillingInput.fittingCustomer, Option.filter_eq_some_iff]

def Db.freeTier (db : Db) : Option Product := Rows.lookup Product.isFreeTier true db.products

/-- What the handler of an event will write, if it writes. -/
def plan (db : Db) : BillingEvent → Option Change
  | .invoicePaid invoice =>
    match paidInput db invoice with
    | .ok (some input) =>
      (Rows.lookup User.email input.userEmail db.users).bind fun user =>
        input.fittingCustomer.map (paidChange db input user)
    | _ => none
  | .invoicePaymentFailed invoice =>
    (failedSubscription invoice).bind fun s => onFile db s .failed fun _ => none
  | .subscriptionUpdated sub =>
    (updateInput db sub).bind fun input =>
      if ¬ input.Fits ∨ (input.Ended ∧ db.freeTier = none) then none
      else onFile db sub.id (.updated input) (productWritten db.freeTier input)
  | .subscriptionDeleted sub =>
    db.freeTier.bind fun free => onFile db sub.id .deleted fun _ => some free.id
  | .other _ => none

/-- The user whose rows an event is about. -/
def BillingEvent.resolves (db : Db) : BillingEvent → Option String
  | .invoicePaid invoice =>
    (Rows.lookup User.email (invoice.customerEmail.getD "") db.users).map User.id
  | .invoicePaymentFailed invoice => (failedSubscription invoice).bind fun s =>
    (Rows.lookup Billing.externalSubscriptionId s db.billings).map Billing.userId
  | .subscriptionUpdated sub | .subscriptionDeleted sub =>
    (Rows.lookup Billing.externalSubscriptionId sub.id db.billings).map Billing.userId
  | .other _ => none

/-- The billing row that is written is the user's, and only the subscription of the event can come
on file. -/
def BillingChange.Sound (db : Db) (event : BillingEvent) (userId : String) : BillingChange → Prop
  | .create input _ => subscriptionOf event = some input.externalSubscriptionId ∧
      ∀ b ∈ db.billings, b.userId ≠ userId
  | .rewrite b f => b ∈ db.billings ∧ b.userId = userId ∧ ∀ now x,
      (f.apply now x).externalSubscriptionId = x.externalSubscriptionId ∨
        subscriptionOf event = some (f.apply now x).externalSubscriptionId

theorem onFile_some {s : String} {f : Rewrite} {product : Billing → Option String}
    {c : Change} (h : onFile db s f product = some c) : s ≠ "" ∧
      ∃ b, Rows.lookup Billing.externalSubscriptionId s db.billings = some b ∧
        c = ⟨b.userId, product b, .rewrite b f⟩ := by
  unfold onFile at h
  split_ifs at h with hs
  obtain ⟨b, hb, rfl⟩ := Option.map_eq_some_iff.mp h
  exact ⟨hs, b, hb, rfl⟩

theorem onFile_of_lookup {s : String} {b : Billing} (hs : s ≠ "")
    (hb : Rows.lookup Billing.externalSubscriptionId s db.billings = some b)
    (f : Rewrite) (product : Billing → Option String) :
    onFile db s f product = some ⟨b.userId, product b, .rewrite b f⟩ := by
  simp [onFile, hs, hb]

/-- A plan is for the user that the event resolves to. -/
theorem plan_sound {c : Change} (h : plan db event = some c) :
    event.resolves db = some c.userId ∧ c.billing.Sound db event c.userId := by
  cases event with
  | invoicePaid invoice =>
    simp only [plan] at h
    split at h
    next input hinput =>
      obtain ⟨user, hu, h⟩ := Option.bind_eq_some_iff.mp h
      obtain ⟨customer, -, rfl⟩ := Option.map_eq_some_iff.mp h
      obtain ⟨hemail, -, hs, -⟩ := paidInput_some hinput
      refine ⟨by simp [BillingEvent.resolves, ← hemail, hu, paidChange], ?_⟩
      simp only [paidChange]
      cases hl : Rows.lookup Billing.userId user.id db.billings with
      | none => exact ⟨hs, Rows.lookup_eq_none.mp hl⟩
      | some b => exact ⟨Rows.lookup_mem hl, Rows.lookup_key hl, fun _ _ => .inr hs⟩
    next => cases h
  | invoicePaymentFailed invoice =>
    obtain ⟨s, hs, h⟩ := Option.bind_eq_some_iff.mp h
    obtain ⟨-, b, hb, rfl⟩ := onFile_some h
    exact ⟨by simp [BillingEvent.resolves, hs, hb], Rows.lookup_mem hb, rfl,
      fun _ _ => .inl rfl⟩
  | subscriptionUpdated sub =>
    obtain ⟨input, -, h⟩ := Option.bind_eq_some_iff.mp h
    split_ifs at h
    obtain ⟨-, b, hb, rfl⟩ := onFile_some h
    exact ⟨by simp [BillingEvent.resolves, hb], Rows.lookup_mem hb, rfl,
      fun _ _ => .inl rfl⟩
  | subscriptionDeleted sub =>
    obtain ⟨free, -, h⟩ := Option.bind_eq_some_iff.mp h
    obtain ⟨-, b, hb, rfl⟩ := onFile_some h
    exact ⟨by simp [BillingEvent.resolves, hb], Rows.lookup_mem hb, rfl,
      fun _ _ => .inl rfl⟩
  | other type => cases h

theorem Paid.writes {input : UpdateUserBillingInput} {user : User} {c : String}
    (h : Paid w input user (Rows.lookup Billing.userId user.id w.db.billings) c db) :
    (paidChange w.db input user c).Writes w.env w.db db where
  products := h.products
  users := h.users
  billings := by
    rw [h.billings, Change.billings, paidChange]
    cases Rows.lookup Billing.userId user.id w.db.billings <;> rfl

theorem Updated.writes {input : SubscriptionUpdate} {b : Billing} (h : Updated w input b db) :
    (⟨b.userId, productWritten w.freeTier input b, .rewrite b (.updated input)⟩ :
      Change).Writes w.env w.db db :=
  ⟨h.products, h.users, h.billings⟩

theorem subscriptionIdOf_ne {o : Option Expandable} {s : String} (h : subscriptionIdOf o = some s) :
    s ≠ "" := by
  rcases o with _ | (_ | _) <;> simp only [subscriptionIdOf] at h
  · cases h
  all_goals
    split_ifs at h with hs
    exact Option.some.inj h ▸ hs

/-- What was written was planned. -/
theorem Billed.planned (h : Billed w event db) :
    ∃ c, plan w.db event = some c ∧ c.Writes w.env w.db db := by
  cases h with
  | @paid invoice input u c _ hinput hu h =>
    refine ⟨paidChange w.db input u c, ?_, h.writes⟩
    simp only [plan, hinput, hu, fittingCustomer_eq_some.mpr ⟨h.customer, h.fits⟩]
    rfl
  | @failed invoice s b _ hs hb users products billings =>
    refine ⟨⟨b.userId, none, .rewrite b .failed⟩, ?_, products, users, billings⟩
    simp only [plan, hs, Option.bind_some]
    exact onFile_of_lookup (subscriptionIdOf_ne hs) hb _ _
  | updated hinput hne hb h =>
    refine ⟨_, ?_, h.writes⟩
    have hplanned : ¬ (¬ _ ∨ _ ∧ w.db.freeTier = none) :=
      not_or.mpr ⟨not_not.mpr h.fits, fun hend => h.ended hend.1 hend.2⟩
    simp only [plan, hinput, Option.bind_some, if_neg hplanned]
    exact onFile_of_lookup hne hb _ _
  | deleted hne hb h =>
    obtain ⟨free, hfree, husers⟩ := h.users
    refine ⟨⟨_, some free.id, .rewrite _ .deleted⟩, ?_, h.products, husers, h.billings⟩
    have hfree' : w.db.freeTier = some free := hfree
    simp only [plan, hfree', Option.bind_some]
    exact onFile_of_lookup hne hb _ _

theorem Db.owner {b : Billing} (hb : b ∈ db.billings) :
    ∃ u, Rows.lookup User.id b.userId db.users = some u := by
  obtain ⟨u, hu, hid⟩ := db.sound.billings_user b hb
  exact Rows.exists_lookup User.id hu hid

theorem run_updateBillingOnPaymentFailed_ok {s : String} {b : Billing} (hs : s ≠ "")
    (hb : Rows.lookup Billing.externalSubscriptionId s w.db.billings = some b) :
    ∃ db, (updateBillingOnPaymentFailed s).run w = (.ok (), { w with db }) ∧
      db.users = w.db.users ∧ db.products = w.db.products ∧
      db.billings = Rows.update Billing.id b.id (failedBilling w.env.now) w.db.billings := by
  have hmem := Rows.lookup_mem hb
  obtain ⟨db, hdb⟩ := updateBilling_of_apply (w := w) (applyTo_failed w.env.now) hmem
    (fun _ => rfl) (fun _ => rfl) (w.db.sound.billings_product b hmem)
    (failedBilling_fits (w.db.sound.billings_fit b hmem))
  obtain ⟨-, hu, hp, hbs⟩ := updateBilling_ok_of_apply (applyTo_failed w.env.now) hdb
  refine ⟨db, ?_, hu, hp, hbs⟩
  rw [updateBillingOnPaymentFailed_eq, run_ifSubscribed _ hs hb]
  refine (Async.run_bind_ok (a := failedBilling w.env.now b) (t := { w with db }) ?_).trans rfl
  change (write .knex (updateBilling b.id failedUpdates)).run w = _
  rw [run_write, exec_ok hdb, hdb]
  rfl

/-- The handler of a paid invoice that fits, once its user and its customer are known. -/
theorem run_invoicePaid_ok {invoice : Invoice} {input : UpdateUserBillingInput} {user : User}
    {c : String} (htrx : w.trx = none)
    (hfresh : Rows.lookup Billing.userId user.id w.db.billings = none →
      ∀ b ∈ w.db.billings, b.id ≠ w.env.uuid)
    (hinput : paidInput w.db invoice = .ok (some input))
    (hu : Rows.lookup User.email input.userEmail w.db.users = some user)
    (hc : input.externalCustomerId = some c) (hfit : input.Fits c) :
    ∃ db, (processBillingWebhookHandler (.invoicePaid invoice)).run w = (.ok (), { w with db }) ∧
      Paid w input user (Rows.lookup Billing.userId user.id w.db.billings) c db := by
  obtain ⟨-, -, -, hp⟩ := paidInput_some hinput
  have hid := (Rows.lookup_eq_some (k := user.id) w.db.sound.users_id).mpr ⟨Rows.lookup_mem hu, rfl⟩
  rw [processBillingWebhookHandler, run_invoicePaid, hinput]
  dsimp only
  rw [run_registerUserBilling, hu]
  dsimp only
  cases hl : Rows.lookup Billing.userId user.id w.db.billings with
  | none => exact run_createUserBilling_ok input htrx (hfresh hl) hc hfit hid hp
  | some b => exact run_writeUserBilling_ok input htrx hc hfit hid (Rows.lookup_mem hl) hp

/-- A complete invoice of a user with a billing row updates that row. -/
theorem run_invoicePaid_of_complete {invoice : Invoice} {p : Product} {s c : String}
    {periodEnd : ℕ} {u : User} {b : Billing} (htrx : w.trx = none)
    (h : Complete w.db invoice p s c periodEnd)
    (hu : Rows.lookup User.email (invoice.customerEmail.getD "") w.db.users = some u)
    (hb : Rows.lookup Billing.userId u.id w.db.billings = some b) :
    ∃ db, (processBillingWebhookHandler (.invoicePaid invoice)).run w = (.ok (), { w with db }) ∧
      Paid w ⟨invoice.customerEmail.getD "", p.id, some c, s, periodEnd⟩ u (some b) c db := by
  rw [← hb]
  refine run_invoicePaid_ok htrx (fun hl => ?_) (paidInput_of_complete h) hu rfl h.fits
  cases hb.symm.trans hl

/-- Surroundings whose clock shows another instant than `t`. -/
def Environment.notAt (env : Environment) (t : ℕ) : Environment :=
  { env with now := if t = 0 then 1 else 0, now_valid := by split <;> decide }

theorem Environment.notAt_now (env : Environment) (t : ℕ) : (env.notAt t).now ≠ t := by
  simp only [Environment.notAt]
  split_ifs with h <;> omega

/-- A row that is created gets an id that is new. -/
def Change.Drawn (w : World) (c : Change) : Prop :=
  ∀ input customer, c.billing = .create input customer → ∀ b ∈ w.db.billings, b.id ≠ w.env.uuid

/-- What is planned is written. -/
theorem run_of_plan {c : Change} (htrx : w.trx = none) (hfresh : c.Drawn w)
    (h : plan w.db event = some c) :
    ∃ db, (processBillingWebhookHandler event).run w = (.ok (), { w with db }) ∧
      c.Writes w.env w.db db := by
  cases event with
  | invoicePaid invoice =>
    simp only [plan] at h
    split at h
    next input hinput =>
      obtain ⟨user, hu, h⟩ := Option.bind_eq_some_iff.mp h
      obtain ⟨customer, hc, rfl⟩ := Option.map_eq_some_iff.mp h
      obtain ⟨hc, hfit⟩ := fittingCustomer_eq_some.mp hc
      obtain ⟨db, hrun, hp⟩ := run_invoicePaid_ok htrx
        (fun hl => hfresh input customer (by simp [paidChange, hl])) hinput hu hc hfit
      exact ⟨db, hrun, hp.writes⟩
    next => cases h
  | invoicePaymentFailed invoice =>
    obtain ⟨s, hs, h⟩ := Option.bind_eq_some_iff.mp h
    obtain ⟨hne, b, hb, rfl⟩ := onFile_some h
    obtain ⟨db, hrun, hu, hp, hbs⟩ := run_updateBillingOnPaymentFailed_ok hne hb
    refine ⟨db, ?_, hp, hu, hbs⟩
    rw [processBillingWebhookHandler, invoicePaymentFailed_eq, hs]
    exact hrun
  | subscriptionUpdated sub =>
    obtain ⟨input, hinput, h⟩ := Option.bind_eq_some_iff.mp h
    split_ifs at h with hend
    obtain ⟨hfit, hend⟩ := not_or.mp hend
    obtain ⟨hne, b, hb, rfl⟩ := onFile_some h
    obtain ⟨u, hu⟩ := Db.owner (Rows.lookup_mem hb)
    obtain ⟨db, hrun, hup⟩ := run_subscriptionUpdated_ok htrx hinput hne hb hu
      (fun he hfree => hend ⟨he, hfree⟩) (not_not.mp hfit)
    exact ⟨db, hrun, hup.writes⟩
  | subscriptionDeleted sub =>
    obtain ⟨free, hfree, h⟩ := Option.bind_eq_some_iff.mp h
    obtain ⟨hne, b, hb, rfl⟩ := onFile_some h
    obtain ⟨u, hu⟩ := Db.owner (Rows.lookup_mem hb)
    have hfree' : w.freeTier = some free := hfree
    obtain ⟨db, hrun, hdel⟩ := run_subscriptionDeleted_ok htrx hne hb hu (by simp [hfree'])
    obtain ⟨p, hp, husers⟩ := hdel.users
    cases hfree'.symm.trans hp
    exact ⟨db, hrun, hdel.products, husers, hdel.billings⟩
  | other type => cases h

/-- A delivery carries out the plan of its event, or there is none and it changes nothing. -/
theorem exec_webhook_planned {P : Packages} {r : Except Err Reply} {w' : World}
    (htrx : w.trx = none) (hfresh : ∀ b ∈ w.db.billings, b.id ≠ w.env.uuid)
    (h : (handle P (.webhook event)).Exec w r w') : w'.trx = none ∧
      match plan w.db event with
      | none => w'.db = w.db
      | some c => c.Writes w.env w.db w'.db := by
  cases hplan : plan w.db event with
  | some c =>
    obtain ⟨db, hrun, hwrites⟩ := run_of_plan htrx (fun _ _ _ => hfresh) hplan
    obtain ⟨-, rfl⟩ := exec_webhook_ok hrun h
    exact ⟨htrx, hwrites⟩
  | none =>
    cases effect_of_exec htrx h with
    | none => exact ⟨htrx, rfl⟩
    | webhook hb =>
      obtain ⟨c, hc, -⟩ := hb.planned
      cases hplan.symm.trans hc

end CodebaseTrpc
