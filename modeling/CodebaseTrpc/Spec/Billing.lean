import CodebaseTrpc.Async.Faults
import CodebaseTrpc.Model.Controller
import CodebaseTrpc.Spec.Sessions
import CodebaseTrpc.Spec.Auth

/-! What the transactions of `billing.service.ts` and the webhook handlers did. -/
namespace CodebaseTrpc
variable {P : Packages} {w w' : World}

/-- The world a callback sees after its own writes. -/
def World.within (w : World) (db : Db) : World := { w with trx := some db }

/-- Committed or rolled back: from what the callback may do, what the transaction may do. -/
theorem mayRun_transaction_cases {α : Type} {callback : Promise α} {Q : α → Db → Prop}
    {r : Except Err α}
    (hcb : ∀ r w₁, callback.MayRun (w.within w.db) r w₁ →
      ∃ db, w₁ = w.within db ∧ ((∃ e, r = .error e) ∨ ∃ a, r = .ok a ∧ Q a db))
    (h : (transaction callback).MayRun w r w') :
    ((∃ e, r = .error e) ∧ w' = { w with trx := none }) ∨
      ∃ a db, r = .ok a ∧ w' = { w with db, trx := none } ∧ Q a db := by
  -- what is caught rejects again, after the rollback
  have hcaught : ∀ {e : Err} {t w₁ : World} {o : Except Err α},
      (Async.act (fun w => { w with trx := none }) fun _ => .throw e : Promise α).MayRun t o w₁ →
      o = .error e ∧ w₁ = { t with trx := none } := fun h => h
  rcases h with ⟨a, t, hbody, rfl, rfl⟩ | ⟨e, t, hbody, rfl, rfl⟩
  · rcases Async.MayRun.of_tryCatch hbody with ⟨a', hrun, heq⟩ | ⟨e, t', -, hcatch⟩
    · obtain rfl := Except.ok.inj heq
      rcases Async.MayRun.of_bind hrun with ⟨_, -, heq⟩ | ⟨a', t', hrun, hcommit⟩
      · cases heq
      obtain ⟨db, rfl, ⟨_, heq⟩ | ⟨_, heq, hQ⟩⟩ := hcb _ _ hrun
      · cases heq
      obtain rfl := Except.ok.inj heq
      rcases hcommit with ⟨heq, rfl⟩ | ⟨heq, -⟩
      · obtain rfl := Except.ok.inj heq
        exact .inr ⟨_, db, rfl, rfl, hQ⟩
      · cases heq
    · cases (hcaught hcatch).1
  · left
    refine ⟨⟨e, rfl⟩, ?_⟩
    rcases Async.MayRun.of_tryCatch hbody with ⟨a', -, heq⟩ | ⟨e', t', hrun, hcatch⟩
    · cases heq
    obtain ⟨-, rfl⟩ := hcaught hcatch
    rcases Async.MayRun.of_bind hrun with ⟨_, hrun, -⟩ | ⟨a', t₁, hrun, hcommit⟩
    · obtain ⟨db, rfl, -⟩ := hcb _ _ hrun
      rfl
    · obtain ⟨db, rfl, -⟩ := hcb _ _ hrun
      rcases hcommit with ⟨heq, -⟩ | ⟨-, rfl⟩
      · cases heq
      · rfl

/-- The world between two calls has no transaction open. -/
theorem World.trx_closed (htrx : w.trx = none) (db : Db) :
    { w with db, trx := none } = { w with db } := by
  rw [← htrx]

/-- The same from the accepted side. -/
theorem run_transaction_ok {α : Type} {callback : Promise α} {a : α} {db : Db}
    (htrx : w.trx = none) (h : callback.run (w.within w.db) = (.ok a, w.within db)) :
    (transaction callback).run w = (.ok a, { w with db }) := by
  simp only [World.within] at h
  simp only [transaction, Async.run, Async.run_tryCatch, Async.run_bind, h]
  simp [htrx]

/-- Once the callback is known to return, the transaction wrote what its outcomes allow. -/
theorem written_of_run {callback : Promise Unit} {Q : Db → Prop} {db : Db} (htrx : w.trx = none)
    (hrun : callback.run (w.within w.db) = (.ok (), w.within db))
    (hcases : ∀ {r w'}, (transaction callback).run w = (r, w') →
      Refused w r w' ∨ ∃ db, r = .ok () ∧ w' = { w with db } ∧ Q db) :
    ∃ db, (transaction callback).run w = (.ok (), { w with db }) ∧ Q db := by
  have htransaction := run_transaction_ok htrx hrun
  rcases hcases htransaction with ⟨⟨_, h⟩, -⟩ | ⟨db', -, hw, hQ⟩
  · cases h
  · exact ⟨db', hw ▸ htransaction, hQ⟩

/-- A write inside the transaction. -/
theorem run_write_trx {α : Type} {statement : World → Db → Except Err (α × Db)} {db : Db} :
    (write .trx statement).run (w.within db) = match statement (w.within db) db with
      | .ok (a, db') => (.ok a, w.within db')
      | .error e => (.error e, w.within db) := by
  simp only [write, Async.run_stmt, World.view, World.put, World.within, Option.getD_some]
  cases statement { w with trx := some db } db <;> rfl

/-- A write inside the transaction and what follows it. -/
theorem mayRun_write_trx_bind_cases {α β : Type} {statement : World → Db → Except Err (α × Db)}
    {k : α → Promise β} {db : Db} {r : Except Err β}
    (h : ((write .trx statement).bind k).MayRun (w.within db) r w') :
    ((∃ e, r = .error e) ∧ w' = w.within db) ∨
      ∃ a d, statement (w.within db) db = .ok (a, d) ∧ (k a).MayRun (w.within d) r w' := by
  have hview : (w.within db).view .trx = db := rfl
  rcases h with h | ⟨rfl, rfl⟩
  · simp only [hview] at h
    cases hs : statement (w.within db) db with
    | ok x =>
      rw [hs] at h
      exact .inr ⟨x.1, x.2, rfl, h⟩
    | error e =>
      rw [hs] at h
      obtain ⟨rfl, rfl⟩ := h
      exact .inl ⟨⟨e, rfl⟩, rfl⟩
  · exact .inl ⟨⟨connectionLost, rfl⟩, rfl⟩

/-- An update of the user's product, as the last write. -/
theorem mayRun_setProduct_trx_cases {userId productId : String} {d : Db} {r : Except Err Unit}
    (h : ((updateUserById userId (setProduct productId) .trx).bind fun _ => .pure ()).MayRun
      (w.within d) r w') :
    ∃ db, w' = w.within db ∧ ((∃ e, r = .error e) ∨ (r = .ok () ∧
      (∃ u ∈ d.users, u.id = userId) ∧
      db.users = Rows.update User.id userId ((setProduct productId).apply w.env.now) d.users ∧
      db.products = d.products ∧ db.billings = d.billings)) := by
  rcases mayRun_write_trx_bind_cases h with ⟨he, rfl⟩ | ⟨u, db, hs, rfl, rfl⟩
  · exact ⟨d, rfl, .inl he⟩
  · obtain ⟨v, hv, _, hu, hp, hb⟩ := updateUser_ok hs
    exact ⟨db, rfl, .inr ⟨rfl, Rows.exists_lookup_iff.mp ⟨v, hv⟩, hu, hp, hb⟩⟩

theorem run_setProduct_trx_ok {userId : String} (productId : String) {d : Db} {u : User}
    (hu : Rows.lookup User.id userId d.users = some u) :
    ∃ db, ((updateUserById userId (setProduct productId) .trx).bind fun _ => .pure ()).run
      (w.within d) = (.ok (), w.within db) := by
  obtain ⟨db, hdb⟩ := updateUser_quiet (w := w.within d) hu (setProduct_quiet productId)
  refine ⟨db, (Async.run_bind_ok (a := (setProduct productId).apply w.env.now u)
    (t := w.within db) ?_).trans rfl⟩
  rw [updateUserById, run_write_trx, hdb]
  rfl

def paidUpdates (input : UpdateUserBillingInput) : BillingUpdates where
  productId := .set input.productId
  externalSubscriptionId := .set input.externalSubscriptionId
  externalCustomerId := .set input.externalCustomerId
  status := .set "active"
  expiresAt := .set (unixTimestampToDate input.expiresAt)

/-- A billing row after a paid invoice of the customer `c`. -/
def paidBilling (input : UpdateUserBillingInput) (c : String) (now : ℕ) (b : Billing) : Billing :=
  { b with
    productId := input.productId
    externalSubscriptionId := input.externalSubscriptionId
    externalCustomerId := c
    status := "active"
    expiresAt := unixTimestampToDate input.expiresAt
    updatedAt := now }

/-- The billing row a first paid invoice creates. -/
def newBilling (input : UpdateUserBillingInput) (c userId : String) (env : Environment) :
    Billing where
  id := env.uuid
  userId := userId
  productId := input.productId
  externalSubscriptionId := input.externalSubscriptionId
  externalCustomerId := c
  status := "active"
  expiresAt := unixTimestampToDate input.expiresAt
  createdAt := env.now
  updatedAt := env.now

def failedUpdates : BillingUpdates := { status := .set "past_due" }

def failedBilling (now : ℕ) (b : Billing) : Billing :=
  { b with status := "past_due", updatedAt := now }

def subscriptionUpdates (input : SubscriptionUpdate) : BillingUpdates where
  productId := spread input.productId
  status := spread input.status
  expiresAt := .set input.currentPeriodEnd

def updatedBilling (input : SubscriptionUpdate) (now : ℕ) (b : Billing) : Billing :=
  { b with
    productId := (spread input.productId).apply b.productId
    status := (spread input.status).apply b.status
    expiresAt := input.currentPeriodEnd
    updatedAt := now }

def deletedUpdates (now : ℕ) : BillingUpdates :=
  { status := .set "canceled", expiresAt := .set now }

def deletedBilling (now : ℕ) (b : Billing) : Billing :=
  { b with status := "canceled", expiresAt := now, updatedAt := now }

/-- An update that leaves the customer alone rewrites every row. -/
theorem applyTo_paid {input : UpdateUserBillingInput} {c : String}
    (hc : input.externalCustomerId = some c) (now : ℕ) (b : Billing) :
    (paidUpdates input).applyTo now b = some (paidBilling input c now b) := by
  simp [BillingUpdates.applyTo, paidUpdates, hc, paidBilling]

theorem applyTo_failed (now : ℕ) (b : Billing) :
    failedUpdates.applyTo now b = some (failedBilling now b) := rfl

theorem applyTo_subscription (input : SubscriptionUpdate) (now : ℕ) (b : Billing) :
    (subscriptionUpdates input).applyTo now b = some (updatedBilling input now b) := rfl

theorem applyTo_deleted (now : ℕ) (b : Billing) :
    (deletedUpdates now).applyTo now b = some (deletedBilling now b) := rfl

/-- What a paid invoice of the customer `c` writes fits the columns. -/
def UpdateUserBillingInput.Fits (input : UpdateUserBillingInput) (c : String) : Prop :=
  input.externalSubscriptionId.length ≤ 255 ∧ c.length ≤ 255 ∧
    unixTimestampToDate input.expiresAt ≤ maxTimestamp

/-- What an updated subscription writes fits the columns. -/
def SubscriptionUpdate.Fits (input : SubscriptionUpdate) : Prop :=
  (∀ status ∈ input.status, status.length ≤ 255) ∧ input.currentPeriodEnd ≤ maxTimestamp

instance UpdateUserBillingInput.decidableFits (input : UpdateUserBillingInput) (c : String) :
    Decidable (input.Fits c) := by
  unfold UpdateUserBillingInput.Fits; infer_instance
instance SubscriptionUpdate.decidableFits (input : SubscriptionUpdate) : Decidable input.Fits := by
  unfold SubscriptionUpdate.Fits; infer_instance

theorem paidBilling_fits {input : UpdateUserBillingInput} {c : String} {now : ℕ} {b : Billing} :
    (paidBilling input c now b).Fits ↔ input.Fits c := by
  have hactive : "active".length ≤ 255 := by decide
  simp [Billing.Fits, paidBilling, UpdateUserBillingInput.Fits, hactive]

theorem newBilling_fits {input : UpdateUserBillingInput} {c userId : String} {env : Environment} :
    (newBilling input c userId env).Fits ↔ input.Fits c := by
  have hactive : "active".length ≤ 255 := by decide
  simp [Billing.Fits, newBilling, UpdateUserBillingInput.Fits, hactive]

theorem failedBilling_fits {now : ℕ} {b : Billing} (h : b.Fits) : (failedBilling now b).Fits :=
  ⟨h.1, h.2.1, (by decide : "past_due".length ≤ 255), h.2.2.2⟩

theorem updatedBilling_fits {input : SubscriptionUpdate} {now : ℕ} {b : Billing} (h : b.Fits) :
    (updatedBilling input now b).Fits ↔ input.Fits := by
  have hstatus : ((spread input.status).apply b.status).length ≤ 255 ↔
      ∀ status ∈ input.status, status.length ≤ 255 := by
    rcases input.status with _ | status
    · simpa [spread] using h.2.2.1
    · by_cases hs : status = ""
      · simpa [spread, hs] using h.2.2.1
      · simp [spread, hs]
  simp only [Billing.Fits, updatedBilling, SubscriptionUpdate.Fits, hstatus]
  exact ⟨fun h => h.2.2, fun hfit => ⟨h.1, h.2.1, hfit⟩⟩

theorem deletedBilling_fits {env : Environment} {b : Billing} (h : b.Fits) :
    (deletedBilling env.now b).Fits :=
  ⟨h.1, h.2.1, (by decide : "canceled".length ≤ 255), env.now_valid⟩

/-- An update of a billing row, once its image is known. -/
theorem updateBilling_ok_of_apply {id : String} {updates : BillingUpdates} {f : Billing → Billing}
    {b : Billing} {db db' : Db} (hf : ∀ b, updates.applyTo w.env.now b = some (f b))
    (h : updateBilling id updates w db = .ok (b, db')) :
    (∃ old, Rows.lookup Billing.id id db.billings = some old ∧ b = f old) ∧
      db'.users = db.users ∧ db'.products = db.products ∧
      db'.billings = Rows.update Billing.id id f db.billings := by
  obtain ⟨old, hold, hb, hu, hp, hbs⟩ := updateBilling_ok h
  refine ⟨⟨old, hold, Option.some.inj (hb.symm.trans (hf old))⟩, hu, hp, ?_⟩
  simpa [hf] using hbs

/-- It is accepted where the row exists and its image names a product that exists and fits. -/
theorem updateBilling_of_apply {updates : BillingUpdates} {f : Billing → Billing} {b : Billing}
    {db : Db} (hf : ∀ b, updates.applyTo w.env.now b = some (f b)) (hb : b ∈ db.billings)
    (hid : ∀ b, (f b).id = b.id) (huser : ∀ b, (f b).userId = b.userId)
    (hproduct : ∃ p ∈ db.products, p.id = (f b).productId) (hfit : (f b).Fits) :
    ∃ db', updateBilling b.id updates w db = .ok (f b, db') := by
  have hl := (Rows.lookup_eq_some (k := b.id) db.sound.billings_id).mpr ⟨hb, rfl⟩
  have hc : Constraints db.users db.products (Rows.update Billing.id b.id f db.billings) := by
    refine db.sound.updateBilling hid huser (fun y hy hk => ?_) fun y hy hk => ?_
    · rwa [Db.billing_eq hy hb hk]
    · rwa [Db.billing_eq hy hb hk]
  simp only [updateBilling, hl, hf, Option.getD_some]
  simp only [store?_of_constraints hc]
  exact ⟨_, rfl⟩

/-- The first statement of the callback. -/
def writeBillingRow (input : UpdateUserBillingInput) (user : User) :
    Option Billing → Promise Billing
  | none => createBilling
      { userId := user.id
        productId := input.productId
        externalSubscriptionId := input.externalSubscriptionId
        externalCustomerId := input.externalCustomerId
        status := "active"
        expiresAt := unixTimestampToDate input.expiresAt } .trx
  | some b => updateBillingById b.id (paidUpdates input) .trx

theorem writeUserBilling_eq (input : UpdateUserBillingInput) (user : User)
    (billing : Option Billing) : writeUserBilling input user billing =
      (writeBillingRow input user billing).bind fun _ =>
        (updateUserById user.id (setProduct input.productId) .trx).bind fun _ => .pure () := by
  cases billing <;> rfl

/-- The rows that the two updates of a transaction name are there. -/
structure Matched (db : Db) (billingId userId : Option String) : Prop where
  billing : ∀ id ∈ billingId, ∃ b ∈ db.billings, b.id = id
  user : ∀ id ∈ userId, ∃ u ∈ db.users, u.id = id

/-- The tables after a paid invoice was written for `user`. -/
structure Paid (w : World) (input : UpdateUserBillingInput) (user : User)
    (billing : Option Billing) (c : String) (db : Db) : Prop where
  customer : input.externalCustomerId = some c
  fits : input.Fits c
  products : db.products = w.db.products
  users : db.users = Rows.update User.id user.id
    ((setProduct input.productId).apply w.env.now) w.db.users
  billings : db.billings = match billing with
    | none => w.db.billings ++ [newBilling input c user.id w.env]
    | some b => Rows.update Billing.id b.id (paidBilling input c w.env.now) w.db.billings

theorem mayRun_writeUserBilling_cases {input : UpdateUserBillingInput} {user : User}
    {billing : Option Billing} {r : Except Err Unit}
    (h : (transaction (writeUserBilling input user billing)).MayRun w r w') :
    ((∃ e, r = .error e) ∧ w' = { w with trx := none }) ∨ ∃ c db, r = .ok () ∧
      w' = { w with db, trx := none } ∧ Paid w input user billing c db ∧
      Matched w.db (billing.map Billing.id) (some user.id) := by
  -- the second write, from the database the first one left
  have huser : ∀ (d : Db) (c : String) r w₁, input.externalCustomerId = some c → input.Fits c →
      d.users = w.db.users → d.products = w.db.products →
      (d.billings = match billing with
        | none => w.db.billings ++ [newBilling input c user.id w.env]
        | some b => Rows.update Billing.id b.id (paidBilling input c w.env.now) w.db.billings) →
      ((updateUserById user.id (setProduct input.productId) .trx).bind fun _ => .pure ()).MayRun
        (w.within d) r w₁ →
      (∀ id ∈ billing.map Billing.id, ∃ b ∈ w.db.billings, b.id = id) →
      ∃ db, w₁ = w.within db ∧ ((∃ e, r = .error e) ∨ ∃ a, r = .ok a ∧
        ∃ c, Paid w input user billing c db ∧
          Matched w.db (billing.map Billing.id) (some user.id)) := by
    intro d c r w₁ hc hfit hu hp hb hrun hmatch
    obtain ⟨db, hw, h⟩ := mayRun_setProduct_trx_cases hrun
    refine ⟨db, hw, h.imp_right ?_⟩
    rintro ⟨hr, hex, hu', hp', hb'⟩
    have hpaid : Paid w input user billing c db :=
      ⟨hc, hfit, hp'.trans hp, hu ▸ hu', hb'.trans hb⟩
    exact ⟨(), hr, c, hpaid, hmatch, by simpa [hu] using hex⟩
  have hcb : ∀ r w₁, (writeUserBilling input user billing).MayRun (w.within w.db) r w₁ →
      ∃ db, w₁ = w.within db ∧ ((∃ e, r = .error e) ∨ ∃ a, r = .ok a ∧
        ∃ c, Paid w input user billing c db ∧
          Matched w.db (billing.map Billing.id) (some user.id)) := by
    intro r w₁ hrun
    rw [writeUserBilling_eq] at hrun
    cases billing with
    | none =>
      rcases mayRun_write_trx_bind_cases hrun with ⟨he, rfl⟩ | ⟨row, d, hs, hdone⟩
      · exact ⟨w.db, rfl, .inl he⟩
      · obtain ⟨hc, hrow, hu, hp, hb⟩ := insertBilling_ok hs
        have hnew : row = newBilling input row.externalCustomerId user.id w.env := hrow
        have hfit : (newBilling input row.externalCustomerId user.id w.env).Fits :=
          hnew.subst (motive := Billing.Fits) (insertBilling_fits hs)
        exact huser d row.externalCustomerId _ _ hc.symm (newBilling_fits.mp hfit) hu hp
          (by rw [hb, hrow]; rfl) hdone (by simp)
    | some b =>
      rcases mayRun_write_trx_bind_cases hrun with ⟨he, rfl⟩ | ⟨row, d, hs, hdone⟩
      · exact ⟨w.db, rfl, .inl he⟩
      · cases hc : input.externalCustomerId with
        | none =>
          obtain ⟨old, _, hnone, -⟩ := updateBilling_ok hs
          simp [BillingUpdates.applyTo, paidUpdates, hc] at hnone
        | some c =>
          obtain ⟨⟨old, hold, hrow⟩, hu, hp, hb⟩ := updateBilling_ok_of_apply (applyTo_paid hc _) hs
          have hfit := paidBilling_fits.mp (hrow ▸ updateBilling_fits hs)
          refine huser d c _ _ hc hfit hu hp (by rw [hb]; rfl) hdone ?_
          simpa using ⟨old, Rows.lookup_mem hold, Rows.lookup_key hold⟩
  rcases mayRun_transaction_cases hcb h with h | ⟨⟨⟩, db, hr, hw, c, hp⟩
  · exact .inl h
  · exact .inr ⟨c, db, hr, hw, hp⟩

theorem run_writeUserBilling_cases {input : UpdateUserBillingInput} {user : User}
    {billing : Option Billing} {r : Except Err Unit} (htrx : w.trx = none)
    (h : (transaction (writeUserBilling input user billing)).run w = (r, w')) :
    Refused w r w' ∨ ∃ c db, r = .ok () ∧ w' = { w with db } ∧ Paid w input user billing c db := by
  rcases mayRun_writeUserBilling_cases (Async.mayRun_of_run h) with
    ⟨he, hw⟩ | ⟨c, db, hr, hw, hp, -⟩
  · exact .inl ⟨he, hw.trans (World.trx_closed htrx w.db)⟩
  · exact .inr ⟨c, db, hr, hw.trans (World.trx_closed htrx db), hp⟩

/-- Once the billing row is written, the rest of the transaction goes through. -/
theorem run_writeUserBilling_of_row {input : UpdateUserBillingInput} {user u : User}
    {billing : Option Billing} {c : String} {r : Billing} {d : Db} (htrx : w.trx = none)
    (hc : input.externalCustomerId = some c)
    (hrow : (writeBillingRow input user billing).run (w.within w.db) = (.ok r, w.within d))
    (hu : Rows.lookup User.id user.id d.users = some u) :
    ∃ db, (transaction (writeUserBilling input user billing)).run w = (.ok (), { w with db }) ∧
      Paid w input user billing c db := by
  obtain ⟨db, hdb⟩ := run_setProduct_trx_ok (w := w) input.productId hu
  have hrun : (writeUserBilling input user billing).run (w.within w.db) =
      (.ok (), w.within db) := by
    rw [writeUserBilling_eq, Async.run_bind_ok hrow, hdb]
  refine written_of_run htrx hrun fun h => (run_writeUserBilling_cases htrx h).imp_right ?_
  rintro ⟨c', db', hr, hw, hp⟩
  obtain rfl : c = c' := Option.some.inj (hc.symm.trans hp.customer)
  exact ⟨db', hr, hw, hp⟩

/-- A paid invoice is written where its user and product exist, it names a customer and fits. -/
theorem run_writeUserBilling_ok (input : UpdateUserBillingInput) {user u : User} {b : Billing}
    {c : String} (htrx : w.trx = none) (hc : input.externalCustomerId = some c)
    (hfit : input.Fits c)
    (hu : Rows.lookup User.id user.id w.db.users = some u) (hb : b ∈ w.db.billings)
    (hp : ∃ p ∈ w.db.products, p.id = input.productId) :
    ∃ db, (transaction (writeUserBilling input user (some b))).run w = (.ok (), { w with db }) ∧
      Paid w input user (some b) c db := by
  obtain ⟨d, hd⟩ := updateBilling_of_apply (w := w.within w.db) (applyTo_paid hc _) hb
    (fun _ => rfl) (fun _ => rfl) hp (paidBilling_fits.mpr hfit)
  obtain ⟨-, hdu, -, -⟩ := updateBilling_ok_of_apply (applyTo_paid hc _) hd
  refine run_writeUserBilling_of_row htrx hc (r := paidBilling input c w.env.now b) ?_ (hdu ▸ hu)
  rw [writeBillingRow, updateBillingById, run_write_trx, hd]
  rfl

/-- The same for the first invoice of a user, whose row gets an id that is new. -/
theorem run_createUserBilling_ok (input : UpdateUserBillingInput) {user u : User} {c : String}
    (htrx : w.trx = none) (hfresh : ∀ b ∈ w.db.billings, b.id ≠ w.env.uuid)
    (hc : input.externalCustomerId = some c) (hfit : input.Fits c)
    (hu : Rows.lookup User.id user.id w.db.users = some u)
    (hp : ∃ p ∈ w.db.products, p.id = input.productId) :
    ∃ db, (transaction (writeUserBilling input user none)).run w = (.ok (), { w with db }) ∧
      Paid w input user none c db := by
  have hsound : Constraints w.db.users w.db.products
      (w.db.billings ++ [newBilling input c user.id w.env]) :=
    w.db.sound.insertBilling hfresh (Rows.exists_lookup_iff.mp ⟨u, hu⟩) hp
      (newBilling_fits.mpr hfit)
  refine run_writeUserBilling_of_row htrx hc (r := newBilling input c user.id w.env)
    (d := ⟨_, _, _, hsound⟩) ?_ hu
  have hinsert : insertBilling ⟨user.id, input.productId, input.externalSubscriptionId,
      input.externalCustomerId, "active", unixTimestampToDate input.expiresAt⟩ (w.within w.db)
      w.db =
      .ok (newBilling input c user.id w.env, ⟨_, _, _, hsound⟩) := by
    simp only [insertBilling, hc]
    have hstore := store?_of_constraints hsound
    split
    next hnone => cases hnone.symm.trans hstore
    next hsome => cases hsome.symm.trans hstore; rfl
  rw [writeBillingRow, createBilling, run_write_trx, hinsert]

/-- The subscription pays for nothing any more. -/
def SubscriptionUpdate.Ended (input : SubscriptionUpdate) : Prop :=
  input.status = some "canceled" ∨ input.status = some "unpaid"

instance (input : SubscriptionUpdate) : Decidable input.Ended := by
  unfold SubscriptionUpdate.Ended; infer_instance

/-- The product the transaction writes to the user, if any, from the billing row it read. -/
def productWritten (free : Option Product) (input : SubscriptionUpdate) (b : Billing) :
    Option String :=
  if input.Ended then free.map Product.id
  else match spread input.productId with
    | .undefined => none
    | .set productId => if productId ≠ b.productId then some productId else none

/-- The tables after an update of the subscription that `b` was read for. -/
structure Updated (w : World) (input : SubscriptionUpdate) (b : Billing) (db : Db) : Prop where
  fits : input.Fits
  products : db.products = w.db.products
  users : db.users = match productWritten w.freeTier input b with
    | none => w.db.users
    | some p => Rows.update User.id b.userId ((setProduct p).apply w.env.now) w.db.users
  billings : db.billings =
    Rows.update Billing.id b.id (updatedBilling input w.env.now) w.db.billings
  ended : input.Ended → w.freeTier ≠ none

theorem setProduct_product (product : String) (now : ℕ) (u : User) :
    ((setProduct product).apply now u).currentProductId = some product := rfl

theorem setProduct_frame (product : String) (now : ℕ) (u : User) :
    ((setProduct product).apply now u).id = u.id ∧
      ((setProduct product).apply now u).email = u.email := ⟨rfl, rfl⟩

/-- The update of the row's owner as one function of its row. -/
theorem Updated.owner {input : SubscriptionUpdate} {b : Billing} {db : Db}
    (h : Updated w input b db) : ∃ f : User → User,
      (∀ u, (f u).id = u.id ∧ (f u).email = u.email) ∧
      (∀ u, (f u).currentProductId =
        (productWritten w.freeTier input b).or u.currentProductId) ∧
      db.users = Rows.update User.id b.userId f w.db.users := by
  have husers := h.users
  cases hw : productWritten w.freeTier input b with
  | none => exact ⟨id, fun _ => ⟨rfl, rfl⟩, fun _ => rfl, by simpa [hw] using husers⟩
  | some product =>
    exact ⟨(setProduct product).apply w.env.now, setProduct_frame product _, fun _ => rfl,
      by simpa [hw] using husers⟩

theorem writeSubscriptionUpdate_eq (input : SubscriptionUpdate) (b : Billing) :
    writeSubscriptionUpdate input b =
      (updateBillingById b.id (subscriptionUpdates input) .trx).bind fun _ =>
        if input.Ended then downgradeToFreeTier b.userId .trx
        else match spread input.productId with
          | .undefined => .pure ()
          | .set productId =>
            if productId ≠ b.productId then
              (updateUserById b.userId (setProduct productId) .trx).bind fun _ => .pure ()
            else .pure () := rfl

theorem mayRun_getFreeTierProduct_cases {r : Except Err Product}
    (h : getFreeTierProduct.MayRun w r w') :
    w' = w ∧ ((∃ e, r = .error e) ∨ ∃ p, w.freeTier = some p ∧ r = .ok p) := by
  rcases Async.MayRun.of_bind h with ⟨e, ⟨heq, -⟩ | ⟨-, rfl⟩, rfl⟩ | ⟨row, t, h, hrow⟩
  · cases heq
  · exact ⟨rfl, .inl ⟨e, rfl⟩⟩
  · rcases h with ⟨heq, ht⟩ | ⟨heq, -⟩
    · have hfree : row = w.freeTier := Except.ok.inj heq
      cases row with
      | none => exact ⟨hrow.2.trans ht, .inl ⟨_, hrow.1⟩⟩
      | some p => exact ⟨hrow.2.trans ht, .inr ⟨p, hfree.symm, hrow.1⟩⟩
    · cases heq

theorem mayRun_downgradeToFreeTier_trx_cases {userId : String} {d : Db} {r : Except Err Unit}
    (h : (downgradeToFreeTier userId .trx).MayRun (w.within d) r w') :
    ∃ db, w' = w.within db ∧ ((∃ e, r = .error e) ∨ ∃ p, w.freeTier = some p ∧ r = .ok () ∧
      (∃ u ∈ d.users, u.id = userId) ∧
      db.users = Rows.update User.id userId ((setProduct p.id).apply w.env.now) d.users ∧
      db.products = d.products ∧ db.billings = d.billings) := by
  rcases Async.MayRun.of_bind h with ⟨e, hf, rfl⟩ | ⟨p, t, hf, h⟩
  · obtain ⟨rfl, -⟩ := mayRun_getFreeTierProduct_cases hf
    exact ⟨d, rfl, .inl ⟨e, rfl⟩⟩
  · obtain ⟨rfl, ⟨_, heq⟩ | ⟨p', hp, heq⟩⟩ := mayRun_getFreeTierProduct_cases hf
    · cases heq
    obtain rfl := Except.ok.inj heq
    obtain ⟨db, hw, h⟩ := mayRun_setProduct_trx_cases h
    rcases h with h | ⟨hr, hex, hu, hp', hb⟩
    · exact ⟨db, hw, .inl h⟩
    · exact ⟨db, hw, .inr ⟨p, hp, hr, hex, hu, hp', hb⟩⟩

theorem mayRun_writeSubscriptionUpdate_cases {input : SubscriptionUpdate} {b : Billing}
    {r : Except Err Unit} (h : (transaction (writeSubscriptionUpdate input b)).MayRun w r w') :
    ((∃ e, r = .error e) ∧ w' = { w with trx := none }) ∨ ∃ db, r = .ok () ∧
      w' = { w with db, trx := none } ∧ Updated w input b db ∧
      Matched w.db (some b.id) ((productWritten w.freeTier input b).map fun _ => b.userId) := by
  have hcb : ∀ r w₁, (writeSubscriptionUpdate input b).MayRun (w.within w.db) r w₁ →
      ∃ db, w₁ = w.within db ∧ ((∃ e, r = .error e) ∨ ∃ a, r = .ok a ∧ Updated w input b db ∧
        Matched w.db (some b.id) ((productWritten w.freeTier input b).map fun _ => b.userId)) := by
    intro r w₁ hrun
    rw [writeSubscriptionUpdate_eq] at hrun
    rcases mayRun_write_trx_bind_cases hrun with ⟨he, rfl⟩ | ⟨row, d, hs, h⟩
    · exact ⟨w.db, rfl, .inl he⟩
    obtain ⟨⟨old, hold, hrow⟩, hu, hp, hb⟩ :=
      updateBilling_ok_of_apply (applyTo_subscription input _) hs
    have hfit : input.Fits := (updatedBilling_fits
      (w.db.sound.billings_fit old (Rows.lookup_mem hold))).mp (hrow ▸ updateBilling_fits hs)
    have hmatch : ∀ id ∈ some b.id, ∃ x ∈ w.db.billings, x.id = id := by
      simpa using ⟨old, Rows.lookup_mem hold, Rows.lookup_key hold⟩
    split_ifs at h with hend
    · obtain ⟨db, hw, h⟩ := mayRun_downgradeToFreeTier_trx_cases h
      rcases h with h | ⟨p, hf, hr, hex, hu', hp', hb'⟩
      · exact ⟨db, hw, .inl h⟩
      · refine ⟨db, hw, .inr ⟨(), hr, ⟨hfit, hp'.trans hp, ?_, hb'.trans hb, fun _ => by simp [hf]⟩,
          hmatch, ?_⟩⟩
        · simp [productWritten, hend, hf, hu', hu]
        · simpa [productWritten, hend, hf, hu] using hex
    · split at h
      next hpr =>
        obtain ⟨rfl, rfl⟩ := h
        refine ⟨d, rfl, .inr ⟨(), rfl, ⟨hfit, hp, ?_, hb, fun he => absurd he hend⟩, hmatch, ?_⟩⟩
        · simp [productWritten, hend, hpr, hu]
        · simp [productWritten, hend, hpr]
      next productId hpr =>
        split_ifs at h with hne
        · obtain ⟨db, hw, h⟩ := mayRun_setProduct_trx_cases h
          rcases h with h | ⟨hr, hex, hu', hp', hb'⟩
          · exact ⟨db, hw, .inl h⟩
          · refine ⟨db, hw, .inr ⟨(), hr, ⟨hfit, hp'.trans hp, ?_, hb'.trans hb,
              fun he => absurd he hend⟩, hmatch, ?_⟩⟩
            · simp [productWritten, hend, hpr, hne, hu', hu]
            · simpa [productWritten, hend, hpr, hne, hu] using hex
        · obtain ⟨rfl, rfl⟩ := h
          refine ⟨d, rfl, .inr ⟨(), rfl, ⟨hfit, hp, ?_, hb, fun he => absurd he hend⟩, hmatch, ?_⟩⟩
          · simp [productWritten, hend, hpr, hne, hu]
          · simp [productWritten, hend, hpr, hne]
  rcases mayRun_transaction_cases hcb h with h | ⟨⟨⟩, db, hr, hw, hp⟩
  · exact .inl h
  · exact .inr ⟨db, hr, hw, hp⟩

theorem run_writeSubscriptionUpdate_cases {input : SubscriptionUpdate} {b : Billing}
    {r : Except Err Unit} (htrx : w.trx = none)
    (h : (transaction (writeSubscriptionUpdate input b)).run w = (r, w')) :
    Refused w r w' ∨ ∃ db, r = .ok () ∧ w' = { w with db } ∧ Updated w input b db := by
  rcases mayRun_writeSubscriptionUpdate_cases (Async.mayRun_of_run h) with
    ⟨he, hw⟩ | ⟨db, hr, hw, hu, -⟩
  · exact .inl ⟨he, hw.trans (World.trx_closed htrx w.db)⟩
  · exact .inr ⟨db, hr, hw.trans (World.trx_closed htrx db), hu⟩

theorem run_downgradeToFreeTier_trx_ok {userId : String} {d : Db} {u : User}
    (hfree : w.freeTier ≠ none) (hu : Rows.lookup User.id userId d.users = some u) :
    ∃ db, (downgradeToFreeTier userId .trx).run (w.within d) = (.ok (), w.within db) := by
  obtain ⟨p, hp⟩ := Option.ne_none_iff_exists'.mp hfree
  obtain ⟨db, hdb⟩ := run_setProduct_trx_ok (w := w) p.id hu
  refine ⟨db, (Async.run_bind_ok (a := p) (t := w.within d) ?_).trans hdb⟩
  have hp' : (w.within d).freeTier = some p := hp
  rw [run_getFreeTierProduct, hp']

/-- An update is written where it fits and the row that was read still exists, with its user and
the product it names; its other columns may have changed since. -/
theorem run_writeSubscriptionUpdate_ok {input : SubscriptionUpdate} {b b₀ : Billing} {u : User}
    (htrx : w.trx = none) (hb₀ : b₀ ∈ w.db.billings) (hid : b₀.id = b.id)
    (hu : Rows.lookup User.id b.userId w.db.users = some u)
    (hproduct : ∀ p, spread input.productId = .set p → ∃ q ∈ w.db.products, q.id = p)
    (hfree : input.Ended → w.freeTier ≠ none) (hfit : input.Fits) :
    ∃ db, (transaction (writeSubscriptionUpdate input b)).run w = (.ok (), { w with db }) ∧
      Updated w input b db := by
  obtain ⟨d, hd⟩ := updateBilling_of_apply (w := w.within w.db) (applyTo_subscription input _) hb₀
    (fun _ => rfl) (fun _ => rfl) (by
      cases hp : spread input.productId with
      | undefined => simpa [updatedBilling, hp] using w.db.sound.billings_product b₀ hb₀
      | set p => simpa [updatedBilling, hp] using hproduct p hp)
    ((updatedBilling_fits (w.db.sound.billings_fit b₀ hb₀)).mpr hfit)
  obtain ⟨-, hdu, -, -⟩ := updateBilling_ok_of_apply (applyTo_subscription input _) hd
  have hu' : Rows.lookup User.id b.userId d.users = some u := hdu ▸ hu
  have hrest : ∃ db, (if input.Ended then downgradeToFreeTier b.userId .trx
      else match spread input.productId with
        | .undefined => .pure ()
        | .set productId =>
          if productId ≠ b.productId then
            (updateUserById b.userId (setProduct productId) .trx).bind fun _ => .pure ()
          else .pure () : Promise Unit).run (w.within d) = (.ok (), w.within db) := by
    split_ifs with hend
    · exact run_downgradeToFreeTier_trx_ok (hfree hend) hu'
    · split
      next => exact ⟨d, rfl⟩
      next productId _ =>
        split_ifs
        · exact run_setProduct_trx_ok productId hu'
        · exact ⟨d, rfl⟩
  obtain ⟨db, hdb⟩ := hrest
  have hrun : (writeSubscriptionUpdate input b).run (w.within w.db) = (.ok (), w.within db) := by
    rw [writeSubscriptionUpdate_eq]
    refine (Async.run_bind_ok (a := updatedBilling input w.env.now b₀) (t := w.within d) ?_).trans
      hdb
    rw [updateBillingById, run_write_trx, ← hid, hd]
    rfl
  exact written_of_run htrx hrun (run_writeSubscriptionUpdate_cases htrx)

/-- The tables after the deletion of the subscription that `b` was read for. -/
structure Deleted (w : World) (b : Billing) (db : Db) : Prop where
  products : db.products = w.db.products
  users : ∃ p, w.freeTier = some p ∧
    db.users = Rows.update User.id b.userId ((setProduct p.id).apply w.env.now) w.db.users
  billings : db.billings = Rows.update Billing.id b.id (deletedBilling w.env.now) w.db.billings

theorem mayRun_writeSubscriptionDeleted_cases {b : Billing} {r : Except Err Unit}
    (h : (transaction (writeSubscriptionDeleted b)).MayRun w r w') :
    ((∃ e, r = .error e) ∧ w' = { w with trx := none }) ∨ ∃ db, r = .ok () ∧
      w' = { w with db, trx := none } ∧ Deleted w b db ∧
      Matched w.db (some b.id) (some b.userId) := by
  have hcb : ∀ r w₁, (writeSubscriptionDeleted b).MayRun (w.within w.db) r w₁ →
      ∃ db, w₁ = w.within db ∧ ((∃ e, r = .error e) ∨ ∃ a, r = .ok a ∧ Deleted w b db ∧
        Matched w.db (some b.id) (some b.userId)) := by
    intro r w₁ hrun
    rcases mayRun_write_trx_bind_cases hrun with ⟨he, rfl⟩ | ⟨row, d, hs, h⟩
    · exact ⟨w.db, rfl, .inl he⟩
    obtain ⟨⟨old, hold, -⟩, hu, hp, hb⟩ := updateBilling_ok_of_apply (f := deletedBilling w.env.now)
      (fun _ => rfl) hs
    obtain ⟨db, hw, h⟩ := mayRun_downgradeToFreeTier_trx_cases h
    rcases h with h | ⟨p, hf, hr, hex, hu', hp', hb'⟩
    · exact ⟨db, hw, .inl h⟩
    · have hdeleted : Deleted w b db := ⟨hp'.trans hp, ⟨p, hf, by rw [hu', hu]⟩, hb'.trans hb⟩
      refine ⟨db, hw, .inr ⟨(), hr, hdeleted, ?_, ?_⟩⟩
      · simpa using ⟨old, Rows.lookup_mem hold, Rows.lookup_key hold⟩
      · simpa [hu] using hex
  rcases mayRun_transaction_cases hcb h with h | ⟨⟨⟩, db, hr, hw, hp⟩
  · exact .inl h
  · exact .inr ⟨db, hr, hw, hp⟩

theorem run_writeSubscriptionDeleted_cases {b : Billing} {r : Except Err Unit}
    (htrx : w.trx = none) (h : (transaction (writeSubscriptionDeleted b)).run w = (r, w')) :
    Refused w r w' ∨ ∃ db, r = .ok () ∧ w' = { w with db } ∧ Deleted w b db := by
  rcases mayRun_writeSubscriptionDeleted_cases (Async.mayRun_of_run h) with
    ⟨he, hw⟩ | ⟨db, hr, hw, hd, -⟩
  · exact .inl ⟨he, hw.trans (World.trx_closed htrx w.db)⟩
  · exact .inr ⟨db, hr, hw.trans (World.trx_closed htrx db), hd⟩

/-- A deletion is written where its row, its user and the free tier exist. -/
theorem run_writeSubscriptionDeleted_ok {b : Billing} {u : User} (htrx : w.trx = none)
    (hb : b ∈ w.db.billings) (hu : Rows.lookup User.id b.userId w.db.users = some u)
    (hfree : w.freeTier ≠ none) : ∃ db,
      (transaction (writeSubscriptionDeleted b)).run w = (.ok (), { w with db }) ∧
        Deleted w b db := by
  obtain ⟨d, hd⟩ := updateBilling_of_apply (w := w.within w.db)
    (applyTo_deleted w.env.now) hb (fun _ => rfl) (fun _ => rfl)
    (w.db.sound.billings_product b hb) (deletedBilling_fits (w.db.sound.billings_fit b hb))
  obtain ⟨-, hdu, -, -⟩ := updateBilling_ok_of_apply (f := deletedBilling w.env.now)
    (fun _ => rfl) hd
  obtain ⟨db, hdb⟩ := run_downgradeToFreeTier_trx_ok hfree (d := d) (hdu ▸ hu)
  have hrun : (writeSubscriptionDeleted b).run (w.within w.db) = (.ok (), w.within db) := by
    simp only [writeSubscriptionDeleted, Async.bind_eq]
    rw [Async.run_bind_ok (run_dateNow _)]
    refine (Async.run_bind_ok (a := deletedBilling w.env.now b) (t := w.within d) ?_).trans hdb
    change (updateBillingById b.id (deletedUpdates w.env.now) .trx).run _ = _
    rw [updateBillingById, run_write_trx, hd]
  exact written_of_run htrx hrun (run_writeSubscriptionDeleted_cases htrx)

end CodebaseTrpc
