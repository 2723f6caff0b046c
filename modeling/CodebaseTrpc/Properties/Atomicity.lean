import CodebaseTrpc.Spec.Billing
import CodebaseTrpc.Properties.Cancellation

/-! The billing handlers when statements fail: the two tables are written together or not at
all. -/
namespace CodebaseTrpc

/-- A call that returned left the tables `Q` asks for; one that rejected left them as they were. -/
def AllOrNothing (w : World) (Q : Db → Prop) (r : Except Err Unit) (w' : World) : Prop :=
  (r = .ok () ∧ Q w'.db) ∨ ((∃ e, r = .error e) ∧ w'.db = w.db)

/-- What the transaction is to write, from rows read before it. -/
def WritesPaid (w : World) (input : UpdateUserBillingInput) (user : User)
    (billing : Option Billing) (db : Db) : Prop :=
  (∃ c, Paid w input user billing c db) ∧
    Matched w.db (billing.map Billing.id) (some user.id)

def WritesUpdate (w : World) (input : SubscriptionUpdate) (b : Billing) (db : Db) : Prop :=
  Updated w input b db ∧
    Matched w.db (some b.id) ((productWritten w.freeTier input b).map fun _ => b.userId)

def WritesDeletion (w : World) (b : Billing) (db : Db) : Prop :=
  Deleted w b db ∧ Matched w.db (some b.id) (some b.userId)

/-- The same for the user with the email of the invoice. -/
def WritesPaidFor (w : World) (input : UpdateUserBillingInput) (db : Db) : Prop :=
  ∃ user, Rows.lookup User.email input.userEmail w.db.users = some user ∧
    WritesPaid w input user (Rows.lookup Billing.userId user.id w.db.billings) db

/-- The row an event speaks of; an empty id speaks of none. -/
def subscribed (w : World) (externalSubscriptionId : String) : Option Billing :=
  if externalSubscriptionId = "" then none
  else Rows.lookup Billing.externalSubscriptionId externalSubscriptionId w.db.billings

/-- `Q` of the row, and no change where there is none. -/
def IfSubscribed (w : World) (externalSubscriptionId : String) (Q : Billing → Db → Prop)
    (db : Db) : Prop :=
  match subscribed w externalSubscriptionId with
  | none => db = w.db
  | some b => Q b db

variable {w w' : World} {r : Except Err Unit}

theorem writeUserBilling_atomic {input : UpdateUserBillingInput} {user : User}
    {billing : Option Billing}
    (h : (transaction (writeUserBilling input user billing)).MayRun w r w') :
    AllOrNothing w (WritesPaid w input user billing) r w' := by
  rcases mayRun_writeUserBilling_cases h with ⟨he, rfl⟩ | ⟨c, db, hr, rfl, hp, hm⟩
  · exact .inr ⟨he, rfl⟩
  · exact .inl ⟨hr, ⟨c, hp⟩, hm⟩

theorem writeSubscriptionUpdate_atomic {input : SubscriptionUpdate} {b : Billing}
    (h : (transaction (writeSubscriptionUpdate input b)).MayRun w r w') :
    AllOrNothing w (WritesUpdate w input b) r w' := by
  rcases mayRun_writeSubscriptionUpdate_cases h with ⟨he, rfl⟩ | ⟨db, hr, rfl, hu⟩
  · exact .inr ⟨he, rfl⟩
  · exact .inl ⟨hr, hu⟩

theorem writeSubscriptionDeleted_atomic {b : Billing}
    (h : (transaction (writeSubscriptionDeleted b)).MayRun w r w') :
    AllOrNothing w (WritesDeletion w b) r w' := by
  rcases mayRun_writeSubscriptionDeleted_cases h with ⟨he, rfl⟩ | ⟨db, hr, rfl, hd⟩
  · exact .inr ⟨he, rfl⟩
  · exact .inl ⟨hr, hd⟩

/-- A read and what follows it. -/
theorem mayRun_select_bind_cases {α : Type} {query : Db → α} {k : α → Promise Unit}
    (h : ((select query).bind k).MayRun w r w') :
    ((∃ e, r = .error e) ∧ w'.db = w.db) ∨ (k (query w.db)).MayRun w r w' := by
  rcases h with h | ⟨rfl, rfl⟩
  · exact .inr h
  · exact .inl ⟨⟨connectionLost, rfl⟩, rfl⟩

theorem registerUserBilling_atomic {input : UpdateUserBillingInput}
    (h : (registerUserBilling input).MayRun w r w') :
    AllOrNothing w (WritesPaidFor w input) r w' := by
  rcases mayRun_select_bind_cases h with h | h
  · exact .inr h
  cases hu : Rows.lookup User.email input.userEmail w.db.users with
  | none =>
    simp only [hu] at h
    obtain ⟨rfl, rfl⟩ := h
    exact .inr ⟨⟨_, rfl⟩, rfl⟩
  | some user =>
    simp only [hu] at h
    rcases mayRun_select_bind_cases h with h | h
    · exact .inr h
    rcases writeUserBilling_atomic h with ⟨hr, hp⟩ | h
    · exact .inl ⟨hr, user, hu, hp⟩
    · exact .inr h

/-- The two handlers that look a subscription up and write in one transaction. -/
theorem ifSubscribed_atomic {id : String} {write : Billing → Promise Unit}
    {Q : Billing → Db → Prop}
    (hwrite : ∀ b, (transaction (write b)).MayRun w r w' → AllOrNothing w (Q b) r w')
    (h : (ifSubscribed id fun billing => transaction (write billing)).MayRun w r w') :
    AllOrNothing w (IfSubscribed w id Q) r w' := by
  have hskip : subscribed w id = none → r = .ok () ∧ w' = w →
      AllOrNothing w (IfSubscribed w id Q) r w' := by
    rintro hs ⟨rfl, rfl⟩
    exact .inl ⟨rfl, by simp [IfSubscribed, hs]⟩
  unfold ifSubscribed at h
  by_cases hid : id = ""
  · rw [if_pos hid] at h
    exact hskip (by simp [subscribed, hid]) h
  · rw [if_neg hid] at h
    rcases mayRun_select_bind_cases h with h | h
    · exact .inr h
    cases hb : Rows.lookup Billing.externalSubscriptionId id w.db.billings with
    | none =>
      simp only [hb] at h
      exact hskip (by simp [subscribed, hid, hb]) h
    | some b =>
      simp only [hb] at h
      rcases hwrite b h with ⟨hr, hq⟩ | h
      · exact .inl ⟨hr, by simpa [IfSubscribed, subscribed, hid, hb] using hq⟩
      · exact .inr h

/-- Whichever statements fail, the three handlers write both tables or neither; so do their
transactions when the rows they were given are no longer those of the tables. -/
theorem billing_handlers_atomic (w w' : World) (r : Except Err Unit) :
    (∀ input, (registerUserBilling input).MayRun w r w' →
      AllOrNothing w (WritesPaidFor w input) r w') ∧
    (∀ input, (updateBillingOnSubscriptionUpdated input).MayRun w r w' →
      AllOrNothing w (IfSubscribed w input.externalSubscriptionId (WritesUpdate w input)) r w') ∧
    (∀ id, (updateBillingOnSubscriptionDeleted id).MayRun w r w' →
      AllOrNothing w (IfSubscribed w id (WritesDeletion w)) r w') ∧
    (∀ input user billing, (transaction (writeUserBilling input user billing)).MayRun w r w' →
      AllOrNothing w (WritesPaid w input user billing) r w') ∧
    (∀ input b, (transaction (writeSubscriptionUpdate input b)).MayRun w r w' →
      AllOrNothing w (WritesUpdate w input b) r w') ∧
    ∀ b, (transaction (writeSubscriptionDeleted b)).MayRun w r w' →
      AllOrNothing w (WritesDeletion w b) r w' :=
  ⟨fun _ => registerUserBilling_atomic,
    fun _ => ifSubscribed_atomic fun _ => writeSubscriptionUpdate_atomic,
    fun _ => ifSubscribed_atomic fun _ => writeSubscriptionDeleted_atomic,
    fun _ _ _ => writeUserBilling_atomic, fun _ _ => writeSubscriptionUpdate_atomic,
    fun _ => writeSubscriptionDeleted_atomic⟩

namespace Sample

/-- A row of a user who is not there (any more). -/
def orphan : Billing := { bill bought with userId := "nobody" }

def unpaid : SubscriptionUpdate where
  externalSubscriptionId := "sub_1"
  status := some "unpaid"
  currentPeriodEnd := 0

def orphaned : Promise Unit := transaction (writeSubscriptionUpdate unpaid orphan)

theorem orphaned_run : (orphaned.run bought).1 = .error noRowReturned := by decide +kernel

theorem cancelled_run :
    ((updateBillingOnSubscriptionDeleted "sub_1").run bought).1 = .ok () ∧
    ((updateBillingOnSubscriptionDeleted "sub_1").run bought).2.db.billings.map Billing.status =
      ["canceled"] := by decide +kernel

end Sample

/-- The second update matches no row: the first one is rolled back with it. A lost read leaves
the tables alone as well, and where nothing is lost both tables are written. -/
theorem billing_handlers_atomic_orphaned :
    (∃ w', Sample.orphaned.MayRun Sample.bought (.error noRowReturned) w' ∧
      w'.db = Sample.bought.db) ∧
    (∃ w', (updateBillingOnSubscriptionDeleted "sub_1").MayRun Sample.bought
      (.error connectionLost) w' ∧ w'.db = Sample.bought.db) ∧
    ∃ w', (updateBillingOnSubscriptionDeleted "sub_1").MayRun Sample.bought (.ok ()) w' ∧
      IfSubscribed Sample.bought "sub_1" (WritesDeletion Sample.bought) w'.db ∧
      w'.db.billings.map Billing.status = ["canceled"] := by
  refine ⟨?_, ?_, ?_⟩
  · have hrun := Async.mayRun_run Sample.orphaned Sample.bought
    rw [Sample.orphaned_run] at hrun
    refine ⟨_, hrun, ?_⟩
    rcases (billing_handlers_atomic _ _ _).2.2.2.2.1 _ _ hrun with ⟨h, -⟩ | ⟨-, h⟩
    · cases h
    · exact h
  · have hrun : (updateBillingOnSubscriptionDeleted "sub_1").MayRun Sample.bought
        (.error connectionLost) Sample.bought := .inr ⟨rfl, rfl⟩
    refine ⟨_, hrun, ?_⟩
    rcases (billing_handlers_atomic _ _ _).2.2.1 _ hrun with ⟨h, -⟩ | ⟨-, h⟩
    · cases h
    · exact h
  · have hrun := Async.mayRun_run (updateBillingOnSubscriptionDeleted "sub_1") Sample.bought
    rw [Sample.cancelled_run.1] at hrun
    refine ⟨_, hrun, ?_, Sample.cancelled_run.2⟩
    rcases (billing_handlers_atomic _ _ _).2.2.1 _ hrun with ⟨-, h⟩ | ⟨⟨_, h⟩, -⟩
    · exact h
    · cases h

end CodebaseTrpc
