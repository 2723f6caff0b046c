import CodebaseTrpc.Spec.Calls

/-! The end that login, Google sign-in and refresh have in common: settle an expired
subscription, sign two tokens, store the second. -/
namespace CodebaseTrpc
variable (P : Packages)

/-- The tail of the three procedures, under one name. -/
def startSession (userId : String) : Promise LoginResponse := do
  if ← hasExpiredSubscription userId then
    downgradeToFreeTier userId
  let tokens ← generateTokens P userId
  let _ ← updateUserById userId { refreshToken := .set (some tokens.refreshToken) }
  pure tokens

/-- `hasExpiredSubscription`, as a predicate of the world. -/
def World.lapsed (w : World) (userId : String) : Bool :=
  (Rows.lookup Billing.userId userId w.db.billings).any (·.expiresAt < w.env.now)

@[simp] theorem run_hasExpiredSubscription (userId : String) (w : World) :
    (hasExpiredSubscription userId).run w = (.ok (w.lapsed userId), w) := by
  simp only [hasExpiredSubscription, Async.bind_eq, Async.run_bind, run_getBillingByUserId,
    World.lapsed]
  cases Rows.lookup Billing.userId userId w.db.billings <;> rfl

def setProduct (productId : String) : UserUpdates := { currentProductId := .set (some productId) }

def storeRefresh (token : String) : UserUpdates := { refreshToken := .set (some token) }

theorem setProduct_quiet (productId : String) : (setProduct productId).Quiet := {}

theorem storeRefresh_quiet (token : String) : (storeRefresh token).Quiet := {}

/-- The world after `downgradeToFreeTier`. -/
def World.downgrade (w : World) (userId : String) : World :=
  match w.freeTier with
  | none => w
  | some product => w.exec (updateUser userId (setProduct product.id))

theorem run_downgradeToFreeTier {userId : String} {w : World} {u : User}
    (hu : Rows.lookup User.id userId w.db.users = some u) :
    (downgradeToFreeTier userId).run w =
      (if w.freeTier.isNone then .error freeTierNotFound else .ok (), w.downgrade userId) := by
  simp only [downgradeToFreeTier, Async.bind_eq, Async.run_bind, run_getFreeTierProduct,
    World.downgrade]
  cases w.freeTier with
  | none => rfl
  | some product =>
    have hrun := run_updateUserById_quiet _ hu (setProduct_quiet product.id)
    simp only [setProduct] at hrun ⊢
    simp only [hrun]
    rfl

/-- The world in which the tokens are signed. -/
def World.settle (w : World) (userId : String) : World :=
  if w.lapsed userId then w.downgrade userId else w

/-- The payloads of the pair, as signed. -/
def accessPayload (userId : String) (now : ℕ) : Token := stamp { userId } secondsPerHour now
def refreshPayload (userId : String) (now : ℕ) : Token := stamp { userId } (7 * secondsPerDay) now

def sessionTokens (userId : String) (now : ℕ) : LoginResponse :=
  ⟨P.jwt.sign (accessPayload userId now), P.jwt.sign (refreshPayload userId now)⟩

/-- The world after a session was started. -/
def World.openSession (w : World) (userId : String) : World :=
  (((w.settle userId).sign P .access { userId } secondsPerHour).sign P .refresh { userId }
    (7 * secondsPerDay)).exec
      (updateUser userId (storeRefresh (sessionTokens P userId w.env.now).refreshToken))

section Frame
variable (w : World) (userId : String)

@[simp] theorem downgrade_env : (w.downgrade userId).env = w.env := by
  unfold World.downgrade; split <;> simp
@[simp] theorem downgrade_issued : (w.downgrade userId).issued = w.issued := by
  unfold World.downgrade; split <;> simp
@[simp] theorem downgrade_outbox : (w.downgrade userId).outbox = w.outbox := by
  unfold World.downgrade; split <;> simp
@[simp] theorem downgrade_trx : (w.downgrade userId).trx = w.trx := by
  unfold World.downgrade; split <;> simp
@[simp] theorem downgrade_products : (w.downgrade userId).db.products = w.db.products := by
  unfold World.downgrade; split <;> simp
@[simp] theorem downgrade_billings : (w.downgrade userId).db.billings = w.db.billings := by
  unfold World.downgrade; split <;> simp

theorem downgrade_users {product : Product} (h : w.freeTier = some product) :
    (w.downgrade userId).db.users =
      Rows.update User.id userId ((setProduct product.id).apply w.env.now) w.db.users := by
  simp only [World.downgrade, h]
  exact exec_updateUser_users (setProduct_quiet product.id)

@[simp] theorem settle_env : (w.settle userId).env = w.env := by
  unfold World.settle; split <;> simp
@[simp] theorem settle_issued : (w.settle userId).issued = w.issued := by
  unfold World.settle; split <;> simp
@[simp] theorem settle_outbox : (w.settle userId).outbox = w.outbox := by
  unfold World.settle; split <;> simp
@[simp] theorem settle_trx : (w.settle userId).trx = w.trx := by
  unfold World.settle; split <;> simp
@[simp] theorem settle_products : (w.settle userId).db.products = w.db.products := by
  unfold World.settle; split <;> simp
@[simp] theorem settle_billings : (w.settle userId).db.billings = w.db.billings := by
  unfold World.settle; split <;> simp

@[simp] theorem openSession_env : (w.openSession P userId).env = w.env := by
  simp [World.openSession, World.sign]
@[simp] theorem openSession_outbox : (w.openSession P userId).outbox = w.outbox := by
  simp [World.openSession, World.sign]
@[simp] theorem openSession_trx : (w.openSession P userId).trx = w.trx := by
  simp [World.openSession, World.sign]
@[simp] theorem openSession_products : (w.openSession P userId).db.products = w.db.products := by
  simp [World.openSession, World.sign]
@[simp] theorem openSession_billings : (w.openSession P userId).db.billings = w.db.billings := by
  simp [World.openSession, World.sign]

theorem openSession_issued : (w.openSession P userId).issued = w.issued ++
    [⟨.access, accessPayload userId w.env.now, P.jwt.sign (accessPayload userId w.env.now)⟩,
     ⟨.refresh, refreshPayload userId w.env.now,
      P.jwt.sign (refreshPayload userId w.env.now)⟩] := by
  simp [World.openSession, World.sign, accessPayload, refreshPayload]

theorem openSession_users : (w.openSession P userId).db.users =
    Rows.update User.id userId
      ((storeRefresh (sessionTokens P userId w.env.now).refreshToken).apply w.env.now)
      (w.settle userId).db.users := by
  rw [World.openSession, exec_updateUser_users (storeRefresh_quiet _)]
  simp [World.sign]

end Frame

/-- Settling a subscription keeps every column of the users but two. -/
theorem settle_users (w : World) (userId : String) :
    (w.settle userId).db.users = w.db.users ∨ ∃ product, w.freeTier = some product ∧
      w.lapsed userId = true ∧ (w.settle userId).db.users =
        Rows.update User.id userId ((setProduct product.id).apply w.env.now) w.db.users := by
  unfold World.settle
  split
  next hl =>
    cases hf : w.freeTier with
    | none => exact .inl (by simp [World.downgrade, hf])
    | some product => exact .inr ⟨product, rfl, hl, downgrade_users w userId hf⟩
  next => exact .inl rfl

theorem lookup_settle {w : World} {userId : String} {u : User}
    (hu : Rows.lookup User.id userId w.db.users = some u) :
    ∃ u', Rows.lookup User.id userId (w.settle userId).db.users = some u' := by
  rcases settle_users w userId with h | ⟨product, -, -, h⟩
  · exact ⟨u, h ▸ hu⟩
  · exact ⟨_, by rw [h, Rows.lookup_update_self (fun _ => UserUpdates.apply_id ..), hu]; rfl⟩

theorem run_generateTokens (userId : String) (w : World) : (generateTokens P userId).run w =
    (.ok (sessionTokens P userId w.env.now), (w.sign P .access { userId } secondsPerHour).sign P
      .refresh { userId } (7 * secondsPerDay)) := rfl

/-- A session starts for every existing user, unless a lapsed subscription finds no free tier. -/
theorem run_startSession {userId : String} {w : World} {u : User}
    (hu : Rows.lookup User.id userId w.db.users = some u) : (startSession P userId).run w =
      if w.lapsed userId ∧ w.freeTier = none then (.error freeTierNotFound, w)
      else (.ok (sessionTokens P userId w.env.now), w.openSession P userId) := by
  have htail : ∀ v : World, v = w.settle userId → ((generateTokens P userId).bind fun tokens =>
      (updateUserById userId (storeRefresh tokens.refreshToken)).bind fun _ =>
        .pure tokens).run v = (.ok (sessionTokens P userId w.env.now), w.openSession P userId) := by
    rintro v rfl
    obtain ⟨u', hu'⟩ := lookup_settle hu
    rw [Async.run_bind_ok (run_generateTokens P userId _), Async.run_bind_ok
      (run_updateUserById_quiet _ (by simpa [World.sign] using hu') (storeRefresh_quiet _))]
    simp [World.openSession]
  simp only [startSession, Async.bind_eq]
  rw [Async.run_bind_ok (run_hasExpiredSubscription userId w)]
  cases hl : w.lapsed userId with
  | false => simpa [storeRefresh] using htail w (by simp [World.settle, hl])
  | true =>
    simp only [if_true]
    cases hf : w.freeTier with
    | none =>
      rw [Async.run_bind_error (e := freeTierNotFound) (t := w)
        (by simp [run_downgradeToFreeTier hu, hf, World.downgrade])]
      simp
    | some product =>
      rw [Async.run_bind_ok (a := ()) (t := w.downgrade userId)
        (by simp [run_downgradeToFreeTier hu, hf])]
      simpa [storeRefresh] using htail (w.downgrade userId) (by simp [World.settle, hl])

end CodebaseTrpc
