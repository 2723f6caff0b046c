import CodebaseTrpc.Model.Api
import CodebaseTrpc.Spec.Statements

/-! The small calls the services are made of, each with the result and the world it leaves. -/
namespace CodebaseTrpc
variable (P : Packages)

theorem truthyText_eq_some {o : Option String} {text : String} (h : truthyText o = some text) :
    o = some text ∧ text ≠ "" := by
  cases o with
  | none => cases h
  | some s =>
    simp only [truthyText] at h
    split_ifs at h with hs
    cases h
    exact ⟨rfl, hs⟩

@[simp] theorem run_select {α : Type} (query : Db → α) (w : World) :
    (select query).run w = (.ok (query w.db), w) := rfl

@[simp] theorem run_getUserByEmail (email : String) (w : World) :
    (getUserByEmail email).run w = (.ok (Rows.lookup User.email email w.db.users), w) := rfl
@[simp] theorem run_getUserByGoogleId (sub : String) (w : World) :
    (getUserByGoogleId sub).run w = (.ok (Rows.lookup User.googleId (some sub) w.db.users), w) :=
  rfl
@[simp] theorem run_getUserById (id : String) (w : World) :
    (getUserById id).run w = (.ok (Rows.lookup User.id id w.db.users), w) := rfl
@[simp] theorem run_getUserByRefreshToken (token : String) (w : World) :
    (getUserByRefreshToken token).run w =
      (.ok (Rows.lookup User.refreshToken (some token) w.db.users), w) := rfl
@[simp] theorem run_getUserProfile (id : String) (w : World) : (getUserProfile id).run w =
    (.ok ((Rows.lookup User.id id w.db.users).map removeUserSensitive), w) := rfl
@[simp] theorem run_getBillingByUserId (id : String) (w : World) :
    (getBillingByUserId id).run w = (.ok (Rows.lookup Billing.userId id w.db.billings), w) := rfl
@[simp] theorem run_getBillingByExternalSubscriptionId (s : String) (w : World) :
    (getBillingByExternalSubscriptionId s).run w =
      (.ok (Rows.lookup Billing.externalSubscriptionId s w.db.billings), w) := rfl
@[simp] theorem run_getProductByExternalPriceId (price : String) (w : World) :
    (getProductByExternalPriceId price).run w =
      (.ok (Rows.lookup Product.externalPriceId (some price) w.db.products), w) := rfl
@[simp] theorem run_dateNow (w : World) : dateNow.run w = (.ok w.env.now, w) := rfl
@[simp] theorem run_surroundings (w : World) : surroundings.run w = (.ok w.env, w) := rfl

def World.freeTier (w : World) : Option Product := Rows.lookup Product.isFreeTier true w.db.products

theorem run_getFreeTierProduct (w : World) : getFreeTierProduct.run w =
    (match w.freeTier with | none => .error freeTierNotFound | some p => .ok p, w) := by
  simp only [getFreeTierProduct, Async.bind_eq, Async.run_bind, run_select, World.freeTier]
  cases Rows.lookup Product.isFreeTier true w.db.products <;> rfl

/-- The procedure rejected and left no trace. -/
def Refused {α : Type} (w : World) (r : Except Err α) (w' : World) : Prop :=
  (∃ e, r = .error e) ∧ w' = w

theorem refused {α : Type} {w w' : World} {r : Except Err α} {e : Err}
    (h : (Except.error e, w) = (r, w')) : Refused w r w' := by
  obtain ⟨rfl, rfl⟩ := Prod.mk.inj h
  exact ⟨⟨e, rfl⟩, rfl⟩

section Refusals
variable {α β : Type} {w w' : World} {r : Except Err β}

/-- A sequence is refused with its first part, or goes on from what that did. -/
theorem run_then_cases {p : Promise α} {f : α → Promise β} {Q : α → World → Prop}
    (hp : ∀ {o w₁}, p.run w = (o, w₁) → Refused w o w₁ ∨ ∃ a, o = .ok a ∧ Q a w₁)
    (h : (p.bind f).run w = (r, w')) :
    Refused w r w' ∨ ∃ a w₁, Q a w₁ ∧ (f a).run w₁ = (r, w') := by
  replace h := Async.run_bind_cases h
  rcases h with ⟨e, he, rfl⟩ | ⟨a, w₁, hok, h⟩
  · rcases hp he with ⟨-, hw⟩ | ⟨_, heq, -⟩
    · exact .inl ⟨⟨e, rfl⟩, hw⟩
    · cases heq
  · rcases hp hok with ⟨⟨_, heq⟩, -⟩ | ⟨_, heq, hQ⟩
    · cases heq
    · cases heq
      exact .inr ⟨a, w₁, hQ, h⟩

/-- A query whose row is missing is a refusal. -/
theorem run_found_cases {p : Promise (Option α)} {o : Option α} {f : Option α → Promise β}
    {e : Err} (hp : p.run w = (.ok o, w)) (hnone : f none = .throw e)
    (h : (p.bind f).run w = (r, w')) :
    Refused w r w' ∨ ∃ a, o = some a ∧ (f (some a)).run w = (r, w') := by
  rw [Async.run_bind_ok hp] at h
  cases o with
  | none =>
    rw [hnone] at h
    exact .inl (refused h)
  | some a => exact .inr ⟨a, rfl, h⟩

end Refusals

/-- A write on the pool; a refused one changes nothing. -/
def World.exec {α : Type} (w : World) (statement : World → Db → Except Err (α × Db)) : World :=
  match statement w w.db with
  | .ok (_, db) => { w with db }
  | .error _ => w

section Exec
variable {α : Type} {w : World} {statement : World → Db → Except Err (α × Db)}

theorem run_write : (write .knex statement).run w =
    ((statement w w.db).map Prod.fst, w.exec statement) := by
  simp only [write, Async.run_stmt, World.exec, World.view, World.put]
  cases statement w w.db <;> rfl

theorem exec_ok {a : α} {db : Db} (h : statement w w.db = .ok (a, db)) :
    w.exec statement = { w with db } := by
  simp [World.exec, h]

@[simp] theorem exec_env : (w.exec statement).env = w.env := by
  unfold World.exec; split <;> rfl
@[simp] theorem exec_trx : (w.exec statement).trx = w.trx := by
  unfold World.exec; split <;> rfl
@[simp] theorem exec_issued : (w.exec statement).issued = w.issued := by
  unfold World.exec; split <;> rfl
@[simp] theorem exec_outbox : (w.exec statement).outbox = w.outbox := by
  unfold World.exec; split <;> rfl
@[simp] theorem exec_checkouts : (w.exec statement).checkouts = w.checkouts := by
  unfold World.exec; split <;> rfl

/-- What a write on the pool did. -/
theorem run_write_cases {r : Except Err α} {w' : World}
    (h : (write .knex statement).run w = (r, w')) :
    Refused w r w' ∨ ∃ a, r = .ok a ∧
      ∃ db, statement w w.db = .ok (a, db) ∧ w' = w.exec statement := by
  rw [run_write] at h
  obtain ⟨rfl, rfl⟩ := Prod.mk.inj h
  cases hs : statement w w.db with
  | error e => exact .inl ⟨⟨e, rfl⟩, by simp [World.exec, hs]⟩
  | ok x => exact .inr ⟨x.1, rfl, x.2, rfl, rfl⟩

end Exec

section UpdateUser
variable {w w' : World} {id : String} {updates : UserUpdates}

@[simp] theorem exec_updateUser_products :
    (w.exec (updateUser id updates)).db.products = w.db.products := by
  unfold World.exec
  split
  next h => obtain ⟨_, _, _, _, h, -⟩ := updateUser_ok h; exact h
  next => rfl

@[simp] theorem exec_updateUser_billings :
    (w.exec (updateUser id updates)).db.billings = w.db.billings := by
  unfold World.exec
  split
  next h => obtain ⟨_, _, _, _, _, h⟩ := updateUser_ok h; exact h
  next => rfl

theorem exec_updateUser_users_of_ok {u : User} {db : Db}
    (h : updateUser id updates w w.db = .ok (u, db)) :
    (w.exec (updateUser id updates)).db.users =
      Rows.update User.id id (updates.apply w.env.now) w.db.users := by
  obtain ⟨_, _, _, h', -⟩ := updateUser_ok h
  rw [exec_ok h, h']

/-- A quiet update is never refused. -/
theorem exec_updateUser_users (hq : updates.Quiet) :
    (w.exec (updateUser id updates)).db.users =
      Rows.update User.id id (updates.apply w.env.now) w.db.users := by
  cases hl : Rows.lookup User.id id w.db.users with
  | none =>
    have hw : w.exec (updateUser id updates) = w := by simp [World.exec, updateUser, hl]
    rw [hw, Rows.update_of_notMem (Rows.lookup_eq_none.mp hl)]
  | some old =>
    obtain ⟨db, h⟩ := updateUser_quiet (w := w) hl hq
    exact exec_updateUser_users_of_ok h

theorem run_updateUserById_quiet (updates : UserUpdates) {old : User}
    (hold : Rows.lookup User.id id w.db.users = some old) (hq : updates.Quiet) :
    (updateUserById id updates).run w =
      (.ok (updates.apply w.env.now old), w.exec (updateUser id updates)) := by
  obtain ⟨db, h⟩ := updateUser_quiet (w := w) hold hq
  rw [updateUserById, run_write, h]
  rfl

/-- What an update of a user did: refused, or its row rewritten. -/
theorem run_updateUserById_cases {r : Except Err User}
    (h : (updateUserById id updates).run w = (r, w')) :
    Refused w r w' ∨ ∃ u, r = .ok u ∧
      ∃ old, Rows.lookup User.id id w.db.users = some old ∧
        u = updates.apply w.env.now old ∧ w' = w.exec (updateUser id updates) ∧
        w'.db.users = Rows.update User.id id (updates.apply w.env.now) w.db.users := by
  rcases run_write_cases h with h | ⟨u, rfl, db, hs, rfl⟩
  · exact .inl h
  · obtain ⟨old, hold, rfl, -⟩ := updateUser_ok hs
    exact .inr ⟨_, rfl, old, hold, rfl, rfl, exec_updateUser_users_of_ok hs⟩

end UpdateUser

section InsertUser
variable {w w' : World} {input : CreateUserInput}

@[simp] theorem exec_insertUser_products :
    (w.exec (insertUser input)).db.products = w.db.products := by
  unfold World.exec
  split
  next h => exact (insertUser_ok h).2.2.1
  next => rfl

@[simp] theorem exec_insertUser_billings :
    (w.exec (insertUser input)).db.billings = w.db.billings := by
  unfold World.exec
  split
  next h => exact (insertUser_ok h).2.2.2
  next => rfl

theorem run_createUser_cases {r : Except Err User} (h : (createUser input).run w = (r, w')) :
    Refused w r w' ∨ ∃ u, r = .ok u ∧ u = input.row w.env.uuid w.env.now ∧
      w' = w.exec (insertUser input) ∧
        w'.db.users = w.db.users ++ [input.row w.env.uuid w.env.now] := by
  rcases run_write_cases h with h | ⟨u, rfl, db, hs, rfl⟩
  · exact .inl h
  · obtain ⟨rfl, hu, -⟩ := insertUser_ok hs
    exact .inr ⟨_, rfl, rfl, rfl, by rw [exec_ok hs, hu]⟩

end InsertUser

/-- The world after one signature. -/
def World.sign (w : World) (kind : TokenKind) (input : Token) (expiresIn : ℕ) : World :=
  let payload := stamp input expiresIn w.env.now
  { w with issued := w.issued ++ [⟨kind, payload, P.jwt.sign payload⟩] }

@[simp] theorem run_generateJwtToken (kind : TokenKind) (input : Token) (expiresIn : ℕ)
    (w : World) : (generateJwtToken P kind input expiresIn).run w =
      (.ok (P.jwt.sign (stamp input expiresIn w.env.now)), w.sign P kind input expiresIn) := rfl

theorem run_verifyJwtToken (token : String) (w : World) : (verifyJwtToken P token).run w =
    (if token = "" then .error tokenRequired
      else if Live P token w.env.now then .ok () else .error (tokenError P token), w) := by
  unfold verifyJwtToken
  split
  · rfl
  · simp only [Async.run_act, id]
    split <;> rfl

theorem run_decodeJwtToken (token : String) (w : World) : (decodeJwtToken P token).run w =
    (if token = "" then .error tokenRequired else match P.jwt.decode token with
      | none => .error (.typeError "Cannot read properties of null")
      | some t => .ok t, w) := by
  unfold decodeJwtToken
  split
  · rfl
  · cases P.jwt.decode token <;> rfl

/-- The payload of a token that `verifyJwtToken` and `decodeJwtToken` both accept. -/
def opens (token : String) (now : ℕ) (t : Token) : Prop :=
  token ≠ "" ∧ Live P token now ∧ P.jwt.decode token = some t

/-- Verifying a token and reading its payload: the common start of every token procedure. -/
theorem run_verify_decode {α : Type} {token : String} {f : Token → Promise α} {w w' : World}
    {r : Except Err α}
    (h : ((verifyJwtToken P token).bind fun _ => (decodeJwtToken P token).bind f).run w = (r, w')) :
    (∃ e, r = .error e ∧ w' = w) ∨ ∃ t, opens P token w.env.now t ∧ (f t).run w = (r, w') := by
  rw [Async.run_bind, run_verifyJwtToken] at h
  split_ifs at h with he hl
  · simp only [Prod.mk.injEq] at h
    exact .inl ⟨_, h.1.symm, h.2.symm⟩
  · simp only [Async.run_bind, run_decodeJwtToken, if_neg he] at h
    cases hd : P.jwt.decode token with
    | none =>
      simp only [hd, Prod.mk.injEq] at h
      exact .inl ⟨_, h.1.symm, h.2.symm⟩
    | some t => exact .inr ⟨t, ⟨he, hl, hd⟩, by simpa [hd] using h⟩
  · simp only [Prod.mk.injEq] at h
    exact .inl ⟨_, h.1.symm, h.2.symm⟩

/-- The same from the accepted side. -/
theorem run_verify_decode_ok {α : Type} {token : String} {f : Token → Promise α} {w : World}
    {t : Token} (h : opens P token w.env.now t) :
    ((verifyJwtToken P token).bind fun _ => (decodeJwtToken P token).bind f).run w =
      (f t).run w := by
  obtain ⟨hne, hl, hd⟩ := h
  simp [Async.run_bind, run_verifyJwtToken, run_decodeJwtToken, hne, hl, hd]

/-- The world after a mail was handed over, and what the sender reports. -/
def World.mailed (w : World) (mail : Mail) : World :=
  { w with outbox := w.outbox ++ [(mail, w.env.mail)] }

def World.delivery (w : World) (message : String) : Except Err Unit :=
  match w.env.mail with
  | .accepted => .ok ()
  | _ => .error (.custom message .internalServerError)

theorem run_sendOr (mail : Mail) (message : String) (w : World) :
    (sendOr mail message).run w = (w.delivery message, w.mailed mail) := by
  simp only [sendOr, Async.run_tryCatch, sendEmail, Async.run_act, World.delivery, World.mailed]
  cases w.env.mail <;> rfl

end CodebaseTrpc
