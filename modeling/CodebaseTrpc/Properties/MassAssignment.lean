import CodebaseTrpc.Spec.RawApi
import CodebaseTrpc.Spec.Server

/-! What an input object can write: a signup creates a row of its own fields and of fixed ones, a
profile update touches four columns. Further keys of the object reach neither. -/
namespace CodebaseTrpc
variable {P : Packages} {w w' : World}

/-- The column has the value of the field, or keeps its own where the field is left out. -/
def Provided {α : Type} (value : α → Json) (fields : List (String × Json)) (key : String)
    (old new : α) : Prop :=
  match fields.lookup key with
  | none => new = old
  | some sent => sent = value new

/-- The row that a signup with the fields created. -/
structure CreatedRow (P : Packages) (w : World) (fields : List (String × Json)) (row : User) :
    Prop where
  emailVerified : row.emailVerified = false
  googleId : row.googleId = none
  refreshToken : row.refreshToken = none
  currentProductId : ∃ product, w.freeTier = some product ∧
    row.currentProductId = some product.id
  passwordHash : ∃ password, fields.lookup "password" = some (.string password) ∧
    row.passwordHash = P.hashSync w.env.salt password

/-- The caller's row after an update with the fields. -/
structure UpdatedRow (w : World) (fields : List (String × Json)) (u u' : User) : Prop where
  fullName : Provided .string fields "fullName" u.fullName u'.fullName
  email : Provided .string fields "email" u.email u'.email
  phone : Provided .string fields "phone" u.phone u'.phone
  age : Provided .number fields "age" u.age u'.age
  frame : u' = { u with
    fullName := u'.fullName, email := u'.email, phone := u'.phone, age := u'.age,
    updatedAt := w.env.now }

theorem lookup_of_textOf {fields : List (String × Json)} {key s : String}
    (h : textOf fields key = some s) : fields.lookup key = some (.string s) := by
  unfold textOf at h
  split at h
  next hl => rw [hl, Option.some.inj h]
  next => cases h

theorem provided_of_optionalTextOf {fields : List (String × Json)} {key : String}
    {o : Option String} (h : optionalTextOf fields key = some o) (old : String) :
    Provided .string fields key old ((patchOf o).apply old) := by
  unfold optionalTextOf at h
  unfold Provided
  split at h
  next hl => cases h; rw [hl]; rfl
  next hl => cases h; rw [hl]; rfl
  next => cases h

theorem provided_of_optionalIntegerOf {fields : List (String × Json)} {key : String}
    {o : Option ℤ} (h : optionalIntegerOf fields key = some o) (old : ℤ) :
    Provided .number fields key old ((patchOf o).apply old) := by
  unfold optionalIntegerOf at h
  unfold Provided
  split at h
  next hl => cases h; rw [hl]; rfl
  next hl => cases h; rw [hl]; rfl
  next => cases h

theorem typed_signup {auth : Option String} {input : Option Json} {request : Request}
    (h : (RawRequest.call .signup auth input).typed = some request) :
    ∃ fields i, inputProperties input = some fields ∧ request = .signup i ∧
      textOf fields "password" = some i.password := by
  simp only [RawRequest.typed, Option.bind_eq_bind, Option.bind_eq_some_iff, Option.pure_def,
    Option.some.injEq] at h
  obtain ⟨fields, hf, _, -, _, -, _, -, _, hpw, _, -, rfl⟩ := h
  exact ⟨fields, _, hf, rfl, hpw⟩

theorem typed_updateUser {auth : Option String} {input : Option Json} {request : Request}
    (h : (RawRequest.call .updateUserById auth input).typed = some request) :
    ∃ fields i, inputProperties input = some fields ∧ request = .updateUserById auth i ∧
      optionalTextOf fields "fullName" = some i.fullName ∧
      optionalTextOf fields "email" = some i.email ∧
      optionalTextOf fields "phone" = some i.phone ∧
      optionalIntegerOf fields "age" = some i.age := by
  simp only [RawRequest.typed, Option.bind_eq_bind, Option.bind_eq_some_iff, Option.pure_def,
    Option.some.injEq] at h
  obtain ⟨fields, hf, _, hn, _, he, _, hp, _, ha, rfl⟩ := h
  exact ⟨fields, _, hf, rfl, hn, he, hp, ha⟩

/-- The new row, once its verification token is stored. -/
theorem signup_users {input : SignupInput} {product : Product}
    (hrow : (w.exec (insertUser (signupUser P input w.env product))).db.users = w.db.users ++
      [(signupUser P input w.env product).row w.env.uuid w.env.now]) :
    ((w.exec (insertUser (signupUser P input w.env product))).issueVerification P
      ((signupUser P input w.env product).row w.env.uuid w.env.now)).db.users = w.db.users ++
        [(storePending (P.jwt.sign (verificationPayload w.env.uuid w.env.now))).apply w.env.now
          ((signupUser P input w.env product).row w.env.uuid w.env.now)] := by
  have hids := (w.exec (insertUser (signupUser P input w.env product))).db.sound.users_id
  rw [hrow, List.map_append, List.map_singleton, List.nodup_append] at hids
  have hother : ∀ u ∈ w.db.users, u.id ≠ w.env.uuid := fun u hu hid =>
    hids.2.2 u.id (List.mem_map.mpr ⟨u, hu, rfl⟩) _ (List.mem_singleton.mpr rfl) hid
  rw [issueVerification_users, hrow, Rows.update, List.map_append]
  congr 1
  · exact Rows.update_of_notMem hother
  · simp

theorem signup_creates {auth : Option String} {input : Option Json} {reply : Reply}
    (hx : (handleRaw P (.call .signup auth input)).Exec w (.ok reply) w') :
    ∃ fields row, inputProperties input = some fields ∧ CreatedRow P w fields row ∧
      w'.db.users = w.db.users ++ [row] ∧ w'.db.billings = w.db.billings := by
  rcases exec_handleRaw_cases hx with ⟨⟨_, he⟩, -⟩ | ⟨request, ht, h⟩
  · cases he
  obtain ⟨fields, i, hf, rfl, hpw⟩ := typed_signup ht
  rw [Async.exec_iff_run (awaits_handle P (by simp))] at h
  replace h := effect_signup h
  cases h with
  | none hn =>
    rcases hn with ⟨_, ⟨⟩⟩ | hn
    cases hn
  | signup hproduct hrow =>
    have hpassword := lookup_of_textOf hpw
    refine ⟨fields, _, hf, ?_, signup_users hrow, by simp⟩
    exact ⟨rfl, rfl, rfl, ⟨_, hproduct, rfl⟩, i.password, hpassword, rfl⟩

theorem updateUserById_updates {auth : Option String} {input : Option Json} {reply : Reply}
    (hx : (handleRaw P (.call .updateUserById auth input)).Exec w (.ok reply) w') :
    ∃ fields u u', inputProperties input = some fields ∧ Authenticates P w auth u ∧
      UpdatedRow w fields u u' ∧
      w'.db.users = Rows.update User.id u.id (fun _ => u') w.db.users ∧
      w'.db.billings = w.db.billings := by
  rcases exec_handleRaw_cases hx with ⟨⟨_, he⟩, -⟩ | ⟨request, ht, h⟩
  · cases he
  obtain ⟨fields, i, hf, rfl, hn, he, hp, ha⟩ := typed_updateUser ht
  rw [Async.exec_iff_run (awaits_handle P (by simp))] at h
  replace h := effect_updateUserById h
  cases h with
  | none hn =>
    rcases hn with ⟨_, ⟨⟩⟩ | hn
    cases hn
  | @updateUserById _ _ u profile hauth hinput hrow =>
    refine ⟨fields, u, i.updates.apply w.env.now u, hf, hauth, ?_, ?_, by simp⟩
    · exact ⟨provided_of_optionalTextOf hn _, provided_of_optionalTextOf he _,
        provided_of_optionalTextOf hp _, provided_of_optionalIntegerOf ha _, rfl⟩
    · rw [hrow]
      exact Db.update_user hauth.mem _

/-- No key of an accepted input reaches a column that is not its field's. -/
theorem no_mass_assignment (P : Packages) (w w' : World) (auth : Option String)
    (input : Option Json) (reply : Reply) :
    ((handleRaw P (.call .signup auth input)).Exec w (.ok reply) w' →
      ∃ fields row, inputProperties input = some fields ∧ CreatedRow P w fields row ∧
        w'.db.users = w.db.users ++ [row] ∧ w'.db.billings = w.db.billings) ∧
    ((handleRaw P (.call .updateUserById auth input)).Exec w (.ok reply) w' →
      ∃ fields u u', inputProperties input = some fields ∧ Authenticates P w auth u ∧
        UpdatedRow w fields u u' ∧
        w'.db.users = Rows.update User.id u.id (fun _ => u') w.db.users ∧
        w'.db.billings = w.db.billings) :=
  ⟨signup_creates, updateUserById_updates⟩

namespace Sample

/-- The keys of an account with rights, beside those of the schema. -/
def smuggled : List (String × Json) :=
  [("emailVerified", .bool true), ("currentProductId", .string "pro"),
    ("passwordHash", .string "known"), ("id", .string "admin"), ("nested", .object [])]

def greedySignup : RawRequest :=
  .call .signup none (some (.object (smuggled ++
    [("fullName", .string "Ann Lee"), ("email", .string "ann@mail"), ("phone", .string "555"),
      ("password", .string "secret12"), ("age", .number 30)])))

def greedyUpdate : RawRequest :=
  .call .updateUserById (some accessToken.text)
    (some (.object (smuggled ++ [("phone", .string "556")])))

set_option maxRecDepth 10000 in
theorem greedy_facts : ((handleRaw packages greedySignup).run start).1.isOk = true ∧
    ((handleRaw packages greedyUpdate).run signedIn).1.isOk = true := by decide +kernel

end Sample

/-- A signup and an update that send more keys than their schemas name. -/
theorem no_mass_assignment_greedy :
    (∃ reply w' fields row, (handleRaw Sample.packages Sample.greedySignup).Exec Sample.start
        (.ok reply) w' ∧ fields.lookup "emailVerified" = some (.bool true) ∧
      CreatedRow Sample.packages Sample.start fields row ∧ w'.db.users = [row]) ∧
    ∃ reply w' fields u u', (handleRaw Sample.packages Sample.greedyUpdate).Exec Sample.signedIn
        (.ok reply) w' ∧ fields.lookup "passwordHash" = some (.string "known") ∧
      UpdatedRow Sample.signedIn fields u u' ∧
      w'.db.users = Rows.update User.id u.id (fun _ => u') Sample.signedIn.db.users := by
  obtain ⟨hsignup, hupdate⟩ := Sample.greedy_facts
  constructor
  · obtain ⟨reply, w', hx⟩ := Async.exec_of_isOk hsignup
    obtain ⟨fields, row, hf, hrow, husers, -⟩ := (no_mass_assignment _ _ _ _ _ _).1 hx
    cases hf
    exact ⟨reply, w', _, row, hx, rfl, hrow, husers⟩
  · obtain ⟨reply, w', hx⟩ := Async.exec_of_isOk hupdate
    obtain ⟨fields, u, u', hf, -, hrow, husers, -⟩ := (no_mass_assignment _ _ _ _ _ _).2 hx
    cases hf
    exact ⟨reply, w', _, u, u', hx, rfl, hrow, husers⟩

end CodebaseTrpc
