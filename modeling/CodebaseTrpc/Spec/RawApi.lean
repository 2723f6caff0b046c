import CodebaseTrpc.Model.RawApi
import CodebaseTrpc.Spec.Effect

/-! On the input of every call the keys of the schema decide: what the raw router does is what the
typed one does. -/
namespace CodebaseTrpc
variable {P : Packages}

theorem toSnakeCase_keys :
    toSnakeCase "passwordHash" = "password_hash" ∧ toSnakeCase "fullName" = "full_name" ∧
    toSnakeCase "email" = "email" ∧ toSnakeCase "phone" = "phone" ∧ toSnakeCase "age" = "age" ∧
    toSnakeCase "emailVerified" = "email_verified" ∧
    toSnakeCase "currentProductId" = "current_product_id" ∧
    toSnakeCase "updatedAt" = "updated_at" := by decide

section Fields
variable {fields : List Field} {properties : List (String × Json)} {key : String}

theorem parse_text (accepts : String → Prop) [DecidablePred accepts] :
    parseFields (⟨key, stringField accepts, false⟩ :: fields) properties =
      (textOf properties key).bind fun s =>
        if accepts s then (parseFields fields properties).map ((key, .text s) :: ·) else none := by
  simp only [parseFields, textOf]
  cases properties.lookup key with
  | none => rfl
  | some value => cases value <;> simp [stringField]

theorem parse_integer (accepts : ℤ → Prop) [DecidablePred accepts] :
    parseFields (⟨key, integerField accepts, false⟩ :: fields) properties =
      (integerOf properties key).bind fun n => if accepts n then
        (parseFields fields properties).map ((key, .json (.number n)) :: ·) else none := by
  simp only [parseFields, integerOf]
  cases properties.lookup key with
  | none => rfl
  | some value => cases value <;> simp [integerField]

/-- The entry of a field that may be left out. -/
def entry {α : Type} (value : α → Value) (key : String) : Option α → Properties
  | none => []
  | some a => [(key, value a)]

theorem parse_optionalText (accepts : String → Prop) [DecidablePred accepts] :
    parseFields (⟨key, stringField accepts, true⟩ :: fields) properties =
      (optionalTextOf properties key).bind fun o => if ∀ s ∈ o, accepts s then
        (parseFields fields properties).map (entry .text key o ++ ·) else none := by
  simp only [parseFields, optionalTextOf]
  cases properties.lookup key with
  | none => simp [entry]
  | some value => cases value <;> simp [stringField, entry]

theorem parse_optionalInteger (accepts : ℤ → Prop) [DecidablePred accepts] :
    parseFields (⟨key, integerField accepts, true⟩ :: fields) properties =
      (optionalIntegerOf properties key).bind fun o => if ∀ n ∈ o, accepts n then
        (parseFields fields properties).map (entry (.json ∘ .number) key o ++ ·) else none := by
  simp only [parseFields, optionalIntegerOf]
  cases properties.lookup key with
  | none => simp [entry]
  | some value => cases value <;> simp [integerField, entry]

end Fields

/-- Checks made one after another. -/
theorem ite_map_ite {α β : Type} {p q : Prop} [Decidable p] [Decidable q] (f : α → β) (a : α) :
    (if p then (if q then some a else none).map f else none) =
      if p ∧ q then some (f a) else none := by
  by_cases hp : p <;> by_cases hq : q <;> simp [hp, hq]

/-- The object of an accepted signup. -/
def SignupInput.properties (input : SignupInput) : Properties :=
  [("fullName", .text input.fullName), ("email", .text input.email), ("phone", .text input.phone),
    ("password", .text input.password), ("age", .json (.number input.age))]

/-- The object of an accepted update. -/
def UpdateUserInput.properties (input : UpdateUserInput) : Properties :=
  entry .text "fullName" input.fullName ++ entry .text "email" input.email ++
    entry .text "phone" input.phone ++ entry (.json ∘ .number) "age" input.age

theorem zodObject_signup (auth : Option String) (input : Option Json) :
    match (RawRequest.call .signup auth input).typed with
    | some (.signup i) => zodObject (signupFields P) input =
        if signupSchema P i then some i.properties else none
    | some _ => False
    | none => zodObject (signupFields P) input = none := by
  simp only [RawRequest.typed, zodObject]
  cases inputProperties input with
  | none => rfl
  | some fields =>
    simp only [signupFields, Option.bind_some, parse_text, parse_integer, Option.bind_eq_bind]
    cases textOf fields "fullName" with
    | none => rfl
    | some fullName =>
    cases textOf fields "email" with
    | none => simp
    | some email =>
    cases textOf fields "phone" with
    | none => simp
    | some phone =>
    cases textOf fields "password" with
    | none => simp
    | some password =>
    cases integerOf fields "age" with
    | none => simp
    | some age =>
      simp only [Option.bind_some, parseFields, Option.map_some, ite_map_ite]
      rfl

/-- The checks of the fields, before the one that asks for a field at all. -/
def UpdateUserInput.FieldsValid (P : Packages) (input : UpdateUserInput) : Prop :=
  (∀ n ∈ input.fullName, 3 ≤ jsLength n) ∧ (∀ e ∈ input.email, P.isEmail e = true) ∧
    (∀ p ∈ input.phone, 1 ≤ jsLength p) ∧ ∀ a ∈ input.age, ageValid a

instance (input : UpdateUserInput) : Decidable (input.FieldsValid P) := by
  unfold UpdateUserInput.FieldsValid; infer_instance

theorem updateUserSchema_iff (input : UpdateUserInput) :
    updateUserSchema P input ↔ input.FieldsValid P ∧ input ≠ {} := by
  simp only [updateUserSchema, UpdateUserInput.FieldsValid, and_assoc]

theorem zodObject_updateUser (auth : Option String) (input : Option Json) :
    match (RawRequest.call .updateUserById auth input).typed with
    | some (.updateUserById auth' i) => auth' = auth ∧ zodObject (updateUserFields P) input =
        if i.FieldsValid P then some i.properties else none
    | some _ => False
    | none => zodObject (updateUserFields P) input = none := by
  simp only [RawRequest.typed, zodObject]
  cases inputProperties input with
  | none => rfl
  | some fields =>
    simp only [updateUserFields, Option.bind_some, parse_optionalText, parse_optionalInteger,
      Option.bind_eq_bind]
    cases optionalTextOf fields "fullName" with
    | none => rfl
    | some fullName =>
    cases optionalTextOf fields "email" with
    | none => simp
    | some email =>
    cases optionalTextOf fields "phone" with
    | none => simp
    | some phone =>
    cases optionalIntegerOf fields "age" with
    | none => simp
    | some age =>
      simp only [Option.bind_some, parseFields, Option.map_some, ite_map_ite, List.append_nil]
      simp only [UpdateUserInput.properties, List.append_assoc]
      exact ⟨rfl, rfl⟩

/-- The columns of a signup are the row of the typed insert. -/
theorem insertColumns_signup (input : SignupInput) (passwordHash productId : String) (w : World)
    (db : Db) : insertColumns (keysToSnakeCase (signupObject input.properties passwordHash
      productId)) w db = insertUser
        { passwordHash
          fullName := input.fullName
          email := input.email
          phone := input.phone
          age := input.age
          emailVerified := some false
          currentProductId := some productId } w db := by
  obtain ⟨h₁, h₂, h₃, h₄, h₅, h₆, h₇, -⟩ := toSnakeCase_keys
  have hcolumns : keysToSnakeCase (signupObject input.properties passwordHash productId) =
      [("password_hash", .text passwordHash), ("full_name", .text input.fullName),
        ("email", .text input.email), ("phone", .text input.phone),
        ("age", .json (.number input.age)), ("email_verified", .json (.bool false)),
        ("current_product_id", .text productId)] := by
    simp [keysToSnakeCase, convertKeys, assignProperty, signupObject, spreadInto,
      SignupInput.properties, setProperty, h₁, h₂, h₃, h₄, h₅, h₆, h₇]
  rw [hcolumns]
  rfl

/-- The columns of an update set what the typed update sets. -/
theorem setColumns_update (input : UpdateUserInput) (now : ℕ) (user : User) :
    setColumns (keysToSnakeCase (spreadInto input.properties [("updatedAt", .date now)])) user =
      some (input.updates.apply now user) := by
  obtain ⟨-, h₂, h₃, h₄, h₅, -, -, h₈⟩ := toSnakeCase_keys
  obtain ⟨fullName, email, phone, age⟩ := input
  cases fullName <;> cases email <;> cases phone <;> cases age <;>
    simp [keysToSnakeCase, convertKeys, assignProperty, spreadInto, UpdateUserInput.properties,
      entry, setProperty, h₂, h₃, h₄, h₅, h₈, setColumns, setColumn, UpdateUserInput.updates,
      patchOf, UserUpdates.apply]

theorem updateColumns_update (id : String) (input : UpdateUserInput) (w : World) (db : Db) :
    updateColumns id (keysToSnakeCase (spreadInto input.properties [("updatedAt",
      .date w.env.now)])) db = updateUser id input.updates w db := by
  simp only [updateColumns, setColumns_update, Option.getD_some]
  rfl

theorem registerUserRaw_eq (input : SignupInput) :
    registerUserRaw P input.properties = registerUser P input := by
  have hcreate : ∀ (env : Environment) (product : Product),
      createUserRaw
          (signupObject input.properties (P.hashSync env.salt input.password) product.id) =
        createUser (signupUser P input env product) := fun env product =>
    congrArg (write .knex) (funext fun w => funext fun db => insertColumns_signup input _ _ w db)
  have hpassword : input.properties.lookup "password" = some (.text input.password) := rfl
  rw [registerUser_eq]
  simp only [registerUserRaw, hpassword]
  refine congrArg (Async.bind _)
    (funext fun env => congrArg (Async.bind _) (funext fun product => ?_))
  simp only [hcreate]
  rfl

theorem updateUserProfileRaw_eq (userId : String) (input : UpdateUserInput) :
    updateUserProfileRaw userId input.properties = updateUserProfile userId input := by
  have hupdate : updateUserByIdRaw userId input.properties = updateUserById userId input.updates :=
    congrArg (write .knex) (funext fun w => funext fun db => updateColumns_update userId input w db)
  simp only [updateUserProfileRaw, hupdate]
  rfl

theorem properties_isEmpty (input : UpdateUserInput) :
    input.properties.isEmpty = true ↔ input = {} := by
  obtain ⟨fullName, email, phone, age⟩ := input
  cases fullName <;> cases email <;> cases phone <;> cases age <;>
    simp [UpdateUserInput.properties, entry]

/-- What a call with an ill-typed input does: the middlewares run, and nothing else. -/
def refuseRaw (P : Packages) : RawRequest → Promise Reply
  | .call procedure auth _ => (middlewares P procedure auth).bind fun _ => .throw inputRefused
  | .webhook _ => .throw inputRefused

/-- The raw router is the typed one on the fields that the schemas name. -/
theorem handleRaw_eq (request : RawRequest) : handleRaw P request =
    match request.typed with
    | some typed => handle P typed
    | none => refuseRaw P request := by
  cases request with
  | webhook event => rfl
  | call procedure auth input =>
    cases procedure with
    | signup =>
      have h := zodObject_signup (P := P) auth input
      split at h
      next i ht =>
        simp only [handleRaw, h, ht, handle, validated]
        split_ifs
        · simp only [registerUserRaw_eq]
        · rfl
      next => exact h.elim
      next ht =>
        simp only [handleRaw, h, ht]
        rfl
    | updateUserById =>
      have h := zodObject_updateUser (P := P) auth input
      split at h
      next _ i ht =>
        obtain ⟨rfl, h⟩ := h
        simp only [handleRaw, h, ht, handle, validated]
        refine congrArg (Async.bind _) (funext fun user => ?_)
        by_cases hv : i.FieldsValid P
        · simp only [hv, if_true, properties_isEmpty, updateUserSchema_iff, true_and, ne_eq,
            ite_not, updateUserProfileRaw_eq]
        · simp only [hv, if_false, updateUserSchema_iff, false_and]
      next => exact h.elim
      next ht =>
        simp only [handleRaw, h, ht, refuseRaw, middlewares, Async.bind_eq, Async.bind_assoc]
        rfl
    | _ =>
      simp only [handleRaw]
      split <;> simp_all [refuseRaw]

variable {w w' : World}

theorem run_middlewares {procedure : Procedure} {auth : Option String} {r : Except Err Unit}
    (h : (middlewares P procedure auth).run w = (r, w')) : w' = w := by
  have hauth : ∀ {f : User → Promise Unit}, (∀ u v r v', (f u).run v = (r, v') → v' = v) →
      ((authMiddleware P auth).bind f).run w = (r, w') → w' = w := by
    intro f hf h
    rcases run_protected_cases h with h | ⟨u, -, h⟩
    · exact h.2
    · exact hf u w r w' h
  have hverified : ∀ (u : User) (v : World) (r : Except Err Unit) (v' : World),
      ((verifiedEmailMiddleware u).bind fun _ => .pure ()).run v = (r, v') → v' = v := by
    intro u v r v' h
    rcases run_verifiedEmailMiddleware_cases h with h | h
    · exact h.2
    · exact (Prod.mk.inj h).2.symm
  have hdone : ∀ (_ : User) (v : World) (r : Except Err Unit) (v' : World),
      (Async.pure () : Promise Unit).run v = (r, v') → v' = v :=
    fun _ _ _ _ h => (Prod.mk.inj h).2.symm
  cases procedure
  case createCheckoutSession => exact hauth hverified h
  case createCustomerPortalSession => exact hauth hverified h
  all_goals first | exact (Prod.mk.inj h).2.symm | exact hauth hdone h

theorem awaits_middlewares (procedure : Procedure) (auth : Option String) :
    (middlewares P procedure auth).Awaits := by
  have hauth := awaits_authMiddleware P auth
  cases procedure
  case createCheckoutSession =>
    exact hauth.bind fun _ => (awaits_verifiedEmailMiddleware _).bind fun _ => trivial
  case createCustomerPortalSession =>
    exact hauth.bind fun _ => (awaits_verifiedEmailMiddleware _).bind fun _ => trivial
  all_goals first | trivial | exact hauth.bind fun _ => trivial

/-- A raw call was refused, or was the call of a typed request. -/
theorem exec_handleRaw_cases {request : RawRequest} {r : Except Err Reply}
    (h : (handleRaw P request).Exec w r w') :
    Refused w r w' ∨ ∃ typed, request.typed = some typed ∧ (handle P typed).Exec w r w' := by
  rw [handleRaw_eq] at h
  cases ht : request.typed with
  | some typed =>
    rw [ht] at h
    exact .inr ⟨typed, rfl, h⟩
  | none =>
    rw [ht] at h
    left
    cases request with
    | webhook event => cases ht
    | call procedure auth input =>
      rcases (Async.exec_bind (awaits_middlewares procedure auth)).mp h with
        ⟨e, hrun, rfl⟩ | ⟨_, t, hrun, hx⟩
      · exact ⟨⟨e, rfl⟩, run_middlewares hrun⟩
      · obtain rfl := run_middlewares hrun
        exact exec_throw hx

end CodebaseTrpc
