import CodebaseTrpc.Model.Api
import CodebaseTrpc.Model.Input

/-! The procedures on the JSON they are sent. Where an input object is spread into an insert or
an update, the object is kept as it is, key by key, down to the columns of the statement. -/
namespace CodebaseTrpc
variable (P : Packages)

/-- The row with the column set, unless there is no such column of the value's type. -/
def setColumn (column : String) (value : Value) (user : User) : Option User :=
  match column, value with
  | "id", .json (.string s) => some { user with id := s }
  | "email", .json (.string s) => some { user with email := s }
  | "full_name", .json (.string s) => some { user with fullName := s }
  | "phone", .json (.string s) => some { user with phone := s }
  | "age", .json (.number n) => some { user with age := n }
  | "password_hash", .json (.string s) => some { user with passwordHash := s }
  | "google_id", .json (.string s) => some { user with googleId := some s }
  | "google_id", .json .null => some { user with googleId := none }
  | "refresh_token", .json (.string s) => some { user with refreshToken := some s }
  | "refresh_token", .json .null => some { user with refreshToken := none }
  | "email_verified", .json (.bool b) => some { user with emailVerified := b }
  | "email_verification_token", .json (.string s) =>
      some { user with emailVerificationToken := some s }
  | "email_verification_token", .json .null => some { user with emailVerificationToken := none }
  | "current_product_id", .json (.string s) => some { user with currentProductId := some s }
  | "current_product_id", .json .null => some { user with currentProductId := none }
  | "created_at", .date ms => some { user with createdAt := ms }
  | "updated_at", .date ms => some { user with updatedAt := ms }
  | _, _ => none

def setColumns (columns : Properties) (user : User) : Option User :=
  columns.foldlM (fun user kv => setColumn kv.1 kv.2 user) user

/-- A row of column defaults, before the columns of the insert. -/
def defaultRow (id : String) (now : ℕ) : User where
  id := id
  email := ""
  fullName := ""
  phone := ""
  age := 0
  passwordHash := ""
  refreshToken := none
  googleId := none
  emailVerified := false
  emailVerificationToken := none
  currentProductId := none
  createdAt := now
  updatedAt := now

/-- The `NOT NULL` columns without a default. -/
def requiredColumns : List String := ["email", "full_name", "phone", "age", "password_hash"]

/-- `knex('users').insert(columns).returning(...)` -/
def insertColumns (columns : Properties) (w : World) (db : Db) : Except Err (User × Db) :=
  if requiredColumns.all fun column => (columns.lookup column).isSome then
    match setColumns columns (defaultRow w.env.uuid w.env.now) with
    | none => .error constraintViolated
    | some row =>
      match Db.store? (db.users ++ [row]) db.products db.billings with
      | none => .error constraintViolated
      | some db' => .ok (row, db')
  else .error constraintViolated

/-- `knex('users').where({ id }).update(columns).returning(...)` -/
def updateColumns (id : String) (columns : Properties) (db : Db) : Except Err (User × Db) :=
  match Rows.lookup User.id id db.users with
  | none => .error noRowReturned
  | some user =>
    match setColumns columns user with
    | none => .error constraintViolated
    | some user' =>
      match Db.store? (Rows.update User.id id (fun u => (setColumns columns u).getD u) db.users)
          db.products db.billings with
      | none => .error constraintViolated
      | some db' => .ok (user', db')

def createUserRaw (input : Properties) : Promise User :=
  write .knex (insertColumns (keysToSnakeCase input))

/-- `{ ...updates, updatedAt: new Date() }`, key by key. -/
def updateUserByIdRaw (id : String) (updates : Properties) : Promise User :=
  write .knex fun w => updateColumns id
    (keysToSnakeCase (spreadInto updates [("updatedAt", .date w.env.now)]))

def signupFields : List Field :=
  [{ key := "fullName", accepts := stringField (3 ≤ jsLength ·) },
    { key := "email", accepts := stringField (P.isEmail · = true) },
    { key := "phone", accepts := stringField (1 ≤ jsLength ·) },
    { key := "password", accepts := stringField (1 ≤ jsLength ·) },
    { key := "age", accepts := integerField ageValid }]

def updateUserFields : List Field :=
  [{ key := "fullName", accepts := stringField (3 ≤ jsLength ·), isOptional := true },
    { key := "email", accepts := stringField (P.isEmail · = true), isOptional := true },
    { key := "phone", accepts := stringField (1 ≤ jsLength ·), isOptional := true },
    { key := "age", accepts := integerField ageValid, isOptional := true }]

/-- The object `registerUser` inserts: `passwordHash`, the rest of the input, two fixed keys. -/
def signupObject (input : Properties) (passwordHash productId : String) : Properties :=
  spreadInto (spreadInto [("passwordHash", .text passwordHash)]
    (input.filter fun kv => kv.1 ≠ "password"))
    [("emailVerified", .json (.bool false)), ("currentProductId", .text productId)]

def registerUserRaw (input : Properties) : Promise UserProfile :=
  match input.lookup "password" with
  | some (.json (.string password)) => do
    let env ← surroundings
    let passwordHash := P.hashSync env.salt password
    let defaultProduct ← getFreeTierProduct
    let user ← createUserRaw (signupObject input passwordHash defaultProduct.id)
    let verificationToken ← generateJwtToken P (.purpose .emailVerification)
      { userId := user.id, purpose := some .emailVerification } (30 * secondsPerMinute)
    let _ ← updateUserById user.id { emailVerificationToken := .set (some verificationToken) }
    -- Continue - because user can resend later
    (sendVerificationEmail user.email user.fullName verificationToken).tryCatch fun _ => .pure ()
    match ← getUserProfile user.id with
    | none => .throw (.custom "Failed to retrieve user profile" .internalServerError)
    | some userProfile => pure userProfile
  | _ => .throw (.error "Illegal arguments")

def updateUserProfileRaw (userId : String) (updates : Properties) : Promise UserProfile := do
  let user ← updateUserByIdRaw userId updates
  pure (removeUserSensitive user)

inductive Procedure where
  | google | login | signup | refresh | logout | verifyEmail | resendVerificationEmail
  | forgotPassword | resetPassword | getUserById | updateUserById | requestEmailChange
  | verifyEmailChange | getUserBilling | createCheckoutSession | createCustomerPortalSession
  deriving DecidableEq, Repr

/-- A tRPC call with its authorization header and its input as sent, or a webhook event. -/
inductive RawRequest where
  | call (procedure : Procedure) (auth : Option String) (input : Option Json)
  | webhook (event : BillingEvent)

/-- The middlewares of a procedure. -/
def middlewares (procedure : Procedure) (auth : Option String) : Promise Unit :=
  match procedure with
  | .google | .login | .signup | .refresh | .verifyEmail | .forgotPassword | .resetPassword =>
    pure ()
  | .createCheckoutSession | .createCustomerPortalSession => do
    let user ← authMiddleware P auth
    let _ ← verifiedEmailMiddleware user
  | _ => do
    let _ ← authMiddleware P auth

/-- The typed input, where every field the procedure reads has its type. -/
def RawRequest.typed : RawRequest → Option Request
  | .webhook event => some (.webhook event)
  | .call .logout auth _ => some (.logout auth)
  | .call .resendVerificationEmail auth _ => some (.resendVerificationEmail auth)
  | .call .getUserById auth _ => some (.getUserById auth)
  | .call .getUserBilling auth _ => some (.getUserBilling auth)
  | .call procedure auth input => do
    let fields ← inputProperties input
    match procedure with
    | .google => return .google (← textOf fields "credential")
    | .login => return .login ⟨← textOf fields "email", ← textOf fields "password"⟩
    | .signup =>
      return .signup ⟨← textOf fields "fullName", ← textOf fields "email",
        ← textOf fields "phone", ← textOf fields "password", ← integerOf fields "age"⟩
    | .refresh => return .refresh (← textOf fields "refreshToken")
    | .verifyEmail => return .verifyEmail (← textOf fields "token")
    | .forgotPassword => return .forgotPassword (← textOf fields "email")
    | .resetPassword =>
      return .resetPassword (← textOf fields "token") (← textOf fields "newPassword")
    | .updateUserById =>
      return .updateUserById auth ⟨← optionalTextOf fields "fullName",
        ← optionalTextOf fields "email", ← optionalTextOf fields "phone",
        ← optionalIntegerOf fields "age"⟩
    | .requestEmailChange => return .requestEmailChange auth (← textOf fields "newEmail")
    | .verifyEmailChange => return .verifyEmailChange auth (← textOf fields "code")
    | .createCheckoutSession =>
      return .createCheckoutSession auth ⟨← textOf fields "priceId",
        ← textOf fields "successUrl", ← textOf fields "cancelUrl"⟩
    | .createCustomerPortalSession =>
      return .createCustomerPortalSession auth (← textOf fields "returnUrl")
    | .logout => return .logout auth
    | .resendVerificationEmail => return .resendVerificationEmail auth
    | .getUserById => return .getUserById auth
    | .getUserBilling => return .getUserBilling auth

/-- The routers on raw input. The two procedures that spread their input run on its keys. -/
def handleRaw (request : RawRequest) : Promise Reply :=
  match request with
  | .call .signup _ input =>
    match zodObject (signupFields P) input with
    | none => .throw inputRefused
    | some data => do
      return .profile (some (← registerUserRaw P data))
  | .call .updateUserById auth input => do
    let user ← authMiddleware P auth
    match zodObject (updateUserFields P) input with
    | none => .throw inputRefused
    | some data =>
      -- At least one field must be provided for update
      if data.isEmpty then .throw inputRefused
      else return .profile (some (← updateUserProfileRaw user.id data))
  | request =>
    match request.typed with
    | some typed => handle P typed
    | none =>
      match request with
      | .call procedure auth _ => do
        middlewares P procedure auth
        .throw inputRefused
      | .webhook _ => .throw inputRefused

end CodebaseTrpc
