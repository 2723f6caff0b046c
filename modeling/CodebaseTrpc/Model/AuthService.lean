import CodebaseTrpc.Model.Jwt
import CodebaseTrpc.Model.Mailer
import CodebaseTrpc.Model.UserService

/-! `services/auth.service.ts` -/
namespace CodebaseTrpc
variable (P : Packages)

structure TGoogleTokenPayload where
  sub : String
  email : String
  name : String
  deriving DecidableEq, Repr

/-- One field of `googleTokenPayloadSchema`. -/
def googleField (path : String) (valid : String → Bool) (message : String) :
    Option String → Except String String
  | none => .error (path ++ ": Invalid input: expected string, received undefined")
  | some value => if valid value then .ok value else .error (path ++ ": " ++ message)

/-- `googleTokenPayloadSchema.safeParse(payload)` -/
def googleTokenPayloadSchema (payload : TicketPayload) : Except (List String) TGoogleTokenPayload :=
  match googleField "sub" (· ≠ "") "Google user ID (sub) is required" payload.sub,
    googleField "email" P.isEmail "Valid email is required" payload.email,
    googleField "name" (· ≠ "") "Name is required" payload.name with
  | .ok sub, .ok email, .ok name => .ok ⟨sub, email, name⟩
  | sub, email, name => .error ([sub, email, name].filterMap fun
      | .ok _ => none
      | .error message => some message)

def verifyGoogleCredential : Promise TGoogleTokenPayload :=
  .act id fun w => match w.env.google with
    | .rejected => .throw (.custom "Invalid Google token" .unauthorized)
    | .ticket none => .throw (.custom "Empty token payload" .unauthorized)
    | .ticket (some payload) => match googleTokenPayloadSchema P payload with
      | .error messages => .throw (.zodValidation messages)
      | .ok data => .pure data

/-- `expiresIn: '1h'` and `'7d'`. -/
def generateTokens (userId : String) : Promise LoginResponse := do
  let accessToken ← generateJwtToken P .access { userId } secondsPerHour
  let refreshToken ← generateJwtToken P .refresh { userId } (7 * secondsPerDay)
  pure ⟨accessToken, refreshToken⟩

def hasExpiredSubscription (userId : String) : Promise Bool := do
  match ← getBillingByUserId userId with
  | none => pure false
  | some billing => do
    let now ← dateNow
    pure (decide (billing.expiresAt < now))

def downgradeToFreeTier (userId : String) (conn : Conn := .knex) : Promise Unit := do
  let defaultProduct ← getFreeTierProduct
  let _ ← updateUserById userId { currentProductId := .set (some defaultProduct.id) } conn

def authenticateWithGoogle : Promise LoginResponse := do
  let payload ← verifyGoogleCredential P
  let user ← do
    match ← getUserByGoogleId payload.sub with
    | some user => pure user
    | none => do
      match ← getUserByEmail payload.email with
      | some user =>
        -- Link Google account to existing user
        updateUserById user.id { googleId := .set (some payload.sub), emailVerified := .set true }
      | none => do
        let env ← surroundings
        let passwordHash := P.hashSync env.salt env.randomPassword
        let defaultProduct ← getFreeTierProduct
        createUser
          { email := payload.email
            fullName := payload.name
            phone := ""
            age := 0
            passwordHash
            googleId := some payload.sub
            currentProductId := some defaultProduct.id
            emailVerified := some true }
  if ← hasExpiredSubscription user.id then
    downgradeToFreeTier user.id
  let tokens ← generateTokens P user.id
  let _ ← updateUserById user.id { refreshToken := .set (some tokens.refreshToken) }
  pure tokens

def wrongCredentials : Err := .custom "Email or password is wrong" .unauthorized

def authenticateUser (input : LoginInput) : Promise LoginResponse := do
  match ← getUserByEmail input.email with
  | none => .throw wrongCredentials
  | some user =>
    if ¬ P.compareSync input.password user.passwordHash then .throw wrongCredentials
    else do
      if ← hasExpiredSubscription user.id then
        downgradeToFreeTier user.id
      let tokens ← generateTokens P user.id
      let _ ← updateUserById user.id { refreshToken := .set (some tokens.refreshToken) }
      pure tokens

def registerUser (input : SignupInput) : Promise UserProfile := do
  let env ← surroundings
  let passwordHash := P.hashSync env.salt input.password
  let defaultProduct ← getFreeTierProduct
  let user ← createUser
    { passwordHash
      fullName := input.fullName
      email := input.email
      phone := input.phone
      age := input.age
      emailVerified := some false
      currentProductId := some defaultProduct.id }
  let verificationToken ← generateJwtToken P (.purpose .emailVerification)
    { userId := user.id, purpose := some .emailVerification } (30 * secondsPerMinute)
  let _ ← updateUserById user.id { emailVerificationToken := .set (some verificationToken) }
  -- Continue - because user can resend later
  (sendVerificationEmail user.email user.fullName verificationToken).tryCatch fun _ => .pure ()
  match ← getUserProfile user.id with
  | none => .throw (.custom "Failed to retrieve user profile" .internalServerError)
  | some userProfile => pure userProfile

def refreshAccessToken (refreshToken : String) : Promise LoginResponse := do
  verifyJwtToken P refreshToken
  match ← getUserByRefreshToken refreshToken with
  | none => .throw (.custom "Invalid refresh token" .unauthorized)
  | some user => do
    if ← hasExpiredSubscription user.id then
      downgradeToFreeTier user.id
    let tokens ← generateTokens P user.id
    let _ ← updateUserById user.id { refreshToken := .set (some tokens.refreshToken) }
    pure tokens

/-- `updates: { refreshToken: undefined }` -/
def revokeUserRefreshToken (userId : String) : Promise Unit := do
  let _ ← updateUserById userId { refreshToken := .undefined }

def verifyUserEmail (token : String) : Promise Unit := do
  verifyJwtToken P token
  let decoded ← decodeJwtToken P token
  if decoded.purpose ≠ some .emailVerification then
    .throw (.custom "Invalid verification token" .badRequest)
  else do
    match ← getUserById decoded.userId with
    | none => .throw (.custom "Invalid verification token" .badRequest)
    | some user =>
      -- Prevent token reuse after resend
      if user.emailVerificationToken ≠ some token then
        .throw (.custom "Invalid or expired verification token" .badRequest)
      else if user.emailVerified then pure ()
      else do
        let _ ← updateUserById user.id
          { emailVerified := .set true, emailVerificationToken := .undefined }

def resendVerificationEmail (userId : String) : Promise Unit := do
  match ← getUserById userId with
  | none => .throw (.custom "User not found" .notFound)
  | some user =>
    if user.emailVerified then .throw (.custom "Email already verified" .badRequest)
    else do
      let verificationToken ← generateJwtToken P (.purpose .emailVerification)
        { userId := user.id, purpose := some .emailVerification } (30 * secondsPerMinute)
      let _ ← updateUserById user.id { emailVerificationToken := .set (some verificationToken) }
      sendVerificationEmail user.email user.fullName verificationToken

def forgotPassword (email : String) : Promise Unit := do
  match ← getUserByEmail email with
  | none => pure ()  -- Don't reveal if user exists - always return success
  | some user => do
    let resetToken ← generateJwtToken P (.purpose .passwordReset)
      { userId := user.id, purpose := some .passwordReset } (15 * secondsPerMinute)
    sendPasswordResetEmail user.email user.fullName resetToken

def resetPassword (token newPassword : String) : Promise Unit := do
  verifyJwtToken P token
  let decoded ← decodeJwtToken P token
  if decoded.purpose ≠ some .passwordReset then
    .throw (.custom "Invalid reset token" .badRequest)
  else do
    match ← getUserById decoded.userId with
    | none => .throw (.custom "Invalid reset token" .badRequest)
    | some user => do
      let env ← surroundings
      let passwordHash := P.hashSync env.salt newPassword
      -- Update password and invalidate all refresh tokens (force re-login)
      let _ ← updateUserById user.id
        { passwordHash := .set passwordHash, refreshToken := .undefined }

end CodebaseTrpc
