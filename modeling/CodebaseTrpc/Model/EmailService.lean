import CodebaseTrpc.Model.Jwt
import CodebaseTrpc.Model.Mailer
import CodebaseTrpc.Model.UserService

/-! `services/email.service.ts` -/
namespace CodebaseTrpc
variable (P : Packages)

def badRequest (message : String) : Err := .custom message .badRequest

/-- The `try` block of `checkTokenCooldown`. -/
def cooldownOf (token : String) (currentDateTimestamp : ℕ) : Promise Unit := do
  verifyJwtToken P token
  let existing ← decodeJwtToken P token
  let lastRequestedAt : ℤ := match existing.iat with
    | some (n + 1) => (n + 1) * millisecondsPerSecond
    | _ => currentDateTimestamp
  let elapsedMs : ℤ := currentDateTimestamp - lastRequestedAt
  if elapsedMs ≥ emailChangeCooldownMs then pure ()
  else
    let remainingMs := emailChangeCooldownMs - elapsedMs
    let secondsRemaining := -((-remainingMs) / millisecondsPerSecond)
    .throw (badRequest ("Please wait " ++ toString secondsRemaining ++
      " seconds before requesting a new code"))

def checkTokenCooldown (user : User) (currentDateTimestamp : ℕ) : Promise Unit :=
  match truthyText user.emailVerificationToken with
  | none => pure ()
  -- Invalid token, proceed with new token
  | some token => (cooldownOf P token currentDateTimestamp).tryCatch fun _ => .pure ()

def invalidCode (attemptsRemaining : ℤ) : Err :=
  badRequest ("Invalid code. You have " ++ toString attemptsRemaining ++ " attempt" ++
    (if attemptsRemaining ≠ 1 then "s" else "") ++ " remaining")

/-- An `async` function: what its caller awaits, if it does. -/
def verifyEmailChangeCode (userId code : String) (tokenData : Token) : Promise Unit :=
  if tokenData.purpose ≠ some .emailChange then .throw (badRequest "Invalid token purpose")
  else if tokenData.code ≠ some code then do
    -- Regenerate JWT with preserved exp timestamp and incremented attempts
    let now ← dateNow
    let secondsRemaining := match tokenData.exp with
      | some (n + 1) => max (n + 1 - now / millisecondsPerSecond) 1
      | _ => emailChangeTokenExpirationMinutes * secondsPerMinute
    match tokenData.iat with
    | none => .throw (.error "\"iat\" should be a number of seconds")
    | some iat => do
      let newToken ← generateJwtToken P (.purpose .emailChange)
        { userId := tokenData.userId
          purpose := some .emailChange
          code := tokenData.code
          newEmail := tokenData.newEmail
          attempts := tokenData.attempts.map (· + 1)
          iat := some iat }
        secondsRemaining
      let _ ← updateUserById userId { emailVerificationToken := .set (some newToken) }
      .throw (invalidCode (maxVerificationAttempts - (tokenData.attempts.getD 0 + 1)))
  else pure ()

def requestEmailChange (userId newEmail : String) : Promise Unit := do
  match ← getUserById userId with
  | none => .throw (.custom "User not found" .notFound)
  | some user =>
    if user.email = newEmail then
      .throw (badRequest "New email must be different from current email")
    else do
      match ← getUserByEmail newEmail with
      | some _ => .throw (.custom "This email is already in use" .conflict)
      | none => do
        let currentDateTimestamp ← dateNow
        checkTokenCooldown P user currentDateTimestamp
        let code ← generateSixDigitsVerificationCode
        let token ← generateJwtToken P (.purpose .emailChange)
          { userId
            purpose := some .emailChange
            code := some code
            newEmail := some newEmail
            attempts := some 0
            iat := some (currentDateTimestamp / millisecondsPerSecond) }
          (emailChangeTokenExpirationMinutes * secondsPerMinute)
        let _ ← updateUserById userId { emailVerificationToken := .set (some token) }
        sendEmailChangeCode newEmail user.fullName code

/-- `verifyEmailChange` from the point where the code is taken for valid. -/
def applyEmailChange (userId newEmail : String) : Promise UserProfile := do
  -- check email still available (race condition prevention)
  let existingUser ← getUserByEmail newEmail
  if existingUser.any (fun u => u.id ≠ userId) then
    .throw (.custom "This email is already in use" .conflict)
  else do
    let _ ← updateUserById userId
      { googleId := .set none
        email := .set newEmail
        emailVerificationToken := .set none
        emailVerified := .set true }
    match ← getUserProfile userId with
    | none => .throw (.custom "Failed to fetch updated profile" .internalServerError)
    | some updatedUser => pure updatedUser

def noPendingEmailChange : Err := badRequest "No pending email change found"

def verifyEmailChange (userId code : String) : Promise UserProfile := do
  match ← getUserById userId with
  | none => .throw noPendingEmailChange
  | some user =>
    match truthyText user.emailVerificationToken with
    | none => .throw noPendingEmailChange
    | some token => do
      verifyJwtToken P token
      let tokenData ← decodeJwtToken P token
      -- Validate purpose and required fields
      if tokenData.purpose ≠ some .emailChange then
        .throw (badRequest "Invalid token purpose")
      else match truthyText tokenData.code, truthyText tokenData.newEmail, tokenData.attempts with
        | some _, some newEmail, some attempts =>
          if attempts ≥ maxVerificationAttempts then
            .throw (badRequest "Too many failed attempts. Please request a new code")
          else
            -- the promise is not awaited
            .spawn (verifyEmailChangeCode P userId code tokenData) <|
              applyEmailChange userId newEmail
        | _, _, _ => .throw (badRequest "Invalid verification data")

end CodebaseTrpc
