import CodebaseTrpc.Model.World

/-! Third-party packages, and `utils/jwt.ts` over them. -/
namespace CodebaseTrpc

/-- `jsonwebtoken` under the one secret of the deployment: `sign` is deterministic, what it
signed verifies and decodes to its payload, and the compact form is a non-empty text
without blanks. -/
structure Jsonwebtoken where
  sign : Token → String
  /-- The signature check of `jwt.verify`. -/
  authentic : String → Bool
  decode : String → Option Token
  /-- The text of the error `jwt.verify` throws for a string that is not authentic. -/
  complaint : String → String
  authentic_sign : ∀ t, authentic (sign t) = true
  decode_sign : ∀ t, decode (sign t) = some t
  sign_ne_empty : ∀ t, sign t ≠ ""
  sign_no_blank : ∀ t, ' ' ∉ (sign t).toList

/-- The packages the services call: `jsonwebtoken`, `bcrypt`, and the formats of `zod`. -/
structure Packages where
  jwt : Jsonwebtoken
  hashSync : String → String → String
  compareSync : String → String → Bool
  isEmail : String → Bool
  isUrl : String → Bool

def secondsPerMinute : ℕ := 60
def secondsPerHour : ℕ := 3600
def secondsPerDay : ℕ := 86400

/-- `jwt.sign` stamps the payload: an `iat` that is present and not zero is kept, and `exp`
counts from it. -/
def stamp (input : Token) (expiresIn now : ℕ) : Token :=
  let timestamp := match input.iat with
    | some (n + 1) => n + 1
    | _ => now / millisecondsPerSecond
  { input with iat := some timestamp, exp := some (timestamp + expiresIn) }

variable (P : Packages)

/-- Sign a payload for `expiresIn` seconds; `kind` only names the use in the record. -/
def generateJwtToken (kind : TokenKind) (input : Token) (expiresIn : ℕ) : Promise String :=
  .act
    (fun w =>
      let payload := stamp input expiresIn w.env.now
      { w with issued := w.issued ++ [⟨kind, payload, P.jwt.sign payload⟩] })
    fun w => .pure (P.jwt.sign (stamp input expiresIn w.env.now))

def tokenRequired : Err := .zodValidation ["token: Token is required"]

/-- Authentic and, by the clock, before its `exp`. -/
def Live (token : String) (now : ℕ) : Prop :=
  P.jwt.authentic token = true ∧
    ∀ t ∈ P.jwt.decode token, ∀ exp ∈ t.exp, now / millisecondsPerSecond < exp

instance (token : String) (now : ℕ) : Decidable (Live P token now) := by
  unfold Live; infer_instance

def tokenError (token : String) : Err :=
  .custom ("TOKEN_ERROR: " ++
    if P.jwt.authentic token then "TokenExpiredError: jwt expired" else P.jwt.complaint token)
    .unauthorized

def verifyJwtToken (token : String) : Promise Unit :=
  if token = "" then .throw tokenRequired
  else .act id fun w => if Live P token w.env.now then .pure () else .throw (tokenError P token)

/-- `jwt.decode`, followed by the first property access of every caller. -/
def decodeJwtToken (token : String) : Promise Token :=
  if token = "" then .throw tokenRequired
  else match P.jwt.decode token with
    | none => .throw (.typeError "Cannot read properties of null")
    | some t => .pure t

end CodebaseTrpc
