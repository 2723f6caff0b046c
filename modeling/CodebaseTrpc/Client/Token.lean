import CodebaseTrpc.Client.Storage
import CodebaseTrpc.Codec.Base64
import CodebaseTrpc.Codec.Json

/-! Tokens as texts: the compact form in which `jsonwebtoken` issues them, and how `utils/auth.ts`
of the front end reads their expiry. -/
namespace CodebaseTrpc.Client

def jwtHeader : List Json.Member :=
  [("alg".toList, .text "HS256".toList), ("typ".toList, .text "JWT".toList)]

/-- JSON text in unpadded base64url. -/
def segment (members : List Json.Member) : List Char :=
  Base64.encodeUrl (Base64.utf8 (Json.stringify members))

/-- Header, payload and the `mac` of both. -/
def compactJwt (mac : List Char → List UInt8) (payload : List Json.Member) : String :=
  let securedInput := ['.'].intercalate [segment jwtHeader, segment payload]
  let signature := Base64.encodeUrl (mac securedInput)
  .ofList (['.'].intercalate [segment jwtHeader, segment payload, signature])

/-- The payload of the tokens of `generateTokens`: `jwt.sign` puts `iat` and `exp` behind what it
is given. -/
def sessionPayload (userId : String) (iat exp : ℤ) : List Json.Member :=
  [("userId".toList, .text userId.toList), ("iat".toList, .int iat), ("exp".toList, .int exp)]

/-- `none` where it throws. -/
def atob (data : List Char) : Option (List Char) :=
  (Base64.forgivingDecode data).map Base64.binaryText

/-- A value as `<` compares it with a number, `none` for `NaN`; `coerce` says it for texts, arrays
and objects. -/
def toNumber (coerce : Json.Value → Option ℚ) : Json.Value → Option ℚ
  | .null => some 0
  | .bool b => some (if b then 1 else 0)
  | .num q => some q
  | value => coerce value

def readExp (coerce : Json.Value → Option ℚ) : ReadExp := fun token =>
  -- a token without a dot gives `atob(undefined)`
  let data := (token.toList.splitOn '.')[1]?.getD "undefined".toList
  match (atob data).bind Json.parse with
  | none => none
  -- `null.exp` throws
  | some .null => none
  | some payload => some ((payload.property (Json.units "exp".toList)).bind (toNumber coerce))

end CodebaseTrpc.Client
