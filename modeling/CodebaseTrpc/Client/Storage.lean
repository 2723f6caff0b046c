import CodebaseTrpc.Model.Types
import Mathlib.Data.Rat.Defs

/-! `utils/auth.ts` of the front end: what the browser keeps in `localStorage`. -/
namespace CodebaseTrpc.Client

/-- The three items of `localStorage`. -/
structure Storage where
  accessToken : Option String
  refreshToken : Option String
  user : Option UserProfile
  deriving DecidableEq, Repr

def Storage.setTokens (s : Storage) (tokens : LoginResponse) : Storage :=
  { s with accessToken := some tokens.accessToken, refreshToken := some tokens.refreshToken }

def Storage.setUser (s : Storage) (user : UserProfile) : Storage := { s with user := some user }

def Storage.clearAuthData (s : Storage) : Storage :=
  { s with accessToken := none, refreshToken := none, user := none }

/-- `JSON.parse(atob(token.split('.')[1])).exp`, in seconds: `none` where that throws, `some none`
where it is no number. -/
abbrev ReadExp := String → Option (Option ℚ)

def isTokenExpired (readExp : ReadExp) (now : ℕ) (token : String) : Bool :=
  match readExp token with
  | none => true
  | some none => false
  | some (some exp) => exp * millisecondsPerSecond < now

def Storage.hasValidAccessToken (readExp : ReadExp) (now : ℕ) (s : Storage) : Bool :=
  match s.accessToken with
  | none => false
  | some token => !isTokenExpired readExp now token

def Storage.hasRefreshToken (s : Storage) : Bool := s.refreshToken.isSome

def Storage.isAuthenticated (readExp : ReadExp) (now : ℕ) (s : Storage) : Bool :=
  s.hasValidAccessToken readExp now || s.hasRefreshToken

end CodebaseTrpc.Client
