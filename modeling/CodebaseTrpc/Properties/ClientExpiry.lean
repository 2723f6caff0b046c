import CodebaseTrpc.Client.Token
import CodebaseTrpc.Spec.Sessions
import Mathlib.Algebra.Order.Field.Rat
import Mathlib.Tactic.Linarith

/-! The browser reads the expiry of every token that the server issues: base64url and the base64
of `atob` differ in two letters, and neither occurs in such a payload. -/
namespace CodebaseTrpc.Client

/-- Hexadecimal digits in groups of 8, 4, 4, 4 and 12. -/
def UuidShaped (s : String) : Prop :=
  (s.toList.splitOn '-').map List.length = [8, 4, 4, 4, 12] ∧
    ∀ c ∈ s.toList, c = '-' ∨ (Json.hexValue c).isSome = true

instance (s : String) : Decidable (UuidShaped s) :=
  @instDecidableAnd _ _ _ (List.decidableBAll _ _)

theorem splitOn_compactJwt (mac : List Char → List UInt8) (payload : List Json.Member) :
    ((compactJwt mac payload).toList.splitOn '.')[1]? = some (segment payload) := by
  rw [compactJwt, String.toList_ofList, List.splitOn_intercalate '.' ?_ (List.cons_ne_nil _ _)]
  · rfl
  simp only [List.forall_mem_cons]
  exact ⟨Base64.dot_notMem_encodeUrl _, Base64.dot_notMem_encodeUrl _,
    Base64.dot_notMem_encodeUrl _, by simp⟩

/-- A payload of plain characters is read as it was written. -/
theorem readExp_compactJwt (coerce : Json.Value → Option ℚ) (mac : List Char → List UInt8)
    {payload : List Json.Member} (h : Base64.PlainText (Json.stringify payload)) :
    readExp coerce (compactJwt mac payload) =
      some (((Json.Value.obj (payload.map fun m => (Json.units m.1, m.2.value))).property
        (Json.units "exp".toList)).bind (toNumber coerce)) := by
  have hatob : atob (segment payload) = some (Json.stringify payload) :=
    Base64.decode_encode_plain h
  unfold readExp
  dsimp only
  rw [splitOn_compactJwt, Option.getD_some, hatob, Option.bind_some, Json.parse_stringify]

/-- A hexadecimal digit is written as it is, and plain. -/
theorem escape_hex {c : Char} (h : (Json.hexValue c).isSome = true) :
    Json.escape c = [c] ∧ Base64.Plain c := by
  have hrange : 48 ≤ c.toNat ∧ c.toNat ≤ 57 ∨ 65 ≤ c.toNat ∧ c.toNat ≤ 70 ∨
      97 ≤ c.toNat ∧ c.toNat ≤ 102 := by
    unfold Json.hexValue at h
    split_ifs at h with hdigit hlower hupper
    · exact .inl hdigit
    · exact .inr (.inr hlower)
    · exact .inr (.inl hupper)
    · cases h
  refine ⟨Json.escape_of_ordinary (by omega) (by omega) (by omega), ?_⟩
  unfold Base64.Plain
  omega

theorem plain_sessionPayload {userId : String} (h : UuidShaped userId) (iat exp : ℤ) :
    Base64.PlainText (Json.stringify (sessionPayload userId iat exp)) := by
  have hpunctuation : Base64.PlainText ['{', '}', '"', ':', ',', '-'] := by decide
  have hnames : Base64.PlainText ("userId".toList.flatMap Json.escape) ∧
      Base64.PlainText ("iat".toList.flatMap Json.escape) ∧
      Base64.PlainText ("exp".toList.flatMap Json.escape) := by decide
  have huserId : Base64.PlainText (userId.toList.flatMap Json.escape) := by
    intro d hd
    obtain ⟨c, hc, hd⟩ := List.mem_flatMap.mp hd
    obtain ⟨hescape, hplain⟩ : Json.escape c = [c] ∧ Base64.Plain c := by
      rcases h.2 c hc with rfl | hhex
      · decide
      · exact escape_hex hhex
    rw [hescape, List.mem_singleton] at hd
    exact hd ▸ hplain
  refine Json.forall_mem_stringify hpunctuation (fun c hc => .of_isDigit hc) ?_ ?_
  · simp only [sessionPayload, List.forall_mem_cons]
    exact ⟨hnames.1, hnames.2.1, hnames.2.2, by simp⟩
  · simp only [sessionPayload, List.forall_mem_cons]
    refine ⟨?_, by simp, by simp, by simp⟩
    rintro _ ⟨-⟩
    exact huserId

theorem readExp_sessionPayload (coerce : Json.Value → Option ℚ) (mac : List Char → List UInt8)
    {userId : String} (h : UuidShaped userId) (iat exp : ℤ) :
    readExp coerce (compactJwt mac (sessionPayload userId iat exp)) = some (some (exp : ℚ)) := by
  rw [readExp_compactJwt coerce mac (plain_sessionPayload h iat exp)]
  rfl

section Session
variable (coerce : Json.Value → Option ℚ) (mac : List Char → List UInt8) {userId : String}
  (h : UuidShaped userId) (iat exp : ℤ) (now : ℕ)
include h

theorem isTokenExpired_sessionPayload :
    isTokenExpired (readExp coerce) now (compactJwt mac (sessionPayload userId iat exp)) = true ↔
      (exp : ℚ) < now / millisecondsPerSecond := by
  have hms : (0 : ℚ) < millisecondsPerSecond := by norm_num [millisecondsPerSecond]
  rw [isTokenExpired, readExp_sessionPayload coerce mac h]
  dsimp only
  rw [decide_eq_true_eq, lt_div_iff₀ hms]

/-- Before the second in which the server rejects it, a token is not expired. -/
theorem not_isTokenExpired_sessionPayload
    (haccept : ((now / millisecondsPerSecond : ℕ) : ℤ) < exp) :
    isTokenExpired (readExp coerce) now (compactJwt mac (sessionPayload userId iat exp)) =
      false := by
  have hms : (0 : ℚ) < millisecondsPerSecond := by norm_num [millisecondsPerSecond]
  have hnow : (now : ℤ) ≤ exp * millisecondsPerSecond := by
    simp only [millisecondsPerSecond] at haccept ⊢
    omega
  have hle : (now : ℚ) / millisecondsPerSecond ≤ exp := by
    rw [div_le_iff₀ hms]
    exact_mod_cast hnow
  rw [← Bool.not_eq_true, isTokenExpired_sessionPayload coerce mac h]
  exact not_lt.mpr hle

end Session

/-- Of a token for a user, the browser reads the expiry, and it expires in the browser when `exp`
has passed; until then by the server's clock, it has not. -/
theorem no_false_expiry (coerce : Json.Value → Option ℚ) (mac : List Char → List UInt8)
    {userId : String} (h : UuidShaped userId) (iat exp : ℤ) (now : ℕ) :
    let token := compactJwt mac (sessionPayload userId iat exp)
    readExp coerce token ≠ none ∧
      (isTokenExpired (readExp coerce) now token = true ↔
        (exp : ℚ) < now / millisecondsPerSecond) ∧
      (((now / millisecondsPerSecond : ℕ) : ℤ) < exp →
        isTokenExpired (readExp coerce) now token = false) := by
  refine ⟨?_, isTokenExpired_sessionPayload coerce mac h iat exp now,
    not_isTokenExpired_sessionPayload coerce mac h iat exp now⟩
  rw [readExp_sessionPayload coerce mac h]
  exact Option.some_ne_none _

namespace Sample

def userId : String := "123e4567-e89b-12d3-a456-426614174000"

/-- The HMAC-SHA256 of the token below under the key `secret`. -/
def hmac : List Char → List UInt8 := fun _ =>
  [65, 210, 66, 102, 92, 116, 69, 198, 249, 121, 98, 58, 61, 227, 33, 20,
    10, 214, 246, 73, 181, 163, 117, 133, 95, 202, 190, 220, 113, 214, 230, 150]

end Sample

/-- A token for an hour, half an hour old. -/
theorem no_false_expiry_half_hour : isTokenExpired (readExp fun _ => none) 1700001800000
    (compactJwt Sample.hmac (sessionPayload Sample.userId 1700000000 1700003600)) = false :=
  (no_false_expiry (fun _ => none) Sample.hmac (by decide) 1700000000 1700003600
    1700001800000).2.2 (by decide)

/-- `jsonwebtoken` signs with `mac`, and writes in the compact form. -/
def SignsCompactly (J : Jsonwebtoken) (mac : List Char → List UInt8) : Prop :=
  ∀ (userId : String) (iat exp : ℕ), J.sign { userId, iat := some iat, exp := some exp } =
    compactJwt mac (sessionPayload userId iat exp)

/-- What `generateTokens` signs, as long as the server accepts it. -/
theorem not_isTokenExpired_stamp {P : Packages} {mac : List Char → List UInt8}
    (hsign : SignsCompactly P.jwt mac) (coerce : Json.Value → Option ℚ) {userId : String}
    (h : UuidShaped userId) {expiresIn issued now : ℕ}
    (hlive : Live P (P.jwt.sign (stamp { userId } expiresIn issued)) now) :
    isTokenExpired (readExp coerce) now (P.jwt.sign (stamp { userId } expiresIn issued)) =
      false := by
  have hsigned : P.jwt.sign (stamp { userId } expiresIn issued) =
      compactJwt mac (sessionPayload userId (issued / millisecondsPerSecond : ℕ)
        (issued / millisecondsPerSecond + expiresIn : ℕ)) := hsign userId _ _
  have haccept : now / millisecondsPerSecond < issued / millisecondsPerSecond + expiresIn :=
    hlive.2 _ (P.jwt.decode_sign _) _ rfl
  rw [hsigned]
  exact not_isTokenExpired_sessionPayload coerce mac h _ _ now (by exact_mod_cast haccept)

/-- The browser counts the access token of a session as valid while the server does. -/
theorem hasValidAccessToken_sessionTokens {P : Packages} {mac : List Char → List UInt8}
    (hsign : SignsCompactly P.jwt mac) (coerce : Json.Value → Option ℚ) {userId : String}
    (h : UuidShaped userId) {issued now : ℕ} (s : Storage)
    (hlive : Live P (sessionTokens P userId issued).accessToken now) :
    (s.setTokens (sessionTokens P userId issued)).hasValidAccessToken (readExp coerce) now =
      true := by
  simp only [Storage.hasValidAccessToken, Storage.setTokens, Bool.not_eq_true']
  exact not_isTokenExpired_stamp hsign coerce h hlive

end CodebaseTrpc.Client
