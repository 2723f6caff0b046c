import CodebaseTrpc.Model.Jwt

/-! A concrete set of packages on which runs can be evaluated: a token is written out as
dotted decimal numbers, a hash is its password behind a prefix. -/
namespace CodebaseTrpc.Sample

def writeNats (ns : List ℕ) : List Char := ns.flatMap fun n => Nat.toDigits 10 n ++ ['.']

/-- `acc` is the value of the digits read since the last dot. -/
def readNats (acc : ℕ) : List Char → List ℕ
  | [] => []
  | c :: rest =>
      if c = '.' then acc :: readNats 0 rest else readNats (10 * acc + (c.toNat - 48)) rest

theorem readNats_digits {ds : List Char} (h : ∀ c ∈ ds, c ≠ '.') (acc : ℕ) (rest : List Char) :
    readNats acc (ds ++ '.' :: rest) = Nat.ofDigitChars 10 ds acc :: readNats 0 rest := by
  induction ds generalizing acc with
  | nil => simp [readNats]
  | cons c ds ih =>
    have hc : c ≠ '.' := h c (by simp)
    simp only [List.cons_append, readNats, hc, if_false, Nat.ofDigitChars_cons]
    exact ih (fun d hd => h d (by simp [hd])) _

theorem digit_of_mem_toDigits {n : ℕ} {c : Char} (h : c ∈ Nat.toDigits 10 n) : c.isDigit = true :=
  Nat.isDigit_of_mem_toDigits (by decide) (by decide) h

theorem readNats_writeNats (ns : List ℕ) : readNats 0 (writeNats ns) = ns := by
  induction ns with
  | nil => rfl
  | cons n ns ih =>
    have hdot : ∀ c ∈ Nat.toDigits 10 n, c ≠ '.' := by
      rintro c hc rfl
      exact absurd (digit_of_mem_toDigits hc) (by decide)
    have hcons : writeNats (n :: ns) = Nat.toDigits 10 n ++ '.' :: writeNats ns := by
      simp [writeNats]
    rw [hcons, readNats_digits hdot, ih, Nat.ofDigitChars_toDigits (by decide) (by decide)]

theorem blank_notMem_writeNats (ns : List ℕ) : ' ' ∉ writeNats ns := by
  simp only [writeNats, List.mem_flatMap, List.mem_append, List.mem_singleton, not_exists, not_and,
    not_or]
  exact fun n _ => ⟨fun h => absurd (digit_of_mem_toDigits h) (by decide), by decide⟩

def numsOfText (s : String) : List ℕ := s.toList.length :: s.toList.map Char.toNat

def textOfNums : List ℕ → Option (String × List ℕ)
  | [] => none
  | n :: rest => some (String.ofList ((rest.take n).map Char.ofNat), rest.drop n)

theorem textOfNums_append (s : String) (rest : List ℕ) :
    textOfNums (numsOfText s ++ rest) = some (s, rest) := by
  simp [textOfNums, numsOfText, Function.comp_def]

def numsOfOption {α : Type} (nums : α → List ℕ) : Option α → List ℕ
  | none => [0]
  | some a => 1 :: nums a

def optionOfNums {α : Type} (read : List ℕ → Option (α × List ℕ)) :
    List ℕ → Option (Option α × List ℕ)
  | 0 :: rest => some (none, rest)
  | 1 :: rest => (read rest).map fun (a, rest) => (some a, rest)
  | _ => none

theorem optionOfNums_append {α : Type} {nums : α → List ℕ}
    {read : List ℕ → Option (α × List ℕ)} (h : ∀ a rest, read (nums a ++ rest) = some (a, rest))
    (o : Option α) (rest : List ℕ) :
    optionOfNums read (numsOfOption nums o ++ rest) = some (o, rest) := by
  cases o with
  | none => rfl
  | some a => simp [optionOfNums, numsOfOption, h]

def natOfNums : List ℕ → Option (ℕ × List ℕ)
  | [] => none
  | n :: rest => some (n, rest)

theorem natOfNums_append (n : ℕ) (rest : List ℕ) : natOfNums ([n] ++ rest) = some (n, rest) := rfl

def numOfPurpose : TokenPurpose → ℕ
  | .emailVerification => 0
  | .passwordReset => 1
  | .emailChange => 2

def purposeOfNums : List ℕ → Option (TokenPurpose × List ℕ)
  | 0 :: rest => some (.emailVerification, rest)
  | 1 :: rest => some (.passwordReset, rest)
  | 2 :: rest => some (.emailChange, rest)
  | _ => none

theorem purposeOfNums_append (p : TokenPurpose) (rest : List ℕ) :
    purposeOfNums ([numOfPurpose p] ++ rest) = some (p, rest) := by
  cases p <;> rfl

def numsOfToken (t : Token) : List ℕ :=
  numsOfText t.userId ++ (numsOfOption (fun p => [numOfPurpose p]) t.purpose ++
    (numsOfOption numsOfText t.code ++ (numsOfOption numsOfText t.newEmail ++
      (numsOfOption (fun n => [n]) t.attempts ++ (numsOfOption (fun n => [n]) t.iat ++
        (numsOfOption (fun n => [n]) t.exp ++ []))))))

def tokenOfNums (ns : List ℕ) : Option Token := do
  let (userId, ns) ← textOfNums ns
  let (purpose, ns) ← optionOfNums purposeOfNums ns
  let (code, ns) ← optionOfNums textOfNums ns
  let (newEmail, ns) ← optionOfNums textOfNums ns
  let (attempts, ns) ← optionOfNums natOfNums ns
  let (iat, ns) ← optionOfNums natOfNums ns
  let (exp, _) ← optionOfNums natOfNums ns
  some { userId, purpose, code, newEmail, attempts, iat, exp }

theorem tokenOfNums_numsOfToken (t : Token) : tokenOfNums (numsOfToken t) = some t := by
  simp only [tokenOfNums, numsOfToken, textOfNums_append,
    optionOfNums_append purposeOfNums_append, optionOfNums_append textOfNums_append,
    optionOfNums_append natOfNums_append, Option.bind_eq_bind, Option.bind_some]

def sign (t : Token) : String := String.ofList (writeNats (numsOfToken t))

def decode (s : String) : Option Token := tokenOfNums (readNats 0 s.toList)

theorem decode_sign (t : Token) : decode (sign t) = some t := by
  rw [decode, sign, String.toList_ofList, readNats_writeNats, tokenOfNums_numsOfToken]

/-- A text is authentic if signing what it decodes to gives it back. -/
def authentic (s : String) : Bool :=
  match decode s with
  | none => false
  | some t => decide (sign t = s)

def jwt : Jsonwebtoken where
  sign := sign
  authentic := authentic
  decode := decode
  complaint _ := "JsonWebTokenError: invalid signature"
  authentic_sign t := by simp [authentic, decode_sign]
  decode_sign := decode_sign
  sign_ne_empty t h := by
    have hd := decode_sign t
    rw [h] at hd
    cases hd
  sign_no_blank t := by simpa [sign] using blank_notMem_writeNats _

def packages : Packages where
  jwt := jwt
  hashSync _ password := "hash of " ++ password
  compareSync password hash := decide (hash = "hash of " ++ password)
  isEmail s := s.toList.contains '@'
  isUrl s := "https".toList.isPrefixOf s.toList

def env : Environment where
  now := 1700000000000
  mail := .accepted
  google := .rejected
  uuid := "u1"
  randomPassword := "r"
  salt := "s"
  random := 23456
  stripe := .created
  sessionId := "cs_1"
  sessionUrl := some "https://checkout"
  portalUrl := "https://portal"

/-- The same within the hour. -/
def envAfter (seconds : ℕ) : Environment :=
  { env with
    now := env.now + seconds % 3600 * millisecondsPerSecond
    now_valid := by
      have hlate : env.now + 3600 * millisecondsPerSecond ≤ maxTimestamp := by decide
      have hseconds : seconds % 3600 < 3600 := Nat.mod_lt _ (by decide)
      have hlater := Nat.mul_le_mul_right millisecondsPerSecond (Nat.le_of_lt hseconds)
      omega }

def free : Product where
  id := "free"
  name := "Free"
  description := ""
  priceInCents := 0
  externalProductId := none
  externalPriceId := none
  active := true
  isFreeTier := true
  maxProjects := some 5

def pro : Product where
  id := "pro"
  name := "Pro"
  description := ""
  priceInCents := 2990
  externalProductId := some "prod_1"
  externalPriceId := some "price_1"
  active := true
  isFreeTier := false
  maxProjects := none

def ann : SignupInput where
  fullName := "Ann Lee"
  email := "ann@mail"
  phone := "555"
  password := "secret12"
  age := 30

def annLogin : LoginInput := ⟨ann.email, ann.password⟩

def start : World where
  db := ⟨[], [free, pro], [], by decide⟩
  env := env

end CodebaseTrpc.Sample
