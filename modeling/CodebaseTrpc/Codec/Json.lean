import Mathlib.Algebra.Field.Rat
import Mathlib.Data.List.TakeDrop

/-! JSON texts: a reader of the whole grammar, and a writer of records of texts and integers. The
reader gives strings as their UTF-16 code units and numbers exactly. -/
namespace Json

inductive Value where
  | null
  | bool (b : Bool)
  | num (q : ℚ)
  | str (units : List ℕ)
  | arr (elements : List Value)
  | obj (members : List (List ℕ × Value))

/-- The UTF-16 code units of a character. -/
def utf16 (c : Char) : List ℕ :=
  if c.toNat < 0x10000 then [c.toNat]
  else [0xD800 + (c.toNat - 0x10000) / 0x400, 0xDC00 + (c.toNat - 0x10000) % 0x400]

def units (text : List Char) : List ℕ := text.flatMap utf16

def hexDigit (n : ℕ) : Char := if n < 10 then Char.ofNat (48 + n) else Char.ofNat (87 + n)

def hexValue (c : Char) : Option ℕ :=
  if '0' ≤ c ∧ c ≤ '9' then some (c.toNat - 48)
  else if 'a' ≤ c ∧ c ≤ 'f' then some (c.toNat - 87)
  else if 'A' ≤ c ∧ c ≤ 'F' then some (c.toNat - 55)
  else none

def hexUnit (a b c d : Char) : Option ℕ :=
  match hexValue a, hexValue b, hexValue c, hexValue d with
  | some a, some b, some c, some d => some (((a * 16 + b) * 16 + c) * 16 + d)
  | _, _, _, _ => none

/-- What a letter after a backslash stands for. -/
def unescape : Char → Option ℕ
  | '"' => some 34
  | '\\' => some 92
  | '/' => some 47
  | 'b' => some 8
  | 'f' => some 12
  | 'n' => some 10
  | 'r' => some 13
  | 't' => some 9
  | _ => none

/-- A string from behind its opening quote. -/
def readString : List Char → Option (List ℕ × List Char)
  | [] => none
  | c :: s =>
    if c = '"' then some ([], s)
    else if c = '\\' then
      match s with
      | 'u' :: a :: b :: c :: d :: s =>
        (hexUnit a b c d).bind fun unit => (readString s).map fun (us, s) => (unit :: us, s)
      | e :: s => (unescape e).bind fun unit => (readString s).map fun (us, s) => (unit :: us, s)
      | [] => none
    else if c.toNat < 0x20 then none
    else (readString s).map fun (us, s) => (utf16 c ++ us, s)

section ReadString
variable (s : List Char)

theorem readString_end : readString ('"' :: s) = some ([], s) := by
  rw [readString.eq_def]
  rfl

theorem readString_hex (a b c d : Char) : readString ('\\' :: 'u' :: a :: b :: c :: d :: s) =
    (hexUnit a b c d).bind fun unit => (readString s).map fun (us, s) => (unit :: us, s) := by
  rw [readString.eq_def]
  rfl

theorem readString_letter {e : Char} (he : e ≠ 'u') : readString ('\\' :: e :: s) =
    (unescape e).bind fun unit => (readString s).map fun (us, s) => (unit :: us, s) := by
  rw [readString.eq_3 _ _ _ fun _ _ _ _ _ h => absurd h he]
  rfl

theorem readString_plain {c : Char} (hq : c ≠ '"') (hb : c ≠ '\\') (hc : ¬ c.toNat < 0x20) :
    readString (c :: s) = (readString s).map fun (us, s) => (utf16 c ++ us, s) := by
  rw [readString.eq_def]
  simp only [if_neg hq, if_neg hb, if_neg hc]

end ReadString

/-- A character as it is written in a string. -/
def escape (c : Char) : List Char :=
  if c = '"' then ['\\', '"']
  else if c = '\\' then ['\\', '\\']
  else if c = '\x08' then ['\\', 'b']
  else if c = '\t' then ['\\', 't']
  else if c = '\n' then ['\\', 'n']
  else if c = '\x0c' then ['\\', 'f']
  else if c = '\r' then ['\\', 'r']
  else if c.toNat < 0x20 then
    ['\\', 'u', '0', '0', hexDigit (c.toNat / 16), hexDigit (c.toNat % 16)]
  else [c]

def quote (text : List Char) : List Char := '"' :: (text.flatMap escape ++ ['"'])

theorem hexUnit_hexDigit : ∀ n < 0x20,
    hexUnit '0' '0' (hexDigit (n / 16)) (hexDigit (n % 16)) = some n := by decide

/-- One character, written and read. -/
theorem readString_escape (c : Char) (s : List Char) :
    readString (escape c ++ s) = (readString s).map fun (us, s) => (utf16 c ++ us, s) := by
  have hletter : ∀ {e : Char}, e ≠ 'u' → unescape e = some c.toNat → c.toNat < 0x10000 →
      readString ('\\' :: e :: s) = (readString s).map fun (us, s) => (utf16 c ++ us, s) := by
    intro e he hunit hsmall
    rw [readString_letter s he, hunit, Option.bind_some, utf16, if_pos hsmall]
    rfl
  unfold escape
  split_ifs with hq hb h8 h9 h10 h12 h13 hcontrol
  · exact hletter (by decide) (by rw [hq]; rfl) (by rw [hq]; decide)
  · exact hletter (by decide) (by rw [hb]; rfl) (by rw [hb]; decide)
  · exact hletter (by decide) (by rw [h8]; rfl) (by rw [h8]; decide)
  · exact hletter (by decide) (by rw [h9]; rfl) (by rw [h9]; decide)
  · exact hletter (by decide) (by rw [h10]; rfl) (by rw [h10]; decide)
  · exact hletter (by decide) (by rw [h12]; rfl) (by rw [h12]; decide)
  · exact hletter (by decide) (by rw [h13]; rfl) (by rw [h13]; decide)
  · refine (readString_hex s _ _ _ _).trans ?_
    rw [hexUnit_hexDigit c.toNat hcontrol, Option.bind_some, utf16, if_pos (by omega)]
    rfl
  · exact readString_plain s hq hb hcontrol

theorem readString_quote (text s : List Char) :
    readString (text.flatMap escape ++ '"' :: s) = some (units text, s) := by
  induction text with
  | nil => exact readString_end s
  | cons c text ih =>
    rw [List.flatMap_cons, List.append_assoc, readString_escape, ih]
    rfl

/-- Characters that are written as they are. -/
theorem escape_of_ordinary {c : Char} (hq : c.toNat ≠ 34) (hb : c.toNat ≠ 92)
    (hc : 0x20 ≤ c.toNat) : escape c = [c] := by
  have hne : ∀ {d : Char}, d.toNat < 0x20 ∨ d.toNat = 34 ∨ d.toNat = 92 → c ≠ d := by
    rintro d hd rfl
    omega
  unfold escape
  rw [if_neg (hne (by decide)), if_neg (hne (by decide)), if_neg (hne (by decide)),
    if_neg (hne (by decide)), if_neg (hne (by decide)), if_neg (hne (by decide)),
    if_neg (hne (by decide)), if_neg (by omega)]

/-- A text does not go on with what could be part of a number. -/
def Delimited (s : List Char) : Prop :=
  ∀ c ∈ s.head?, c.isDigit = false ∧ c ≠ '.' ∧ c ≠ 'e' ∧ c ≠ 'E'

def readFraction : List Char → Option (ℚ × List Char)
  | '.' :: s =>
    let (digits, s) := s.span Char.isDigit
    if digits = [] then none
    else some ((Nat.ofDigitChars 10 digits 0 : ℚ) / 10 ^ digits.length, s)
  | s => some (0, s)

def readExponent : List Char → Option (ℤ × List Char)
  | [] => some (0, [])
  | c :: s =>
    if c = 'e' ∨ c = 'E' then
      let (sign, s) : ℤ × List Char := match s with
        | '-' :: s => (-1, s)
        | '+' :: s => (1, s)
        | s => (1, s)
      let (digits, s) := s.span Char.isDigit
      if digits = [] then none else some (sign * Nat.ofDigitChars 10 digits 0, s)
    else some (0, c :: s)

/-- A number from behind its sign. -/
def readMagnitude (sign : ℚ) (s : List Char) : Option (ℚ × List Char) :=
  let (digits, s) := s.span Char.isDigit
  -- no leading zeros
  if digits = [] ∨ digits.head? = some '0' ∧ digits ≠ ['0'] then none
  else
    (readFraction s).bind fun (fraction, s) => (readExponent s).map fun (exponent, s) =>
      (sign * (Nat.ofDigitChars 10 digits 0 + fraction) * 10 ^ exponent, s)

def readNumber : List Char → Option (ℚ × List Char)
  | '-' :: s => readMagnitude (-1) s
  | s => readMagnitude 1 s

/-- An integer in decimal digits. -/
def writeInt : ℤ → List Char
  | .ofNat n => Nat.toDigits 10 n
  | .negSucc n => '-' :: Nat.toDigits 10 (n + 1)

theorem span_digits {digits s : List Char} (hd : ∀ c ∈ digits, c.isDigit = true)
    (hs : Delimited s) : (digits ++ s).span Char.isDigit = (digits, s) := by
  rw [List.span_eq_takeWhile_dropWhile, List.takeWhile_append_of_pos hd,
    List.dropWhile_append_of_pos hd]
  cases s with
  | nil => simp
  | cons c s => simp [(hs c rfl).1]

theorem isDigit_toDigits (n : ℕ) : ∀ c ∈ Nat.toDigits 10 n, c.isDigit = true :=
  fun _ hc => Nat.isDigit_of_mem_toDigits (by decide) (by decide) hc

theorem toDigits_cons (n : ℕ) : ∃ d ds, Nat.toDigits 10 n = d :: ds ∧ d.isDigit = true := by
  obtain ⟨d, ds, hds⟩ := List.exists_cons_of_ne_nil (Nat.toDigits_ne_nil (n := n) (b := 10))
  exact ⟨d, ds, hds, isDigit_toDigits n d (hds ▸ List.mem_cons_self)⟩

theorem head_toDigits {n : ℕ} (hn : n ≠ 0) : (Nat.toDigits 10 n).head? ≠ some '0' := by
  have hdigit : ∀ n < 10, n ≠ 0 → n.digitChar ≠ '0' := by decide
  induction n using Nat.strong_induction_on with
  | _ n ih =>
    rw [Nat.toDigits_eq_if (by decide)]
    split_ifs with hlt
    · simpa using hdigit n hlt hn
    · obtain ⟨d, ds, hds, -⟩ := toDigits_cons (n / 10)
      have ih := ih (n / 10) (by omega) (by omega)
      rw [hds] at ih ⊢
      exact ih

theorem readFraction_delimited {s : List Char} (hs : Delimited s) :
    readFraction s = some (0, s) := by
  unfold readFraction
  split
  next => exact absurd rfl (hs '.' rfl).2.1
  next => rfl

theorem readExponent_delimited {s : List Char} (hs : Delimited s) :
    readExponent s = some (0, s) := by
  cases s with
  | nil => rfl
  | cons c s =>
    obtain ⟨-, -, he, hE⟩ := hs c rfl
    rw [readExponent.eq_def]
    dsimp only
    rw [if_neg (not_or.mpr ⟨he, hE⟩)]

theorem readMagnitude_toDigits (sign : ℚ) (n : ℕ) {s : List Char} (hs : Delimited s) :
    readMagnitude sign (Nat.toDigits 10 n ++ s) = some (sign * n, s) := by
  have hzero : ¬ (Nat.toDigits 10 n = [] ∨
      (Nat.toDigits 10 n).head? = some '0' ∧ Nat.toDigits 10 n ≠ ['0']) := by
    rintro (hnil | ⟨hhead, hne⟩)
    · exact Nat.toDigits_ne_nil hnil
    · by_cases hn : n = 0
      · exact hne (by rw [hn, Nat.toDigits_zero])
      · exact head_toDigits hn hhead
  unfold readMagnitude
  rw [span_digits (isDigit_toDigits n) hs]
  dsimp only
  rw [if_neg hzero, readFraction_delimited hs, Option.bind_some, readExponent_delimited hs,
    Option.map_some, Nat.ofDigitChars_ten_toDigits]
  simp

theorem readNumber_writeInt (n : ℤ) {s : List Char} (hs : Delimited s) :
    readNumber (writeInt n ++ s) = some ((n : ℚ), s) := by
  cases n with
  | ofNat n =>
    have hsign : readNumber (Nat.toDigits 10 n ++ s) =
        readMagnitude 1 (Nat.toDigits 10 n ++ s) := by
      unfold readNumber
      split
      next heq =>
        obtain ⟨d, ds, hds, hdigit⟩ := toDigits_cons n
        rw [hds, List.cons_append] at heq
        obtain ⟨rfl, -⟩ := List.cons.inj heq
        cases hdigit
      next => rfl
    rw [writeInt, hsign, readMagnitude_toDigits 1 n hs]
    simp
  | negSucc n =>
    rw [writeInt, List.cons_append, readNumber, readMagnitude_toDigits (-1) (n + 1) hs]
    simp [Int.negSucc_eq]

def isSpace (c : Char) : Bool := c = ' ' || c = '\t' || c = '\n' || c = '\r'

def skipSpace (s : List Char) : List Char := s.dropWhile isSpace

/-- What follows the character `c`, if it comes next. -/
def expect (c : Char) (s : List Char) : Option (List Char) :=
  match skipSpace s with
  | [] => none
  | d :: s => if d = c then some s else none

/-- The members of an object from behind its brace, at most `n` of them. -/
def readMembers (readValue : List Char → Option (Value × List Char)) :
    ℕ → List Char → Option (List (List ℕ × Value) × List Char)
  | 0, _ => none
  | n + 1, s =>
    (expect '"' s).bind fun s => (readString s).bind fun (key, s) =>
    (expect ':' s).bind fun s => (readValue s).bind fun (value, s) =>
      match expect ',' s with
      | some s => (readMembers readValue n s).map fun (members, s) => ((key, value) :: members, s)
      | none => (expect '}' s).map fun s => ([(key, value)], s)

/-- The elements of an array from behind its bracket, at most `n` of them. -/
def readElements (readValue : List Char → Option (Value × List Char)) :
    ℕ → List Char → Option (List Value × List Char)
  | 0, _ => none
  | n + 1, s =>
    (readValue s).bind fun (value, s) =>
      match expect ',' s with
      | some s => (readElements readValue n s).map fun (elements, s) => (value :: elements, s)
      | none => (expect ']' s).map fun s => ([value], s)

def readLiteral (word : List Char) (value : Value) (s : List Char) : Option (Value × List Char) :=
  (s.dropPrefix? word).map fun s => (value, s)

/-- A value nested at most so deep and with at most so many parts as the fuel says. -/
def readValue : ℕ → List Char → Option (Value × List Char)
  | 0, _ => none
  | fuel + 1, s =>
    match skipSpace s with
    | '{' :: s =>
      match expect '}' s with
      | some s => some (.obj [], s)
      | none => (readMembers (readValue fuel) fuel s).map fun (members, s) => (.obj members, s)
    | '[' :: s =>
      match expect ']' s with
      | some s => some (.arr [], s)
      | none => (readElements (readValue fuel) fuel s).map fun (elements, s) => (.arr elements, s)
    | '"' :: s => (readString s).map fun (us, s) => (.str us, s)
    | 't' :: s => readLiteral ['r', 'u', 'e'] (.bool true) s
    | 'f' :: s => readLiteral ['a', 'l', 's', 'e'] (.bool false) s
    | 'n' :: s => readLiteral ['u', 'l', 'l'] .null s
    | s => (readNumber s).map fun (q, s) => (.num q, s)

/-- The property of an object; of two members of one name, the later. -/
def Value.property (key : List ℕ) : Value → Option Value
  | .obj members => members.reverse.lookup key
  | _ => none

/-- `none` where `JSON.parse` throws. A text is long enough to be its own fuel. -/
def parse (text : List Char) : Option Value :=
  match readValue (text.length + 1) text with
  | none => none
  | some (value, s) => if skipSpace s = [] then some value else none

inductive Scalar where
  | text (s : List Char)
  | int (n : ℤ)

def Scalar.write : Scalar → List Char
  | .text s => quote s
  | .int n => writeInt n

def Scalar.value : Scalar → Value
  | .text s => .str (units s)
  | .int n => .num n

abbrev Member := List Char × Scalar

def Member.write (m : Member) : List Char := quote m.1 ++ ':' :: m.2.write

def writeMembers : List Member → List Char
  | [] => []
  | [m] => m.write
  | m :: m' :: rest => m.write ++ ',' :: writeMembers (m' :: rest)

/-- `JSON.stringify` of a record. -/
def stringify (members : List Member) : List Char := '{' :: (writeMembers members ++ ['}'])

theorem skipSpace_cons {c : Char} (hc : isSpace c = false) (s : List Char) :
    skipSpace (c :: s) = c :: s := by
  simp [skipSpace, hc]

theorem expect_cons {c d : Char} (hd : isSpace d = false) (s : List Char) :
    expect c (d :: s) = if d = c then some s else none := by
  rw [expect, skipSpace_cons hd]

theorem delimited_cons {c : Char} (hc : c.isDigit = false ∧ c ≠ '.' ∧ c ≠ 'e' ∧ c ≠ 'E')
    (s : List Char) : Delimited (c :: s) := by
  rintro d ⟨-⟩
  exact hc

theorem readValue_string (fuel : ℕ) (s : List Char) :
    readValue (fuel + 1) ('"' :: s) = (readString s).map fun (us, s) => (.str us, s) := by
  rw [readValue, skipSpace_cons rfl]
  rfl

/-- The first character of a number is a sign or a digit. -/
theorem readValue_number (fuel : ℕ) {c : Char} (hc : c = '-' ∨ c.isDigit = true) (s : List Char) :
    readValue (fuel + 1) (c :: s) = (readNumber (c :: s)).map fun (q, s) => (.num q, s) := by
  have hne : ∀ {d : Char} {s' : List Char}, ¬ (d = '-' ∨ d.isDigit = true) → c :: s ≠ d :: s' := by
    intro d s' hd heq
    exact hd ((List.cons.inj heq).1 ▸ hc)
  have hspace : isSpace c = false := by
    rcases hc with rfl | hdigit
    · rfl
    · by_contra hspace
      simp only [isSpace, Bool.not_eq_false, Bool.or_eq_true, decide_eq_true_eq] at hspace
      rcases hspace with ((rfl | rfl) | rfl) | rfl <;> cases hdigit
  rw [readValue, skipSpace_cons hspace]
  split
  next heq => exact absurd heq (hne (by decide))
  next heq => exact absurd heq (hne (by decide))
  next heq => exact absurd heq (hne (by decide))
  next heq => exact absurd heq (hne (by decide))
  next heq => exact absurd heq (hne (by decide))
  next heq => exact absurd heq (hne (by decide))
  next => rfl

theorem writeInt_cons (n : ℤ) : ∃ c s, writeInt n = c :: s ∧ (c = '-' ∨ c.isDigit = true) := by
  cases n with
  | ofNat n =>
    obtain ⟨d, ds, hds, hdigit⟩ := toDigits_cons n
    exact ⟨d, ds, hds, .inr hdigit⟩
  | negSucc n => exact ⟨'-', _, rfl, .inl rfl⟩

theorem readValue_write (fuel : ℕ) (v : Scalar) {s : List Char} (hs : Delimited s) :
    readValue (fuel + 1) (v.write ++ s) = some (v.value, s) := by
  cases v with
  | text t =>
    have hquote : (Scalar.text t).write ++ s = '"' :: (t.flatMap escape ++ '"' :: s) := by
      simp [Scalar.write, quote]
    rw [hquote, readValue_string, readString_quote]
    rfl
  | int n =>
    obtain ⟨c, ds, hn, hc⟩ := writeInt_cons n
    have hnumber := readNumber_writeInt n hs
    rw [Scalar.write, Scalar.value]
    rw [hn, List.cons_append] at hnumber ⊢
    rw [readValue_number fuel hc, hnumber]
    rfl

/-- One member, and what follows it. -/
theorem readMembers_member (fuel n : ℕ) (m : Member) {s : List Char} (hs : Delimited s) :
    readMembers (readValue (fuel + 1)) (n + 1) (m.write ++ s) =
      match expect ',' s with
      | some s => (readMembers (readValue (fuel + 1)) n s).map fun (members, s) =>
          ((units m.1, m.2.value) :: members, s)
      | none => (expect '}' s).map fun s => ([(units m.1, m.2.value)], s) := by
  have hwrite : m.write ++ s =
      '"' :: (m.1.flatMap escape ++ '"' :: ':' :: (m.2.write ++ s)) := by
    simp [Member.write, quote]
  rw [hwrite, readMembers, expect_cons rfl, if_pos rfl, Option.bind_some, readString_quote,
    Option.bind_some]
  dsimp only
  rw [expect_cons rfl, if_pos rfl, Option.bind_some, readValue_write fuel m.2 hs,
    Option.bind_some]

theorem readMembers_write (fuel : ℕ) {members : List Member} (hne : members ≠ []) {n : ℕ}
    (hn : members.length ≤ n) (s : List Char) :
    readMembers (readValue (fuel + 1)) n (writeMembers members ++ '}' :: s) =
      some (members.map fun m => (units m.1, m.2.value), s) := by
  induction members generalizing n with
  | nil => exact absurd rfl hne
  | cons m rest ih =>
    cases n with
    | zero => cases hn
    | succ n =>
      cases rest with
      | nil =>
        rw [writeMembers, readMembers_member fuel n m (delimited_cons (by decide) s),
          expect_cons rfl, if_neg (by decide), expect_cons rfl, if_pos rfl]
        rfl
      | cons m' rest =>
        have ih := ih (List.cons_ne_nil _ _) (Nat.le_of_succ_le_succ hn)
        rw [writeMembers, List.append_assoc, List.cons_append,
          readMembers_member fuel n m (delimited_cons (by decide) _), expect_cons rfl, if_pos rfl]
        dsimp only
        rw [ih]
        rfl

theorem length_writeMembers (members : List Member) :
    members.length ≤ (writeMembers members).length := by
  fun_induction writeMembers members with
  | case1 => simp
  | case2 m =>
    simp only [Member.write, List.length_cons, List.length_append, List.length_nil]
    omega
  | case3 m m' rest ih =>
    simp only [List.length_cons, List.length_append] at ih ⊢
    omega

theorem readValue_object (fuel : ℕ) (s : List Char) : readValue (fuel + 1) ('{' :: s) =
    match expect '}' s with
    | some s => some (.obj [], s)
    | none =>
      (readMembers (readValue fuel) fuel s).map fun (members, s) => (.obj members, s) := by
  rw [readValue, skipSpace_cons rfl]
  rfl

/-- Members begin with a quote. -/
theorem expect_writeMembers {members : List Member} (hne : members ≠ []) (s : List Char) :
    expect '}' (writeMembers members ++ s) = none := by
  have hquote : ∃ t, writeMembers members ++ s = '"' :: t := by
    fun_cases writeMembers members with
    | case1 => exact absurd rfl hne
    | case2 m => exact ⟨_, rfl⟩
    | case3 m m' rest => exact ⟨_, rfl⟩
  obtain ⟨t, ht⟩ := hquote
  rw [ht, expect_cons rfl, if_neg (by decide)]

/-- What was written is read. -/
theorem parse_stringify (members : List Member) : parse (stringify members) =
    some (.obj (members.map fun m => (units m.1, m.2.value))) := by
  by_cases hne : members = []
  · rw [hne]
    rfl
  have hlength : (stringify members).length = (writeMembers members).length + 1 + 1 := by
    simp [stringify]
  have hmembers := length_writeMembers members
  have hread : readMembers (readValue ((writeMembers members).length + 1 + 1))
      ((writeMembers members).length + 1 + 1) (writeMembers members ++ ['}']) =
      some (members.map fun m => (units m.1, m.2.value), []) :=
    readMembers_write _ hne (by omega) []
  rw [parse, hlength, stringify, readValue_object, expect_writeMembers hne]
  dsimp only
  rw [hread]
  rfl

theorem mem_writeMembers {members : List Member} {c : Char} (h : c ∈ writeMembers members) :
    c = ',' ∨ ∃ m ∈ members, c ∈ m.write := by
  fun_induction writeMembers members with
  | case1 => cases h
  | case2 m => exact .inr ⟨m, List.mem_cons_self, h⟩
  | case3 m m' rest ih =>
    rcases List.mem_append.mp h with h | h
    · exact .inr ⟨m, List.mem_cons_self, h⟩
    rcases List.mem_cons.mp h with h | h
    · exact .inl h
    · exact (ih h).imp_right fun ⟨m, hm, hc⟩ => ⟨m, List.mem_cons_of_mem _ hm, hc⟩

/-- The characters of a record: punctuation, digits, and those of its escaped texts. -/
theorem forall_mem_stringify {p : Char → Prop} {members : List Member}
    (hp : ∀ c ∈ ['{', '}', '"', ':', ',', '-'], p c) (hdigit : ∀ c, c.isDigit = true → p c)
    (hname : ∀ m ∈ members, ∀ c ∈ m.1.flatMap escape, p c)
    (htext : ∀ m ∈ members, ∀ t, m.2 = .text t → ∀ c ∈ t.flatMap escape, p c) :
    ∀ c ∈ stringify members, p c := by
  have hquote : ∀ t : List Char, (∀ c ∈ t.flatMap escape, p c) → ∀ c ∈ quote t, p c := by
    intro t ht c hc
    simp only [quote, List.mem_cons, List.mem_append, List.not_mem_nil, or_false] at hc
    rcases hc with rfl | hc | rfl
    · exact hp _ (by simp)
    · exact ht c hc
    · exact hp _ (by simp)
  have hmember : ∀ m ∈ members, ∀ c ∈ m.write, p c := by
    intro m hm c hc
    rcases List.mem_append.mp hc with hc | hc
    · exact hquote m.1 (hname m hm) c hc
    rcases List.mem_cons.mp hc with rfl | hc
    · exact hp _ (by simp)
    cases hv : m.2 with
    | text t =>
      rw [hv] at hc
      exact hquote t (htext m hm t hv) c hc
    | int n =>
      rw [hv] at hc
      cases n with
      | ofNat n => exact hdigit c (isDigit_toDigits n c hc)
      | negSucc n =>
        rcases List.mem_cons.mp hc with rfl | hc
        · exact hp _ (by simp)
        · exact hdigit c (isDigit_toDigits (n + 1) c hc)
  intro c hc
  simp only [stringify, List.mem_cons, List.mem_append, List.not_mem_nil, or_false] at hc
  rcases hc with rfl | hc | rfl
  · exact hp _ (by simp)
  · rcases mem_writeMembers hc with rfl | ⟨m, hm, hc⟩
    · exact hp _ (by simp)
    · exact hmember m hm c hc
  · exact hp _ (by simp)

end Json
