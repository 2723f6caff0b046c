import Mathlib.Data.List.Basic
import Mathlib.Data.List.FinRange

/-! Base64 in its two alphabets. An encoder writes unpadded base64url; a forgiving decoder reads
the standard alphabet and skips white space and padding. The decoder reads what the encoder wrote
iff the bytes need none of the two letters in which the alphabets differ. -/
namespace Base64

/-- The alphabet with its last two letters open. -/
def letter (plus slash : Char) (s : Fin 64) : Char :=
  if s < 26 then Char.ofNat (65 + s)
  else if s < 52 then Char.ofNat (97 + (s - 26))
  else if s < 62 then Char.ofNat (48 + (s - 52))
  else if s = 62 then plus
  else slash

def standard : Fin 64 → Char := letter '+' '/'
def url : Fin 64 → Char := letter '-' '_'

/-- The sextet of a letter of the standard alphabet. -/
def value (c : Char) : Option (Fin 64) := (List.finRange 64).find? fun s => standard s = c

@[simp] theorem value_standard (s : Fin 64) : value (standard s) = some s := by
  revert s
  decide +kernel

/-- Below 62 the alphabets agree; the other two letters are not standard ones. -/
theorem value_url (s : Fin 64) : value (url s) = if s < 62 then some s else none := by
  revert s
  decide +kernel

/-- Six bits at a time, the last sextet filled up with zeros. -/
def sextets : List UInt8 → List (Fin 64)
  | a :: b :: c :: rest =>
    .ofNat 64 (a.toNat / 4) :: .ofNat 64 (a.toNat % 4 * 16 + b.toNat / 16) ::
      .ofNat 64 (b.toNat % 16 * 4 + c.toNat / 64) :: .ofNat 64 (c.toNat % 64) :: sextets rest
  | [a, b] =>
    [.ofNat 64 (a.toNat / 4), .ofNat 64 (a.toNat % 4 * 16 + b.toNat / 16),
      .ofNat 64 (b.toNat % 16 * 4)]
  | [a] => [.ofNat 64 (a.toNat / 4), .ofNat 64 (a.toNat % 4 * 16)]
  | [] => []

/-- Eight bits at a time, those left over dropped. -/
def octets : List (Fin 64) → List UInt8
  | a :: b :: c :: d :: rest =>
    .ofNat (a * 4 + b / 16) :: .ofNat (b % 16 * 16 + c / 4) :: .ofNat (c % 4 * 64 + d) ::
      octets rest
  | [a, b, c] => [.ofNat (a * 4 + b / 16), .ofNat (b % 16 * 16 + c / 4)]
  | [a, b] => [.ofNat (a * 4 + b / 16)]
  | _ => []

theorem octets_sextets (bytes : List UInt8) : octets (sextets bytes) = bytes := by
  have hval : ∀ {n : ℕ}, n < 64 → (Fin.ofNat 64 n : ℕ) = n := fun h => Nat.mod_eq_of_lt h
  have hbyte : ∀ {n : ℕ} (a : UInt8), n = a.toNat → UInt8.ofNat n = a := by
    rintro n a rfl
    exact UInt8.ofNat_toNat
  fun_induction sextets bytes with
  | case1 a b c rest ih =>
    have ha := a.toNat_lt
    have hb := b.toNat_lt
    have hc := c.toNat_lt
    rw [octets, ih, hval (by omega), hval (by omega), hval (by omega), hval (by omega),
      hbyte a (by omega), hbyte b (by omega), hbyte c (by omega)]
  | case2 a b =>
    have ha := a.toNat_lt
    have hb := b.toNat_lt
    rw [octets, hval (by omega), hval (by omega), hval (by omega), hbyte a (by omega),
      hbyte b (by omega)]
  | case3 a =>
    have ha := a.toNat_lt
    rw [octets, hval (by omega), hval (by omega), hbyte a (by omega)]
  | case4 => rfl

/-- No text has a single sextet left over. -/
theorem length_sextets (bytes : List UInt8) : (sextets bytes).length % 4 ≠ 1 := by
  fun_induction sextets bytes with
  | case1 a b c rest ih =>
    simp only [List.length_cons]
    omega
  | case2 a b => simp
  | case3 a => simp
  | case4 => simp

/-- In ASCII text only the third of three bytes can fill a sextet that far. -/
theorem sextets_lt {bytes : List UInt8} (h : ∀ b ∈ bytes, b.toNat < 128 ∧ b.toNat % 64 < 62) :
    ∀ s ∈ sextets bytes, s < 62 := by
  have hlt : ∀ {n : ℕ}, n < 62 → Fin.ofNat 64 n < 62 := by
    intro n hn
    rw [Fin.lt_def, Fin.val_ofNat]
    exact (Nat.mod_le n 64).trans_lt hn
  fun_induction sextets bytes with
  | case1 a b c rest ih =>
    simp only [List.forall_mem_cons] at h ⊢
    obtain ⟨ha, hb, hc, hrest⟩ := h
    exact ⟨hlt (by omega), hlt (by omega), hlt (by omega), hlt (by omega), ih hrest⟩
  | case2 a b =>
    simp only [List.forall_mem_cons] at h ⊢
    obtain ⟨ha, hb, -⟩ := h
    exact ⟨hlt (by omega), hlt (by omega), hlt (by omega), by simp⟩
  | case3 a =>
    simp only [List.forall_mem_cons] at h ⊢
    exact ⟨hlt (by omega), hlt (by omega), by simp⟩
  | case4 => simp

/-- Unpadded base64url. -/
def encodeUrl (bytes : List UInt8) : List Char := (sextets bytes).map url

/-- U+0009, U+000A, U+000C, U+000D, U+0020 -/
def isWhitespace (c : Char) : Bool :=
  c = '\t' || c = '\n' || c = '\x0c' || c = '\r' || c = ' '

/-- One or two `=` at the end are taken off. -/
def stripPadding (data : List Char) : List Char :=
  match data.reverse with
  | '=' :: '=' :: rest => rest.reverse
  | '=' :: rest => rest.reverse
  | _ => data

/-- The forgiving decoder of the web platform: `none` where it fails. -/
def forgivingDecode (data : List Char) : Option (List UInt8) :=
  let data := data.filter fun c => !isWhitespace c
  let data := if data.length % 4 = 0 then stripPadding data else data
  if data.length % 4 = 1 then none
  else (data.mapM value).map octets

theorem stripPadding_of_notMem {data : List Char} (h : '=' ∉ data) : stripPadding data = data := by
  unfold stripPadding
  have hrev : '=' ∉ data.reverse := fun hmem => h (List.mem_reverse.mp hmem)
  split
  next heq => exact absurd (heq ▸ List.mem_cons_self) hrev
  next heq => exact absurd (heq ▸ List.mem_cons_self) hrev
  next => rfl

/-- Letters of base64url are neither white space nor padding. -/
theorem url_plain (s : Fin 64) : isWhitespace (url s) = false ∧ url s ≠ '=' := by
  revert s
  decide +kernel

theorem mapM_value_url (l : List (Fin 64)) :
    (l.map url).mapM value = if ∀ s ∈ l, s < 62 then some l else none := by
  induction l with
  | nil => rfl
  | cons s l ih =>
    rw [List.map_cons, List.mapM_cons, value_url, ih]
    simp only [List.forall_mem_cons]
    by_cases hs : s < 62
    · by_cases hl : ∀ t ∈ l, t < 62
      · rw [if_pos hs, if_pos hl, if_pos ⟨hs, hl⟩]
        rfl
      · rw [if_pos hs, if_neg hl, if_neg fun h : s < 62 ∧ ∀ t ∈ l, t < 62 => hl h.2]
        rfl
    · rw [if_neg hs, if_neg fun h : s < 62 ∧ ∀ t ∈ l, t < 62 => hs h.1]
      rfl

/-- What the decoder makes of base64url: all of it, or nothing. -/
theorem forgivingDecode_encodeUrl (bytes : List UInt8) : forgivingDecode (encodeUrl bytes) =
    if ∀ s ∈ sextets bytes, s < 62 then some bytes else none := by
  have hfilter : (encodeUrl bytes).filter (fun c => !isWhitespace c) = encodeUrl bytes := by
    refine List.filter_eq_self.mpr fun c hc => ?_
    obtain ⟨s, -, rfl⟩ := List.mem_map.mp hc
    rw [(url_plain s).1]
    rfl
  have hpad : '=' ∉ encodeUrl bytes := by
    intro hmem
    obtain ⟨s, -, hs⟩ := List.mem_map.mp hmem
    exact (url_plain s).2 hs
  have hlength : (encodeUrl bytes).length % 4 ≠ 1 := by
    rw [encodeUrl, List.length_map]
    exact length_sextets bytes
  unfold forgivingDecode
  dsimp only
  rw [hfilter, stripPadding_of_notMem hpad, ite_self, if_neg hlength, encodeUrl, mapM_value_url]
  split_ifs
  · rw [Option.map_some, octets_sextets]
  · rfl

/-- No dot is a letter of base64url. -/
theorem dot_notMem_encodeUrl (bytes : List UInt8) : '.' ∉ encodeUrl bytes := by
  have hdot : ∀ s, url s ≠ '.' := by decide +kernel
  intro hmem
  obtain ⟨s, -, hs⟩ := List.mem_map.mp hmem
  exact hdot s hs

/-- The UTF-8 bytes of a text. -/
def utf8 (text : List Char) : List UInt8 := text.flatMap String.utf8EncodeChar

/-- Each byte as the character with its number. -/
def binaryText (bytes : List UInt8) : List Char := bytes.map fun b => Char.ofNat b.toNat

/-- A character that is one byte, and not the last but one or last of its row of 64. -/
def Plain (c : Char) : Prop := c.toNat < 128 ∧ c.toNat % 64 < 62

def PlainText (text : List Char) : Prop := ∀ c ∈ text, Plain c

instance (c : Char) : Decidable (Plain c) := by unfold Plain; infer_instance
instance (text : List Char) : Decidable (PlainText text) := List.decidableBAll _ _

theorem Plain.of_isDigit {c : Char} (h : c.isDigit = true) : Plain c := by
  obtain ⟨hlow, hhigh⟩ : 48 ≤ c.toNat ∧ c.toNat ≤ 57 := Char.isDigit_iff_toNat.mp h
  unfold Plain
  omega

theorem Plain.utf8EncodeChar {c : Char} (h : Plain c) :
    ∃ b : UInt8, String.utf8EncodeChar c = [b] ∧ b.toNat = c.toNat := by
  have hval : c.val ≤ 127 := by
    rw [UInt32.le_iff_toNat_le]
    exact Nat.le_of_lt_succ h.1
  refine ⟨c.val.toUInt8, String.utf8EncodeChar_eq_singleton (Char.utf8Size_eq_one_iff.mpr hval), ?_⟩
  rw [UInt32.toNat_toUInt8]
  exact Nat.mod_eq_of_lt (h.1.trans (by decide))

theorem binaryText_utf8 {text : List Char} (h : PlainText text) :
    binaryText (utf8 text) = text := by
  induction text with
  | nil => rfl
  | cons c text ih =>
    obtain ⟨hc, htext⟩ := List.forall_mem_cons.mp h
    obtain ⟨b, hb, hval⟩ := hc.utf8EncodeChar
    have ih := ih htext
    unfold binaryText utf8 at ih ⊢
    rw [List.flatMap_cons, hb, List.singleton_append, List.map_cons, ih, hval, Char.ofNat_toNat]

theorem utf8_plain {text : List Char} (h : PlainText text) :
    ∀ b ∈ utf8 text, b.toNat < 128 ∧ b.toNat % 64 < 62 := by
  intro b hb
  obtain ⟨c, hc, hmem⟩ := List.mem_flatMap.mp hb
  obtain ⟨b', hb', hval⟩ := (h c hc).utf8EncodeChar
  rw [hb', List.mem_singleton] at hmem
  rw [hmem, hval]
  exact h c hc

/-- A text of plain characters comes back from base64url through the forgiving decoder. -/
theorem decode_encode_plain {text : List Char} (h : PlainText text) :
    (forgivingDecode (encodeUrl (utf8 text))).map binaryText = some text := by
  rw [forgivingDecode_encodeUrl, if_pos (sextets_lt (utf8_plain h)), Option.map_some,
    binaryText_utf8 h]

end Base64
