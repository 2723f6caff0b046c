import Mathlib.Data.List.Chain
import CodebaseTrpc.Model.Input

/-! The keys of records and rows, converted to the names of columns and back. Nothing is lost but a
key that becomes `__proto__` on the way. -/
namespace CodebaseTrpc
variable {α : Type}

/-- No underscore is followed by a lowercase letter. -/
def CamelKey (s : String) : Prop :=
  s.toList.IsChain fun c letter => ¬ (c = '_' ∧ letter.isLower = true)

/-- There is no uppercase letter. -/
def SnakeKey (t : String) : Prop := ∀ c ∈ t.toList, c.isUpper = false

instance (s : String) : Decidable (CamelKey s) := by unfold CamelKey; infer_instance
instance (t : String) : Decidable (SnakeKey t) := List.decidableBAll _ _

def snakeLetter (letter : Char) : List Char :=
  if letter.isUpper then ['_', letter.toLower] else [letter]

theorem toSnakeCase_toList (s : String) :
    (toSnakeCase s).toList = s.toList.flatMap snakeLetter := by
  rw [toSnakeCase, String.toList_ofList]
  rfl

theorem toCamelCase_toList (s : String) : (toCamelCase s).toList = camelLetters s.toList := by
  simp [toCamelCase]

theorem toUpper_toLower_of_isUpper {c : Char} (h : c.isUpper = true) :
    c.toLower.isLower = true ∧ c.toLower.toUpper = c := by
  have hall : ∀ n < 26, (Char.ofNat (65 + n)).toLower.isLower = true ∧
      (Char.ofNat (65 + n)).toLower.toUpper = Char.ofNat (65 + n) := by decide
  have hc : 65 ≤ c.toNat ∧ c.toNat ≤ 90 := by
    delta Char.isUpper at h
    simpa [UInt32.le_iff_toNat_le] using h
  have hn := hall (c.toNat - 65) (by omega)
  rwa [Nat.add_sub_cancel' hc.1, Char.ofNat_toNat] at hn

theorem toLower_toUpper_of_isLower {c : Char} (h : c.isLower = true) :
    c.toUpper.isUpper = true ∧ c.toUpper.toLower = c := by
  have hall : ∀ n < 26, (Char.ofNat (97 + n)).toUpper.isUpper = true ∧
      (Char.ofNat (97 + n)).toUpper.toLower = Char.ofNat (97 + n) := by decide
  have hc : 97 ≤ c.toNat ∧ c.toNat ≤ 122 := by
    delta Char.isLower at h
    simpa [UInt32.le_iff_toNat_le] using h
  have hn := hall (c.toNat - 97) (by omega)
  rwa [Nat.add_sub_cancel' hc.1, Char.ofNat_toNat] at hn

/-- A letter is kept where it starts no match. -/
theorem camelLetters_cons {c : Char} {l : List Char}
    (h : ∀ letter ∈ l.head?, ¬ (c = '_' ∧ letter.isLower = true)) :
    camelLetters (c :: l) = c :: camelLetters l := by
  cases l with
  | nil => rfl
  | cons letter rest => rw [camelLetters, if_neg (h letter rfl)]

/-- What starts a converted string is lowercase only if it started the string. -/
theorem head_flatMap_snakeLetter {l : List Char} {letter : Char}
    (h : letter ∈ (l.flatMap snakeLetter).head?) (hlower : letter.isLower = true) :
    letter ∈ l.head? := by
  cases l with
  | nil => exact h
  | cons c rest =>
    rw [List.flatMap_cons, snakeLetter] at h
    split_ifs at h
    · obtain rfl : '_' = letter := by simpa using h
      cases hlower
    · simpa using h

theorem camelLetters_snake {l : List Char}
    (h : l.IsChain fun c letter => ¬ (c = '_' ∧ letter.isLower = true)) :
    camelLetters (l.flatMap snakeLetter) = l := by
  induction l with
  | nil => rfl
  | cons c rest ih =>
    have htail := ih h.tail
    rw [List.flatMap_cons, snakeLetter]
    split_ifs with hc
    · obtain ⟨hlower, hback⟩ := toUpper_toLower_of_isUpper hc
      rw [List.cons_append, List.cons_append, List.nil_append, camelLetters,
        if_pos ⟨rfl, hlower⟩, hback, htail]
    · rw [List.cons_append, List.nil_append, camelLetters_cons, htail]
      rintro letter hl ⟨hc', hlower⟩
      exact (List.isChain_cons.mp h).1 letter (head_flatMap_snakeLetter hl hlower) ⟨hc', hlower⟩

theorem snake_camelLetters {l : List Char} (h : ∀ c ∈ l, c.isUpper = false) :
    (camelLetters l).flatMap snakeLetter = l := by
  fun_induction camelLetters l with
  | case1 => rfl
  | case2 c => simp [snakeLetter, h c]
  | case3 c letter rest hmatch ih =>
    obtain ⟨rfl, hlower⟩ := hmatch
    obtain ⟨hup, hback⟩ := toLower_toUpper_of_isLower hlower
    rw [List.flatMap_cons, ih fun d hd => h d (by simp [hd]), snakeLetter, if_pos hup, hback]
    rfl
  | case4 c letter rest hmatch ih =>
    rw [List.flatMap_cons, ih fun d hd => h d (List.mem_cons_of_mem _ hd), snakeLetter,
      if_neg (by simp [h c])]
    rfl

theorem toCamelCase_toSnakeCase {s : String} (h : CamelKey s) :
    toCamelCase (toSnakeCase s) = s := by
  rw [toCamelCase, toSnakeCase_toList, camelLetters_snake h, String.ofList_toList]

theorem toSnakeCase_toCamelCase {t : String} (h : SnakeKey t) :
    toSnakeCase (toCamelCase t) = t := by
  apply String.toList_injective
  rw [toSnakeCase_toList, toCamelCase_toList, snake_camelLetters h]

theorem setProperty_of_notMem {key : String} {value : α} {obj : List (String × α)}
    (h : ∀ kv ∈ obj, kv.1 ≠ key) : setProperty key value obj = obj ++ [(key, value)] := by
  induction obj with
  | nil => rfl
  | cons kv rest ih =>
    obtain ⟨k, v⟩ := kv
    obtain ⟨hne, hrest⟩ := List.forall_mem_cons.mp h
    rw [setProperty, if_neg hne, ih hrest, List.cons_append]

/-- The keys are converted, each for itself: no two are merged and no value is lost. -/
structure ConvertsEach (convert : String → String) (obj obj' : List (String × α)) : Prop where
  entries : obj' = obj.map fun kv => (convert kv.1, kv.2)
  keys : (obj'.map Prod.fst).Nodup

/-- Keys that stay apart, none of which becomes `__proto__`. -/
theorem convertsEach {convert : String → String} {obj : List (String × α)}
    (hkeys : (obj.map fun kv => convert kv.1).Nodup)
    (hproto : ∀ kv ∈ obj, convert kv.1 ≠ "__proto__") :
    ConvertsEach convert obj (convertKeys convert obj) := by
  -- the properties that are set already are the first entries
  have hfold : ∀ (rest result : List (String × α)),
      (result.map Prod.fst ++ rest.map fun kv => convert kv.1).Nodup →
      (∀ kv ∈ rest, convert kv.1 ≠ "__proto__") →
        rest.foldl (fun result kv => assignProperty (convert kv.1) kv.2 result) result =
          result ++ rest.map fun kv => (convert kv.1, kv.2) := by
    intro rest
    induction rest with
    | nil => simp
    | cons kv rest ih =>
      intro result hkeys hproto
      obtain ⟨hne, hrest⟩ := List.forall_mem_cons.mp hproto
      have hnew : ∀ old ∈ result, old.1 ≠ convert kv.1 := fun old hold =>
        (List.nodup_append.mp hkeys).2.2 _ (List.mem_map_of_mem hold) _ (by simp)
      rw [List.foldl_cons, assignProperty, if_neg hne, setProperty_of_notMem hnew,
        ih _ (by simpa using hkeys) hrest]
      simp
  have heq := hfold obj [] (by simpa using hkeys) hproto
  refine ⟨heq, ?_⟩
  rw [convertKeys, heq, List.nil_append, List.map_map]
  exact hkeys

/-- The own properties of a record. -/
structure Record (α : Type) where
  entries : List (String × α)
  keys : (entries.map Prod.fst).Nodup := by decide
  proto : ∀ kv ∈ entries, kv.1 ≠ "__proto__" := by decide

/-- A conversion that another one undoes on the keys of a record. -/
theorem convertKeys_convertKeys {convert back : String → String} (r : Record α)
    (hback : ∀ kv ∈ r.entries, back (convert kv.1) = kv.1)
    (hproto : ∀ kv ∈ r.entries, convert kv.1 ≠ "__proto__") :
    ConvertsEach convert r.entries (convertKeys convert r.entries) ∧
      convertKeys back (convertKeys convert r.entries) = r.entries := by
  obtain ⟨obj, hkeys, hproto'⟩ := r
  dsimp only at hback hproto ⊢
  have hinj : (obj.map fun kv => convert kv.1).Nodup := by
    refine List.Nodup.of_map back ?_
    rw [List.map_map]
    exact (List.map_congr_left hback).symm ▸ hkeys
  have hconverts := convertsEach hinj hproto
  refine ⟨hconverts, ?_⟩
  have hid : (convertKeys convert obj).map (fun kv => (back kv.1, kv.2)) = obj := by
    rw [hconverts.entries, List.map_map]
    refine (List.map_congr_left fun kv hkv => ?_).trans (List.map_id obj)
    exact Prod.ext (hback kv hkv) rfl
  have hkeys' : ((convertKeys convert obj).map fun kv => back kv.1) = obj.map Prod.fst := by
    conv_rhs => rw [← hid]
    rw [List.map_map]
    rfl
  refine (convertsEach (hkeys' ▸ hkeys) fun kv hkv => ?_).entries.trans hid
  have hmem : back kv.1 ∈ obj.map Prod.fst := hkeys' ▸ List.mem_map_of_mem hkv
  obtain ⟨old, hold, heq⟩ := List.mem_map.mp hmem
  exact heq ▸ hproto' old hold

/-- Both conversions are lossless, on strings and, but for two keys, on records. -/
theorem row_keys_lossless :
    (∀ s, CamelKey s → toCamelCase (toSnakeCase s) = s) ∧
    (∀ t, SnakeKey t → toSnakeCase (toCamelCase t) = t) ∧
    (∀ (α : Type) (r : Record α), (∀ kv ∈ r.entries, CamelKey kv.1 ∧ kv.1 ≠ "_Proto__") →
      ConvertsEach toSnakeCase r.entries (keysToSnakeCase r.entries) ∧
        keysToCamelCase (keysToSnakeCase r.entries) = r.entries) ∧
    ∀ (α : Type) (r : Record α), (∀ kv ∈ r.entries, SnakeKey kv.1) →
      ConvertsEach toCamelCase r.entries (keysToCamelCase r.entries) ∧
        keysToSnakeCase (keysToCamelCase r.entries) = r.entries := by
  refine ⟨fun s => toCamelCase_toSnakeCase, fun t => toSnakeCase_toCamelCase, ?_, ?_⟩
  · intro α r h
    refine convertKeys_convertKeys r (fun kv hkv => toCamelCase_toSnakeCase (h kv hkv).1) ?_
    intro kv hkv hproto
    have hkey := toCamelCase_toSnakeCase (h kv hkv).1
    rw [hproto] at hkey
    exact (h kv hkv).2 (hkey.symm.trans (by decide))
  · intro α r h
    refine convertKeys_convertKeys r (fun kv hkv => toSnakeCase_toCamelCase (h kv hkv)) ?_
    intro kv hkv hproto
    have hkey := toSnakeCase_toCamelCase (h kv hkv)
    rw [hproto] at hkey
    exact r.proto kv hkv (hkey.symm.trans (by decide))

namespace Sample

def camelRecord : Record ℕ where
  entries := [("id", 1), ("externalPriceId", 2), ("__A_", 3)]

def snakeRecord : Record ℕ where
  entries := [("id", 1), ("external_price_id", 2), ("__x9", 3)]

end Sample

/-- Two records. -/
theorem row_keys_lossless_records :
    keysToCamelCase (keysToSnakeCase Sample.camelRecord.entries) = Sample.camelRecord.entries ∧
      keysToSnakeCase (keysToCamelCase Sample.snakeRecord.entries) = Sample.snakeRecord.entries :=
  ⟨(row_keys_lossless.2.2.1 ℕ Sample.camelRecord (by decide)).2,
    (row_keys_lossless.2.2.2 ℕ Sample.snakeRecord (by decide)).2⟩

/-- The key `_Proto__` becomes `__proto__`, and its value is lost. -/
theorem proto_key_lost : ¬ ∀ (α : Type) (r : Record α), (∀ kv ∈ r.entries, CamelKey kv.1) →
    keysToCamelCase (keysToSnakeCase r.entries) = r.entries := by
  intro h
  have hlost := h ℕ ⟨[("_Proto__", 1)], by decide, by decide⟩ (by decide)
  revert hlost
  decide

end CodebaseTrpc
