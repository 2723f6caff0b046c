import Mathlib.Data.List.Forall2
import Mathlib.Data.List.Nodup
import Mathlib.Tactic.Tauto
import Mathlib.Data.List.Perm.Basic

/-! Tables as lists of rows with a key column: the statement `UPDATE ... WHERE key = k`,
and what it leaves as it was. -/
namespace Rows
variable {α κ β : Type} [DecidableEq κ]

/-- Replace every row whose key is `k` by its image under `f`. -/
def update (key : α → κ) (k : κ) (f : α → α) (rows : List α) : List α :=
  rows.map fun x => if key x = k then f x else x

/-- The first row whose key is `k`. Where several have the key this is a choice: an update keeps the
order of the rows here, which a database need not do. -/
def lookup (key : α → κ) (k : κ) (rows : List α) : Option α :=
  rows.find? fun x => key x = k

section Lookup
variable {key : α → κ} {k : κ} {rows : List α} {x : α}

theorem lookup_mem (h : lookup key k rows = some x) : x ∈ rows := List.mem_of_find?_eq_some h

theorem lookup_key (h : lookup key k rows = some x) : key x = k := by
  simpa using List.find?_some h

theorem lookup_eq_none : lookup key k rows = none ↔ ∀ x ∈ rows, key x ≠ k := by
  simp [lookup, List.find?_eq_none]

variable (key) in
theorem exists_lookup (hx : x ∈ rows) (hk : key x = k) : ∃ y, lookup key k rows = some y := by
  cases h : lookup key k rows with
  | none => exact absurd hk (lookup_eq_none.mp h x hx)
  | some y => exact ⟨y, rfl⟩

theorem exists_lookup_iff : (∃ y, lookup key k rows = some y) ↔ ∃ x ∈ rows, key x = k := by
  constructor
  · rintro ⟨y, hy⟩
    exact ⟨y, lookup_mem hy, lookup_key hy⟩
  · rintro ⟨x, hx, hk⟩
    exact exists_lookup key hx hk

/-- Where keys are unique, a lookup is membership. -/
theorem lookup_eq_some (hn : (rows.map key).Nodup) :
    lookup key k rows = some x ↔ x ∈ rows ∧ key x = k := by
  constructor
  · exact fun h => ⟨lookup_mem h, lookup_key h⟩
  · rintro ⟨hx, rfl⟩
    obtain ⟨y, hy⟩ := exists_lookup key hx rfl
    rw [hy, List.inj_on_of_nodup_map hn (lookup_mem hy) hx (lookup_key hy)]

theorem lookup_map {γ : Type} {key' : γ → κ} {g : α → γ} (h : ∀ x, key' (g x) = key x) :
    lookup key' k (rows.map g) = (lookup key k rows).map g := by
  simp only [lookup, List.find?_map]
  congr 2
  funext x
  simp [h]

theorem lookup_eq_head? : lookup key k rows = (rows.filter fun x => key x = k).head? :=
  List.head?_filter.symm

/-- The first row of its key that no other row has. -/
theorem lookup_append_self {y : α} (h : lookup key (key y) rows = none) :
    lookup key (key y) (rows ++ [y]) = some y := by
  unfold lookup at h ⊢
  rw [List.find?_append, h]
  simp

variable (key) in
/-- A row is found by its key exactly if no row before it has the same. -/
theorem lookup_getElem (hn : rows.Nodup) {i : ℕ} (hi : i < rows.length) :
    lookup key (key rows[i]) rows = some rows[i] ↔
      ∀ j, (hj : j < i) → key rows[j] ≠ key rows[i] := by
  rw [lookup, List.find?_eq_some_iff_getElem]
  simp only [decide_true, true_and, Bool.not_eq_true', decide_eq_false_iff_not]
  constructor
  · rintro ⟨i', hi', heq, hfirst⟩
    obtain rfl := hn.getElem_inj_iff.mp heq
    exact hfirst
  · exact fun h => ⟨i, hi, rfl, h⟩

theorem lookup_append_of_ne {y : α} (h : key y ≠ k) :
    lookup key k (rows ++ [y]) = lookup key k rows := by
  simp [lookup, List.find?_append, h]

end Lookup

section Update
variable {key : α → κ} {k : κ} {f : α → α} {rows : List α} {x : α}

theorem mem_update : x ∈ update key k f rows ↔
    (∃ y ∈ rows, key y = k ∧ f y = x) ∨ (x ∈ rows ∧ key x ≠ k) := by
  simp only [update, List.mem_map]
  constructor
  · rintro ⟨y, hy, h⟩
    split_ifs at h with hk
    · exact .inl ⟨y, hy, hk, h⟩
    · exact .inr ⟨h ▸ hy, h ▸ hk⟩
  · rintro (⟨y, hy, hk, h⟩ | ⟨hx, hk⟩)
    · exact ⟨y, hy, by simpa [hk] using h⟩
    · exact ⟨x, hx, by simp [hk]⟩

/-- A row updated in place, seen from the row it was. -/
theorem mem_update_of_mem {y : α} (hy : y ∈ rows) :
    (if key y = k then f y else y) ∈ update key k f rows :=
  List.mem_map.mpr ⟨y, hy, rfl⟩

theorem mem_update_self (key : α → κ) (f : α → α) (hx : x ∈ rows) :
    f x ∈ update key (key x) f rows :=
  mem_update.mpr (.inl ⟨x, hx, rfl, rfl⟩)

theorem exists_of_mem_update (h : x ∈ update key k f rows) :
    ∃ y ∈ rows, x = if key y = k then f y else y := by
  obtain ⟨y, hy, h⟩ := List.mem_map.mp h
  exact ⟨y, hy, h.symm⟩

/-- A column that `f` keeps is unchanged as a whole. -/
theorem map_update {γ : Type} {c : α → γ} (h : ∀ x, c (f x) = c x) :
    (update key k f rows).map c = rows.map c := by
  simp only [update, List.map_map]
  refine List.map_congr_left fun x _ => ?_
  simp only [Function.comp_apply]
  split_ifs
  · exact h x
  · rfl

/-- A view of the rows that turns `f` into `f'` turns one update into the other. -/
theorem map_update_of_comm {γ : Type} {key' : γ → κ} {f' : γ → γ} {g : α → γ}
    (hkey : ∀ x, key' (g x) = key x) (hf : ∀ x, g (f x) = f' (g x)) :
    (update key k f rows).map g = update key' k f' (rows.map g) := by
  simp only [update, List.map_map]
  refine List.map_congr_left fun x _ => ?_
  simp only [Function.comp_apply, hkey]
  split_ifs
  · exact hf x
  · rfl

/-- Looking up by a column that `f` keeps finds the same row, updated if its key is `k`. -/
theorem lookup_update {γ : Type} [DecidableEq γ] {c : α → γ} (h : ∀ x, c (f x) = c x) (v : γ) :
    lookup c v (update key k f rows) =
      (lookup c v rows).map fun x => if key x = k then f x else x := by
  simp only [lookup, update, List.find?_map]
  congr 2
  funext x
  simp only [Function.comp_apply]
  split_ifs
  · rw [h x]
  · rfl

theorem lookup_update_self (h : ∀ x, key (f x) = key x) :
    lookup key k (update key k f rows) = (lookup key k rows).map f := by
  rw [lookup_update h]
  cases hl : lookup key k rows with
  | none => rfl
  | some x => simp [lookup_key hl]

/-- A lookup does not see an update of rows that it finds neither before nor after. -/
theorem lookup_update_of_ne {γ : Type} [DecidableEq γ] {c : α → γ} {v : γ}
    (h : ∀ x ∈ rows, key x = k → c x ≠ v ∧ c (f x) ≠ v) :
    lookup c v (update key k f rows) = lookup c v rows := by
  induction rows with
  | nil => rfl
  | cons x rows ih =>
    have ih := ih fun y hy => h y (List.mem_cons_of_mem _ hy)
    simp only [lookup, update, List.map_cons, List.find?_cons] at ih ⊢
    split_ifs with hk
    · obtain ⟨hx, hfx⟩ := h x List.mem_cons_self hk
      simpa [hx, hfx] using ih
    · rw [ih]

theorem update_of_notMem (h : ∀ x ∈ rows, key x ≠ k) : update key k f rows = rows := by
  refine (List.map_congr_left fun x hx => ?_).trans (List.map_id _)
  simp [h x hx]

@[simp] theorem update_id : update key k id rows = rows := by
  simp [update]

/-- Where keys are unique, an update rewrites one row in its place. -/
theorem exists_update_eq (hn : (rows.map key).Nodup) (hx : x ∈ rows) (hk : key x = k) :
    ∃ l₁ l₂, rows = l₁ ++ x :: l₂ ∧ (∀ y ∈ l₁ ++ l₂, key y ≠ k) ∧
      ∀ g : α → α, update key k g rows = l₁ ++ g x :: l₂ := by
  obtain ⟨l₁, l₂, rfl⟩ := List.append_of_mem hx
  have hne : ∀ y ∈ l₁ ++ l₂, key y ≠ k := by
    rw [List.map_append, List.map_cons, List.nodup_middle, List.nodup_cons, ← List.map_append] at hn
    exact fun y hy h => hn.1 (List.mem_map.mpr ⟨y, hy, h.trans hk.symm⟩)
  refine ⟨l₁, l₂, rfl, hne, fun g => ?_⟩
  have h₁ : update key k g l₁ = l₁ := update_of_notMem fun y hy => hne y (by simp [hy])
  have h₂ : update key k g l₂ = l₂ := update_of_notMem fun y hy => hne y (by simp [hy])
  simp only [update] at h₁ h₂ ⊢
  simp [h₁, h₂, hk]

/-- An update keeps a unique column unique iff the new value is no other row's. -/
theorem nodup_map_update {γ : Type} {c : α → γ} (hn : (rows.map key).Nodup)
    (hc : (rows.map c).Nodup) (hx : x ∈ rows) (hk : key x = k) :
    ((update key k f rows).map c).Nodup ↔ ∀ y ∈ rows, key y ≠ k → c y ≠ c (f x) := by
  obtain ⟨l₁, l₂, rfl, hne, hupd⟩ := exists_update_eq hn hx hk
  rw [List.map_append, List.map_cons, List.nodup_middle, List.nodup_cons, ← List.map_append] at hc
  rw [hupd, List.map_append, List.map_cons, List.nodup_middle, List.nodup_cons, ← List.map_append]
  simp only [hc.2, and_true, List.mem_map, not_exists, not_and]
  constructor
  · intro h y hy hky
    refine h y ?_
    rcases List.mem_append.mp hy with hy | hy
    · exact List.mem_append_left _ hy
    · rcases List.mem_cons.mp hy with rfl | hy
      · exact absurd hk hky
      · exact List.mem_append_right _ hy
  · intro h y hy
    refine h y ?_ (hne y hy)
    rcases List.mem_append.mp hy with hy | hy
    · exact List.mem_append_left _ hy
    · exact List.mem_append_right _ (List.mem_cons_of_mem _ hy)

/-- The same for a nullable column. -/
theorem nodup_filterMap_update {γ : Type} {c : α → Option γ} (hn : (rows.map key).Nodup)
    (hc : (rows.filterMap c).Nodup) (hx : x ∈ rows) (hk : key x = k) :
    ((update key k f rows).filterMap c).Nodup ↔
      ∀ y ∈ rows, key y ≠ k → ∀ v ∈ c y, c (f x) ≠ some v := by
  obtain ⟨l₁, l₂, rfl, hne, hupd⟩ := exists_update_eq hn hx hk
  have hrest : ((l₁ ++ l₂).filterMap c).Nodup := by
    refine hc.sublist (List.Sublist.filterMap c ?_)
    exact (List.sublist_cons_self x l₂).append_left l₁
  have hmem : ∀ y, y ∈ l₁ ++ x :: l₂ → key y ≠ k → y ∈ l₁ ++ l₂ := by
    intro y hy hky
    simp only [List.mem_append, List.mem_cons] at hy ⊢
    rcases hy with hy | rfl | hy
    · exact .inl hy
    · exact absurd hk hky
    · exact .inr hy
  have hsub : ∀ y ∈ l₁ ++ l₂, y ∈ l₁ ++ x :: l₂ := by
    intro y hy
    simp only [List.mem_append, List.mem_cons] at hy ⊢
    tauto
  rw [hupd]
  cases hv : c (f x) with
  | none =>
    have hfm : (l₁ ++ f x :: l₂).filterMap c = (l₁ ++ l₂).filterMap c := by
      simp [List.filterMap_append, hv]
    simpa [hfm] using hrest
  | some v =>
    have hfm : (l₁ ++ f x :: l₂).filterMap c = l₁.filterMap c ++ v :: l₂.filterMap c := by
      simp [List.filterMap_append, hv]
    rw [hfm, List.nodup_middle, List.nodup_cons, ← List.filterMap_append]
    simp only [hrest, and_true, List.mem_filterMap, not_exists, not_and]
    constructor
    · rintro h y hy hky u hu heq
      exact h y (hmem y hy hky) (heq ▸ hu)
    · rintro h y hy hcy
      exact h y (hsub y hy) (hne y hy) v hcy rfl

/-- Row by row, an update relates the old table to the new one. -/
theorem forall₂_update {R : α → α → Prop} (hrefl : ∀ x, R x x)
    (hf : ∀ x ∈ rows, key x = k → R x (f x)) : List.Forall₂ R rows (update key k f rows) := by
  rw [update, List.forall₂_map_right_iff, List.forall₂_same]
  intro x hx
  split_ifs with hk
  · exact hf x hx hk
  · exact hrefl x

/-- Two updates of the same rows. -/
theorem forall₂_updates {R : α → α → Prop} {g : α → α} (hrefl : ∀ x, R x x)
    (h : ∀ x ∈ rows, key x = k → R (f x) (g x)) :
    List.Forall₂ R (update key k f rows) (update key k g rows) := by
  rw [update, update, List.forall₂_map_left_iff, List.forall₂_map_right_iff, List.forall₂_same]
  intro x hx
  split_ifs with hk
  · exact h x hx hk
  · exact hrefl x

theorem update_update (hf : ∀ x, key (f x) = key x) (g : α → α) :
    update key k g (update key k f rows) = update key k (g ∘ f) rows := by
  simp only [update, List.map_map]
  refine List.map_congr_left fun x _ => ?_
  simp only [Function.comp_apply]
  split_ifs with h1 h2
  · rfl
  · exact absurd ((hf x).trans h1) h2
  · rfl

theorem update_append_of_ne {y : α} (h : key y ≠ k) :
    update key k f (rows ++ [y]) = update key k f rows ++ [y] := by
  simp [update, h]

theorem update_comm {k' : κ} {g : α → α} (hne : k ≠ k') (hf : ∀ x, key (f x) = key x)
    (hg : ∀ x, key (g x) = key x) :
    update key k' g (update key k f rows) = update key k f (update key k' g rows) := by
  simp only [update, List.map_map]
  refine List.map_congr_left fun x _ => ?_
  simp only [Function.comp_apply]
  split_ifs <;> simp_all

/-- Related tables stay related where both are updated under a key that the relation respects. -/
theorem forall₂_update_update {R : α → α → Prop} {rows' : List α} {f' : α → α}
    (h : List.Forall₂ R rows rows') (hkey : ∀ x y, R x y → (key x = k ↔ key y = k))
    (hf : ∀ x y, R x y → R (f x) (f' y)) :
    List.Forall₂ R (update key k f rows) (update key k f' rows') := by
  rw [update, update, List.forall₂_map_left_iff, List.forall₂_map_right_iff]
  refine h.imp fun x y hxy => ?_
  by_cases hk : key x = k
  · rw [if_pos hk, if_pos ((hkey x y hxy).mp hk)]
    exact hf x y hxy
  · rw [if_neg hk, if_neg fun h => hk ((hkey x y hxy).mpr h)]
    exact hxy

end Update

section Forall₂
variable {R S : α → α → Prop} {rows rows' rows'' : List α}

theorem exists_old {γ : Type} {T : α → γ → Prop} {ys : List γ} (h : List.Forall₂ T rows ys)
    {y : γ} (hy : y ∈ ys) : ∃ x ∈ rows, T x y := by
  induction h with
  | nil => cases hy
  | cons hxy _ ih =>
    rcases List.mem_cons.mp hy with rfl | hy
    · exact ⟨_, List.mem_cons_self, hxy⟩
    · obtain ⟨x, hx, hR⟩ := ih hy
      exact ⟨x, List.mem_cons_of_mem _ hx, hR⟩

theorem exists_new {γ : Type} {T : α → γ → Prop} {ys : List γ} (h : List.Forall₂ T rows ys)
    {x : α} (hx : x ∈ rows) : ∃ y ∈ ys, T x y := by
  induction h with
  | nil => cases hx
  | cons hxy _ ih =>
    rcases List.mem_cons.mp hx with rfl | hx
    · exact ⟨_, List.mem_cons_self, hxy⟩
    · obtain ⟨y, hy, hR⟩ := ih hx
      exact ⟨y, List.mem_cons_of_mem _ hy, hR⟩

theorem forall₂_refl (hrefl : ∀ x, R x x) (rows : List α) : List.Forall₂ R rows rows :=
  List.forall₂_same.mpr fun x _ => hrefl x

theorem forall₂_comp {T : α → α → Prop} (hcomp : ∀ x y z, R x y → S y z → T x z)
    (h : List.Forall₂ R rows rows') (h' : List.Forall₂ S rows' rows'') :
    List.Forall₂ T rows rows'' := by
  induction h generalizing rows'' with
  | nil => cases h'; exact .nil
  | cons hxy _ ih =>
    cases h' with
    | cons hyz h' => exact .cons (hcomp _ _ _ hxy hyz) (ih h')

theorem forall₂_trans (htrans : ∀ x y z, R x y → R y z → R x z)
    (h : List.Forall₂ R rows rows') (h' : List.Forall₂ R rows' rows'') :
    List.Forall₂ R rows rows'' := forall₂_comp htrans h h'

/-- Where only rows with the key `k` change, and keep it, the others stay in their order. -/
theorem filter_ne_of_forall₂ {key : α → κ} {k : κ} (h : List.Forall₂ R rows rows')
    (hkey : ∀ x y, R x y → key y = key x) (hne : ∀ x y, R x y → key x ≠ k → y = x) :
    rows'.filter (fun x => key x ≠ k) = rows.filter fun x => key x ≠ k := by
  induction h with
  | nil => rfl
  | @cons x y _ _ hxy _ ih =>
    by_cases hk : key x = k
    · rw [List.filter_cons_of_neg (by simp [hkey x y hxy, hk]),
        List.filter_cons_of_neg (by simp [hk]), ih]
    · obtain rfl := hne x y hxy hk
      rw [List.filter_cons_of_pos (by simp [hk]), List.filter_cons_of_pos (by simp [hk]), ih]

end Forall₂

/-- Every old row is related to the one in its place, and every added row is in `N`. -/
def Evolved (R : α → α → Prop) (N : α → Prop) (rows rows' : List α) : Prop :=
  ∃ kept added, rows' = kept ++ added ∧ List.Forall₂ R rows kept ∧ ∀ x ∈ added, N x

section Evolved
variable {R : α → α → Prop} {N : α → Prop} {rows rows' rows'' : List α}

theorem Evolved.of_forall₂ (h : List.Forall₂ R rows rows') : Evolved R N rows rows' :=
  ⟨rows', [], by simp, h, by simp⟩

theorem Evolved.append {x : α} (hrefl : ∀ x, R x x) (hx : N x) : Evolved R N rows (rows ++ [x]) :=
  ⟨rows, [x], rfl, forall₂_refl hrefl rows, by simpa using hx⟩

theorem Evolved.forall₂ (h : Evolved R N rows rows') (h' : List.Forall₂ R rows' rows'')
    (htrans : ∀ x y z, R x y → R y z → R x z) (hN : ∀ x y, N x → R x y → N y) :
    Evolved R N rows rows'' := by
  obtain ⟨kept, added, rfl, hkept, hadded⟩ := h
  have hk := (List.forall₂_take_append rows'' kept added h'.flip).flip
  have ha := (List.forall₂_drop_append rows'' kept added h'.flip).flip
  refine ⟨_, _, (List.take_append_drop kept.length rows'').symm, forall₂_trans htrans hkept hk,
    fun y hy => ?_⟩
  obtain ⟨x, hx, hxy⟩ := Rows.exists_old ha hy
  exact hN x y (hadded x hx) hxy

theorem Evolved.refl (hrefl : ∀ x, R x x) (rows : List α) : Evolved R N rows rows :=
  .of_forall₂ (forall₂_refl hrefl rows)

theorem Evolved.trans (h : Evolved R N rows rows') (h' : Evolved R N rows' rows'')
    (htrans : ∀ x y z, R x y → R y z → R x z) (hN : ∀ x y, N x → R x y → N y) :
    Evolved R N rows rows'' := by
  obtain ⟨kept, added, rfl, hkept, hadded⟩ := h'
  obtain ⟨kept', added', rfl, hkept', hadded'⟩ := h.forall₂ hkept htrans hN
  refine ⟨kept', added' ++ added, List.append_assoc .., hkept', fun x hx => ?_⟩
  rcases List.mem_append.mp hx with hx | hx
  · exact hadded' x hx
  · exact hadded x hx

theorem Evolved.mono {R' : α → α → Prop} {N' : α → Prop} (h : Evolved R N rows rows')
    (hR : ∀ x ∈ rows, ∀ y, R x y → R' x y) (hN : ∀ x, N x → N' x) : Evolved R' N' rows rows' := by
  obtain ⟨kept, added, rfl, hkept, hadded⟩ := h
  have hmem : List.Forall₂ (fun x y => x ∈ rows ∧ R x y) rows kept :=
    (List.forall₂_and_left rows kept).mpr ⟨fun _ hx => hx, hkept⟩
  exact ⟨kept, added, rfl, hmem.imp fun x y hxy => hR x hxy.1 y hxy.2,
    fun x hx => hN x (hadded x hx)⟩

theorem Evolved.exists_new (h : Evolved R N rows rows') {x : α} (hx : x ∈ rows) :
    ∃ y ∈ rows', R x y := by
  obtain ⟨kept, added, rfl, hkept, -⟩ := h
  obtain ⟨y, hy, hR⟩ := Rows.exists_new hkept hx
  exact ⟨y, List.mem_append_left _ hy, hR⟩

theorem Evolved.exists_old (h : Evolved R N rows rows') {y : α} (hy : y ∈ rows') :
    (∃ x ∈ rows, R x y) ∨ N y := by
  obtain ⟨kept, added, rfl, hkept, hadded⟩ := h
  rcases List.mem_append.mp hy with hy | hy
  · exact .inl (Rows.exists_old hkept hy)
  · exact .inr (hadded y hy)

end Evolved

section Entries
variable {l : List α} {i j : ℕ} {x y a : α}

theorem getElem?_set_of_some (h : l[i]? = some x) : (l.set i a)[i]? = some a := by
  have hlt := (List.getElem?_eq_some_iff.mp h).1
  simp [hlt]

/-- An entry of the list after a write is the one that was written, or was there. -/
theorem getElem?_set_cases (h : (l.set i a)[j]? = some y) :
    (j = i ∧ y = a) ∨ (j ≠ i ∧ l[j]? = some y) := by
  rw [List.getElem?_set] at h
  split_ifs at h with hij
  · exact .inl ⟨hij.symm, (Option.some.inj h).symm⟩
  · exact .inr ⟨Ne.symm hij, h⟩

theorem getElem?_append_cases (h : (l ++ [a])[j]? = some y) :
    (j = l.length ∧ y = a) ∨ (j < l.length ∧ l[j]? = some y) := by
  rcases Nat.lt_or_ge j l.length with hlt | hge
  · rw [List.getElem?_append_left hlt] at h
    exact .inr ⟨hlt, h⟩
  · rw [List.getElem?_append_right hge] at h
    have hzero : j - l.length = 0 := by
      by_contra hne
      have hlen := (List.getElem?_eq_some_iff.mp h).1
      simp at hlen
      omega
    rw [hzero] at h
    exact .inl ⟨by omega, (Option.some.inj h).symm⟩

end Entries

end Rows
