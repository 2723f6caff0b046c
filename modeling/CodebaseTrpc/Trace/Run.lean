import Mathlib.Data.List.Forall2

/-! Runs of a labelled transition system, kept with the list of what happened. -/
namespace Trace
variable {σ ι : Type}

/-- A run from `s₀` with its entries, the latest first. A step may look at the entries
before it. -/
inductive Run (Step : List ι → σ → ι → σ → Prop) (s₀ : σ) : List ι → σ → Prop
  | start : Run Step s₀ [] s₀
  | step {tr : List ι} {s t : σ} {i : ι} (h : Run Step s₀ tr s) (hs : Step tr s i t) :
      Run Step s₀ (i :: tr) t

/-- The latest entry of the kind `p` is there, and meets `q`. -/
inductive Latest (p q : ι → Prop) : List ι → Prop
  | here {i : ι} {tr : List ι} (hp : p i) (hq : q i) : Latest p q (i :: tr)
  | earlier {i : ι} {tr : List ι} (hp : ¬ p i) (h : Latest p q tr) : Latest p q (i :: tr)

variable {Step Step' : List ι → σ → ι → σ → Prop} {s₀ s : σ} {tr : List ι}

/-- What holds at the start and is kept by every step of a run holds at its end. -/
theorem Run.invariant {I : List ι → σ → Prop} (h : Run Step s₀ tr s) (start : I [] s₀)
    (step : ∀ tr s i t, I tr s → Step tr s i t → I (i :: tr) t) : I tr s := by
  induction h with
  | start => exact start
  | step _ hs ih => exact step _ _ _ _ ih hs

theorem Run.mono (h : Run Step s₀ tr s) (hle : ∀ tr s i t, Step tr s i t → Step' tr s i t) :
    Run Step' s₀ tr s := by
  induction h with
  | start => exact .start
  | step _ hs ih => exact .step ih (hle _ _ _ _ hs)

/-- Runs of steps that are equivalent wherever a run of both has led are the same runs. -/
theorem Run.congr (h : ∀ tr s i t, Run Step s₀ tr s → Run Step' s₀ tr s →
    (Step tr s i t ↔ Step' tr s i t)) : Run Step s₀ tr s ↔ Run Step' s₀ tr s := by
  constructor
  · intro hrun
    induction hrun with
    | start => exact .start
    | step hrun hs ih => exact .step ih ((h _ _ _ _ hrun ih).mp hs)
  · intro hrun
    induction hrun with
    | start => exact .start
    | step hrun hs ih => exact .step ih ((h _ _ _ _ ih hrun).mpr hs)

/-- A run all of whose entries meet a condition is a run of the steps that meet it. -/
theorem Run.restrict {Q : ι → Prop} (h : Run Step s₀ tr s) (hQ : ∀ i ∈ tr, Q i) :
    Run (fun tr s i t => Step tr s i t ∧ Q i) s₀ tr s := by
  induction h with
  | start => exact .start
  | step _ hs ih =>
    exact .step (ih fun j hj => hQ j (List.mem_cons_of_mem _ hj)) ⟨hs, hQ _ List.mem_cons_self⟩

/-- Every entry of a run was a step, from a state that the run had reached. -/
theorem Run.of_mem (h : Run Step s₀ tr s) {i : ι} (hi : i ∈ tr) :
    ∃ tr' u v, Run Step s₀ tr' u ∧ Step tr' u i v ∧ i :: tr' <:+ tr := by
  induction h with
  | start => cases hi
  | @step tr u v j h hs ih =>
    rcases List.mem_cons.mp hi with rfl | hi
    · exact ⟨tr, u, v, h, hs, List.suffix_refl _⟩
    · obtain ⟨tr', u', v', h', hs', hsuf⟩ := ih hi
      exact ⟨tr', u', v', h', hs', hsuf.trans (List.suffix_cons _ _)⟩

/-- The beginning of a run is a run. -/
theorem Run.earlier {post : List ι} (h : Run Step s₀ (post ++ tr) s) : ∃ u, Run Step s₀ tr u := by
  induction post generalizing s with
  | nil => exact ⟨s, h⟩
  | cons i post ih =>
    cases h with
    | step h _ => exact ih h

/-- What one step of a run establishes and the later ones keep holds at its end. -/
theorem Run.since {I : σ → Prop} {pre post : List ι} {i : ι}
    (h : Run Step s₀ (post ++ i :: pre) s)
    (first : ∀ u v, Run Step s₀ pre u → Step pre u i v → I v)
    (later : ∀ tr u j v, j ∈ post → I u → Step tr u j v → I v) : I s := by
  induction post generalizing s with
  | nil =>
    cases h with
    | step h hs => exact first _ _ h hs
  | cons j post ih =>
    cases h with
    | step h hs =>
      exact later _ _ _ _ List.mem_cons_self
        (ih h fun tr u k v hk => later tr u k v (List.mem_cons_of_mem _ hk)) hs

/-- A run whose steps, as long as an invariant holds, are steps of another system is a run of that
system, entry by entry. -/
theorem Run.simulation {σ' ι' : Type} {Abs : List ι' → σ' → ι' → σ' → Prop} {I : σ → Prop}
    {v : σ → σ'} {L : ι → ι' → Prop} (h : Run Step s₀ tr s) (start : I s₀)
    (keep : ∀ tr s i t, I s → Step tr s i t → I t)
    (step : ∀ tr tr' s i t, I s → Step tr s i t →
      ∃ a, Abs tr' (v s) a (v t) ∧ L i a) :
    ∃ tr', Run Abs (v s₀) tr' (v s) ∧ List.Forall₂ L tr tr' := by
  suffices H : I s ∧ ∃ tr', Run Abs (v s₀) tr' (v s) ∧ List.Forall₂ L tr tr' from H.2
  induction h with
  | start => exact ⟨start, [], .start, .nil⟩
  | step _ hs ih =>
    obtain ⟨hinv, tr', hrun, hl⟩ := ih
    obtain ⟨a, ha, hla⟩ := step _ tr' _ _ _ hinv hs
    exact ⟨keep _ _ _ _ hinv hs, a :: tr', .step hrun ha, .cons hla hl⟩

end Trace
