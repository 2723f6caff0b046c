import CodebaseTrpc.Trace.Run

/-! What somebody learns in a run, and the rule that keeps a secret from him. -/
namespace Trace
variable {σ ι μ : Type} {tells : List ι → ι → μ → Prop} {knew : μ → Prop}

/-- What is known after a run: what was known before it, and what its entries told. An entry may
tell more or less by what came before it. -/
inductive Knows (tells : List ι → ι → μ → Prop) (knew : μ → Prop) : List ι → μ → Prop
  | before {tr : List ι} {m : μ} (h : knew m) : Knows tells knew tr m
  | told {tr : List ι} {i : ι} {m : μ} (h : tells tr i m) : Knows tells knew (i :: tr) m
  | still {tr : List ι} {i : ι} {m : μ} (h : Knows tells knew tr m) : Knows tells knew (i :: tr) m

/-- The messages that are no secret are all that is ever known, if a step by somebody who knows
no others keeps the invariant and tells no others. -/
theorem Run.discreet {Step : List ι → σ → ι → σ → Prop} {s₀ s : σ} {tr : List ι}
    {I : σ → Prop} {Public : μ → Prop} (h : Run Step s₀ tr s) (start : I s₀)
    (hknew : ∀ m, knew m → Public m)
    (step : ∀ tr s i t, I s → (∀ m, Knows tells knew tr m → Public m) → Step tr s i t →
      I t ∧ ∀ m, tells tr i m → Public m) :
    I s ∧ ∀ m, Knows tells knew tr m → Public m := by
  induction h with
  | start =>
    refine ⟨start, fun m hm => ?_⟩
    cases hm with
    | before hm => exact hknew m hm
  | step _ hs ih =>
    obtain ⟨hinv, hpublic⟩ := ih
    obtain ⟨hinv', htells⟩ := step _ _ _ _ hinv hpublic hs
    refine ⟨hinv', fun m hm => ?_⟩
    cases hm with
    | before hm => exact hknew m hm
    | told hm => exact htells m hm
    | still hm => exact hpublic m hm

end Trace
