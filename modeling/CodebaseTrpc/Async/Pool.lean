import Mathlib.Data.Nat.Notation
import CodebaseTrpc.Async.Rules

/-! Any number of calls on one store: they start at any time, take their steps in any
order, and the surroundings move between the steps. -/

namespace Async
variable {σ ε α β : Type}

/-- The calls started so far, settled or not, and the store. -/
abbrev Pool (σ ε α : Type) : Type 1 := List (Call σ ε α) × σ

section Step
variable (Admit : Async σ ε α → Prop) (Tick : σ → σ → Prop)

inductive Pool.Step : Pool σ ε α → Pool σ ε α → Prop
  | call {pre post : List (Call σ ε α)} {c c' : Call σ ε α} {s t : σ}
      (h : Call.Step (c, s) (c', t)) : Step (pre ++ c :: post, s) (pre ++ c' :: post, t)
  | arrive {cs : List (Call σ ε α)} {p : Async σ ε α} {s : σ} (h : Admit p) :
      Step (cs, s) (cs ++ [⟨p, []⟩], s)
  | tick {cs : List (Call σ ε α)} {s t : σ} (h : Tick s t) : Step (cs, s) (cs, t)

abbrev Pool.Steps : Pool σ ε α → Pool σ ε α → Prop :=
  Relation.ReflTransGen (Pool.Step Admit Tick)

end Step

/-- The stores that a run goes through. -/
def Pool.Passed (Step : Pool σ ε α → Pool σ ε α → Prop) (x y : Pool σ ε α) (s : σ) : Prop :=
  ∃ cs, Relation.ReflTransGen Step x (cs, s) ∧ Relation.ReflTransGen Step (cs, s) y

variable {Admit : Async σ ε α → Prop} {Tick : σ → σ → Prop}

/-- A call that has started no child steps as its program does. -/
theorem Call.step_alone {p : Async σ ε α} {c' : Call σ ε α} {s t : σ}
    (h : Call.Step (⟨p, []⟩, s) (c', t)) :
    ∃ p' born, p.next s = some (p', born, t) ∧ c' = ⟨p', born⟩ := by
  generalize hc : (⟨p, []⟩ : Call σ ε α) = c at h
  cases h with
  | @main q q' ds born _ _ hn =>
    obtain ⟨rfl, rfl⟩ := Call.mk.inj hc
    exact ⟨q', born, hn, by simp⟩
  | detached hn => simp at hc

/-- A call with no child takes a step that starts none. -/
theorem Pool.Step.call_at (pre post : List (Call σ ε α)) {p p' : Async σ ε α} {s t : σ}
    (h : p.next s = some (p', [], t)) :
    Pool.Step Admit Tick (pre ++ ⟨p, []⟩ :: post, s) (pre ++ ⟨p', []⟩ :: post, t) :=
  .call (.main_quiet h)

theorem Pool.Step.perm {cs cs' ds : List (Call σ ε α)} {s t : σ}
    (h : Pool.Step Admit Tick (cs, s) (cs', t)) (hp : cs.Perm ds) :
    ∃ ds', Pool.Step Admit Tick (ds, s) (ds', t) ∧ cs'.Perm ds' := by
  cases h with
  | @call pre post c c' _ _ h =>
    obtain ⟨pre', post', rfl⟩ :=
      List.append_of_mem (hp.subset (List.mem_append_right pre (.head post)))
    have hrest : (pre ++ post).Perm (pre' ++ post') :=
      List.Perm.cons_inv ((List.perm_middle.symm.trans hp).trans List.perm_middle)
    exact ⟨pre' ++ c' :: post', .call h,
      (List.perm_middle.trans (hrest.cons c')).trans List.perm_middle.symm⟩
  | arrive h => exact ⟨_, .arrive h, hp.append_right _⟩
  | tick h => exact ⟨ds, .tick h, hp⟩

theorem Pool.Steps.perm {x y : Pool σ ε α} {ds : List (Call σ ε α)}
    (h : Pool.Steps Admit Tick x y) (hp : x.1.Perm ds) :
    ∃ ds', Pool.Steps Admit Tick (ds, x.2) (ds', y.2) ∧ y.1.Perm ds' := by
  induction h with
  | refl => exact ⟨ds, .refl, hp⟩
  | tail _ hstep ih =>
    obtain ⟨ds', hs, hp'⟩ := ih
    obtain ⟨ds'', hs', hp''⟩ := hstep.perm hp'
    exact ⟨ds'', hs.tail hs', hp''⟩

/-- Where two programs run and none joins them, one of the two steps. -/
theorem Pool.Step.pair {p q : Async σ ε α} {s : σ} {y : Pool σ ε α}
    (h : Pool.Step (fun _ => False) Tick ([⟨p, []⟩, ⟨q, []⟩], s) y) :
    (∃ p' born t, p.next s = some (p', born, t) ∧ y = ([⟨p', born⟩, ⟨q, []⟩], t)) ∨
      (∃ q' born t, q.next s = some (q', born, t) ∧ y = ([⟨p, []⟩, ⟨q', born⟩], t)) ∨
      ∃ t, Tick s t ∧ y = ([⟨p, []⟩, ⟨q, []⟩], t) := by
  generalize hcs : ([⟨p, []⟩, ⟨q, []⟩] : List (Call σ ε α)) = cs at h
  cases h with
  | @call pre post c c' _ t h =>
    rcases pre with _ | ⟨a, pre⟩
    · obtain ⟨rfl, rfl⟩ := List.cons.inj hcs
      obtain ⟨p', born, hn, rfl⟩ := Call.step_alone h
      exact .inl ⟨p', born, t, hn, rfl⟩
    · obtain ⟨rfl, htail⟩ := List.cons.inj hcs
      rcases pre with _ | ⟨b, pre⟩
      · obtain ⟨rfl, rfl⟩ := List.cons.inj htail
        obtain ⟨q', born, hn, rfl⟩ := Call.step_alone h
        exact .inr (.inl ⟨q', born, t, hn, rfl⟩)
      · simp at htail
  | arrive h => exact h.elim
  | tick h =>
    subst hcs
    exact .inr (.inr ⟨_, h, rfl⟩)

/-- `I` is kept by every step of the program that is taken under the condition, and by every
step of the children it starts. -/
inductive KeepsWhere (C : Async σ ε α → σ → Prop) (I : σ → Prop) : Async σ ε α → Prop
  | mk {p : Async σ ε α}
      (keeps : ∀ s p' born t, I s → C p s → p.next s = some (p', born, t) → I t)
      (born : ∀ s p' born t, I s → C p s → p.next s = some (p', born, t) → ∀ d ∈ born, d.2.Keeps I)
      (rest : ∀ s p' born t, I s → C p s → p.next s = some (p', born, t) → KeepsWhere C I p') :
      KeepsWhere C I p

variable {C : Async σ ε α → σ → Prop} {I : σ → Prop}

theorem KeepsWhere.of_settled {p : Async σ ε α} (h : p.Settled) : p.KeepsWhere C I := by
  refine .mk ?_ ?_ ?_ <;> intro s p' born t _ _ hn <;> simp [h.next s] at hn

/-- A first part that keeps `I` under no condition, and a rest that does under one. -/
theorem KeepsWhere.bind {p : Async σ ε β} {f : β → Async σ ε α} (hp : p.Keeps I)
    (hf : ∀ b, (f b).KeepsWhere C I) : (p.bind f).KeepsWhere C I := by
  induction p with
  | pure b => exact hf b
  | throw e => exact .of_settled ⟨.error e, rfl⟩
  | act upd k ih =>
    refine .mk ?_ ?_ ?_ <;> rintro s p' born t hs - ⟨⟩
    · exact (hp s hs).1
    · simp
    · exact ih s (hp s hs).2 hf
  | stmt upd k lost ih _ =>
    refine .mk ?_ ?_ ?_ <;> rintro s p' born t hs - ⟨⟩
    · exact (hp s hs).1
    · simp
    · exact ih s (hp s hs).2 hf
  | atomically body k h _ ihk ihh =>
    refine .mk ?_ ?_ ?_ <;> intro s p' born t hs _ hn <;> have hb := hp.1 s hs <;>
      simp only [bind_atomically, next] at hn <;> split at hn
    next hr => cases hn; simpa [hr] using hb
    next hr => cases hn; simpa [hr] using hb
    next => cases hn; simp
    next => cases hn; simp
    next b _ _ => cases hn; exact ihk b (hp.2.1 b) hf
    next e _ _ => cases hn; exact ihh e (hp.2.2 e) hf
  | spawn child k _ ih =>
    refine .mk ?_ ?_ ?_ <;> rintro s p' born t hs - ⟨⟩
    · exact hs
    · simpa using hp.1
    · exact ih hp.2 hf

theorem KeepsWhere.of_keeps {p : Async σ ε α} (h : p.Keeps I) : p.KeepsWhere C I := by
  rw [← bind_pure_right p]
  exact .bind h fun a => .of_settled ⟨.ok a, rfl⟩

section Parts
variable {upd : σ → σ} {k : σ → Async σ ε α} {lost : Async σ ε α}

/-- What follows a step is asked for only where the condition held before it. -/
theorem KeepsWhere.act
    (h : ∀ s, I s → C (.act upd k) s → I (upd s) ∧ (k s).KeepsWhere C I) :
    (Async.act upd k).KeepsWhere C I := by
  refine .mk ?_ ?_ ?_ <;> rintro s p' born t hs hC ⟨⟩
  · exact (h s hs hC).1
  · simp
  · exact (h s hs hC).2

theorem KeepsWhere.stmt
    (h : ∀ s, I s → C (.stmt upd k lost) s → I (upd s) ∧ (k s).KeepsWhere C I) :
    (Async.stmt upd k lost).KeepsWhere C I := by
  refine .mk ?_ ?_ ?_ <;> rintro s p' born t hs hC ⟨⟩
  · exact (h s hs hC).1
  · simp
  · exact (h s hs hC).2

end Parts

/-- A first part that keeps `I` under a condition on the store alone, and a rest that always
does. -/
theorem KeepsWhere.bind_keeps {S : σ → Prop} {p : Async σ ε β} {f : β → Async σ ε α}
    (hp : p.KeepsWhere (fun _ s => S s) I) (hf : ∀ b, (f b).Keeps I) :
    (p.bind f).KeepsWhere (fun _ s => S s) I := by
  induction hp with
  | mk keeps born _ ih =>
    refine .mk ?_ ?_ ?_ <;> intro s q new t hs hC hn <;>
      rcases next_bind_cases hn with ⟨b, rfl, hn⟩ | ⟨p', hp', rfl⟩
    · exact ((hf b).next hn hs).1
    · exact keeps _ _ _ _ hs hC hp'
    · exact ((hf b).next hn hs).2.2
    · exact born _ _ _ _ hs hC hp'
    · exact .of_keeps ((hf b).next hn hs).2.1
    · exact ih _ _ _ _ hs hC hp'

/-- The steps of a pool from states in which every call meets the condition. -/
abbrev Pool.StepsWhere (Admit : Async σ ε α → Prop) (Tick : σ → σ → Prop)
    (C : Async σ ε α → σ → Prop) : Pool σ ε α → Pool σ ε α → Prop :=
  Relation.ReflTransGen fun x y => Pool.Step Admit Tick x y ∧ ∀ c ∈ x.1, C c.main x.2

/-- The steps of a run all start in stores that it goes through. -/
theorem Pool.Steps.stepsWhere_passed {x y z : Pool σ ε α} (h : Pool.Steps Admit Tick x z)
    (hzy : Pool.Steps Admit Tick z y) :
    Pool.StepsWhere Admit Tick (fun _ => Pool.Passed (Pool.Step Admit Tick) x y) x z := by
  induction h with
  | refl => exact .refl
  | @tail b c hxb hstep ih =>
    have hby : Pool.Steps Admit Tick b y := .head hstep hzy
    exact (ih hby).tail ⟨hstep, fun _ _ => ⟨b.1, hxb, hby⟩⟩

/-- What every admitted program keeps under the condition, and every tick keeps, holds in each
state that steps under the condition reach. -/
theorem Pool.StepsWhere.keeps {x y : Pool σ ε α} (h : Pool.StepsWhere Admit Tick C x y)
    (hAdmit : ∀ p, Admit p → p.KeepsWhere C I) (hTick : ∀ s t, Tick s t → I s → I t)
    (hcs : ∀ c ∈ x.1, c.main.KeepsWhere C I ∧ ∀ d ∈ c.detached, d.2.Keeps I) (hx : I x.2) :
    I y.2 ∧ ∀ c ∈ y.1, c.main.KeepsWhere C I ∧ ∀ d ∈ c.detached, d.2.Keeps I := by
  induction h with
  | refl => exact ⟨hx, hcs⟩
  | tail _ hstep ih =>
    obtain ⟨hstep, hC⟩ := hstep
    cases hstep with
    | @call pre post c c' s t h =>
      have hc := ih.2 c (by simp)
      have hc' : I t ∧ c'.main.KeepsWhere C I ∧ ∀ d ∈ c'.detached, d.2.Keeps I := by
        cases h with
        | @main p p' ds born _ _ hn =>
          obtain ⟨⟨hkeeps, hborn, hrest⟩, hd⟩ := hc
          have hcond := hC ⟨p, ds⟩ (by simp)
          refine ⟨hkeeps _ _ _ _ ih.1 hcond hn, hrest _ _ _ _ ih.1 hcond hn, fun d hm => ?_⟩
          rcases List.mem_append.mp hm with hm | hm
          · exact hd d hm
          · exact hborn _ _ _ _ ih.1 hcond hn d hm
        | detached hn =>
          obtain ⟨ht, hd⟩ := Keeps.next_detached hc.2 hn ih.1
          exact ⟨ht, hc.1, hd⟩
      exact ⟨hc'.1, forall_replace ih.2 hc'.2⟩
    | @arrive cs p s h =>
      refine ⟨ih.1, fun d hd => ?_⟩
      rcases List.mem_append.mp hd with hd | hd
      · exact ih.2 d hd
      · obtain rfl := List.mem_singleton.mp hd
        exact ⟨hAdmit p h, by simp⟩
    | tick h => exact ⟨hTick _ _ h ih.1, ih.2⟩

/-- The same where every step of every admitted program keeps `I`. -/
theorem Pool.Steps.keeps {x y : Pool σ ε α} (h : Pool.Steps Admit Tick x y)
    (hAdmit : ∀ p, Admit p → p.Keeps I) (hTick : ∀ s t, Tick s t → I s → I t)
    (hcs : ∀ c ∈ x.1, c.Keeps I) (hx : I x.2) : I y.2 := by
  have hwhere : Pool.StepsWhere Admit Tick (fun _ _ => True) x y :=
    Relation.ReflTransGen.mono (fun _ _ hstep => ⟨hstep, fun _ _ => trivial⟩) _ _ h
  have hkeeps := hwhere.keeps (I := I) (fun p hp => .of_keeps (hAdmit p hp)) hTick
    (fun c hc => ⟨.of_keeps (hcs c hc).1, (hcs c hc).2⟩) hx
  exact hkeeps.1

/-- One step of the main program of the call at a position, if it has one. -/
def Pool.advance (i : ℕ) : Pool σ ε α → Pool σ ε α
  | (cs, s) => match cs[i]? with
    | none => (cs, s)
    | some c => match c.main.next s with
      | none => (cs, s)
      | some (p, born, t) => (cs.set i ⟨p, c.detached ++ born⟩, t)

/-- The steps of a given schedule. -/
def Pool.runSchedule (is : List ℕ) (x : Pool σ ε α) : Pool σ ε α :=
  is.foldl (fun x i => x.advance i) x

/-- A call with no step left, or none at the position, leaves the pool as it is. -/
theorem Pool.advance_cases (Admit : Async σ ε α → Prop) (Tick : σ → σ → Prop) (i : ℕ)
    (x : Pool σ ε α) :
    x.advance i = x ∨ Pool.Step Admit Tick x (x.advance i) := by
  obtain ⟨cs, s⟩ := x
  simp only [Pool.advance]
  split
  next => exact .inl rfl
  next c hc =>
    split
    next => exact .inl rfl
    next p born t hn =>
      right
      obtain ⟨hi, rfl⟩ := List.getElem?_eq_some_iff.mp hc
      have hcs : cs.take i ++ cs[i] :: cs.drop (i + 1) = cs := by simp
      have hstep : Pool.Step Admit Tick (cs.take i ++ cs[i] :: cs.drop (i + 1), s)
          (cs.take i ++ ⟨p, cs[i].detached ++ born⟩ :: cs.drop (i + 1), t) := .call (.main hn)
      rwa [hcs, ← (List.set_eq_take_append_cons_drop ..).trans (if_pos hi)] at hstep

/-- A schedule is one of the interleavings. -/
theorem Pool.steps_runSchedule (is : List ℕ) (x : Pool σ ε α) :
    Pool.Steps Admit Tick x (x.runSchedule is) := by
  induction is generalizing x with
  | nil => exact .refl
  | cons i is ih =>
    change Pool.Steps Admit Tick x ((x.advance i).runSchedule is)
    rcases Pool.advance_cases Admit Tick i x with h | h
    · rw [h]
      exact ih x
    · exact .head h (ih _)

/-- A schedule all of whose states meet the condition. -/
theorem Pool.stepsWhere_runSchedule (is : List ℕ) (x : Pool σ ε α)
    (hC : ∀ n < is.length, ∀ c ∈ (x.runSchedule (is.take n)).1,
      C c.main (x.runSchedule (is.take n)).2) :
    Pool.StepsWhere Admit Tick C x (x.runSchedule is) := by
  induction is generalizing x with
  | nil => exact .refl
  | cons i is ih =>
    have hrest := ih (x.advance i) fun n hn => hC (n + 1) (by simpa using hn)
    change Pool.StepsWhere Admit Tick C x ((x.advance i).runSchedule is)
    rcases Pool.advance_cases Admit Tick i x with h | h
    · rw [h] at hrest ⊢
      exact hrest
    · exact .head ⟨h, hC 0 (by simp)⟩ hrest

end Async
