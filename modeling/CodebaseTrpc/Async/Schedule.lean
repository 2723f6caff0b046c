import CodebaseTrpc.Async.Program

/-! Interleavings. A call is a program with the children it did not await; a pool is a
list of calls on one store. A scheduler picks whose next step is taken. -/

namespace Async
variable {σ ε α β : Type}

/-- A program started without being awaited, whatever it returns. -/
abbrev Detached (σ ε : Type) : Type 1 := (β : Type) × Async σ ε β

/-- The next step of a program on a store: the rest, the child it started if any, and the
store after it. A settled program has none. -/
def next : Async σ ε α → σ → Option (Async σ ε α × List (Detached σ ε) × σ)
  | .pure _, _ => none
  | .throw _, _ => none
  | .act upd k, s => some (k s, [], upd s)
  | .stmt upd k _, s => some (k s, [], upd s)
  | .atomically body k h, s =>
      match body.run s with
      | (.ok b, s') => some (k b, [], s')
      | (.error e, s') => some (h e, [], s')
  | .spawn child k, s => some (k, [⟨_, child⟩], s)

/-- The settled program with the given outcome. -/
def settled : Except ε α → Async σ ε α
  | .ok a => .pure a
  | .error e => .throw e

@[simp] theorem next_settled (r : Except ε α) (s : σ) : (settled r).next s = none := by
  cases r <;> rfl

/-- The program has no step left. -/
def Settled (p : Async σ ε α) : Prop := ∃ r, p = settled r

theorem settled_settled (r : Except ε α) : (settled r : Async σ ε α).Settled := ⟨r, rfl⟩

theorem settled_injective : Function.Injective (settled : Except ε α → Async σ ε α) := by
  intro r r' h
  cases r <;> cases r' <;> cases h <;> rfl

theorem Settled.next {p : Async σ ε α} (h : p.Settled) (s : σ) : p.next s = none := by
  obtain ⟨r, rfl⟩ := h
  exact next_settled r s

/-- A step of a sequence is a step of its first part, or the first part has returned. -/
theorem next_bind_cases {p : Async σ ε α} {f : α → Async σ ε β} {q : Async σ ε β}
    {born : List (Detached σ ε)} {s t : σ} (h : (p.bind f).next s = some (q, born, t)) :
    (∃ a, p = .pure a ∧ (f a).next s = some (q, born, t)) ∨
      ∃ p', p.next s = some (p', born, t) ∧ q = p'.bind f := by
  cases p with
  | pure a => exact .inl ⟨a, rfl, h⟩
  | throw e => cases h
  | act upd k => cases h; exact .inr ⟨_, rfl, rfl⟩
  | stmt upd k lost => cases h; exact .inr ⟨_, rfl, rfl⟩
  | atomically body k g =>
    right
    simp only [bind_atomically, next] at h ⊢
    split at h
    next b u hr => cases h; exact ⟨_, rfl, rfl⟩
    next e u hr => cases h; exact ⟨_, rfl, rfl⟩
  | spawn child k => cases h; exact .inr ⟨_, rfl, rfl⟩

structure Call (σ ε α : Type) where
  main : Async σ ε α
  detached : List (Detached σ ε) := []

/-- One step of a call: of its main program, or of a child it did not await. -/
inductive Call.Step : Call σ ε α × σ → Call σ ε α × σ → Prop
  | main {p p' : Async σ ε α} {ds born : List (Detached σ ε)} {s t : σ}
      (h : p.next s = some (p', born, t)) : Step (⟨p, ds⟩, s) (⟨p', ds ++ born⟩, t)
  | detached {p : Async σ ε α} {pre post born : List (Detached σ ε)} {β : Type}
      {d d' : Async σ ε β} {s t : σ} (h : d.next s = some (d', born, t)) :
      Step (⟨p, pre ++ ⟨β, d⟩ :: post⟩, s) (⟨p, pre ++ ⟨β, d'⟩ :: (post ++ born)⟩, t)

/-- A step that starts no child. -/
theorem Call.Step.main_quiet {p p' : Async σ ε α} {ds : List (Detached σ ε)} {s t : σ}
    (h : p.next s = some (p', [], t)) : Call.Step (⟨p, ds⟩, s) (⟨p', ds⟩, t) := by
  simpa using Call.Step.main h

theorem Call.Step.detached_quiet {p : Async σ ε α} {pre post : List (Detached σ ε)}
    {d d' : Async σ ε β} {s t : σ} (h : d.next s = some (d', [], t)) :
    Call.Step (⟨p, pre ++ ⟨β, d⟩ :: post⟩, s) (⟨p, pre ++ ⟨β, d'⟩ :: post⟩, t) := by
  simpa using Call.Step.detached h

abbrev Call.Steps : Call σ ε α × σ → Call σ ε α × σ → Prop := Relation.ReflTransGen Call.Step

/-- A complete execution under some schedule: the main program settles with `r`, and every
effect the call started has completed. -/
def Exec (p : Async σ ε α) (s : σ) (r : Except ε α) (s' : σ) : Prop :=
  ∃ ds, Call.Steps (⟨p, []⟩, s) (⟨settled r, ds⟩, s') ∧ ∀ d ∈ ds, d.2.Settled

/-- A detached child can be run to its end while everything else waits. -/
theorem steps_detached (p : Async σ ε α) (d : Async σ ε β) (pre post : List (Detached σ ε))
    (s : σ) : ∃ d' born, Call.Steps (⟨p, pre ++ ⟨β, d⟩ :: post⟩, s)
      (⟨p, pre ++ ⟨β, d'⟩ :: (post ++ born)⟩, (d.run s).2) ∧ d'.Settled ∧
      ∀ c ∈ born, c.2.Settled := by
  induction d generalizing pre post s with
  | pure a => exact ⟨.pure a, [], by simpa using .refl, ⟨.ok a, rfl⟩, by simp⟩
  | throw e => exact ⟨.throw e, [], by simpa using .refl, ⟨.error e, rfl⟩, by simp⟩
  | act upd k ih =>
    obtain ⟨d', born, hs, h⟩ := ih s pre post (upd s)
    exact ⟨d', born, .head (.detached_quiet rfl) hs, h⟩
  | stmt upd k lost ih _ =>
    obtain ⟨d', born, hs, h⟩ := ih s pre post (upd s)
    exact ⟨d', born, .head (.detached_quiet rfl) hs, h⟩
  | atomically body k h _ ihk ihh =>
    rcases hb : body.run s with ⟨r, t⟩
    cases r with
    | ok b =>
      obtain ⟨d', born, hs, hd⟩ := ihk b pre post t
      have hn : (Async.atomically body k h).next s = some (k b, [], t) := by simp [next, hb]
      exact ⟨d', born, by
        simpa [run, hb] using Relation.ReflTransGen.head (Call.Step.detached_quiet hn) hs, hd⟩
    | error e =>
      obtain ⟨d', born, hs, hd⟩ := ihh e pre post t
      have hn : (Async.atomically body k h).next s = some (h e, [], t) := by simp [next, hb]
      exact ⟨d', born, by
        simpa [run, hb] using Relation.ReflTransGen.head (Call.Step.detached_quiet hn) hs, hd⟩
  | @spawn β γ child k ihc ihk =>
    -- the grandchild is appended last, run first, then the child itself goes on
    obtain ⟨c', born, hc, hcs, hborn⟩ := ihc (pre ++ ⟨β, k⟩ :: post) [] s
    obtain ⟨d', born', hd, hds, hborn'⟩ := ihk pre (post ++ ⟨_, c'⟩ :: born) (child.run s).2
    refine ⟨d', ⟨_, c'⟩ :: born ++ born', .head (.detached rfl) ?_, hds, ?_⟩
    · refine .trans (b := (⟨p, pre ++ ⟨β, k⟩ :: (post ++ ⟨_, c'⟩ :: born)⟩, (child.run s).2)) ?_ ?_
      · simpa using hc
      · simpa [run] using hd
    · intro c hc
      rcases List.mem_append.mp hc with hc | hc
      · rcases List.mem_cons.mp hc with rfl | hc
        · exact hcs
        · exact hborn c hc
      · exact hborn' c hc

/-- Running alone is one of the schedules. -/
theorem exec_run (p : Async σ ε α) (s : σ) : Exec p s (p.run s).1 (p.run s).2 := by
  suffices H : ∀ ds : List (Detached σ ε), (∀ d ∈ ds, d.2.Settled) → ∃ ds',
      Call.Steps (⟨p, ds⟩, s) (⟨settled (p.run s).1, ds'⟩, (p.run s).2) ∧
        ∀ d ∈ ds', d.2.Settled from H [] (by simp)
  induction p generalizing s with
  | pure a => exact fun ds h => ⟨ds, .refl, h⟩
  | throw e => exact fun ds h => ⟨ds, .refl, h⟩
  | act upd k ih =>
    intro ds h
    obtain ⟨ds', hs, hd⟩ := ih s (upd s) ds h
    exact ⟨ds', .head (.main_quiet rfl) hs, hd⟩
  | stmt upd k lost ih _ =>
    intro ds h
    obtain ⟨ds', hs, hd⟩ := ih s (upd s) ds h
    exact ⟨ds', .head (.main_quiet rfl) hs, hd⟩
  | atomically body k h _ ihk ihh =>
    intro ds hds
    rcases hb : body.run s with ⟨r, t⟩
    cases r with
    | ok b =>
      obtain ⟨ds', hs, hd⟩ := ihk b t ds hds
      have hn : (Async.atomically body k h).next s = some (k b, [], t) := by simp [next, hb]
      exact ⟨ds', by simpa [run, hb] using
        Relation.ReflTransGen.head (Call.Step.main_quiet hn) hs, hd⟩
    | error e =>
      obtain ⟨ds', hs, hd⟩ := ihh e t ds hds
      have hn : (Async.atomically body k h).next s = some (h e, [], t) := by simp [next, hb]
      exact ⟨ds', by simpa [run, hb] using
        Relation.ReflTransGen.head (Call.Step.main_quiet hn) hs, hd⟩
  | spawn child k _ ih =>
    intro ds hds
    obtain ⟨c', born, hc, hcs, hborn⟩ := steps_detached k child ds [] s
    obtain ⟨ds', hs, hd⟩ := ih (child.run s).2 (ds ++ ⟨_, c'⟩ :: born) (by
      intro d hd
      rcases List.mem_append.mp hd with hd | hd
      · exact hds d hd
      · rcases List.mem_cons.mp hd with rfl | hd
        · exact hcs
        · exact hborn d hd)
    exact ⟨ds', .head (.main rfl)
      (.trans (by simpa using hc) (by simpa [run] using hs)), hd⟩

theorem exec_of_run {p : Async σ ε α} {s s' : σ} {r : Except ε α} (h : p.run s = (r, s')) :
    Exec p s r s' := by
  simpa [h] using exec_run p s

theorem exec_of_isOk {p : Async σ ε α} {s : σ} (h : (p.run s).1.isOk = true) :
    ∃ a s', Exec p s (.ok a) s' := by
  rcases hr : p.run s with ⟨e | a, s'⟩
  · rw [hr] at h
    cases h
  · exact ⟨a, s', exec_of_run hr⟩

/-- With no child running, the only step of a call is the one of its program. -/
theorem exec_next {p q : Async σ ε α} {s t s' : σ} {r : Except ε α}
    (h : p.next s = some (q, [], t)) : Exec p s r s' ↔ Exec q t r s' := by
  constructor
  · rintro ⟨ds, hs, hd⟩
    rcases Relation.ReflTransGen.cases_head hs with heq | ⟨⟨c, u⟩, hstep, hs⟩
    · simp only [Prod.mk.injEq, Call.mk.injEq] at heq
      obtain ⟨⟨rfl, -⟩, -⟩ := heq
      simp at h
    · generalize hc : (⟨p, []⟩ : Call σ ε α) = c₀ at hstep
      cases hstep with
      | @main p₀ q₀ ds' born _ _ hn =>
        obtain ⟨rfl, rfl⟩ := Call.mk.inj hc
        rw [h] at hn
        obtain ⟨rfl, rfl, rfl⟩ : q = q₀ ∧ [] = born ∧ t = u := by simpa using hn
        exact ⟨ds, by simpa using hs, hd⟩
      | detached hn => simp at hc
  · rintro ⟨ds, hs, hd⟩
    exact ⟨ds, .head (.main_quiet h) hs, hd⟩

theorem exec_settled {r r' : Except ε α} {s s' : σ} :
    Exec (settled r) s r' s' ↔ r' = r ∧ s' = s := by
  constructor
  · rintro ⟨ds, hs, -⟩
    rcases Relation.ReflTransGen.cases_head hs with heq | ⟨⟨c, u⟩, hstep, -⟩
    · simp only [Prod.mk.injEq, Call.mk.injEq] at heq
      exact ⟨(settled_injective heq.1.1).symm, heq.2.symm⟩
    · generalize hc : (⟨settled r, []⟩ : Call σ ε α) = c₀ at hstep
      cases hstep with
      | main hn =>
        obtain ⟨rfl, -⟩ := Call.mk.inj hc
        simp at hn
      | detached hn => simp at hc
  · rintro ⟨rfl, rfl⟩
    exact ⟨[], .refl, by simp⟩

/-- Up to its first un-awaited child a program runs as if alone. -/
theorem exec_bind {p : Async σ ε α} (hp : p.Awaits) {f : α → Async σ ε β} {s s' : σ}
    {r : Except ε β} : Exec (p.bind f) s r s' ↔
      (∃ e, p.run s = (.error e, s') ∧ r = .error e) ∨
        ∃ a t, p.run s = (.ok a, t) ∧ Exec (f a) t r s' := by
  induction p generalizing s with
  | pure a =>
    simp only [bind_pure_left, run_pure, Prod.mk.injEq, reduceCtorEq, false_and, exists_false,
      false_or, Except.ok.injEq]
    exact ⟨fun h => ⟨a, s, ⟨rfl, rfl⟩, h⟩, by rintro ⟨_, _, ⟨rfl, rfl⟩, h⟩; exact h⟩
  | throw e =>
    simp only [bind_throw, run_throw, Prod.mk.injEq, reduceCtorEq, false_and, exists_false,
      or_false, Except.error.injEq]
    refine (exec_settled (r := (.error e : Except ε β))).trans ⟨?_, ?_⟩
    · rintro ⟨rfl, rfl⟩; exact ⟨e, ⟨rfl, rfl⟩, rfl⟩
    · rintro ⟨_, ⟨rfl, rfl⟩, rfl⟩; exact ⟨rfl, rfl⟩
  | act upd k ih => exact (exec_next rfl).trans (ih s (hp s))
  | stmt upd k lost ih _ => exact (exec_next rfl).trans (ih s (hp.1 s))
  | atomically body k h _ ihk ihh =>
    simp only [bind_atomically, run]
    rcases hb : body.run s with ⟨o, t⟩
    cases o with
    | ok b => exact (exec_next (q := (k b).bind f) (by simp [next, hb])).trans (ihk b (hp.1 b))
    | error e => exact (exec_next (q := (h e).bind f) (by simp [next, hb])).trans (ihh e (hp.2 e))
  | spawn child k _ _ => exact hp.elim

theorem exec_bind_ok {p : Async σ ε α} (hp : p.Awaits) {f : α → Async σ ε β} {s t s' : σ} {a : α}
    {r : Except ε β} (h : p.run s = (.ok a, t)) :
    Exec (p.bind f) s r s' ↔ Exec (f a) t r s' := by
  rw [exec_bind hp, h]
  simp only [Prod.mk.injEq, reduceCtorEq, false_and, exists_false, false_or, Except.ok.injEq]
  constructor
  · rintro ⟨a', t', ⟨rfl, rfl⟩, hx⟩
    exact hx
  · exact fun hx => ⟨a, t, ⟨rfl, rfl⟩, hx⟩

theorem exec_bind_error {p : Async σ ε α} (hp : p.Awaits) {f : α → Async σ ε β} {s t s' : σ}
    {e : ε} {r : Except ε β} (h : p.run s = (.error e, t)) :
    Exec (p.bind f) s r s' ↔ r = .error e ∧ s' = t := by
  rw [exec_bind hp, h]
  simp only [Prod.mk.injEq, Except.error.injEq, reduceCtorEq, false_and, exists_false, or_false]
  constructor
  · rintro ⟨e', ⟨rfl, rfl⟩, rfl⟩
    exact ⟨rfl, rfl⟩
  · rintro ⟨rfl, rfl⟩
    exact ⟨e, ⟨rfl, rfl⟩, rfl⟩

/-- A program that awaits everything has one execution, the one of `Async.run`. -/
theorem exec_iff_run {p : Async σ ε α} (hp : p.Awaits) {s s' : σ} {r : Except ε α} :
    Exec p s r s' ↔ p.run s = (r, s') := by
  constructor
  · intro h
    rw [← bind_pure_right p, exec_bind hp] at h
    rcases h with ⟨e, hr, rfl⟩ | ⟨a, t, hr, hx⟩
    · exact hr
    · obtain ⟨rfl, rfl⟩ := (exec_settled (r := .ok a)).mp hx
      exact hr
  · exact exec_of_run

/-- The program with its value sent through `g`. -/
def map (g : α → β) (p : Async σ ε α) : Async σ ε β := p.bind fun a => .pure (g a)

theorem next_map (g : α → β) (p : Async σ ε α) (s : σ) :
    (p.map g).next s = (p.next s).map fun x => (x.1.map g, x.2.1, x.2.2) := by
  cases p with
  | atomically body k h =>
    simp only [map, bind_atomically, next]
    split <;> rfl
  | _ => rfl

theorem map_settled (g : α → β) (r : Except ε α) :
    (settled r : Async σ ε α).map g = settled (r.map g) := by
  cases r <;> rfl

theorem settled_of_map {g : α → β} {p : Async σ ε α} {r : Except ε β} (h : p.map g = settled r) :
    ∃ o, p = settled o ∧ r = o.map g := by
  cases p with
  | pure a => exact ⟨.ok a, rfl, (settled_injective ((map_settled g (.ok a)).symm.trans h)).symm⟩
  | throw e =>
    exact ⟨.error e, rfl, (settled_injective ((map_settled g (.error e)).symm.trans h)).symm⟩
  | act upd k => cases r <;> cases h
  | stmt upd k lost => cases r <;> cases h
  | atomically body k g => cases r <;> cases h
  | spawn child k => cases r <;> cases h

/-- The executions of a mapped program are those of the program. -/
theorem exec_map {g : α → β} {p : Async σ ε α} {s s' : σ} {r : Except ε β} :
    Exec (p.map g) s r s' ↔ ∃ o, Exec p s o s' ∧ r = o.map g := by
  constructor
  · rintro ⟨ds, hs, hd⟩
    have H : ∀ c : Call σ ε β × σ, Call.Steps (⟨p.map g, []⟩, s) c → ∃ q : Async σ ε α,
        c.1.main = q.map g ∧ Call.Steps (⟨p, []⟩, s) (⟨q, c.1.detached⟩, c.2) := by
      intro c hc
      induction hc with
      | refl => exact ⟨p, rfl, .refl⟩
      | @tail b c _ hstep ih =>
        obtain ⟨q, hq, hsteps⟩ := ih
        cases hstep with
        | main hn =>
          dsimp only at hq
          rw [hq, next_map] at hn
          obtain ⟨⟨q', born, t⟩, hq', heq⟩ := Option.map_eq_some_iff.mp hn
          cases heq
          exact ⟨q', rfl, hsteps.tail (.main hq')⟩
        | detached hn => exact ⟨q, hq, hsteps.tail (.detached hn)⟩
    obtain ⟨q, hq, hsteps⟩ := H _ hs
    obtain ⟨o, rfl, rfl⟩ := settled_of_map hq.symm
    exact ⟨o, ⟨ds, hsteps, hd⟩, rfl⟩
  · rintro ⟨o, ⟨ds, hs, hd⟩, rfl⟩
    have H : ∀ c : Call σ ε α × σ, Call.Steps (⟨p, []⟩, s) c →
        Call.Steps (⟨p.map g, []⟩, s) (⟨c.1.main.map g, c.1.detached⟩, c.2) := by
      intro c hc
      induction hc with
      | refl => exact .refl
      | @tail b c _ hstep ih =>
        cases hstep with
        | main hn => exact ih.tail (.main (by rw [next_map, hn]; rfl))
        | detached hn => exact ih.tail (.detached hn)
    refine ⟨ds, ?_, hd⟩
    simpa [map_settled] using H _ hs

end Async
