import CodebaseTrpc.Async.Schedule

/-! Proof rules for interleavings: what every single step keeps holds throughout, whatever
the schedule; a child whose parent only reads runs as if alone. -/

namespace Async
variable {σ ε α β : Type}

section Replace
variable {γ : Type*} {Q : γ → Prop} {pre post : List γ} {c c' d : γ}

theorem mem_middle : d ∈ pre ++ c :: post ↔ d = c ∨ d ∈ pre ++ post :=
  List.perm_middle.mem_iff.trans List.mem_cons

theorem forall_middle (h : ∀ d ∈ pre ++ post, Q d) (hc : Q c) : ∀ d ∈ pre ++ c :: post, Q d := by
  intro d hd
  rcases mem_middle.mp hd with rfl | hd
  · exact hc
  · exact h d hd

theorem forall_replace (h : ∀ d ∈ pre ++ c :: post, Q d) (hc : Q c') :
    ∀ d ∈ pre ++ c' :: post, Q d :=
  forall_middle (fun d hd => h d (mem_middle.mpr (.inr hd))) hc

end Replace

/-- Every step of the program, and of the children it starts, keeps `I`. -/
def Keeps (I : σ → Prop) : {α : Type} → Async σ ε α → Prop
  | _, .pure _ => True
  | _, .throw _ => True
  | _, .act upd k => ∀ s, I s → I (upd s) ∧ (k s).Keeps I
  | _, .stmt upd k _ => ∀ s, I s → I (upd s) ∧ (k s).Keeps I
  | _, .atomically body k h =>
      (∀ s, I s → I (body.run s).2) ∧ (∀ b, (k b).Keeps I) ∧ ∀ e, (h e).Keeps I
  | _, .spawn child k => child.Keeps I ∧ k.Keeps I

@[simp] theorem keeps_pure (I : σ → Prop) (a : α) : (Async.pure a : Async σ ε α).Keeps I := trivial
@[simp] theorem keeps_throw (I : σ → Prop) (e : ε) : (Async.throw e : Async σ ε α).Keeps I :=
  trivial

theorem Keeps.bind {I : σ → Prop} {p : Async σ ε α} {f : α → Async σ ε β} (hp : p.Keeps I)
    (hf : ∀ a, (f a).Keeps I) : (p.bind f).Keeps I := by
  induction p with
  | pure a => exact hf a
  | throw e => trivial
  | act upd k ih => exact fun s hs => ⟨(hp s hs).1, ih s (hp s hs).2 hf⟩
  | stmt upd k lost ih _ => exact fun s hs => ⟨(hp s hs).1, ih s (hp s hs).2 hf⟩
  | atomically body k h _ ihk ihh =>
    exact ⟨hp.1, fun b => ihk b (hp.2.1 b) hf, fun e => ihh e (hp.2.2 e) hf⟩
  | spawn child k _ ih => exact ⟨hp.1, ih hp.2 hf⟩

theorem Keeps.tryCatch {I : σ → Prop} {p : Async σ ε α} {f : ε → Async σ ε α} (hp : p.Keeps I)
    (hf : ∀ e, (f e).Keeps I) : (p.tryCatch f).Keeps I := by
  induction p with
  | pure a => trivial
  | throw e => exact hf e
  | act upd k ih => exact fun s hs => ⟨(hp s hs).1, ih s (hp s hs).2 hf⟩
  | stmt upd k lost ih _ => exact fun s hs => ⟨(hp s hs).1, ih s (hp s hs).2 hf⟩
  | atomically body k h _ ihk ihh =>
    exact ⟨hp.1, fun b => ihk b (hp.2.1 b) hf, fun e => ihh e (hp.2.2 e) hf⟩
  | spawn child k _ ih => exact ⟨hp.1, ih hp.2 hf⟩

theorem Keeps.next {I : σ → Prop} {p p' : Async σ ε α} {born : List (Detached σ ε)} {s t : σ}
    (hp : p.Keeps I) (h : p.next s = some (p', born, t)) (hs : I s) :
    I t ∧ p'.Keeps I ∧ ∀ d ∈ born, d.2.Keeps I := by
  cases p with
  | pure a => cases h
  | throw e => cases h
  | act upd k => cases h; exact ⟨(hp s hs).1, (hp s hs).2, by simp⟩
  | stmt upd k lost => cases h; exact ⟨(hp s hs).1, (hp s hs).2, by simp⟩
  | atomically body k g =>
    have hb := hp.1 s hs
    simp only [Async.next] at h
    split at h
    next b u hr => cases h; exact ⟨by simpa [hr] using hb, hp.2.1 b, by simp⟩
    next e u hr => cases h; exact ⟨by simpa [hr] using hb, hp.2.2 e, by simp⟩
  | spawn child k => cases h; exact ⟨hs, hp.2, by simpa using hp.1⟩

/-- A step of one detached program, among others that keep `I`. -/
theorem Keeps.next_detached {I : σ → Prop} {pre post born : List (Detached σ ε)}
    {d d' : Async σ ε β} {s t : σ} (h : ∀ e ∈ pre ++ ⟨β, d⟩ :: post, e.2.Keeps I)
    (hn : d.next s = some (d', born, t)) (hs : I s) :
    I t ∧ ∀ e ∈ pre ++ ⟨β, d'⟩ :: (post ++ born), e.2.Keeps I := by
  obtain ⟨ht, hd', hborn⟩ := Keeps.next (h ⟨β, d⟩ (by simp)) hn hs
  have hrest : ∀ e ∈ pre ++ ⟨β, d'⟩ :: post, e.2.Keeps I := forall_replace h hd'
  refine ⟨ht, fun e he => ?_⟩
  rw [← List.cons_append, ← List.append_assoc] at he
  rcases List.mem_append.mp he with he | he
  · exact hrest e he
  · exact hborn e he

/-- Every program of the call keeps `I`. -/
def Call.Keeps (I : σ → Prop) (c : Call σ ε α) : Prop :=
  c.main.Keeps I ∧ ∀ d ∈ c.detached, d.2.Keeps I

theorem Call.Keeps.step {I : σ → Prop} {c c' : Call σ ε α} {s t : σ} (hc : c.Keeps I)
    (h : Call.Step (c, s) (c', t)) (hs : I s) : I t ∧ c'.Keeps I := by
  cases h with
  | main hn =>
    obtain ⟨ht, hp, hb⟩ := hc.1.next hn hs
    refine ⟨ht, hp, fun d hd => ?_⟩
    rcases List.mem_append.mp hd with hd | hd
    · exact hc.2 d hd
    · exact hb d hd
  | detached hn =>
    obtain ⟨ht, hd⟩ := Keeps.next_detached hc.2 hn hs
    exact ⟨ht, hc.1, hd⟩

/-- An invariant of every step is an invariant of every execution. -/
theorem Exec.keeps {I : σ → Prop} {p : Async σ ε α} {s s' : σ} {r : Except ε α}
    (h : Exec p s r s') (hp : p.Keeps I) (hs : I s) : I s' := by
  obtain ⟨ds, hsteps, -⟩ := h
  suffices H : ∀ c : Call σ ε α × σ, Call.Steps (⟨p, []⟩, s) c → I c.2 ∧ c.1.Keeps I from
    (H _ hsteps).1
  intro c hc
  induction hc with
  | refl => exact ⟨hs, hp, by simp⟩
  | tail _ hstep ih => exact ih.2.step hstep ih.1

/-- Where `I` holds the program changes nothing, and it settles with an outcome in `Q`. -/
def Reads (I : σ → Prop) : {α : Type} → (Except ε α → Prop) → Async σ ε α → Prop
  | _, Q, .pure a => Q (.ok a)
  | _, Q, .throw e => Q (.error e)
  | _, Q, .act upd k => ∀ s, I s → upd s = s ∧ (k s).Reads I Q
  | _, Q, .stmt upd k _ => ∀ s, I s → upd s = s ∧ (k s).Reads I Q
  | _, _, .atomically _ _ _ => False
  | _, _, .spawn _ _ => False

theorem Reads.settled {I : σ → Prop} {Q : Except ε α → Prop} {r : Except ε α}
    (h : (settled r : Async σ ε α).Reads I Q) : Q r := by
  cases r <;> exact h

theorem Reads.next {I : σ → Prop} {Q : Except ε α → Prop} {p p' : Async σ ε α}
    {born : List (Detached σ ε)} {s t : σ} (hp : p.Reads I Q)
    (h : p.next s = some (p', born, t)) (hs : I s) : t = s ∧ born = [] ∧ p'.Reads I Q := by
  cases p with
  | pure a => cases h
  | throw e => cases h
  | act upd k => cases h; exact ⟨(hp s hs).1, rfl, (hp s hs).2⟩
  | stmt upd k lost => cases h; exact ⟨(hp s hs).1, rfl, (hp s hs).2⟩
  | atomically body k g => exact hp.elim
  | spawn child k => exact hp.elim

/-- From stores in `I` every step keeps `I`, and the program settles with an outcome in `Q`. -/
def Settles (I : σ → Prop) : {α : Type} → (Except ε α → Prop) → Async σ ε α → Prop
  | _, Q, .pure a => Q (.ok a)
  | _, Q, .throw e => Q (.error e)
  | _, Q, .act upd k => ∀ s, I s → I (upd s) ∧ (k s).Settles I Q
  | _, Q, .stmt upd k _ => ∀ s, I s → I (upd s) ∧ (k s).Settles I Q
  | _, _, .atomically _ _ _ => False
  | _, Q, .spawn child k => child.Keeps I ∧ k.Settles I Q

theorem Settles.settled {I : σ → Prop} {Q : Except ε α → Prop} {r : Except ε α}
    (h : (settled r : Async σ ε α).Settles I Q) : Q r := by
  cases r <;> exact h

theorem Settles.keeps {I : σ → Prop} {Q : Except ε α → Prop} {p : Async σ ε α}
    (h : p.Settles I Q) : p.Keeps I := by
  induction p with
  | pure a => trivial
  | throw e => trivial
  | act upd k ih => exact fun s hs => ⟨(h s hs).1, ih s (h s hs).2⟩
  | stmt upd k lost ih _ => exact fun s hs => ⟨(h s hs).1, ih s (h s hs).2⟩
  | atomically body k g => exact h.elim
  | spawn child k _ ih => exact ⟨h.1, ih h.2⟩

/-- The rule of sequence: what a first part returns is known to the second. -/
theorem Settles.bind {I : σ → Prop} {Q : Except ε α → Prop} {R : Except ε β → Prop}
    {p : Async σ ε α} {f : α → Async σ ε β} (hp : p.Settles I Q)
    (herr : ∀ e, Q (.error e) → R (.error e)) (hf : ∀ a, Q (.ok a) → (f a).Settles I R) :
    (p.bind f).Settles I R := by
  induction p with
  | pure a => exact hf a hp
  | throw e => exact herr e hp
  | act upd k ih => exact fun s hs => ⟨(hp s hs).1, ih s (hp s hs).2 herr hf⟩
  | stmt upd k lost ih _ => exact fun s hs => ⟨(hp s hs).1, ih s (hp s hs).2 herr hf⟩
  | atomically body k h _ _ _ => exact hp.elim
  | spawn child k _ ih => exact ⟨hp.1, ih hp.2 herr hf⟩

theorem Settles.tryCatch {I : σ → Prop} {Q R : Except ε α → Prop} {p : Async σ ε α}
    {f : ε → Async σ ε α} (hp : p.Settles I Q) (hok : ∀ a, Q (.ok a) → R (.ok a))
    (hf : ∀ e, Q (.error e) → (f e).Settles I R) : (p.tryCatch f).Settles I R := by
  induction p with
  | pure a => exact hok a hp
  | throw e => exact hf e hp
  | act upd k ih => exact fun s hs => ⟨(hp s hs).1, ih s (hp s hs).2 hok hf⟩
  | stmt upd k lost ih _ => exact fun s hs => ⟨(hp s hs).1, ih s (hp s hs).2 hok hf⟩
  | atomically body k h _ _ _ => exact hp.elim
  | spawn child k _ ih => exact ⟨hp.1, ih hp.2 hok hf⟩

/-- A second part that keeps `I` for the values that the first one can return. -/
theorem Settles.bind_keeps {I : σ → Prop} {Q : Except ε α → Prop} {p : Async σ ε α}
    {f : α → Async σ ε β} (hp : p.Settles I Q) (hf : ∀ a, Q (.ok a) → (f a).Keeps I) :
    (p.bind f).Keeps I := by
  induction p with
  | pure a => exact hf a hp
  | throw e => trivial
  | act upd k ih => exact fun s hs => ⟨(hp s hs).1, ih s (hp s hs).2 hf⟩
  | stmt upd k lost ih _ => exact fun s hs => ⟨(hp s hs).1, ih s (hp s hs).2 hf⟩
  | atomically body k h _ _ _ => exact hp.elim
  | spawn child k _ ih => exact ⟨hp.1, ih hp.2 hf⟩

theorem Settles.next {I : σ → Prop} {Q : Except ε α → Prop} {p p' : Async σ ε α}
    {born : List (Detached σ ε)} {s t : σ} (hp : p.Settles I Q)
    (h : p.next s = some (p', born, t)) (hs : I s) : p'.Settles I Q := by
  cases p with
  | pure a => cases h
  | throw e => cases h
  | act upd k => cases h; exact (hp s hs).2
  | stmt upd k lost => cases h; exact (hp s hs).2
  | atomically body k g => exact hp.elim
  | spawn child k => cases h; exact hp.2

/-- Under every schedule the program settles as it does on its own. -/
theorem Exec.settles {I : σ → Prop} {Q : Except ε α → Prop} {p : Async σ ε α} {s s' : σ}
    {r : Except ε α} (h : Exec p s r s') (hp : p.Settles I Q) (hs : I s) : I s' ∧ Q r := by
  obtain ⟨ds, hsteps, -⟩ := h
  have H : ∀ c : Call σ ε α × σ, Call.Steps (⟨p, []⟩, s) c →
      I c.2 ∧ c.1.Keeps I ∧ c.1.main.Settles I Q := by
    intro c hc
    induction hc with
    | refl => exact ⟨hs, ⟨hp.keeps, by simp⟩, hp⟩
    | @tail b c _ hstep ih =>
      obtain ⟨hb, hkeeps, hsettles⟩ := ih
      obtain ⟨hc, hkeeps'⟩ := hkeeps.step hstep hb
      refine ⟨hc, hkeeps', ?_⟩
      cases hstep with
      | main hn => exact hsettles.next hn hb
      | detached _ => exact hsettles
  obtain ⟨hs', -, hq⟩ := H _ hsteps
  exact ⟨hs', hq.settled⟩

/-- From either store the program settles the same way, and changes neither. -/
def ReadsAlike (s₁ s₂ : σ) (p : Async σ ε α) : Prop :=
  ∃ r, p.run s₁ = (r, s₁) ∧ p.run s₂ = (r, s₂)

section ReadsAlike
variable {s₁ s₂ : σ} {p : Async σ ε α}

theorem readsAlike_pure (a : α) : (Async.pure a : Async σ ε α).ReadsAlike s₁ s₂ :=
  ⟨.ok a, rfl, rfl⟩

theorem readsAlike_throw (e : ε) : (Async.throw e : Async σ ε α).ReadsAlike s₁ s₂ :=
  ⟨.error e, rfl, rfl⟩

theorem ReadsAlike.bind {f : α → Async σ ε β} (hp : p.ReadsAlike s₁ s₂)
    (hf : ∀ a, (f a).ReadsAlike s₁ s₂) : (p.bind f).ReadsAlike s₁ s₂ := by
  obtain ⟨r, h₁, h₂⟩ := hp
  cases r with
  | error e => exact ⟨.error e, run_bind_error h₁, run_bind_error h₂⟩
  | ok a =>
    obtain ⟨r, hr₁, hr₂⟩ := hf a
    exact ⟨r, (run_bind_ok h₁).trans hr₁, (run_bind_ok h₂).trans hr₂⟩

end ReadsAlike

theorem Awaits.next {p p' : Async σ ε α} {born : List (Detached σ ε)} {s t : σ}
    (hp : p.Awaits) (h : p.next s = some (p', born, t)) :
    born = [] ∧ p'.Awaits ∧ p'.run t = p.run s := by
  cases p with
  | pure a => cases h
  | throw e => cases h
  | act upd k => cases h; exact ⟨rfl, hp s, rfl⟩
  | stmt upd k lost => cases h; exact ⟨rfl, hp.1 s, rfl⟩
  | atomically body k g =>
    simp only [Async.next] at h
    split at h
    next b u hr => cases h; exact ⟨rfl, hp.1 b, by simp [run, hr]⟩
    next e u hr => cases h; exact ⟨rfl, hp.2 e, by simp [run, hr]⟩
  | spawn child k => exact hp.elim

/-- A child that is settled from the start changes nothing. -/
theorem exec_spawn_settled {child : Async σ ε β} {k : Async σ ε α} {s s' : σ} {r : Except ε α}
    (hc : child.Settled) (hk : k.Awaits) (h : Exec (.spawn child k) s r s') :
    k.run s = (r, s') := by
  obtain ⟨ds, hsteps, -⟩ := h
  have H : ∀ c : Call σ ε α × σ, Call.Steps (⟨.spawn child k, []⟩, s) c →
      c = (⟨.spawn child k, []⟩, s) ∨
        (c.1.main.Awaits ∧ c.1.main.run c.2 = k.run s ∧ ∀ d ∈ c.1.detached, d.2.Settled) := by
    intro c hc'
    induction hc' with
    | refl => exact .inl rfl
    | @tail b c _ hstep ih =>
      right
      rcases ih with rfl | ⟨hm, hrun, hd⟩
      · generalize hb : (⟨.spawn child k, []⟩ : Call σ ε α) = c₀ at hstep
        cases hstep with
        | main hn =>
          obtain ⟨rfl, rfl⟩ := Call.mk.inj hb
          cases hn
          exact ⟨hk, rfl, by simpa using hc⟩
        | detached hn => simp at hb
      · cases hstep with
        | main hn =>
          obtain ⟨rfl, hm', hrun'⟩ := hm.next hn
          exact ⟨hm', hrun'.trans hrun, by simpa using hd⟩
        | @detached p pre post born β d d' u _ hn =>
          have hset : d.Settled := hd ⟨β, d⟩ (by simp)
          rw [hset.next u] at hn
          cases hn
  rcases H _ hsteps with heq | ⟨-, hrun, -⟩
  · simp only [Prod.mk.injEq, Call.mk.injEq] at heq
    cases r <;> cases heq.1.1
  · rw [← hrun]
    cases r <;> rfl

/-- A parent that goes on without awaiting its child, and from there only reads: under every
schedule the store ends as the child alone leaves it, and the parent's outcome is in `Q`. -/
theorem exec_spawn_reads {I : σ → Prop} {Q : Except ε α → Prop} {child : Async σ ε β}
    {k : Async σ ε α} {s s' : σ} {r : Except ε α} (hc : child.Awaits) (hk : child.Keeps I)
    (hr : k.Reads I Q) (hs : I s) (h : Exec (.spawn child k) s r s') :
    Q r ∧ s' = (child.run s).2 := by
  obtain ⟨ds, hsteps, hdone⟩ := h
  -- before the first step nothing is detached; after it the child is, and stays the only one
  have H : ∀ c : Call σ ε α × σ, Call.Steps (⟨.spawn child k, []⟩, s) c →
      c = (⟨.spawn child k, []⟩, s) ∨ ∃ (m : Async σ ε α) (d : Async σ ε β) (t : σ),
        c = (⟨m, [⟨β, d⟩]⟩, t) ∧ m.Reads I Q ∧ d.Awaits ∧ d.Keeps I ∧ I t ∧
          d.run t = child.run s := by
    intro c hc'
    induction hc' with
    | refl => exact .inl rfl
    | @tail b c _ hstep ih =>
      right
      rcases ih with rfl | ⟨m, d, t, rfl, hm, hd, hdk, ht, hrun⟩
      · generalize hb : (⟨.spawn child k, []⟩ : Call σ ε α) = c₀ at hstep
        cases hstep with
        | main hn =>
          obtain ⟨rfl, rfl⟩ := Call.mk.inj hb
          cases hn
          exact ⟨k, child, s, by simp, hr, hc, hk, hs, rfl⟩
        | detached hn => simp at hb
      · generalize hb : (⟨m, [⟨β, d⟩]⟩ : Call σ ε α) = c₀ at hstep
        cases hstep with
        | main hn =>
          obtain ⟨rfl, rfl⟩ := Call.mk.inj hb
          obtain ⟨rfl, rfl, hm'⟩ := hm.next hn ht
          exact ⟨_, d, _, by simp, hm', hd, hdk, ht, hrun⟩
        | @detached p pre post born γ e e' _ u hn =>
          simp only [Call.mk.injEq] at hb
          obtain ⟨rfl, hlist⟩ := hb
          obtain ⟨rfl, hlist⟩ : pre = [] ∧ [⟨β, d⟩] = ⟨γ, e⟩ :: post := by
            cases pre with
            | nil => exact ⟨rfl, hlist⟩
            | cons x xs => simp at hlist
          obtain ⟨hsig, rfl⟩ := List.cons.inj hlist
          cases hsig
          obtain ⟨rfl, he', hrun'⟩ := hd.next hn
          obtain ⟨hu, hek, -⟩ := hdk.next hn ht
          exact ⟨m, e', u, by simp, hm, he', hek, hu, hrun'.trans hrun⟩
  rcases H _ hsteps with heq | ⟨m, d, t, heq, hm, -, -, -, hrun⟩
  · simp only [Prod.mk.injEq, Call.mk.injEq] at heq
    cases r <;> cases heq.1.1
  · simp only [Prod.mk.injEq, Call.mk.injEq] at heq
    obtain ⟨⟨rfl, rfl⟩, rfl⟩ := heq
    obtain ⟨o, ho⟩ : d.Settled := hdone ⟨β, d⟩ (by simp)
    refine ⟨hm.settled, ?_⟩
    rw [← hrun, ho]
    cases o <;> rfl

/-- Every step of the program, and of the children it starts, relates the stores by `R`. -/
def Guarantees (R : σ → σ → Prop) : {α : Type} → Async σ ε α → Prop
  | _, .pure _ => True
  | _, .throw _ => True
  | _, .act upd k => ∀ s, R s (upd s) ∧ (k s).Guarantees R
  | _, .stmt upd k _ => ∀ s, R s (upd s) ∧ (k s).Guarantees R
  | _, .atomically body k h =>
      (∀ s, R s (body.run s).2) ∧ (∀ b, (k b).Guarantees R) ∧ ∀ e, (h e).Guarantees R
  | _, .spawn child k => (∀ s, R s s) ∧ child.Guarantees R ∧ k.Guarantees R

theorem Guarantees.bind {R : σ → σ → Prop} {p : Async σ ε α} {f : α → Async σ ε β}
    (hp : p.Guarantees R) (hf : ∀ a, (f a).Guarantees R) : (p.bind f).Guarantees R := by
  induction p with
  | pure a => exact hf a
  | throw e => trivial
  | act upd k ih => exact fun s => ⟨(hp s).1, ih s (hp s).2 hf⟩
  | stmt upd k lost ih _ => exact fun s => ⟨(hp s).1, ih s (hp s).2 hf⟩
  | atomically body k h _ ihk ihh =>
    exact ⟨hp.1, fun b => ihk b (hp.2.1 b) hf, fun e => ihh e (hp.2.2 e) hf⟩
  | spawn child k _ ih => exact ⟨hp.1, hp.2.1, ih hp.2.2 hf⟩

theorem Guarantees.next {R : σ → σ → Prop} {p p' : Async σ ε α} {born : List (Detached σ ε)}
    {s t : σ} (hp : p.Guarantees R) (h : p.next s = some (p', born, t)) :
    R s t ∧ p'.Guarantees R ∧ ∀ d ∈ born, d.2.Guarantees R := by
  cases p with
  | pure a => cases h
  | throw e => cases h
  | act upd k => cases h; exact ⟨(hp s).1, (hp s).2, by simp⟩
  | stmt upd k lost => cases h; exact ⟨(hp s).1, (hp s).2, by simp⟩
  | atomically body k g =>
    have hb := hp.1 s
    simp only [Async.next] at h
    split at h
    next b u hr => cases h; exact ⟨by simpa [hr] using hb, hp.2.1 b, by simp⟩
    next e u hr => cases h; exact ⟨by simpa [hr] using hb, hp.2.2 e, by simp⟩
  | spawn child k => cases h; exact ⟨hp.1 s, hp.2.2, by simpa using hp.2.1⟩

/-- The program has a step left, starts no child, and its last step establishes `J`. -/
def Ends (J : σ → Prop) : {α : Type} → Async σ ε α → Prop
  | _, .pure _ => False
  | _, .throw _ => False
  | _, .act upd k => ∀ s, (k s).Ends J ∨ (k s).Settled ∧ J (upd s)
  | _, .stmt upd k _ => ∀ s, (k s).Ends J ∨ (k s).Settled ∧ J (upd s)
  | _, .atomically body k h =>
      (∀ s b t, body.run s = (.ok b, t) → (k b).Ends J ∨ (k b).Settled ∧ J t) ∧
        ∀ s e t, body.run s = (.error e, t) → (h e).Ends J ∨ (h e).Settled ∧ J t
  | _, .spawn _ _ => False

theorem Ends.next {J : σ → Prop} {p p' : Async σ ε α} {born : List (Detached σ ε)} {s t : σ}
    (hp : p.Ends J) (h : p.next s = some (p', born, t)) :
    born = [] ∧ (p'.Ends J ∨ p'.Settled ∧ J t) := by
  cases p with
  | pure a => exact hp.elim
  | throw e => exact hp.elim
  | act upd k => cases h; exact ⟨rfl, hp s⟩
  | stmt upd k lost => cases h; exact ⟨rfl, hp s⟩
  | atomically body k g =>
    simp only [Async.next] at h
    split at h
    next b u hr => cases h; exact ⟨rfl, hp.1 _ _ _ hr⟩
    next e u hr => cases h; exact ⟨rfl, hp.2 _ _ _ hr⟩
  | spawn child k => exact hp.elim

theorem Ends.not_settled {J : σ → Prop} {p : Async σ ε α} (hp : p.Ends J) : ¬ p.Settled := by
  rintro ⟨r, rfl⟩
  cases r <;> exact hp

end Async
