import CodebaseTrpc.Async.Program

/-! Programs whose statements may fail. The outcomes of a program are those of every choice of
the statements that are lost; the program without losses has one of them. -/

namespace Async
variable {σ ε α β : Type}

/-- Run alone, with any of its statements lost, the program may settle with this outcome and
leave this store. A block that is rolled back is written as such in its own program. -/
def MayRun : {α : Type} → Async σ ε α → σ → Except ε α → σ → Prop
  | _, .pure a, s, r, s' => r = .ok a ∧ s' = s
  | _, .throw e, s, r, s' => r = .error e ∧ s' = s
  | _, .act upd k, s, r, s' => (k s).MayRun (upd s) r s'
  | _, .stmt upd k lost, s, r, s' => (k s).MayRun (upd s) r s' ∨ lost.MayRun s r s'
  | _, .atomically body k h, s, r, s' =>
      (∃ b t, body.MayRun s (.ok b) t ∧ (k b).MayRun t r s') ∨
        ∃ e t, body.MayRun s (.error e) t ∧ (h e).MayRun t r s'
  | _, .spawn child k, s, r, s' => ∃ o t, child.MayRun s o t ∧ k.MayRun t r s'

/-- Losing nothing is one of the choices. -/
theorem mayRun_run (p : Async σ ε α) (s : σ) : p.MayRun s (p.run s).1 (p.run s).2 := by
  induction p generalizing s with
  | pure a => exact ⟨rfl, rfl⟩
  | throw e => exact ⟨rfl, rfl⟩
  | act upd k ih => exact ih s (upd s)
  | stmt upd k lost ih _ => exact .inl (ih s (upd s))
  | atomically body k h ihb ihk ihh =>
    have hb := ihb s
    simp only [run]
    split
    next b t hr => exact .inl ⟨b, t, by simpa [hr] using hb, ihk b t⟩
    next e t hr => exact .inr ⟨e, t, by simpa [hr] using hb, ihh e t⟩
  | spawn child k ihc ihk => exact ⟨_, _, ihc s, ihk _⟩

theorem mayRun_of_run {p : Async σ ε α} {s s' : σ} {r : Except ε α} (h : p.run s = (r, s')) :
    p.MayRun s r s' := by
  simpa [h] using mayRun_run p s

/-- The second half of a sequence runs only where the first returned. -/
theorem MayRun.of_bind {p : Async σ ε α} {f : α → Async σ ε β} {s s' : σ} {r : Except ε β}
    (h : (p.bind f).MayRun s r s') : (∃ e, p.MayRun s (.error e) s' ∧ r = .error e) ∨
      ∃ a t, p.MayRun s (.ok a) t ∧ (f a).MayRun t r s' := by
  induction p generalizing s with
  | pure a => exact .inr ⟨a, s, ⟨rfl, rfl⟩, h⟩
  | throw e => exact .inl ⟨e, ⟨rfl, h.2⟩, h.1⟩
  | act upd k ih => exact ih s h
  | stmt upd k lost ih ihl =>
    rcases h with h | h
    · rcases ih s h with ⟨e, h, hr⟩ | ⟨a, t, h, hf⟩
      · exact .inl ⟨e, .inl h, hr⟩
      · exact .inr ⟨a, t, .inl h, hf⟩
    · rcases ihl h with ⟨e, h, hr⟩ | ⟨a, t, h, hf⟩
      · exact .inl ⟨e, .inr h, hr⟩
      · exact .inr ⟨a, t, .inr h, hf⟩
  | atomically body k g _ ihk ihh =>
    rcases h with ⟨b, u, hb, h⟩ | ⟨c, u, hb, h⟩
    · rcases ihk b h with ⟨e, h, hr⟩ | ⟨a, t, h, hf⟩
      · exact .inl ⟨e, .inl ⟨b, u, hb, h⟩, hr⟩
      · exact .inr ⟨a, t, .inl ⟨b, u, hb, h⟩, hf⟩
    · rcases ihh c h with ⟨e, h, hr⟩ | ⟨a, t, h, hf⟩
      · exact .inl ⟨e, .inr ⟨c, u, hb, h⟩, hr⟩
      · exact .inr ⟨a, t, .inr ⟨c, u, hb, h⟩, hf⟩
  | spawn child k _ ih =>
    obtain ⟨o, u, hc, h⟩ := h
    rcases ih h with ⟨e, h, hr⟩ | ⟨a, t, h, hf⟩
    · exact .inl ⟨e, ⟨o, u, hc, h⟩, hr⟩
    · exact .inr ⟨a, t, ⟨o, u, hc, h⟩, hf⟩

/-- What a `catch` sees: also the statements that were lost. -/
theorem MayRun.of_tryCatch {p : Async σ ε α} {f : ε → Async σ ε α} {s s' : σ} {r : Except ε α}
    (h : (p.tryCatch f).MayRun s r s') :
    (∃ a, p.MayRun s (.ok a) s' ∧ r = .ok a) ∨
      ∃ e t, p.MayRun s (.error e) t ∧ (f e).MayRun t r s' := by
  induction p generalizing s with
  | pure a => exact .inl ⟨a, ⟨rfl, h.2⟩, h.1⟩
  | throw e => exact .inr ⟨e, s, ⟨rfl, rfl⟩, h⟩
  | act upd k ih => exact ih s h
  | stmt upd k lost ih ihl =>
    rcases h with h | h
    · rcases ih s h with ⟨a, h, hr⟩ | ⟨e, t, h, hf⟩
      · exact .inl ⟨a, .inl h, hr⟩
      · exact .inr ⟨e, t, .inl h, hf⟩
    · rcases ihl h with ⟨a, h, hr⟩ | ⟨e, t, h, hf⟩
      · exact .inl ⟨a, .inr h, hr⟩
      · exact .inr ⟨e, t, .inr h, hf⟩
  | atomically body k g _ ihk ihh =>
    rcases h with ⟨b, u, hb, h⟩ | ⟨c, u, hb, h⟩
    · rcases ihk b h with ⟨a, h, hr⟩ | ⟨e, t, h, hf⟩
      · exact .inl ⟨a, .inl ⟨b, u, hb, h⟩, hr⟩
      · exact .inr ⟨e, t, .inl ⟨b, u, hb, h⟩, hf⟩
    · rcases ihh c h with ⟨a, h, hr⟩ | ⟨e, t, h, hf⟩
      · exact .inl ⟨a, .inr ⟨c, u, hb, h⟩, hr⟩
      · exact .inr ⟨e, t, .inr ⟨c, u, hb, h⟩, hf⟩
  | spawn child k _ ih =>
    obtain ⟨o, u, hc, h⟩ := h
    rcases ih h with ⟨a, h, hr⟩ | ⟨e, t, h, hf⟩
    · exact .inl ⟨a, ⟨o, u, hc, h⟩, hr⟩
    · exact .inr ⟨e, t, ⟨o, u, hc, h⟩, hf⟩

end Async
