import CodebaseTrpc.Async.Losses

/-! How a program can end, whoever else writes to the store between its steps, and with any of
its statements lost. Nothing is asked of its own writes. -/
namespace Async
variable {σ ε α β : Type} {I : σ → Prop} {L : Prop}

/-- As long as the stores that it steps from and to are in `I`, the program ends, if it does, with
a value in `Q` or an error in `R`. `L` is whether it may lose statements. -/
def Yields (I : σ → Prop) (L : Prop) : {α : Type} → (α → Prop) → (ε → Prop) → Async σ ε α → Prop
  | _, Q, _, .pure a => Q a
  | _, _, R, .throw e => R e
  | _, Q, R, .act upd k => ∀ s, I s → I (upd s) → (k s).Yields I L Q R
  | _, Q, R, .stmt upd k lost =>
      (∀ s, I s → I (upd s) → (k s).Yields I L Q R) ∧ (L → lost.Yields I L Q R)
  | _, Q, R, .atomically _ k h => (∀ b, (k b).Yields I L Q R) ∧ ∀ e, (h e).Yields I L Q R
  | _, Q, R, .spawn _ k => k.Yields I L Q R

section Rules
variable {Q : α → Prop} {R : ε → Prop} {S : β → Prop} {p : Async σ ε α}

theorem yields_any (p : Async σ ε α) : p.Yields I L (fun _ => True) fun _ => True := by
  induction p with
  | pure a => trivial
  | throw e => trivial
  | act upd k ih => exact fun s _ _ => ih s
  | stmt upd k lost ih ihl => exact ⟨fun s _ _ => ih s, fun _ => ihl⟩
  | atomically body k h _ ihk ihh => exact ⟨ihk, ihh⟩
  | spawn child k _ ih => exact ih

theorem Yields.mono {Q' : α → Prop} {R' : ε → Prop} (h : p.Yields I L Q R)
    (hQ : ∀ a, Q a → Q' a) (hR : ∀ e, R e → R' e) : p.Yields I L Q' R' := by
  induction p with
  | pure a => exact hQ a h
  | throw e => exact hR e h
  | act upd k ih => exact fun s hs ht => ih s (h s hs ht) hQ
  | stmt upd k lost ih ihl =>
    exact ⟨fun s hs ht => ih s (h.1 s hs ht) hQ, fun hl => ihl (h.2 hl) hQ⟩
  | atomically body k g _ ihk ihg =>
    exact ⟨fun b => ihk b (h.1 b) hQ, fun e => ihg e (h.2 e) hQ⟩
  | spawn child k _ ih => exact ih h hQ

theorem Yields.bind {f : α → Async σ ε β} (hp : p.Yields I L Q R)
    (hf : ∀ a, Q a → (f a).Yields I L S R) : (p.bind f).Yields I L S R := by
  induction p with
  | pure a => exact hf a hp
  | throw e => exact hp
  | act upd k ih => exact fun s hs ht => ih s (hp s hs ht) hf
  | stmt upd k lost ih ihl =>
    exact ⟨fun s hs ht => ih s (hp.1 s hs ht) hf, fun hl => ihl (hp.2 hl) hf⟩
  | atomically body k h _ ihk ihh =>
    exact ⟨fun b => ihk b (hp.1 b) hf, fun e => ihh e (hp.2 e) hf⟩
  | spawn child k _ ih => exact ih hp hf

/-- The errors of the guarded part are those that the handler is given. -/
theorem Yields.tryCatch {R' : ε → Prop} {f : ε → Async σ ε α} (hp : p.Yields I L Q R)
    (hf : ∀ e, R e → (f e).Yields I L Q R') : (p.tryCatch f).Yields I L Q R' := by
  induction p with
  | pure a => exact hp
  | throw e => exact hf e hp
  | act upd k ih => exact fun s hs ht => ih s (hp s hs ht) hf
  | stmt upd k lost ih ihl =>
    exact ⟨fun s hs ht => ih s (hp.1 s hs ht) hf, fun hl => ihl (hp.2 hl) hf⟩
  | atomically body k h _ ihk ihh =>
    exact ⟨fun b => ihk b (hp.1 b) hf, fun e => ihh e (hp.2 e) hf⟩
  | spawn child k _ ih => exact ih hp hf

theorem Yields.next {p' : Async σ ε α} {born : List (Detached σ ε)} {s t : σ}
    (hp : p.Yields I L Q R) (h : p.next s = some (p', born, t)) (hs : I s) (ht : I t) :
    p'.Yields I L Q R := by
  cases p with
  | pure a => cases h
  | throw e => cases h
  | act upd k => cases h; exact hp s hs ht
  | stmt upd k lost => cases h; exact hp.1 s hs ht
  | atomically body k g =>
    simp only [Async.next] at h
    split at h
    next b u hr => cases h; exact hp.1 b
    next e u hr => cases h; exact hp.2 e
  | spawn child k => cases h; exact hp

theorem Yields.loses {p' : Async σ ε α} {s t : σ} (hp : p.Yields I L Q R) (h : p.Loses s p' t)
    (hl : L) : p'.Yields I L Q R := by
  cases h with
  | before => exact hp.2 hl
  | after => exact hp.2 hl
  | block _ => exact hp.1 _
  | rejected _ => exact hp.2 _

/-- The value of an execution, which loses nothing. -/
theorem Exec.yields {s s' : σ} {a : α} (h : Exec p s (.ok a) s')
    (hp : p.Yields (fun _ => True) False Q R) : Q a := by
  obtain ⟨ds, hsteps, -⟩ := h
  have H : ∀ c : Call σ ε α × σ, Call.Steps (⟨p, []⟩, s) c →
      c.1.main.Yields (fun _ => True) False Q R := by
    intro c hc
    induction hc with
    | refl => exact hp
    | tail _ hstep ih =>
      cases hstep with
      | main hn => exact Yields.next ih hn trivial trivial
      | detached _ => exact ih
  exact H _ hsteps

end Rules

/-- Another call's step leaves an entry of the pool, its own step replaces it. -/
theorem getElem?_replace {γ : Type*} {pre post : List γ} {c c' d : γ} {i : ℕ}
    (h : (pre ++ c :: post)[i]? = some d) :
    (i = pre.length ∧ d = c ∧ (pre ++ c' :: post)[i]? = some c') ∨
      (pre ++ c' :: post)[i]? = some d := by
  rcases Nat.lt_trichotomy i pre.length with hlt | rfl | hgt
  · rw [List.getElem?_append_left hlt] at h ⊢
    exact .inr h
  · simp only [List.getElem?_append_right (Nat.le_refl _), Nat.sub_self, List.getElem?_cons_zero,
      Option.some.injEq] at h ⊢
    exact .inl ⟨trivial, h.symm, trivial⟩
  · obtain ⟨k, hk⟩ : ∃ k, i - pre.length = k + 1 := ⟨i - pre.length - 1, by omega⟩
    rw [List.getElem?_append_right (Nat.le_of_lt hgt), hk, List.getElem?_cons_succ] at h ⊢
    exact .inr h

section Pool
variable {Q : α → Prop} {R : ε → Prop} {Admit : Async σ ε α → Prop} {Tick : σ → σ → Prop}
  {x y : Pool σ ε α} {i : ℕ} {c : Call σ ε α}

theorem Pool.Step.yields (h : Pool.Step Admit Tick x y) (hs : I x.2) (ht : I y.2)
    (hi : x.1[i]? = some c) (hp : c.main.Yields I L Q R) :
    ∃ c', y.1[i]? = some c' ∧ c'.main.Yields I L Q R := by
  cases h with
  | @call pre post d d' s t hd =>
    rcases getElem?_replace hi with ⟨-, rfl, hd'⟩ | hother
    · refine ⟨d', hd', ?_⟩
      cases hd with
      | main hn => exact Yields.next hp hn hs ht
      | detached _ => exact hp
    · exact ⟨c, hother, hp⟩
  | @arrive cs p s _ =>
    refine ⟨c, ?_, hp⟩
    rw [List.getElem?_append_left (List.getElem?_eq_some_iff.mp hi).1]
    exact hi
  | tick _ => exact ⟨c, hi, hp⟩

/-- In an interleaving whose stores are all in `I`, a call ends as its program can, whatever the
other calls are and whatever statements are lost. -/
theorem Pool.MaySteps.yields {Lost : ℕ → Prop} (h : Pool.MaySteps Admit Tick Lost x y)
    (hI : ∀ z, Pool.MaySteps Admit Tick Lost x z → Pool.MaySteps Admit Tick Lost z y → I z.2)
    (hi : x.1[i]? = some c) (hp : c.main.Yields I (Lost i) Q R) :
    ∃ c', y.1[i]? = some c' ∧ c'.main.Yields I (Lost i) Q R := by
  induction h with
  | refl => exact ⟨c, hi, hp⟩
  | tail hsteps hstep ih =>
    obtain ⟨c', hc', hyields⟩ := ih fun z hxz hzy => hI z hxz (hzy.tail hstep)
    have hs := hI _ hsteps (.single hstep)
    have ht := hI _ (hsteps.tail hstep) .refl
    cases hstep with
    | step h => exact h.yields hs ht hc' hyields
    | @lost pre post d d' s t hl hd =>
      rcases getElem?_replace hc' with ⟨hat, rfl, hd'⟩ | hother
      · refine ⟨d', hd', ?_⟩
        cases hd with
        | main hn => exact Yields.loses hyields hn (hat ▸ hl)
        | detached _ => exact hyields
      · exact ⟨c', hother, hyields⟩

end Pool

end Async
