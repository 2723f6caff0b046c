import CodebaseTrpc.Async.Faults
import CodebaseTrpc.Async.Pool

/-! Interleavings in which statements are lost: the connection fails before a statement takes
effect, or after it and before the program is told. -/
namespace Async
variable {σ ε α β : Type}

/-- A step of a program in which a statement is lost. -/
inductive Loses : {α : Type} → Async σ ε α → σ → Async σ ε α → σ → Prop
  | before {α : Type} {upd : σ → σ} {k : σ → Async σ ε α} {lost : Async σ ε α} {s : σ} :
      Loses (.stmt upd k lost) s lost s
  | after {α : Type} {upd : σ → σ} {k : σ → Async σ ε α} {lost : Async σ ε α} {s : σ} :
      Loses (.stmt upd k lost) s lost (upd s)
  | block {α β : Type} {body : Async σ ε β} {k : β → Async σ ε α} {h : ε → Async σ ε α}
      {s t : σ} {b : β} (hb : body.MayRun s (.ok b) t) : Loses (.atomically body k h) s (k b) t
  | rejected {α β : Type} {body : Async σ ε β} {k : β → Async σ ε α} {h : ε → Async σ ε α}
      {s t : σ} {e : ε} (hb : body.MayRun s (.error e) t) :
      Loses (.atomically body k h) s (h e) t

inductive Call.Loses : Call σ ε α × σ → Call σ ε α × σ → Prop
  | main {p p' : Async σ ε α} {ds : List (Detached σ ε)} {s t : σ} (h : p.Loses s p' t) :
      Loses (⟨p, ds⟩, s) (⟨p', ds⟩, t)
  | detached {p : Async σ ε α} {pre post : List (Detached σ ε)} {β : Type} {d d' : Async σ ε β}
      {s t : σ} (h : d.Loses s d' t) :
      Loses (⟨p, pre ++ ⟨β, d⟩ :: post⟩, s) (⟨p, pre ++ ⟨β, d'⟩ :: post⟩, t)

section Step
variable (Admit : Async σ ε α → Prop) (Tick : σ → σ → Prop) (Lost : ℕ → Prop)

/-- `Lost` are the positions of the calls that may lose statements. -/
inductive Pool.MayStep : Pool σ ε α → Pool σ ε α → Prop
  | step {x y : Pool σ ε α} (h : Pool.Step Admit Tick x y) : MayStep x y
  | lost {pre post : List (Call σ ε α)} {c c' : Call σ ε α} {s t : σ} (hl : Lost pre.length)
      (h : Call.Loses (c, s) (c', t)) : MayStep (pre ++ c :: post, s) (pre ++ c' :: post, t)

abbrev Pool.MaySteps : Pool σ ε α → Pool σ ε α → Prop :=
  Relation.ReflTransGen (Pool.MayStep Admit Tick Lost)

end Step

end Async
