import Mathlib.Logic.Relation

/-! Asynchronous programs over a shared store, as resumption trees. A program is
cut at the points where it touches the store, so that the same term can be run
alone, interleaved with others, or with failing statements. -/

/-- A program that acts on a store `σ`, may reject with an `ε` and otherwise returns an `α`. -/
inductive Async (σ ε : Type) : Type → Type 1 where
  | pure {α : Type} (a : α) : Async σ ε α
  | throw {α : Type} (e : ε) : Async σ ε α
  /-- An infallible local action: reading a clock, drawing a number, sending a message. -/
  | act {α : Type} (upd : σ → σ) (k : σ → Async σ ε α) : Async σ ε α
  /-- One statement of the store. `lost` is what the program does when it fails. -/
  | stmt {α : Type} (upd : σ → σ) (k : σ → Async σ ε α) (lost : Async σ ε α) : Async σ ε α
  /-- A block whose steps no other program can observe. -/
  | atomically {α β : Type} (body : Async σ ε β) (k : β → Async σ ε α)
      (rejected : ε → Async σ ε α) : Async σ ε α
  /-- Start `child` without awaiting it: its outcome does not reach the program. (A host may end on
  a rejection that nobody handles; that is outside the program.) -/
  | spawn {α β : Type} (child : Async σ ε β) (k : Async σ ε α) : Async σ ε α

namespace Async
variable {σ ε α β γ : Type}

/-- Sequencing: `await p` and go on with its value. -/
protected def bind : Async σ ε α → (α → Async σ ε β) → Async σ ε β
  | .pure a, f => f a
  | .throw e, _ => .throw e
  | .act upd k, f => .act upd fun s => (k s).bind f
  | .stmt upd k lost, f => .stmt upd (fun s => (k s).bind f) (lost.bind f)
  | .atomically body k h, f => .atomically body (fun b => (k b).bind f) fun e => (h e).bind f
  | .spawn child k, f => .spawn child (k.bind f)

/-- `try { p } catch (e) { f e }`; a failing statement is caught as well. -/
protected def tryCatch : Async σ ε α → (ε → Async σ ε α) → Async σ ε α
  | .pure a, _ => .pure a
  | .throw e, f => f e
  | .act upd k, f => .act upd fun s => (k s).tryCatch f
  | .stmt upd k lost, f => .stmt upd (fun s => (k s).tryCatch f) (lost.tryCatch f)
  | .atomically body k h, f =>
      .atomically body (fun b => (k b).tryCatch f) fun e => (h e).tryCatch f
  | .spawn child k, f => .spawn child (k.tryCatch f)

instance : Monad (Async σ ε) where
  pure := .pure
  bind := .bind

@[simp] theorem pure_eq (a : α) : (Pure.pure a : Async σ ε α) = .pure a := rfl
@[simp] theorem bind_eq (p : Async σ ε α) (f : α → Async σ ε β) : p >>= f = p.bind f := rfl

section Bind
variable (upd : σ → σ) (k : σ → Async σ ε α) (lost : Async σ ε α) (f : α → Async σ ε β)

@[simp] theorem bind_pure_left (a : α) : (Async.pure a : Async σ ε α).bind f = f a := rfl
@[simp] theorem bind_throw (e : ε) : (Async.throw e : Async σ ε α).bind f = .throw e := rfl
@[simp] theorem bind_act : (Async.act upd k).bind f = .act upd fun s => (k s).bind f := rfl
@[simp] theorem bind_stmt :
    (Async.stmt upd k lost).bind f = .stmt upd (fun s => (k s).bind f) (lost.bind f) := rfl
@[simp] theorem bind_atomically (body : Async σ ε γ) (k : γ → Async σ ε α)
    (h : ε → Async σ ε α) : (Async.atomically body k h).bind f =
      .atomically body (fun b => (k b).bind f) fun e => (h e).bind f := rfl
@[simp] theorem bind_spawn (child : Async σ ε γ) (k : Async σ ε α) :
    (Async.spawn child k).bind f = .spawn child (k.bind f) := rfl

end Bind

theorem bind_pure_right (p : Async σ ε α) : p.bind .pure = p := by
  induction p with
  | pure a => rfl
  | throw e => rfl
  | act upd k ih => exact congrArg _ (funext ih)
  | stmt upd k lost ih ihl => exact congrArg₂ _ (funext ih) ihl
  | atomically body k h _ ihk ihh => exact congrArg₂ _ (funext ihk) (funext ihh)
  | spawn child k _ ih => exact congrArg _ ih

theorem bind_assoc (p : Async σ ε α) (f : α → Async σ ε β) (g : β → Async σ ε γ) :
    (p.bind f).bind g = p.bind fun a => (f a).bind g := by
  induction p with
  | pure a => rfl
  | throw e => rfl
  | act upd k ih => exact congrArg _ (funext fun s => ih s f)
  | stmt upd k lost ih ihl => exact congrArg₂ _ (funext fun s => ih s f) (ihl f)
  | atomically body k h _ ihk ihh =>
    exact congrArg₂ _ (funext fun b => ihk b f) (funext fun e => ihh e f)
  | spawn child k _ ih => exact congrArg _ (ih f)

/-- Run alone, with no failing statement. A child that is not awaited runs to its end
before the program goes on: one schedule among those of `Async.Exec`. -/
def run : {α : Type} → Async σ ε α → σ → Except ε α × σ
  | _, .pure a, s => (.ok a, s)
  | _, .throw e, s => (.error e, s)
  | _, .act upd k, s => (k s).run (upd s)
  | _, .stmt upd k _, s => (k s).run (upd s)
  | _, .atomically body k h, s =>
      match body.run s with
      | (.ok b, s') => (k b).run s'
      | (.error e, s') => (h e).run s'
  | _, .spawn child k, s => k.run (child.run s).2

@[simp] theorem run_pure (a : α) (s : σ) : (Async.pure a : Async σ ε α).run s = (.ok a, s) := rfl
@[simp] theorem run_throw (e : ε) (s : σ) :
    (Async.throw e : Async σ ε α).run s = (.error e, s) := rfl
@[simp] theorem run_act (upd : σ → σ) (k : σ → Async σ ε α) (s : σ) :
    (Async.act upd k).run s = (k s).run (upd s) := rfl
@[simp] theorem run_stmt (upd : σ → σ) (k : σ → Async σ ε α) (lost : Async σ ε α) (s : σ) :
    (Async.stmt upd k lost).run s = (k s).run (upd s) := rfl

/-- A program runs its first half, and the second only if the first returned. -/
theorem run_bind (p : Async σ ε α) (f : α → Async σ ε β) (s : σ) :
    (p.bind f).run s = match p.run s with
      | (.ok a, s') => (f a).run s'
      | (.error e, s') => (.error e, s') := by
  induction p generalizing s with
  | pure a => rfl
  | throw e => rfl
  | act upd k ih => exact ih s f (upd s)
  | stmt upd k lost ih _ => exact ih s f (upd s)
  | atomically body k h _ ihk ihh =>
    simp only [Async.bind, run]
    split
    · exact ihk _ f _
    · exact ihh _ f _
  | spawn child k _ ih => exact ih f _

theorem run_bind_ok {p : Async σ ε α} {f : α → Async σ ε β} {s t : σ} {a : α}
    (h : p.run s = (.ok a, t)) : (p.bind f).run s = (f a).run t := by
  rw [run_bind, h]

theorem run_bind_error {p : Async σ ε α} {f : α → Async σ ε β} {s t : σ} {e : ε}
    (h : p.run s = (.error e, t)) : (p.bind f).run s = (.error e, t) := by
  rw [run_bind, h]

/-- What a run of a sequence was: the first part rejected, or both parts ran. -/
theorem run_bind_cases {p : Async σ ε α} {f : α → Async σ ε β} {s s' : σ} {r : Except ε β}
    (h : (p.bind f).run s = (r, s')) :
    (∃ e, p.run s = (.error e, s') ∧ r = .error e) ∨
      ∃ a t, p.run s = (.ok a, t) ∧ (f a).run t = (r, s') := by
  rw [run_bind] at h
  split at h
  next a t hp => exact .inr ⟨a, t, hp, h⟩
  next e t hp =>
    obtain ⟨rfl, rfl⟩ := Prod.mk.inj h
    exact .inl ⟨e, hp, rfl⟩

theorem run_tryCatch (p : Async σ ε α) (f : ε → Async σ ε α) (s : σ) :
    (p.tryCatch f).run s = match p.run s with
      | (.ok a, s') => (.ok a, s')
      | (.error e, s') => (f e).run s' := by
  induction p generalizing s with
  | pure a => rfl
  | throw e => rfl
  | act upd k ih => exact ih s f (upd s)
  | stmt upd k lost ih _ => exact ih s f (upd s)
  | atomically body k h _ ihk ihh =>
    simp only [Async.tryCatch, run]
    split
    · exact ihk _ f _
    · exact ihh _ f _
  | spawn child k _ ih => exact ih f _

/-- The program awaits everything it starts. -/
def Awaits : {α : Type} → Async σ ε α → Prop
  | _, .pure _ => True
  | _, .throw _ => True
  | _, .act _ k => ∀ s, (k s).Awaits
  | _, .stmt _ k lost => (∀ s, (k s).Awaits) ∧ lost.Awaits
  | _, .atomically _ k h => (∀ b, (k b).Awaits) ∧ ∀ e, (h e).Awaits
  | _, .spawn _ _ => False

theorem Awaits.bind {p : Async σ ε α} {f : α → Async σ ε β} (hp : p.Awaits)
    (hf : ∀ a, (f a).Awaits) : (p.bind f).Awaits := by
  induction p with
  | pure a => exact hf a
  | throw e => trivial
  | act upd k ih => exact fun s => ih s (hp s) hf
  | stmt upd k lost ih ihl => exact ⟨fun s => ih s (hp.1 s) hf, ihl hp.2 hf⟩
  | atomically body k h _ ihk ihh =>
    exact ⟨fun b => ihk b (hp.1 b) hf, fun e => ihh e (hp.2 e) hf⟩
  | spawn child k _ _ => exact hp.elim

theorem Awaits.tryCatch {p : Async σ ε α} {f : ε → Async σ ε α} (hp : p.Awaits)
    (hf : ∀ e, (f e).Awaits) : (p.tryCatch f).Awaits := by
  induction p with
  | pure a => trivial
  | throw e => exact hf e
  | act upd k ih => exact fun s => ih s (hp s) hf
  | stmt upd k lost ih ihl => exact ⟨fun s => ih s (hp.1 s) hf, ihl hp.2 hf⟩
  | atomically body k h _ ihk ihh =>
    exact ⟨fun b => ihk b (hp.1 b) hf, fun e => ihh e (hp.2 e) hf⟩
  | spawn child k _ _ => exact hp.elim

end Async
