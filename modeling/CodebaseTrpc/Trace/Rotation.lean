import CodebaseTrpc.Trace.Run
import Mathlib.Order.WithBot

/-! A credential that its issuer replaces each time it is presented. The holder has one, or is
about to receive it; the issuer accepts one, and may hand out a later one elsewhere. -/
namespace Rotation
variable {τ : Type} [LinearOrder τ]

/-- By the time of their issue. -/
@[ext] structure State (τ : Type) where
  held : WithBot τ
  current : WithBot τ

inductive Action (τ : Type) where
  | stay
  | rotate (next : τ)
  | displace (next : τ)
  | drop

inductive Step : State τ → Action τ → State τ → Prop
  | stay {s : State τ} : Step s .stay s
  /-- The holder presents the current credential and is given the next. -/
  | rotate {s : State τ} {next : τ} (hheld : s.held = s.current) (hlater : s.current ≤ next) :
      Step s (.rotate next) ⟨next, next⟩
  /-- The issuer hands out the next credential to someone else. -/
  | displace {s : State τ} {next : τ} (hlater : s.current ≤ next) :
      Step s (.displace next) { s with current := next }
  | drop {s : State τ} : Step s .drop { s with held := ⊥ }

abbrev Run (s₀ : State τ) (tr : List (Action τ)) (s : State τ) : Prop :=
  Trace.Run (fun _ s a t => Step s a t) s₀ tr s

/-- The holder's credential is none, or an earlier one. -/
def State.Behind (s : State τ) : Prop := s.held < s.current

/-- Nothing is ever held that the issuer has not issued. -/
def State.Issued (s : State τ) : Prop := s.held ≤ s.current

variable {s t s₀ : State τ} {a : Action τ} {tr : List (Action τ)}

theorem Step.issued (h : Step s a t) (hs : s.Issued) : t.Issued := by
  cases h with
  | stay => exact hs
  | rotate => exact le_refl _
  | displace hlater => exact le_trans hs hlater
  | drop => exact bot_le

/-- A holder that is behind presents nothing that is accepted, and stays behind. -/
theorem Step.behind (h : Step s a t) (hs : s.Behind) :
    t.Behind ∧ ∀ next, a ≠ .rotate next := by
  cases h with
  | stay => exact ⟨hs, nofun⟩
  | rotate hheld => exact absurd hheld (ne_of_lt hs)
  | displace hlater => exact ⟨lt_of_lt_of_le hs hlater, nofun⟩
  | drop => exact ⟨lt_of_le_of_lt bot_le hs, nofun⟩

/-- No credential is accepted once it has been left behind. -/
theorem Run.behind (h : Run s₀ tr s) (h₀ : s₀.Behind) :
    s.Behind ∧ ∀ next, .rotate next ∉ tr := by
  refine Trace.Run.invariant (I := fun tr s => s.Behind ∧ ∀ next, .rotate next ∉ tr) h
    ⟨h₀, fun _ => List.not_mem_nil⟩ ?_
  rintro tr s a t ⟨hbehind, hnone⟩ hs
  obtain ⟨ht, ha⟩ := hs.behind hbehind
  refine ⟨ht, fun next hmem => ?_⟩
  rcases List.mem_cons.mp hmem with heq | hmem
  · exact ha next heq.symm
  · exact hnone next hmem

/-- In every run the holder has the current credential, or is behind. -/
theorem Run.current_or_behind (h : Run s₀ tr s) (h₀ : s₀.Issued) :
    s.held = s.current ∨ s.Behind := by
  have hissued : s.Issued :=
    Trace.Run.invariant (I := fun _ s => s.Issued) h h₀ fun _ _ _ _ hi hs => hs.issued hi
  exact eq_or_lt_of_le hissued

/-- Where nothing is handed out elsewhere and nothing is dropped, the holder keeps up. -/
theorem Step.current (h : Step s a t) (hs : s.held = s.current)
    (hown : ∀ next, a = .displace next → s.current = next) (hkept : a ≠ .drop) :
    t.held = t.current := by
  cases h with
  | stay => exact hs
  | rotate => rfl
  | displace => exact hs.trans (hown _ rfl)
  | drop => exact absurd rfl hkept

/-- A credential is lost by dropping it only. -/
theorem Step.kept (h : Step s a t) (hs : s.held ≠ ⊥) (hkept : a ≠ .drop) : t.held ≠ ⊥ := by
  cases h with
  | stay => exact hs
  | rotate => exact WithBot.coe_ne_bot
  | displace => exact hs
  | drop => exact absurd rfl hkept

end Rotation
