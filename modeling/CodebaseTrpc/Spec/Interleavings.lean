import CodebaseTrpc.Async.Pool
import CodebaseTrpc.Spec.Calls

/-! Statements and transactions as the single steps other handlers can come between. -/
namespace CodebaseTrpc
variable {w : World}

/-- The surroundings between two steps. The clock never steps back. -/
inductive Ticks : World → World → Prop
  | tick {w : World} {env : Environment} (h : w.env.now ≤ env.now) : Ticks w { w with env }

theorem next_transaction {callback : Promise Unit} (w : World) :
    (transaction callback).next w = some (Async.settled ((transaction callback).run w).1, [],
      ((transaction callback).run w).2) := by
  simp only [transaction, Async.next, Async.run]
  split <;> simp_all [Async.settled]

theorem keeps_transaction {I : World → Prop} {callback : Promise Unit}
    (h : ∀ w, I w → I ((transaction callback).run w).2) : (transaction callback).Keeps I := by
  refine ⟨fun w hw => ?_, fun _ => trivial, fun _ => trivial⟩
  have hw' := h w hw
  simp only [transaction, Async.run] at hw' ⊢
  split at hw' <;> simp_all

theorem guarantees_select {α : Type} {R : World → World → Prop} (hrefl : ∀ v, R v v)
    (query : Db → α) : (select query : Promise α).Guarantees R :=
  fun v => ⟨hrefl v, trivial⟩

theorem guarantees_write {α : Type} {R : World → World → Prop}
    {statement : World → Db → Except Err (α × Db)} (h : ∀ v : World, R v (v.exec statement)) :
    (write .knex statement).Guarantees R := by
  intro v
  have hv := h v
  simp only [World.exec, World.view, World.put] at hv ⊢
  cases he : statement v v.db with
  | error e => simpa [he, Async.Guarantees] using hv
  | ok x => simpa [he, Async.Guarantees] using hv

end CodebaseTrpc
