import CodebaseTrpc.Spec.Frames

/-! Processed one after another, webhook events leave each user at most one billing row. -/
namespace CodebaseTrpc
variable {P : Packages} {w w' : World}

def UniqueOwners (billings : List Billing) : Prop := (billings.map Billing.userId).Nodup

theorem lookup_owner {billings : List Billing} {b : Billing} (h : UniqueOwners billings)
    (hb : b ∈ billings) : Rows.lookup Billing.userId b.userId billings = some b :=
  (Rows.lookup_eq_some h).mpr ⟨hb, rfl⟩

theorem UniqueOwners.update {billings : List Billing} {id : String} {f : Billing → Billing}
    (h : UniqueOwners billings) (hf : ∀ b, (f b).userId = b.userId) :
    UniqueOwners (Rows.update Billing.id id f billings) := by
  rw [UniqueOwners, Rows.map_update hf]
  exact h

theorem UniqueOwners.append {billings : List Billing} {row : Billing} (h : UniqueOwners billings)
    (hnew : ∀ b ∈ billings, b.userId ≠ row.userId) : UniqueOwners (billings ++ [row]) := by
  rw [UniqueOwners, List.map_append, List.nodup_append]
  refine ⟨h, by simp, fun a ha b hb => ?_⟩
  simp only [List.map_cons, List.map_nil, List.mem_singleton] at hb
  obtain ⟨x, hx, rfl⟩ := List.mem_map.mp ha
  rw [hb]
  exact hnew x hx

/-- A row is only added for a user who has none. -/
theorem UniqueOwners.writes {event : BillingEvent} {c : Change} {env : Environment} {db db' : Db}
    (h : UniqueOwners db.billings) (hplan : plan db event = some c) (hw : c.Writes env db db') :
    UniqueOwners db'.billings := by
  have hsound := (plan_sound hplan).2
  rw [hw.billings, Change.billings]
  cases hc : c.billing with
  | create input customer =>
    rw [hc] at hsound
    exact h.append hsound.2
  | rewrite b f => exact h.update (f.apply_userId _)

theorem UniqueOwners.billed {event : BillingEvent} {db : Db} (h : UniqueOwners w.db.billings)
    (hb : Billed w event db) : UniqueOwners db.billings := by
  obtain ⟨c, hplan, hw⟩ := hb.planned
  exact h.writes hplan hw

theorem UniqueOwners.effect {request : Request} {reply : Except Err Reply}
    (h : UniqueOwners w.db.billings) (heff : Effect P w request reply w') :
    UniqueOwners w'.db.billings := by
  by_cases hreq : ∀ event, request ≠ .webhook event
  · rw [heff.billings hreq]
    exact h
  · simp only [not_forall, not_not] at hreq
    obtain ⟨event, rfl⟩ := hreq
    cases heff with
    | none => exact h
    | webhook hb => exact h.billed hb

theorem RunWhere.uniqueOwners {C : List Entry → Exchange → Prop} {w₀ : World} {tr : List Entry}
    (h : RunWhere P C w₀ tr w) (h₀ : w₀.trx = none) (hu : UniqueOwners w₀.db.billings) :
    UniqueOwners w.db.billings := by
  refine (Trace.Run.invariant (I := fun _ w => w.trx = none ∧ UniqueOwners w.db.billings) h
    ⟨h₀, hu⟩ ?_).2
  rintro _ _ _ _ ⟨htrx, hu⟩ ⟨hle | hx, -⟩
  · exact ⟨htrx, hu⟩
  · have heff := effect_of_exec htrx hx
    exact ⟨heff.trx.trans htrx, hu.effect heff⟩

end CodebaseTrpc
