import CodebaseTrpc.Invariants.Billings
import CodebaseTrpc.Spec.Plan

/-! What a webhook event leaves alone, and two events in either order. -/
namespace CodebaseTrpc
variable {P : Packages} {w w' : World} {db db' : Db} {event e₁ e₂ : BillingEvent}

/-- At most one billing row for each user, and for each subscription. -/
structure OneRowEach (db : Db) : Prop where
  owners : UniqueOwners db.billings
  subscriptions : (db.billings.map Billing.externalSubscriptionId).Nodup

/-- A user row after an event of the user `userId`. -/
structure UserFramed (userId : String) (u u' : User) : Prop where
  columns : u' = { u with currentProductId := u'.currentProductId, updatedAt := u'.updatedAt }
  others : u.id ≠ userId → u' = u

/-- A billing row after an event of the user `userId`. -/
structure BillingFramed (userId : String) (b b' : Billing) : Prop where
  id : b'.id = b.id
  owner : b'.userId = b.userId
  others : b.userId ≠ userId → b' = b

/-- The event wrote to the row of one user and to that user's one billing row, or created it. -/
structure Framed (userId : String) (db db' : Db) : Prop where
  products : db'.products = db.products
  users : List.Forall₂ (UserFramed userId) db.users db'.users
  billings : (∃ row, db'.billings = db.billings ++ [row] ∧ row.userId = userId ∧
      ∀ b ∈ db.billings, b.userId ≠ userId) ∨
    List.Forall₂ (BillingFramed userId) db.billings db'.billings
  one : (db'.billings.filter fun b => b.userId = userId).length ≤ 1

theorem Change.users_framed (c : Change) (env : Environment) (users : List User) :
    List.Forall₂ (UserFramed c.userId) users (c.users env users) := by
  have hrefl : ∀ u, UserFramed c.userId u u := fun u => ⟨rfl, fun _ => rfl⟩
  unfold Change.users
  split
  · exact Rows.forall₂_refl hrefl _
  · exact Rows.forall₂_update hrefl fun u _ hid => ⟨rfl, fun hne => absurd hid hne⟩

theorem Change.billings_framed {c : Change} (hs : c.billing.Sound db event c.userId)
    (env : Environment) : (∃ row, c.billings env db.billings = db.billings ++ [row] ∧
        row.userId = c.userId ∧ ∀ b ∈ db.billings, b.userId ≠ c.userId) ∨
      List.Forall₂ (BillingFramed c.userId) db.billings (c.billings env db.billings) := by
  unfold Change.billings
  cases hb : c.billing with
  | create input customer =>
    rw [hb] at hs
    exact .inl ⟨_, rfl, rfl, hs.2⟩
  | rewrite b f =>
    rw [hb] at hs
    obtain ⟨hmem, huser, -⟩ := hs
    refine .inr (Rows.forall₂_update (fun _ => ⟨rfl, rfl, fun _ => rfl⟩) fun x hx hid => ?_)
    rw [Db.billing_eq hx hmem hid]
    exact ⟨f.apply_id _ _, f.apply_userId _ _, fun hne => absurd huser hne⟩

theorem UniqueOwners.length_le {billings : List Billing} (h : UniqueOwners billings)
    (userId : String) : (billings.filter fun b => b.userId = userId).length ≤ 1 := by
  have hnodup : ((billings.filter fun b => b.userId = userId).map Billing.userId).Nodup :=
    h.sublist (List.filter_sublist.map _)
  have hall : (billings.filter fun b => b.userId = userId).map Billing.userId =
      List.replicate (billings.filter fun b => b.userId = userId).length userId := by
    refine List.eq_replicate_iff.mpr ⟨by simp, fun x hx => ?_⟩
    obtain ⟨b, hb, rfl⟩ := List.mem_map.mp hx
    simpa using (List.mem_filter.mp hb).2
  rw [hall] at hnodup
  exact List.nodup_replicate.mp hnodup

theorem framed_of_effect {reply : Except Err Reply} (h : OneRowEach w.db)
    (heff : Effect P w (.webhook event) reply w') :
    w'.db = w.db ∨ ∃ userId, event.resolves w.db = some userId ∧ Framed userId w.db w'.db := by
  cases heff with
  | none => exact .inl rfl
  | webhook hb =>
    obtain ⟨c, hplan, hw⟩ := hb.planned
    obtain ⟨hres, hs⟩ := plan_sound hplan
    exact .inr ⟨c.userId, hres, hw.products, hw.users ▸ c.users_framed _ _,
      hw.billings ▸ Change.billings_framed hs _, (h.owners.billed hb).length_le _⟩

/-- The events resolve to different users and carry different subscriptions, and neither's
subscription is on file for the other's user. -/
structure Unrelated (db : Db) (e₁ e₂ : BillingEvent) : Prop where
  users : ∀ u ∈ e₁.resolves db, u ∉ e₂.resolves db
  subscriptions : ∀ s ∈ subscriptionOf e₁, s ∉ subscriptionOf e₂
  left : ∀ s ∈ subscriptionOf e₁, ∀ u ∈ e₂.resolves db, ∀ b ∈ db.billings,
    b.userId = u → b.externalSubscriptionId ≠ s
  right : ∀ s ∈ subscriptionOf e₂, ∀ u ∈ e₁.resolves db, ∀ b ∈ db.billings,
    b.userId = u → b.externalSubscriptionId ≠ s

theorem Unrelated.symm (h : Unrelated db e₁ e₂) : Unrelated db e₂ e₁ :=
  ⟨fun u hu h₁ => h.users u h₁ hu, fun s hs h₁ => h.subscriptions s h₁ hs, h.right, h.left⟩

/-- The tables follow the plan of an event. -/
def Follows (o : Option Change) (env : Environment) (db db' : Db) : Prop :=
  match o with
  | none => db' = db
  | some c => c.Writes env db db'

section Lookups
variable {c : Change} {env : Environment}

/-- A lookup of billings that finds no row of the change, before or after. -/
theorem Change.lookup_billings {col : Billing → String} {v : String}
    (hs : c.billing.Sound db event c.userId)
    (hcol : ∀ x, x.userId = c.userId → (∃ y ∈ db.billings, y.userId = c.userId ∧
      x.externalSubscriptionId = y.externalSubscriptionId) ∨
        subscriptionOf event = some x.externalSubscriptionId → col x ≠ v) :
    Rows.lookup col v (c.billings env db.billings) = Rows.lookup col v db.billings := by
  unfold Change.billings
  cases hb : c.billing with
  | create input customer =>
    rw [hb] at hs
    exact Rows.lookup_append_of_ne (hcol _ rfl (.inr hs.1))
  | rewrite b f =>
    rw [hb] at hs
    obtain ⟨hmem, huser, hsub⟩ := hs
    refine Rows.lookup_update_of_ne fun x hx hid => ?_
    obtain rfl := Db.billing_eq hx hmem hid
    refine ⟨hcol _ huser (.inl ⟨x, hx, huser, rfl⟩), hcol _ ((f.apply_userId _ _).trans huser) ?_⟩
    exact (hsub env.now x).imp_left fun h => ⟨x, hx, huser, h⟩

/-- The row of another user is found as it was. -/
theorem Change.lookup_users {col : User → String} {v : String}
    (hcol : ∀ p u, col ((setProduct p).apply env.now u) = col u)
    (hne : ∀ u, Rows.lookup col v db.users = some u → u.id ≠ c.userId) :
    Rows.lookup col v (c.users env db.users) = Rows.lookup col v db.users := by
  unfold Change.users
  split
  · rfl
  · rw [Rows.lookup_update (hcol _)]
    cases hl : Rows.lookup col v db.users with
    | none => rfl
    | some u => simp [hne u hl]

end Lookups

section Undisturbed
variable {c : Change} {env : Environment}

theorem Change.Writes.lookup_subscription (hw : c.Writes env db db') (hplan : plan db e₁ = some c)
    (h : Unrelated db e₁ e₂) {s : String} (hs : subscriptionOf e₂ = some s) :
    Rows.lookup Billing.externalSubscriptionId s db'.billings =
      Rows.lookup Billing.externalSubscriptionId s db.billings := by
  obtain ⟨hres, hsound⟩ := plan_sound hplan
  rw [hw.billings]
  refine Change.lookup_billings hsound fun x _ hx => ?_
  rcases hx with ⟨y, hy, huser, heq⟩ | hx
  · rw [heq]
    exact h.right s hs c.userId hres y hy huser
  · rintro rfl
    exact h.subscriptions _ hx hs

theorem Change.Writes.onFile_eq (hw : c.Writes env db db') (hplan : plan db e₁ = some c)
    (h : Unrelated db e₁ e₂) {s : String} (hs : subscriptionOf e₂ = some s) (f : Rewrite)
    (product : Billing → Option String) : onFile db' s f product = onFile db s f product := by
  rw [onFile, onFile, hw.lookup_subscription hplan h hs]

theorem Change.Writes.paidChange_eq (hw : c.Writes env db db') (hplan : plan db e₁ = some c)
    {user : User} (hne : user.id ≠ c.userId) (input : UpdateUserBillingInput) (customer : String) :
    paidChange db' input user customer = paidChange db input user customer := by
  obtain ⟨-, hsound⟩ := plan_sound hplan
  have hl : Rows.lookup Billing.userId user.id db'.billings =
      Rows.lookup Billing.userId user.id db.billings := by
    rw [hw.billings]
    exact Change.lookup_billings hsound fun x hx _ heq => hne (heq.symm.trans hx)
  rw [paidChange, paidChange, hl]

theorem Change.Writes.freeTier_eq (hw : c.Writes env db db') : db'.freeTier = db.freeTier := by
  rw [Db.freeTier, Db.freeTier, hw.products]

/-- What an event writes does not depend on an event apart from it. -/
theorem Change.Writes.plan_eq (hw : c.Writes env db db') (hplan : plan db e₁ = some c)
    (h : Unrelated db e₁ e₂) : plan db' e₂ = plan db e₂ := by
  obtain ⟨hres, hsound⟩ := plan_sound hplan
  cases e₂ with
  | invoicePaid invoice =>
    simp only [plan, paidInput_congr hw.products]
    split
    next input hinput =>
      have hne : ∀ u, Rows.lookup User.email input.userEmail db.users = some u →
          u.id ≠ c.userId := by
        rintro u hu heq
        refine h.users c.userId hres ?_
        simp [BillingEvent.resolves, ← (paidInput_some hinput).1, hu, heq]
      rw [hw.users, Change.lookup_users (fun _ _ => rfl) hne]
      cases hu : Rows.lookup User.email input.userEmail db.users with
      | none => rfl
      | some user =>
        simp only [Option.bind_some]
        exact congrArg (input.fittingCustomer.map ·)
          (funext fun customer => hw.paidChange_eq hplan (hne user hu) input customer)
    next => rfl
  | invoicePaymentFailed invoice =>
    simp only [plan]
    cases hs : failedSubscription invoice with
    | none => rfl
    | some s => exact hw.onFile_eq hplan h hs _ _
  | subscriptionUpdated sub =>
    simp only [plan, updateInput_congr hw.products, hw.freeTier_eq]
    refine congrArg _ (funext fun input => ?_)
    rw [hw.onFile_eq hplan h rfl]
  | subscriptionDeleted sub =>
    simp only [plan, hw.freeTier_eq]
    exact congrArg _ (funext fun free => hw.onFile_eq hplan h rfl _ _)
  | other type => rfl

theorem Follows.plan_eq (hf : Follows (plan db e₁) env db db') (h : Unrelated db e₁ e₂) :
    plan db' e₂ = plan db e₂ := by
  cases hplan : plan db e₁ with
  | none =>
    rw [hplan] at hf
    rw [hf]
  | some c =>
    have hw : c.Writes env db db' := by simpa only [Follows, hplan] using hf
    exact hw.plan_eq hplan h

end Undisturbed

/-- The value is the same, or is what was generated while handling one event, on either side. -/
def Generated {α : Type} (draw : Environment → α) (H : List (Environment × Environment))
    (x x' : α) : Prop := x = x' ∨ ∃ p ∈ H, x = draw p.1 ∧ x' = draw p.2

/-- The rows differ in their times of writing at most. -/
structure SameUser (H : List (Environment × Environment)) (u u' : User) : Prop where
  columns : u' = { u with updatedAt := u'.updatedAt }
  updatedAt : Generated Environment.now H u.updatedAt u'.updatedAt

/-- The rows differ in generated ids and times at most. -/
structure SameBilling (H : List (Environment × Environment)) (b b' : Billing) : Prop where
  columns : b' = { b with
    id := b'.id, expiresAt := b'.expiresAt, createdAt := b'.createdAt, updatedAt := b'.updatedAt }
  id : Generated Environment.uuid H b.id b'.id
  expiresAt : Generated Environment.now H b.expiresAt b'.expiresAt
  createdAt : Generated Environment.now H b.createdAt b'.createdAt
  updatedAt : Generated Environment.now H b.updatedAt b'.updatedAt

/-- Billing tables are compared as sets of rows. -/
def SameBillings (H : List (Environment × Environment)) (bs bs' : List Billing) : Prop :=
  ∃ m, List.Forall₂ (SameBilling H) bs m ∧ m.Perm bs'

/-- The users and billings agree; `H` lists the surroundings in which each event was handled, on
the one side and on the other. -/
structure SameTables (H : List (Environment × Environment)) (db db' : Db) : Prop where
  users : List.Forall₂ (SameUser H) db.users db'.users
  billings : SameBillings H db.billings db'.billings

section Same
variable {H : List (Environment × Environment)} {env env' : Environment}

theorem Generated.refl {α : Type} (draw : Environment → α) (x : α) : Generated draw H x x :=
  .inl rfl

theorem Generated.drawn {α : Type} (draw : Environment → α) (h : (env, env') ∈ H) :
    Generated draw H (draw env) (draw env') := .inr ⟨_, h, rfl, rfl⟩

theorem SameBilling.refl (b : Billing) : SameBilling H b b :=
  ⟨rfl, .refl .., .refl .., .refl .., .refl ..⟩

theorem sameUser_setProduct {u u' : User} (h : SameUser H u u') (hH : (env, env') ∈ H)
    (product : String) :
    SameUser H ((setProduct product).apply env.now u) ((setProduct product).apply env'.now u') where
  columns := by
    rw [h.columns]
    rfl
  updatedAt := .drawn _ hH

theorem Rewrite.same {b b' : Billing} (h : SameBilling H b b') (hH : (env, env') ∈ H)
    (f : Rewrite) : SameBilling H (f.apply env.now b) (f.apply env'.now b') where
  columns := by
    rw [h.columns]
    cases f <;> rfl
  id := by simpa using h.id
  expiresAt := by
    cases f with
    | paid input c => exact .refl ..
    | failed => exact h.expiresAt
    | updated input => exact .refl ..
    | deleted => exact .drawn _ hH
  createdAt := by cases f <;> exact h.createdAt
  updatedAt := by cases f <;> exact .drawn _ hH

theorem Change.same_users (c : Change) {us us' : List User} (h : List.Forall₂ (SameUser H) us us')
    (hH : (env, env') ∈ H) : List.Forall₂ (SameUser H) (c.users env us) (c.users env' us') := by
  unfold Change.users
  split
  · exact h
  · refine Rows.forall₂_update_update h (fun x y hxy => ?_) fun x y hxy =>
      sameUser_setProduct hxy hH _
    rw [hxy.columns]

/-- An id that was not generated is the id of the same rows. -/
theorem SameBilling.id_iff {b b' : Billing} {id : String} (h : SameBilling H b b')
    (hid : ∀ p ∈ H, id ≠ p.1.uuid ∧ id ≠ p.2.uuid) : b.id = id ↔ b'.id = id := by
  rcases h.id with h | ⟨p, hp, h, h'⟩
  · rw [h]
  · exact ⟨fun heq => absurd (heq.symm.trans h) (hid p hp).1,
      fun heq => absurd (heq.symm.trans h') (hid p hp).2⟩

/-- The row that a change rewrites has an id from before. -/
def Change.Settled (H : List (Environment × Environment)) (c : Change) : Prop :=
  ∀ b f, c.billing = .rewrite b f → ∀ p ∈ H, b.id ≠ p.1.uuid ∧ b.id ≠ p.2.uuid

theorem Change.same_billings {c : Change} {bs bs' : List Billing} (h : SameBillings H bs bs')
    (hH : (env, env') ∈ H) (hc : c.Settled H) :
    SameBillings H (c.billings env bs) (c.billings env' bs') := by
  obtain ⟨m, hm, hperm⟩ := h
  unfold Change.billings
  cases hb : c.billing with
  | create input customer =>
    refine ⟨m ++ [newBilling input customer c.userId env'], ?_, hperm.append_right _⟩
    exact List.rel_append hm (.cons ⟨rfl, .drawn _ hH, .refl .., .drawn _ hH, .drawn _ hH⟩ .nil)
  | rewrite b f =>
    refine ⟨Rows.update Billing.id b.id (f.apply env'.now) m, ?_, hperm.map _⟩
    exact Rows.forall₂_update_update hm (fun x y hxy => hxy.id_iff (hc b f hb)) fun x y hxy =>
      f.same hxy hH

end Same

section Order
variable {c₁ c₂ : Change} {env₁ env₂ : Environment}

theorem Change.users_comm (hne : c₁.userId ≠ c₂.userId) (users : List User) :
    c₂.users env₂ (c₁.users env₁ users) = c₁.users env₁ (c₂.users env₂ users) := by
  unfold Change.users
  cases c₁.product with
  | none => cases c₂.product <;> rfl
  | some p₁ =>
    cases c₂.product with
    | none => rfl
    | some p₂ => exact Rows.update_comm hne (UserUpdates.apply_id _ _) (UserUpdates.apply_id _ _)

/-- The changes write to different rows that were there before. -/
structure Disjoint (H : List (Environment × Environment)) (c₁ c₂ : Change) : Prop where
  users : c₁.userId ≠ c₂.userId
  billings : ∀ b₁ f₁ b₂ f₂, c₁.billing = .rewrite b₁ f₁ → c₂.billing = .rewrite b₂ f₂ →
    b₁.id ≠ b₂.id
  left : c₁.Settled H
  right : c₂.Settled H

theorem Disjoint.billings_comm {H : List (Environment × Environment)} {p₁ p₂ : Environment}
    (h : Disjoint H c₁ c₂) (h₁ : (p₁, env₁) ∈ H) (h₂ : (p₂, env₂) ∈ H) (billings : List Billing) :
    (c₂.billings env₂ (c₁.billings env₁ billings)).Perm
      (c₁.billings env₁ (c₂.billings env₂ billings)) := by
  unfold Change.billings
  cases hb₁ : c₁.billing with
  | create input₁ customer₁ =>
    cases hb₂ : c₂.billing with
    | create input₂ customer₂ =>
      simp only [List.append_assoc]
      exact (List.Perm.swap _ _ _).append_left _
    | rewrite b₂ f₂ =>
      have hne : env₁.uuid ≠ b₂.id := fun heq => (h.right b₂ f₂ hb₂ _ h₁).2 heq.symm
      dsimp only
      rw [Rows.update_append_of_ne (y := newBilling input₁ customer₁ c₁.userId env₁) hne]
  | rewrite b₁ f₁ =>
    cases hb₂ : c₂.billing with
    | create input₂ customer₂ =>
      have hne : env₂.uuid ≠ b₁.id := fun heq => (h.left b₁ f₁ hb₁ _ h₂).2 heq.symm
      dsimp only
      rw [Rows.update_append_of_ne (y := newBilling input₂ customer₂ c₂.userId env₂) hne]
    | rewrite b₂ f₂ =>
      dsimp only
      rw [Rows.update_comm (h.billings b₁ f₁ b₂ f₂ hb₁ hb₂) (f₁.apply_id _) (f₂.apply_id _)]

end Order

section Commute
variable {H : List (Environment × Environment)} {a b c d : Environment} {c₁ c₂ : Change}
  {x x' y y' : Db}

theorem SameTables.refl (db : Db) : SameTables H db db :=
  ⟨Rows.forall₂_refl (fun _ => ⟨rfl, .refl ..⟩) _, _, Rows.forall₂_refl SameBilling.refl _, .refl _⟩

/-- One change, made in other surroundings. -/
theorem Change.Writes.same {change : Change} (h : change.Writes a db x) (h' : change.Writes b db y)
    (hH : (a, b) ∈ H) (hs : change.Settled H) : SameTables H x y := by
  obtain ⟨husers, hbillings⟩ := SameTables.refl (H := H) db
  constructor
  · rw [h.users, h'.users]
    exact change.same_users husers hH
  · rw [h.billings, h'.billings]
    exact Change.same_billings hbillings hH hs

/-- Two disjoint changes, in either order. -/
theorem Disjoint.commute (h : Disjoint [(a, d), (b, c)] c₁ c₂) (h₁ : c₁.Writes a db x)
    (h₂ : c₂.Writes b x x') (k₂ : c₂.Writes c db y) (k₁ : c₁.Writes d y y') :
    SameTables [(a, d), (b, c)] x' y' := by
  have had : (a, d) ∈ [(a, d), (b, c)] := by simp
  have hbc : (b, c) ∈ [(a, d), (b, c)] := by simp
  obtain ⟨husers, hbillings⟩ := SameTables.refl (H := [(a, d), (b, c)]) db
  constructor
  · rw [h₂.users, h₁.users, k₁.users, k₂.users, ← Change.users_comm h.users]
    exact c₂.same_users (c₁.same_users husers had) hbc
  · obtain ⟨m, hm, hperm⟩ := Change.same_billings (Change.same_billings hbillings had h.left) hbc
      h.right
    rw [h₂.billings, h₁.billings, k₁.billings, k₂.billings]
    exact ⟨m, hm, hperm.trans (h.billings_comm had hbc _)⟩

/-- The billing rows keep their ids. -/
theorem Follows.keeps {o : Option Change} (h : Follows o a db db') {row : Billing}
    (hrow : row ∈ db.billings) : ∃ row' ∈ db'.billings, row'.id = row.id := by
  cases o with
  | none => exact ⟨row, (show db' = db from h) ▸ hrow, rfl⟩
  | some change =>
    have hbillings : db'.billings = change.billings a db.billings := h.billings
    rw [hbillings, Change.billings]
    cases change.billing with
    | create input customer => exact ⟨row, List.mem_append_left _ hrow, rfl⟩
    | rewrite b f =>
      refine ⟨_, Rows.mem_update_of_mem hrow, ?_⟩
      split_ifs <;> simp

theorem settled_of_plan (hplan : plan db event = some c₁)
    (hnew : ∀ p ∈ H, ∀ row ∈ db.billings, row.id ≠ p.1.uuid ∧ row.id ≠ p.2.uuid) :
    c₁.Settled H := by
  intro row f hrow p hp
  have hsound := (plan_sound hplan).2
  rw [hrow] at hsound
  exact hnew p hp row hsound.1

theorem disjoint_of_plan (h : Unrelated db e₁ e₂) (h₁ : plan db e₁ = some c₁)
    (h₂ : plan db e₂ = some c₂)
    (hnew : ∀ p ∈ H, ∀ row ∈ db.billings, row.id ≠ p.1.uuid ∧ row.id ≠ p.2.uuid) :
    Disjoint H c₁ c₂ := by
  obtain ⟨hres₁, hsound₁⟩ := plan_sound h₁
  obtain ⟨hres₂, hsound₂⟩ := plan_sound h₂
  have hne : c₁.userId ≠ c₂.userId := fun heq => h.users _ hres₁ (heq ▸ hres₂)
  refine ⟨hne, fun b₁ f₁ b₂ f₂ hb₁ hb₂ hid => ?_, settled_of_plan h₁ hnew, settled_of_plan h₂ hnew⟩
  rw [hb₁] at hsound₁
  rw [hb₂] at hsound₂
  obtain rfl := Db.billing_eq hsound₁.1 hsound₂.1 hid
  exact hne (hsound₁.2.1.symm.trans hsound₂.2.1)

/-- The event is handled in the given surroundings, where the next generated id is new. -/
structure Handled (P : Packages) (w : World) (event : BillingEvent) (env : Environment)
    (w' : World) : Prop where
  fresh : ∀ row ∈ w.db.billings, row.id ≠ env.uuid
  exec : ∃ reply, (handle P (.webhook event)).Exec { w with env } reply w'

theorem Handled.follows {env : Environment} (h : Handled P w event env w') (htrx : w.trx = none) :
    w'.trx = none ∧ Follows (plan w.db event) env w.db w'.db := by
  obtain ⟨reply, hx⟩ := h.exec
  exact exec_webhook_planned (w := { w with env }) htrx h.fresh hx

/-- Events apart from one another leave the same tables in either order. -/
theorem handled_commute {v v' x x' : World} (htrx : w.trx = none) (h : Unrelated w.db e₁ e₂)
    (h₁ : Handled P w e₁ a v) (h₂ : Handled P v e₂ b v') (k₂ : Handled P w e₂ c x)
    (k₁ : Handled P x e₁ d x') : SameTables [(a, d), (b, c)] v'.db x'.db := by
  obtain ⟨hv, hf₁⟩ := h₁.follows htrx
  obtain ⟨-, hf₂⟩ := h₂.follows hv
  obtain ⟨hx, kf₂⟩ := k₂.follows htrx
  obtain ⟨-, kf₁⟩ := k₁.follows hx
  have hnew : ∀ p ∈ [(a, d), (b, c)], ∀ row ∈ w.db.billings,
      row.id ≠ p.1.uuid ∧ row.id ≠ p.2.uuid := by
    have hlater : ∀ {o : Option Change} {env env' : Environment} {u : World},
        Follows o env w.db u.db → (∀ row ∈ u.db.billings, row.id ≠ env'.uuid) →
        ∀ row ∈ w.db.billings, row.id ≠ env'.uuid := by
      intro o env env' u hf hfresh row hrow
      obtain ⟨row', hrow', hid⟩ := hf.keeps hrow
      exact hid ▸ hfresh row' hrow'
    simp only [List.mem_cons, List.not_mem_nil, or_false, forall_eq_or_imp, forall_eq]
    exact ⟨fun row hrow => ⟨h₁.fresh row hrow, hlater kf₂ k₁.fresh row hrow⟩,
      fun row hrow => ⟨hlater hf₁ h₂.fresh row hrow, k₂.fresh row hrow⟩⟩
  rw [hf₁.plan_eq h] at hf₂
  rw [kf₂.plan_eq h.symm] at kf₁
  cases hp₁ : plan w.db e₁ with
  | none =>
    simp only [hp₁, Follows] at hf₁ kf₁
    rw [kf₁]
    cases hp₂ : plan w.db e₂ with
    | none =>
      simp only [hp₂, Follows] at hf₂ kf₂
      rw [hf₂, hf₁, kf₂]
      exact .refl _
    | some c₂ =>
      simp only [hp₂, Follows, hf₁] at hf₂ kf₂
      exact hf₂.same kf₂ (by simp) (settled_of_plan hp₂ hnew)
  | some c₁ =>
    simp only [hp₁, Follows] at hf₁ kf₁
    cases hp₂ : plan w.db e₂ with
    | none =>
      simp only [hp₂, Follows] at hf₂ kf₂
      rw [kf₂] at kf₁
      rw [hf₂]
      exact hf₁.same kf₁ (by simp) (settled_of_plan hp₁ hnew)
    | some c₂ =>
      simp only [hp₂, Follows] at hf₂ kf₂
      exact (disjoint_of_plan h hp₁ hp₂ hnew).commute hf₁ hf₂ kf₂ kf₁

end Commute

/-- Where each user and each subscription has one billing row at most, an event writes to the rows
of the user it resolves to, and events apart from one another can be handled in either order. -/
theorem webhooks_frame_and_commute (h : OneRowEach w.db) (htrx : w.trx = none) :
    (∀ event reply w', (handle P (.webhook event)).Exec w reply w' →
      w'.db = w.db ∨ ∃ userId, event.resolves w.db = some userId ∧ Framed userId w.db w'.db) ∧
    ∀ e₁ e₂, Unrelated w.db e₁ e₂ → ∀ {a b c d : Environment} {v v' x x' : World},
      Handled P w e₁ a v → Handled P v e₂ b v' → Handled P w e₂ c x → Handled P x e₁ d x' →
      SameTables [(a, d), (b, c)] v'.db x'.db :=
  ⟨fun _ _ _ hx => framed_of_effect h (effect_of_exec htrx hx),
    fun _ _ hapart _ _ _ _ _ _ _ _ h₁ h₂ k₂ k₁ => handled_commute htrx hapart h₁ h₂ k₂ k₁⟩

namespace Sample

/-- Ann's subscription is deleted, and Bob pays for the first time. -/
def annLeaves : BillingEvent := .subscriptionDeleted (subscription "canceled")

def bobPays : BillingEvent := .invoicePaid { paidInvoice with
  customerEmail := some "bob@mail"
  customer := some "cus_2"
  parentSubscription := some (.id "sub_2") }

/-- Surroundings that differ from step to step. -/
def secondsLater (seconds : ℕ) (uuid : String) : Environment :=
  { envAfter seconds with uuid }

def handled (w : World) (event : BillingEvent) (env : Environment) : World :=
  ((handle packages (.webhook event)).run { w with env }).2

theorem handled_handled {w : World} {event : BillingEvent} {env : Environment}
    (h : ∀ row ∈ w.db.billings, row.id ≠ env.uuid) :
    Handled packages w event env (handled w event env) :=
  ⟨h, _, Async.exec_run ..⟩

def annFirst : World := handled crowded annLeaves (secondsLater 1 "b1")
def bobFirst : World := handled crowded bobPays (secondsLater 2 "b3")

set_option maxRecDepth 10000 in
theorem apart_facts :
    ((crowded.db.billings.map Billing.userId).Nodup ∧
      (crowded.db.billings.map Billing.externalSubscriptionId).Nodup) ∧
    ((∀ u ∈ annLeaves.resolves crowded.db, u ∉ bobPays.resolves crowded.db) ∧
      (∀ s ∈ subscriptionOf annLeaves, s ∉ subscriptionOf bobPays) ∧
      (∀ s ∈ subscriptionOf annLeaves, ∀ u ∈ bobPays.resolves crowded.db,
        ∀ b ∈ crowded.db.billings, b.userId = u → b.externalSubscriptionId ≠ s) ∧
      ∀ s ∈ subscriptionOf bobPays, ∀ u ∈ annLeaves.resolves crowded.db,
        ∀ b ∈ crowded.db.billings, b.userId = u → b.externalSubscriptionId ≠ s) ∧
    ((∀ row ∈ crowded.db.billings, row.id ≠ "b1" ∧ row.id ≠ "b3") ∧
      (∀ row ∈ annFirst.db.billings, row.id ≠ "b2") ∧
      (∀ row ∈ bobFirst.db.billings, row.id ≠ "b4")) ∧
    ((handle packages (.webhook annLeaves)).run crowded).2.db.billings ≠ crowded.db.billings ∧
    crowded.trx.isNone = true := by decide +kernel

end Sample

/-- Ann's deletion and Bob's first payment, in either order. -/
theorem webhooks_frame_and_commute_apart :
    (∃ userId, Framed userId Sample.crowded.db
      ((handle Sample.packages (.webhook Sample.annLeaves)).run Sample.crowded).2.db) ∧
    SameTables [(Sample.secondsLater 1 "b1", Sample.secondsLater 4 "b4"),
        (Sample.secondsLater 3 "b2", Sample.secondsLater 2 "b3")]
      (Sample.handled Sample.annFirst Sample.bobPays (Sample.secondsLater 3 "b2")).db
      (Sample.handled Sample.bobFirst Sample.annLeaves (Sample.secondsLater 4 "b4")).db := by
  obtain ⟨hrows, hapart, ⟨hids, hann, hbob⟩, hne, htrx⟩ := Sample.apart_facts
  obtain ⟨hframe, hcommute⟩ := webhooks_frame_and_commute (P := Sample.packages)
    (w := Sample.crowded) ⟨hrows.1, hrows.2⟩ (Option.isNone_iff_eq_none.mp htrx)
  constructor
  · rcases hframe Sample.annLeaves _ _ (Async.exec_run ..) with heq | ⟨userId, -, h⟩
    · exact absurd (congrArg Db.billings heq) hne
    · exact ⟨userId, h⟩
  · obtain ⟨hu, hs, hl, hr⟩ := hapart
    exact hcommute _ _ ⟨hu, hs, hl, hr⟩ (Sample.handled_handled fun row hrow => (hids row hrow).1)
      (Sample.handled_handled hann) (Sample.handled_handled fun row hrow => (hids row hrow).2)
      (Sample.handled_handled hbob)

end CodebaseTrpc
