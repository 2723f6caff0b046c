import CodebaseTrpc.Invariants.Billings

/-! What the two tables say about one user: the product it may use and the subscription it pays
for. Every request takes each account by at most one step. -/
namespace CodebaseTrpc
variable {P : Packages} {w w' : World}

/-- A user's product, and the billing row that a lookup by the user finds. -/
structure Account where
  product : Option String
  row : Option Billing
  deriving DecidableEq

def Db.account (db : Db) (u : User) : Account where
  product := u.currentProductId
  row := Rows.lookup Billing.userId u.id db.billings

/-- One user's account under a Stripe event. -/
inductive Account.Billed (w : World) : BillingEvent → Account → Account → Prop
  | paid {invoice : Invoice} {input : UpdateUserBillingInput} {a : Account} {b : Billing}
      (hinput : paidInput w.db invoice = .ok (some input))
      (hproduct : b.productId = input.productId) (hstatus : b.status = "active") :
      Billed w (.invoicePaid invoice) a ⟨some b.productId, some b⟩
  | failed {invoice : Invoice} {product : Option String} {b : Billing} :
      Billed w (.invoicePaymentFailed invoice) ⟨product, some b⟩
        ⟨product, some (failedBilling w.env.now b)⟩
  | updated {sub : Subscription} {input : SubscriptionUpdate} {product : Option String}
      {b : Billing} (hinput : updateInput w.db sub = some input) (hne : sub.id ≠ "")
      (hb : Rows.lookup Billing.externalSubscriptionId sub.id w.db.billings = some b)
      (hended : input.Ended → w.freeTier ≠ none) (hfit : input.Fits) :
      Billed w (.subscriptionUpdated sub) ⟨product, some b⟩
        ⟨(productWritten w.freeTier input b).or product,
          some (updatedBilling input w.env.now b)⟩
  | deleted {sub : Subscription} {free : Product} {product : Option String} {b : Billing}
      (hfree : w.freeTier = some free) :
      Billed w (.subscriptionDeleted sub) ⟨product, some b⟩
        ⟨some free.id, some (deletedBilling w.env.now b)⟩

/-- One user's account when a session starts after the end of the period paid for. -/
inductive Account.Lapsed (w : World) : Account → Account → Prop
  | settle {free : Product} {product : Option String} {b : Billing}
      (hfree : w.freeTier = some free) (h : b.expiresAt < w.env.now) :
      Lapsed w ⟨product, some b⟩ ⟨some free.id, some b⟩

/-- One user's account under a request. -/
inductive Account.Step (w : World) : Request → Account → Account → Prop
  | billed {event : BillingEvent} {a a' : Account} (h : Account.Billed w event a a') :
      Step w (.webhook event) a a'
  | lapsed {request : Request} {a a' : Account} (h : Account.Lapsed w a a') : Step w request a a'

theorem Account.Lapsed.congr {a a' : Account} (h : Account.Lapsed w a a')
    (hfree : w'.freeTier = w.freeTier) (henv : w'.env = w.env) : Account.Lapsed w' a a' := by
  obtain ⟨hf, hexp⟩ := h
  exact .settle (hfree.trans hf) (henv ▸ hexp)

/-- Who pays for nothing cannot lapse. -/
theorem Account.not_lapsed_of_none {product : Option String} {a : Account} :
    ¬ Account.Lapsed w ⟨product, none⟩ a := nofun

theorem Db.account_of_lookup {db : Db} {u : User} {b : Billing}
    (h : Rows.lookup Billing.userId u.id db.billings = some b) :
    db.account u = ⟨u.currentProductId, some b⟩ := by
  rw [Db.account, h]

/-- Rows that keep id and product keep their account while the billings stay. -/
theorem accounts_kept {db db' : Db} (hb : db'.billings = db.billings)
    (hrows : List.Forall₂ (fun u u' => u'.id = u.id ∧ u'.currentProductId = u.currentProductId)
      db.users db'.users) :
    ∀ u' ∈ db'.users, ∃ u ∈ db.users, u.id = u'.id ∧ db'.account u' = db.account u := by
  intro u' hu'
  obtain ⟨u, hu, hid, hproduct⟩ := Rows.exists_old hrows hu'
  exact ⟨u, hu, hid.symm, by rw [Db.account, Db.account, hid, hproduct, hb]⟩

/-- The owner of a row and the row are rewritten together; all other accounts stay. -/
theorem accounts_rewrite {db db' : Db} {b : Billing} {f : User → User} {g : Billing → Billing}
    (hb : Rows.lookup Billing.userId b.userId db.billings = some b)
    (hf : ∀ u, (f u).id = u.id) (hg : ∀ r, (g r).userId = r.userId)
    (husers : db'.users = Rows.update User.id b.userId f db.users)
    (hbillings : db'.billings = Rows.update Billing.id b.id g db.billings) :
    ∀ u' ∈ db'.users, ∃ u ∈ db.users, u.id = u'.id ∧ (db'.account u' = db.account u ∨
      (db.account u = ⟨u.currentProductId, some b⟩ ∧
        db'.account u' = ⟨(f u).currentProductId, some (g b)⟩)) := by
  have hlook : ∀ id, Rows.lookup Billing.userId id db'.billings =
      (Rows.lookup Billing.userId id db.billings).map fun r => if r.id = b.id then g r else r :=
    fun id => by rw [hbillings, Rows.lookup_update hg]
  intro u' hu'
  rw [husers] at hu'
  rcases Rows.mem_update.mp hu' with ⟨u, hu, hk, rfl⟩ | ⟨hu, hk⟩
  · refine ⟨u, hu, (hf u).symm, .inr ⟨Db.account_of_lookup (hk ▸ hb), Db.account_of_lookup ?_⟩⟩
    rw [hlook, hf, hk, hb]
    simp
  · refine ⟨u', hu, rfl, .inl ?_⟩
    rw [Db.account, Db.account, hlook]
    cases hl : Rows.lookup Billing.userId u'.id db.billings with
    | none => rfl
    | some r =>
      -- a row of another user is another row
      have hne : r.id ≠ b.id := fun hid => hk <| by
        rw [← Rows.lookup_key hl, Db.billing_eq
          (Rows.lookup_mem hl) (Rows.lookup_mem hb) hid]
      simp [hne]

/-- A first row for a user. -/
theorem accounts_first {db db' : Db} {id : String} {row : Billing} {f : User → User}
    (hnone : Rows.lookup Billing.userId id db.billings = none) (hrow : row.userId = id)
    (hf : ∀ u, (f u).id = u.id) (husers : db'.users = Rows.update User.id id f db.users)
    (hbillings : db'.billings = db.billings ++ [row]) :
    ∀ u' ∈ db'.users, ∃ u ∈ db.users, u.id = u'.id ∧ (db'.account u' = db.account u ∨
      db'.account u' = ⟨(f u).currentProductId, some row⟩) := by
  intro u' hu'
  rw [husers] at hu'
  rcases Rows.mem_update.mp hu' with ⟨u, hu, hk, rfl⟩ | ⟨hu, hk⟩
  · refine ⟨u, hu, (hf u).symm, .inr (Db.account_of_lookup ?_)⟩
    rw [hbillings, hf, hk, Rows.lookup, List.find?_append, ← Rows.lookup, hnone]
    simp [hrow]
  · refine ⟨u', hu, rfl, .inl ?_⟩
    rw [Db.account, Db.account, hbillings, Rows.lookup_append_of_ne (hrow ▸ Ne.symm hk)]

/-- A Stripe event concerns one account. -/
theorem Billed.accounts {event : BillingEvent} {db : Db} (h : Billed w event db)
    (hunique : UniqueOwners w.db.billings) :
    ∀ u' ∈ db.users, ∃ u ∈ w.db.users, u.id = u'.id ∧
      (db.account u' = w.db.account u ∨
        Account.Billed w event (w.db.account u) (db.account u')) := by
  intro u' hu'
  cases h with
  | @paid invoice input x c _ hinput hx hpaid =>
    have hbillings := hpaid.billings
    cases hl : Rows.lookup Billing.userId x.id w.db.billings with
    | none =>
      rw [hl] at hbillings
      obtain ⟨u, hu, hid, h | h⟩ := accounts_first hl rfl (fun _ => UserUpdates.apply_id ..)
        hpaid.users hbillings u' hu'
      · exact ⟨u, hu, hid, .inl h⟩
      · refine ⟨u, hu, hid, .inr ?_⟩
        rw [h, setProduct_product]
        exact .paid (b := newBilling input c x.id w.env) hinput rfl rfl
    | some b =>
      rw [hl] at hbillings
      have hown := Rows.lookup_key hl
      obtain ⟨u, hu, hid, h | ⟨-, h⟩⟩ := accounts_rewrite (hown ▸ hl)
        (fun _ => UserUpdates.apply_id ..) (g := paidBilling input c w.env.now) (fun _ => rfl)
        (hown ▸ hpaid.users) hbillings u' hu'
      · exact ⟨u, hu, hid, .inl h⟩
      · refine ⟨u, hu, hid, .inr ?_⟩
        rw [h, setProduct_product]
        exact .paid (b := paidBilling input c w.env.now b) hinput rfl rfl
  | @failed invoice s b _ hs hb husers _ hbillings =>
    have hown := lookup_owner hunique (Rows.lookup_mem hb)
    obtain ⟨u, hu, hid, h | ⟨h, h'⟩⟩ := accounts_rewrite hown (f := id) (fun _ => rfl)
      (g := failedBilling w.env.now) (fun _ => rfl)
      (by rw [husers, Rows.update_id]) hbillings u' hu'
    · exact ⟨u, hu, hid, .inl h⟩
    · refine ⟨u, hu, hid, .inr ?_⟩
      rw [h, h']
      exact .failed
  | @updated sub input b _ hinput hne hb hup =>
    have hown := lookup_owner hunique (Rows.lookup_mem hb)
    obtain ⟨f, hf, hproduct, husers⟩ := hup.owner
    obtain ⟨u, hu, hid, h | ⟨h, h'⟩⟩ := accounts_rewrite hown (fun v => (hf v).1)
      (g := updatedBilling input w.env.now) (fun _ => rfl) husers hup.billings u' hu'
    · exact ⟨u, hu, hid, .inl h⟩
    · refine ⟨u, hu, hid, .inr ?_⟩
      rw [h, h', hproduct]
      exact .updated hinput hne hb hup.ended hup.fits
  | @deleted sub b _ _ hb hdel =>
    have hown := lookup_owner hunique (Rows.lookup_mem hb)
    obtain ⟨free, hfree, husers⟩ := hdel.users
    obtain ⟨u, hu, hid, h | ⟨h, h'⟩⟩ := accounts_rewrite hown (fun _ => UserUpdates.apply_id ..)
      (g := deletedBilling w.env.now) (fun _ => rfl) husers hdel.billings u' hu'
    · exact ⟨u, hu, hid, .inl h⟩
    · refine ⟨u, hu, hid, .inr ?_⟩
      rw [h, h']
      exact .deleted hfree

theorem lapsed_iff {userId : String} : w.lapsed userId = true ↔
    ∃ b, Rows.lookup Billing.userId userId w.db.billings = some b ∧ b.expiresAt < w.env.now := by
  simp [World.lapsed, Option.any_eq_true]

/-- The rows of a started session, from those of the settled account. -/
theorem rows_storeRefresh {userId : String} {u' : User}
    (hu' : u' ∈ (w.openSession P userId).db.users) : ∃ u ∈ (w.settle userId).db.users,
      u'.id = u.id ∧ u'.currentProductId = u.currentProductId := by
  rw [openSession_users] at hu'
  obtain ⟨u, hu, rfl⟩ := Rows.exists_of_mem_update hu'
  refine ⟨u, hu, ?_⟩
  split_ifs <;> exact ⟨rfl, rfl⟩

/-- Starting a session may settle the account of its user, and keeps all others. -/
theorem accounts_openSession (userId : String) :
    ∀ u' ∈ (w.openSession P userId).db.users, ∃ u ∈ w.db.users, u.id = u'.id ∧
      ((w.openSession P userId).db.account u' = w.db.account u ∨
        Account.Lapsed w (w.db.account u) ((w.openSession P userId).db.account u')) := by
  intro u' hu'
  obtain ⟨u₁, hu₁, hid, hproduct⟩ := rows_storeRefresh hu'
  have hacct : (w.openSession P userId).db.account u' =
      ⟨u₁.currentProductId, Rows.lookup Billing.userId u₁.id w.db.billings⟩ := by
    rw [Db.account, hid, hproduct, openSession_billings]
  rcases settle_users w userId with h | ⟨free, hfree, hlapsed, h⟩
  · exact ⟨u₁, h ▸ hu₁, hid.symm, .inl hacct⟩
  · rw [h] at hu₁
    rcases Rows.mem_update.mp hu₁ with ⟨u, hu, hk, rfl⟩ | ⟨hu, -⟩
    · obtain ⟨b, hb, hexp⟩ := lapsed_iff.mp hlapsed
      refine ⟨u, hu, hid.symm, .inr ?_⟩
      rw [hacct, UserUpdates.apply_id, hk, hb, setProduct_product,
        Db.account_of_lookup (hk ▸ hb)]
      exact .settle hfree hexp
    · exact ⟨u₁, hu, hid.symm, .inl hacct⟩

/-- The user of a started session is on the free tier or has not expired. -/
theorem settled_openSession {userId : String} {free : Product} (hfree : w.freeTier = some free)
    {u' : User} (hu' : u' ∈ (w.openSession P userId).db.users) (hid' : u'.id = userId) :
    u'.currentProductId = some free.id ∨
      ∀ b, Rows.lookup Billing.userId userId w.db.billings = some b → w.env.now ≤ b.expiresAt := by
  obtain ⟨u₁, hu₁, hid, hproduct⟩ := rows_storeRefresh hu'
  by_cases hl : w.lapsed userId = true
  · left
    rw [World.settle, if_pos hl, downgrade_users w userId hfree] at hu₁
    rcases Rows.mem_update.mp hu₁ with ⟨u, -, -, rfl⟩ | ⟨-, hk⟩
    · exact hproduct
    · exact absurd (hid.symm.trans hid') hk
  · right
    intro b hb
    by_contra hexp
    exact hl (lapsed_iff.mpr ⟨b, hb, by omega⟩)

/-- A row added to the users is nobody's debtor. -/
theorem accounts_insertUser {input : CreateUserInput} {row : User}
    (hrow : (w.exec (insertUser input)).db.users = w.db.users ++ [row]) :
    ∀ u' ∈ (w.exec (insertUser input)).db.users,
      (∃ u ∈ w.db.users,
        u.id = u'.id ∧ (w.exec (insertUser input)).db.account u' = w.db.account u) ∨
        (w.exec (insertUser input)).db.account u' = ⟨row.currentProductId, none⟩ := by
  intro u' hu'
  have hfresh : ∀ u ∈ w.db.users, u.id ≠ row.id := by
    have hn := (w.exec (insertUser input)).db.sound.users_id
    rw [hrow, List.map_append, List.map_singleton, List.nodup_append] at hn
    exact fun u hu hid => hn.2.2 u.id (List.mem_map.mpr ⟨u, hu, rfl⟩) row.id (by simp) hid
  rw [hrow] at hu'
  rcases List.mem_append.mp hu' with hu | hu
  · exact .inl ⟨u', hu, rfl, by simp [Db.account]⟩
  · obtain rfl := List.mem_singleton.mp hu
    right
    rw [Db.account, exec_insertUser_billings, Rows.lookup_eq_none.mpr]
    intro b hb hown
    obtain ⟨u, hu, hid⟩ := w.db.sound.billings_user b hb
    exact hfresh u hu (hid.trans hown)

/-- What a request leaves of an account: nothing changed, one step, or a new user's account. -/
def Account.After (w : World) (request : Request) (db : Db) (u' : User) : Prop :=
  (∃ u ∈ w.db.users, u.id = u'.id ∧ (db.account u' = w.db.account u ∨
    Account.Step w request (w.db.account u) (db.account u'))) ∨
  ∃ free, w.freeTier = some free ∧ db.account u' = ⟨some free.id, none⟩

theorem Resolved.accounts {payload : TGoogleTokenPayload} {u : User} {w₁ : World}
    (h : Resolved P w payload u w₁) : ∀ u' ∈ w₁.db.users,
      (∃ u ∈ w.db.users, u.id = u'.id ∧ w₁.db.account u' = w.db.account u) ∨
        ∃ free, w.freeTier = some free ∧ w₁.db.account u' = ⟨some free.id, none⟩ := by
  cases h with
  | known => exact fun u' hu' => .inl ⟨u', hu', rfl, rfl⟩
  | linked hg he hw =>
    exact fun u' hu' => .inl (accounts_kept (by simp)
      (rows_updateUser (fun _ => ⟨rfl, rfl⟩) fun _ _ _ => ⟨rfl, rfl⟩) u' hu')
  | @created free hg he hp hw =>
    intro u' hu'
    rcases accounts_insertUser hw u' hu' with h | h
    · exact .inl h
    · exact .inr ⟨free, hp, h⟩

/-- Every request takes an account by at most one step. -/
theorem Effect.accounts {request : Request} {reply : Except Err Reply}
    (h : Effect P w request reply w') (hunique : UniqueOwners w.db.billings) :
    ∀ u' ∈ w'.db.users, Account.After w request w'.db u' := by
  have hsame : ∀ u : User, u.id = u.id ∧ u.currentProductId = u.currentProductId :=
    fun _ => ⟨rfl, rfl⟩
  -- what most requests do: rows that keep their id and product
  have hkept : ∀ w' : World, w'.db.billings = w.db.billings →
      List.Forall₂ (fun u u' : User => u'.id = u.id ∧ u'.currentProductId = u.currentProductId)
        w.db.users w'.db.users → ∀ u' ∈ w'.db.users, Account.After w request w'.db u' := by
    intro w' hb hrows u' hu'
    obtain ⟨u, hu, hid, h⟩ := accounts_kept hb hrows u' hu'
    exact .inl ⟨u, hu, hid, .inl h⟩
  have hsession : ∀ userId, ∀ u' ∈ (w.openSession P userId).db.users,
      Account.After w request (w.openSession P userId).db u' := by
    intro userId u' hu'
    obtain ⟨u, hu, hid, h | h⟩ := accounts_openSession userId u' hu'
    · exact .inl ⟨u, hu, hid, .inl h⟩
    · exact .inl ⟨u, hu, hid, .inr (.lapsed h)⟩
  cases h with
  | none => exact hkept _ rfl (Rows.forall₂_refl hsame _)
  | @google _ payload x w₁ _ hres =>
    intro u' hu'
    obtain ⟨u₁, hu₁, hid₁, h₁⟩ := accounts_openSession x.id u' hu'
    rcases hres.accounts u₁ hu₁ with ⟨u, hu, hid, h⟩ | ⟨free, hf, h⟩
    · refine .inl ⟨u, hu, hid.trans hid₁, ?_⟩
      rw [← h]
      exact h₁.imp_right fun hl => .lapsed (hl.congr hres.freeTier.symm hres.env.symm)
    · rw [h] at h₁
      rcases h₁ with h₁ | h₁
      · exact .inr ⟨free, hf, h₁⟩
      · exact absurd h₁ Account.not_lapsed_of_none
  | googleStopped _ hres =>
    intro u' hu'
    rcases hres.accounts u' hu' with ⟨u, hu, hid, h⟩ | h
    · exact .inl ⟨u, hu, hid, .inl h⟩
    · exact .inr h
  | @login _ u => exact hsession u.id
  | @refresh _ u => exact hsession u.id
  | @signup input product _ hproduct hrow =>
    intro u' hu'
    obtain ⟨u₁, hu₁, hid₁, h₁⟩ := accounts_kept (by simp)
      (rows_issueVerification _ hsame fun _ _ _ => ⟨rfl, rfl⟩) u' hu'
    rcases accounts_insertUser hrow u₁ hu₁ with ⟨u, hu, hid, h⟩ | h
    · exact .inl ⟨u, hu, hid.trans hid₁, .inl (h₁.trans h)⟩
    · exact .inr ⟨product, hproduct, h₁.trans h⟩
  | logout => exact hkept _ (by simp) (rows_updateUser hsame fun _ _ _ => ⟨rfl, rfl⟩)
  | verifyEmail => exact hkept _ (by simp) (rows_updateUser hsame fun _ _ _ => ⟨rfl, rfl⟩)
  | resendVerificationEmail =>
    exact hkept _ (by simp) (rows_issueVerification _ hsame fun _ _ _ => ⟨rfl, rfl⟩)
  | forgotPassword => exact hkept _ rfl (Rows.forall₂_refl hsame _)
  | resetPassword => exact hkept _ (by simp) (rows_updateUser hsame fun _ _ _ => ⟨rfl, rfl⟩)
  | updateUserById => exact hkept _ (by simp) (rows_updateUser hsame fun _ _ _ => ⟨rfl, rfl⟩)
  | requestEmailChange =>
    exact hkept _ (by simp) (rows_issueCode _ _ hsame fun _ _ _ => ⟨rfl, rfl⟩)
  | emailChanged => exact hkept _ (by simp) (rows_updateUser hsame fun _ _ _ => ⟨rfl, rfl⟩)
  | codeWrong _ _ _ _ hdrift _ =>
    exact hkept _ hdrift.billings (rows_drifted hsame hdrift fun _ _ _ _ h =>
      ⟨h.id, h.currentProductId⟩)
  | createCheckoutSession => exact hkept _ rfl (Rows.forall₂_refl hsame _)
  | createCustomerPortalSession => exact hkept _ rfl (Rows.forall₂_refl hsame _)
  | webhook hb =>
    intro u' hu'
    obtain ⟨u, hu, hid, h | h⟩ := hb.accounts hunique u' hu'
    · exact .inl ⟨u, hu, hid, .inl h⟩
    · exact .inl ⟨u, hu, hid, .inr (.billed h)⟩

/-- An invariant of single accounts: it holds of the accounts at the start and of a new user's,
time does not break it, and no step that the run allows breaks it. -/
theorem RunWhere.accounts {A : ℕ → Account → Prop} {C : List Entry → Exchange → Prop}
    {w₀ : World} {tr : List Entry} (hrun : RunWhere P C w₀ tr w) (h₀ : w₀.trx = none)
    (hunique : UniqueOwners w₀.db.billings)
    (start : ∀ u ∈ w₀.db.users, A w₀.env.now (w₀.db.account u))
    (later : ∀ now now' a, now ≤ now' → A now a → A now' a)
    (new : ∀ now free, w₀.freeTier = some free → A now ⟨some free.id, none⟩)
    (step : ∀ tr x, C tr x → x.before.freeTier = w₀.freeTier → ∀ u ∈ x.before.db.users, ∀ a',
      A x.before.env.now (x.before.db.account u) →
        Account.Step x.before x.request (x.before.db.account u) a' → A x.before.env.now a') :
    ∀ u ∈ w.db.users, A w.env.now (w.db.account u) := by
  refine (Trace.Run.invariant (I := fun _ w => (w.trx = none ∧ UniqueOwners w.db.billings ∧
    w.freeTier = w₀.freeTier) ∧ ∀ u ∈ w.db.users, A w.env.now (w.db.account u)) hrun
      ⟨⟨h₀, hunique, rfl⟩, start⟩ ?_).2
  rintro tr v _ _ ⟨⟨htrx, hu, hf⟩, hA⟩ ⟨hle | hx, hC⟩
  · exact ⟨⟨htrx, hu, hf⟩, fun u hu => later _ _ _ hle (hA u hu)⟩
  · have heff := effect_of_exec htrx hx
    refine ⟨⟨heff.trx.trans htrx, hu.effect heff, ?_⟩, fun u' hu' => ?_⟩
    · rw [World.freeTier, heff.products]
      exact hf
    · rw [heff.env]
      rcases heff.accounts hu u' hu' with ⟨u, hum, -, h | h⟩ | ⟨free, hfree, h⟩
      · rw [h]
        exact hA u hum
      · exact step tr _ (hC _ rfl) hf u hum _ (hA u hum) h
      · rw [h]
        exact new _ free (hf ▸ hfree)

end CodebaseTrpc
