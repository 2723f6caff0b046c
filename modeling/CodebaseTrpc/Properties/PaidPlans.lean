import CodebaseTrpc.Invariants.Accounts

/-! Whether every user who has a paid product has a billing row that pays for it. -/
namespace CodebaseTrpc
variable {P : Packages} {w w' : World}

/-- The status of a subscription that was not given up. -/
def Standing (b : Billing) : Prop := b.status ≠ "canceled" ∧ b.status ≠ "unpaid"

/-- The user is on the free tier, or on the product of its only billing row. -/
def OnPlan (free : Product) (w : World) (u : User) : Prop :=
  u.currentProductId = some free.id ∨ ∃ b ∈ w.db.billings, b.userId = u.id ∧
    (∀ b' ∈ w.db.billings, b'.userId = u.id → b' = b) ∧
    u.currentProductId = some b.productId ∧ Standing b

/-- A subscription update carries a status. -/
def StatusGiven (x : Exchange) : Prop :=
  ∀ sub, x.request = .webhook (.subscriptionUpdated sub) → sub.status ≠ ""

def Request.StartsSession : Request → Prop
  | .login _ | .google _ | .refresh _ => True
  | _ => False

/-- The request is a signup, a Google sign-in, a login, a token refresh or a webhook event. -/
def Request.Subscribes : Request → Prop
  | .signup _ | .webhook _ => True
  | request => request.StartsSession

/-- The exchange handed the user a pair of tokens. -/
def SignsIn (P : Packages) (x : Exchange) (userId : String) : Prop :=
  x.request.StartsSession ∧ ∃ tokens t, x.reply = .ok (.tokens tokens) ∧
    P.jwt.decode tokens.refreshToken = some t ∧ t.userId = userId

def Account.OnPlan (free : Product) (a : Account) : Prop :=
  a.product = some free.id ∨
    ∃ b, a.row = some b ∧ a.product = some b.productId ∧ Standing b

theorem onPlan_of_account {free : Product} {u : User} (h : UniqueOwners w.db.billings)
    (ha : (w.db.account u).OnPlan free) : OnPlan free w u := by
  rcases ha with ha | ⟨b, hb, hproduct, hstanding⟩
  · exact .inl ha
  · have hown : b.userId = u.id := Rows.lookup_key hb
    refine .inr ⟨b, Rows.lookup_mem hb, hown, fun b' hb' hown' => ?_, hproduct, hstanding⟩
    exact List.inj_on_of_nodup_map h hb' (Rows.lookup_mem hb) (hown'.trans hown.symm)

/-- Every event with a status keeps an account on its plan. -/
theorem Account.Billed.onPlan {event : BillingEvent} {free : Product} {a a' : Account}
    (hfree : w.freeTier = some free)
    (hstatus : ∀ sub, event = .subscriptionUpdated sub → sub.status ≠ "")
    (ha : a.OnPlan free) (h : Account.Billed w event a a') : a'.OnPlan free := by
  cases h with
  | paid _ _ hactive => exact .inr ⟨_, rfl, rfl, by simp [Standing, hactive]⟩
  | failed =>
    rcases ha with ha | ⟨b, hb, hproduct, -⟩
    · exact .inl ha
    · cases hb
      exact .inr ⟨_, rfl, hproduct, by simp [Standing, failedBilling]⟩
  | @updated sub input product b hinput _ _ _ =>
    by_cases hend : input.Ended
    · left
      simp [productWritten, hend, hfree]
    · -- the status is written, and it is neither of the two
      have hst : input.status = some sub.status := (updateInput_product hinput).2.1
      have hstanding : Standing (updatedBilling input w.env.now b) := by
        simpa [Standing, updatedBilling, hst, spread, hstatus sub rfl, SubscriptionUpdate.Ended]
          using hend
      simp only [productWritten, if_neg hend]
      cases hs : spread input.productId with
      | undefined =>
        rcases ha with ha | ⟨b', hb', hproduct, -⟩
        · exact .inl ha
        · cases hb'
          exact .inr ⟨_, rfl, by simpa [updatedBilling, hs] using hproduct, hstanding⟩
      | set p =>
        dsimp only
        split_ifs with hsame
        · exact .inr ⟨_, rfl, by simp [updatedBilling, hs], hstanding⟩
        · rw [not_not] at hsame
          rcases ha with ha | ⟨b', hb', hproduct, -⟩
          · exact .inl ha
          · cases hb'
            exact .inr ⟨_, rfl, by simpa [updatedBilling, hs, hsame] using hproduct, hstanding⟩
  | deleted hf =>
    left
    rw [Option.some.inj (hf.symm.trans hfree)]

/-- A pair of tokens was handed out at the end of a started session. -/
theorem session_of_effect {request : Request} {tokens : LoginResponse}
    (hreq : request.StartsSession) (h : Effect P w request (.ok (.tokens tokens)) w') :
    ∃ (w₁ : World) (userId : String), w' = w₁.openSession P userId ∧
      tokens = sessionTokens P userId w.env.now ∧ w₁.env = w.env ∧
      w₁.freeTier = w.freeTier := by
  cases h with
  | none h =>
    rcases h with ⟨_, h⟩ | h
    · cases h
    · cases request <;> first | exact h.elim | exact hreq.elim
  | @google _ payload u w₁ _ hres =>
    exact ⟨w₁, u.id, rfl, rfl, hres.env, hres.freeTier⟩
  | @login _ u => exact ⟨w, u.id, rfl, rfl, rfl, rfl⟩
  | @refresh _ u => exact ⟨w, u.id, rfl, rfl, rfl, rfl⟩
  | _ => exact hreq.elim

/-- After a sign-in the user is on the free tier, or its period has not ended. -/
theorem settled_of_signsIn {x : Exchange} {userId : String} {free : Product}
    (hfree : x.before.freeTier = some free) (hunique : UniqueOwners x.after.db.billings)
    (heff : Effect P x.before x.request x.reply x.after) (h : SignsIn P x userId) :
    ∀ u ∈ x.after.db.users, u.id = userId → u.currentProductId = some free.id ∨
      ∀ b ∈ x.after.db.billings, b.userId = u.id → x.before.env.now ≤ b.expiresAt := by
  obtain ⟨before, request, reply, after⟩ := x
  obtain ⟨hreq, tokens, t, rfl, hdec, rfl⟩ := h
  dsimp only at *
  obtain ⟨w₁, id, rfl, rfl, henv, hfree₁⟩ := session_of_effect hreq heff
  have ht : t = refreshPayload id before.env.now :=
    Option.some.inj (hdec.symm.trans (P.jwt.decode_sign _))
  intro u hu hid
  have hid' : u.id = id := by rw [hid, ht]; rfl
  refine (settled_openSession (hfree₁.trans hfree) hu hid').imp_right fun hexp b hb hown => ?_
  rw [← henv]
  refine hexp b ?_
  have hrow := lookup_owner hunique hb
  rwa [openSession_billings, hown, hid'] at hrow

/-- From an empty billings table and users on the free tier, every user is on the free tier or
on the product of its only billing row, and that row stands; right after a sign-in the period
it pays for has not ended. -/
theorem no_unpaid_entitlement {w₀ : World} {tr : List Entry} {free : Product}
    (hrun : RunWhere P (fun _ x => StatusGiven x) w₀ tr w) (h₀ : w₀.trx = none)
    (hfree : w₀.freeTier = some free) (hb : w₀.db.billings = [])
    (hu : ∀ u ∈ w₀.db.users, u.currentProductId = some free.id) :
    (∀ u ∈ w.db.users, OnPlan free w u) ∧
      ∀ x tr', tr = .call x :: tr' → ∀ userId, SignsIn P x userId →
        ∀ u ∈ w.db.users, u.id = userId → u.currentProductId = some free.id ∨
          ∀ b ∈ w.db.billings, b.userId = u.id → x.before.env.now ≤ b.expiresAt := by
  have hempty : UniqueOwners w₀.db.billings := by simp [UniqueOwners, hb]
  have hunique := RunWhere.uniqueOwners hrun h₀ hempty
  refine ⟨fun u hmem => onPlan_of_account hunique ?_, ?_⟩
  · refine RunWhere.accounts (A := fun _ a => a.OnPlan free) hrun h₀ hempty ?_ ?_ ?_ ?_ u hmem
    · exact fun u hmem => .inl (hu u hmem)
    · exact fun _ _ _ _ h => h
    · intro _ free' hfree'
      exact .inl (congrArg (fun p => some p.id) (Option.some.inj (hfree'.symm.trans hfree)))
    · intro tr x hx hf u _ a' ha hstep
      generalize hr : x.request = request at hstep
      cases hstep with
      | billed h =>
        exact h.onPlan (hf.trans hfree) (fun sub he => hx sub (hr.trans (by rw [he]))) ha
      | lapsed h =>
        generalize x.before.db.account u = a at h ha
        obtain ⟨hf', -⟩ := h
        exact .inl (congrArg (fun p => some p.id)
          (Option.some.inj (hf'.symm.trans (hf.trans hfree))))
  · rintro x tr' rfl userId hsign
    cases hrun with
    | step h hs =>
      obtain ⟨hserves, -⟩ := hs
      cases hserves with
      | call hx =>
        refine settled_of_signsIn (x := ⟨_, _, _, w⟩) ?_ hunique
          (effect_of_exec (RunWhere.trx h h₀) hx) hsign
        exact (RunWhere.freeTier h h₀).trans hfree

namespace Sample

/-- Ann has bought the paid plan and signs in again. -/
def boughtThenLogin : World := ((handle packages (.login annLogin)).run bought).2

set_option maxRecDepth 10000 in
theorem boughtThenLogin_facts :
    boughtThenLogin.db.users.map (fun u => (u.id, u.currentProductId)) = [("u1", some "pro")] ∧
    ((handle packages (.login annLogin)).run bought).1 =
      .ok (.tokens (sessionTokens packages "u1" bought.env.now)) := by decide +kernel

/-- A user entered by hand on the paid plan, with no billing row. -/
def granted : User :=
  { (signupUser packages ann env free).row "u1" env.now with currentProductId := some "pro" }

def seeded : World := { start with db := ⟨[granted], [free, pro], [], by decide⟩ }

end Sample

/-- A purchase, from a deployment without users, and a login with the plan that was paid for. -/
theorem no_unpaid_entitlement_purchase :
    (∀ u ∈ Sample.boughtThenLogin.db.users, OnPlan Sample.free Sample.boughtThenLogin u) ∧
    ∀ u ∈ Sample.boughtThenLogin.db.users, u.currentProductId = some "pro" ∧
      ∀ b ∈ Sample.boughtThenLogin.db.billings, b.userId = u.id →
        Sample.bought.env.now ≤ b.expiresAt := by
  have hbought : RunWhere Sample.packages (fun _ x => StatusGiven x) Sample.start
      (playFrom Sample.packages [] Sample.start Sample.purchase).1 Sample.bought := by
    refine runWhere_play _ _ _ _ fun request hr _ _ _ _ => ?_
    rintro sub rfl
    simp [Sample.purchase] at hr
  have hlogin : RunWhere Sample.packages (fun _ x => StatusGiven x) Sample.start
      (.call ⟨Sample.bought, .login Sample.annLogin,
        ((handle Sample.packages (.login Sample.annLogin)).run Sample.bought).1,
        Sample.boughtThenLogin⟩ :: _) Sample.boughtThenLogin :=
    .step hbought ⟨.call (Async.exec_run ..), by rintro x ⟨⟩ sub ⟨⟩⟩
  obtain ⟨hplan, hsession⟩ := no_unpaid_entitlement hlogin rfl rfl rfl (by simp [Sample.start])
  obtain ⟨hrows, hreply⟩ := Sample.boughtThenLogin_facts
  refine ⟨hplan, fun u hu => ?_⟩
  have hrow := List.mem_map_of_mem (f := fun u => (u.id, u.currentProductId)) hu
  rw [hrows] at hrow
  obtain ⟨hid, hproduct⟩ := Prod.mk.inj (List.mem_singleton.mp hrow)
  refine ⟨hproduct, (hsession _ _ rfl "u1" ?_ u hu hid).resolve_left fun hfree => ?_⟩
  · exact ⟨trivial, _, _, hreply, Sample.packages.jwt.decode_sign _, rfl⟩
  · rw [hproduct] at hfree
    revert hfree
    decide

/-- A user who starts on a paid product without a billing row is on no plan. -/
theorem seeded_user_on_no_plan : ¬ ∀ (w₀ w : World) (tr : List Entry) (free : Product),
    w₀.trx = none → w₀.freeTier = some free → w₀.db.billings = [] →
      RunWhere Sample.packages (fun _ x => x.request.Subscribes ∧ StatusGiven x) w₀ tr w →
        ∀ u ∈ w.db.users, OnPlan free w u := by
  intro h
  rcases h Sample.seeded Sample.seeded [] Sample.free rfl rfl rfl .start Sample.granted (by
    simp [Sample.seeded]) with hfree | ⟨b, hb, -⟩
  · revert hfree
    decide
  · cases hb

end CodebaseTrpc
