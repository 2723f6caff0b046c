import CodebaseTrpc.Spec.Frames
import CodebaseTrpc.Spec.RawApi

/-! A signed-in user and everybody else: what the protected procedures leave of the rows of others,
and what they read of them. -/
namespace CodebaseTrpc
variable {P : Packages} {w w' : World}

/-- The procedures behind `authMiddleware`. -/
def protectedProcedures : List Procedure :=
  [.logout, .resendVerificationEmail, .getUserById, .updateUserById, .requestEmailChange,
    .verifyEmailChange, .getUserBilling, .createCheckoutSession, .createCustomerPortalSession]

/-- The users and billings rows of everybody but the user. -/
def Db.others (db : Db) (userId : String) : List User × List Billing :=
  (db.users.filter fun u => u.id ≠ userId, db.billings.filter fun b => b.userId ≠ userId)

/-- The products agree, and so do the user's own rows. -/
structure AgreeFor (userId : String) (db₁ db₂ : Db) : Prop where
  products : db₁.products = db₂.products
  users : (db₁.users.filter fun u => u.id = userId) = db₂.users.filter fun u => u.id = userId
  billings : (db₁.billings.filter fun b => b.userId = userId) =
    db₂.billings.filter fun b => b.userId = userId

/-- The header that a request is authenticated by. -/
def Request.header : Request → Option (Option String)
  | .logout auth | .resendVerificationEmail auth | .getUserById auth | .updateUserById auth _
  | .requestEmailChange auth _ | .verifyEmailChange auth _ | .getUserBilling auth
  | .createCheckoutSession auth _ | .createCustomerPortalSession auth _ => some auth
  | _ => none

theorem typed_header {procedure : Procedure} {auth : Option String} {input : Option Json}
    {typed : Request} (hp : procedure ∈ protectedProcedures)
    (h : (RawRequest.call procedure auth input).typed = some typed) :
    typed.header = some auth := by
  cases procedure <;> simp [protectedProcedures] at hp <;>
    simp [RawRequest.typed, Option.bind_eq_some_iff] at h <;> grind [Request.header]

/-- A row that is the user's own, or unchanged. -/
def Own (userId : String) (u u' : User) : Prop := u'.id = u.id ∧ (u.id ≠ userId → u' = u)

theorem Own.refl (userId : String) (u : User) : Own userId u u := ⟨rfl, fun _ => rfl⟩

theorem own_apply {userId : String} {u : User} (updates : UserUpdates) (now : ℕ)
    (h : u.id = userId) : Own userId u (updates.apply now u) :=
  ⟨rfl, fun hne => absurd h hne⟩

/-- A protected procedure rewrites no row but the caller's. -/
theorem Effect.own {request : Request} {reply : Except Err Reply} {auth : Option String}
    {u : User} (h : Effect P w request reply w') (hh : request.header = some auth)
    (hu : Authenticates P w auth u) : List.Forall₂ (Own u.id) w.db.users w'.db.users := by
  have hrefl := Own.refl u.id
  have hsame : ∀ {auth' v}, some auth' = some auth → Authenticates P w auth' v → v = u := by
    rintro _ _ ⟨⟩ hv
    exact hu.unique hv
  cases h with
  | none => exact Rows.forall₂_refl hrefl _
  | logout hv =>
    obtain rfl := hsame hh hv
    exact rows_updateUser hrefl fun _ _ hid => own_apply _ _ hid
  | resendVerificationEmail hv _ =>
    obtain rfl := hsame hh hv
    exact rows_issueVerification _ hrefl fun _ _ hid => own_apply _ _ hid
  | updateUserById hv _ _ =>
    obtain rfl := hsame hh hv
    exact rows_updateUser hrefl fun _ _ hid => own_apply _ _ hid
  | requestEmailChange hv _ _ =>
    obtain rfl := hsame hh hv
    exact rows_issueCode _ _ hrefl fun _ _ hid => own_apply _ _ hid
  | emailChanged hv _ _ _ _ _ =>
    obtain rfl := hsame hh hv
    exact rows_updateUser hrefl fun _ _ hid => own_apply _ _ hid
  | codeWrong hv _ _ _ hdrift _ =>
    obtain rfl := hsame hh hv
    exact rows_drifted hrefl hdrift fun v v' _ hid h => ⟨h.id, fun hne => absurd hid hne⟩
  | createCheckoutSession _ => exact Rows.forall₂_refl hrefl _
  | createCustomerPortalSession _ => exact Rows.forall₂_refl hrefl _
  | _ => cases hh

theorem Effect.others {request : Request} {reply : Except Err Reply} {auth : Option String}
    {u : User} (h : Effect P w request reply w') (hh : request.header = some auth)
    (hu : Authenticates P w auth u) : w'.db.others u.id = w.db.others u.id := by
  have husers : (w'.db.users.filter fun v => v.id ≠ u.id) =
      w.db.users.filter fun v => v.id ≠ u.id :=
    Rows.filter_ne_of_forall₂ (h.own hh hu) (fun _ _ h => h.1) fun _ _ h => h.2
  have hbillings := h.billings fun event he => by rw [he] at hh; cases hh
  simp only [Db.others, husers, hbillings]

section Reads
variable {w₁ w₂ : World} {auth : Option String} {u : User}

/-- Behind `authMiddleware`, both runs serve the same user. -/
theorem readsAlike_protected {β : Type} {f : User → Promise β} (h₁ : Authenticates P w₁ auth u)
    (h₂ : Authenticates P w₂ auth u) (hf : (f u).ReadsAlike w₁ w₂) :
    ((authMiddleware P auth).bind f).ReadsAlike w₁ w₂ := by
  obtain ⟨r, hr₁, hr₂⟩ := hf
  exact ⟨r, (Async.run_bind_ok (run_authMiddleware_ok h₁)).trans hr₁,
    (Async.run_bind_ok (run_authMiddleware_ok h₂)).trans hr₂⟩

theorem readsAlike_verified {β : Type} {f : User → Promise β} (hf : (f u).ReadsAlike w₁ w₂) :
    ((verifiedEmailMiddleware u).bind f).ReadsAlike w₁ w₂ := by
  unfold verifiedEmailMiddleware
  split
  · exact hf
  · exact Async.readsAlike_throw _

theorem readsAlike_select {α : Type} {query : Db → α} (h : query w₁.db = query w₂.db) :
    (select query).ReadsAlike w₁ w₂ :=
  ⟨.ok (query w₁.db), rfl, by rw [h]; rfl⟩

theorem AgreeFor.readsAlike_getUserProfile {userId : String} (h : AgreeFor userId w₁.db w₂.db) :
    (getUserProfile userId).ReadsAlike w₁ w₂ := by
  refine (readsAlike_select ?_).bind fun user => Async.readsAlike_pure _
  rw [Rows.lookup_eq_head?, Rows.lookup_eq_head?, h.users]

theorem AgreeFor.readsAlike_getBillingByUserId {userId : String}
    (h : AgreeFor userId w₁.db w₂.db) : (getBillingByUserId userId).ReadsAlike w₁ w₂ := by
  refine readsAlike_select ?_
  rw [Rows.lookup_eq_head?, Rows.lookup_eq_head?, h.billings]

theorem AgreeFor.readsAlike_getUserBilling (h : AgreeFor u.id w₁.db w₂.db) :
    (getUserBilling u).ReadsAlike w₁ w₂ := by
  refine h.readsAlike_getBillingByUserId.bind fun billing => ?_
  split
  · exact Async.readsAlike_pure _
  · refine Async.ReadsAlike.bind (readsAlike_select ?_) fun _ => Async.readsAlike_pure _
    rw [h.products]

/-- The procedures by which a user reads of its account and its billing. -/
def readProcedures : List Procedure := [.getUserById, .getUserBilling]

theorem AgreeFor.readsAlike_handle {procedure : Procedure} {input : Option Json} {typed : Request}
    (h : AgreeFor u.id w₁.db w₂.db) (hp : procedure ∈ readProcedures)
    (h₁ : Authenticates P w₁ auth u) (h₂ : Authenticates P w₂ auth u)
    (ht : (RawRequest.call procedure auth input).typed = some typed) :
    (handle P typed).Awaits ∧ (handle P typed).ReadsAlike w₁ w₂ := by
  have hdone : ∀ {α : Type} (f : α → Reply) (a : α),
      (Async.pure (f a) : Promise Reply).ReadsAlike w₁ w₂ := fun _ _ => Async.readsAlike_pure _
  simp only [readProcedures, List.mem_cons, List.not_mem_nil, or_false] at hp
  rcases hp with rfl | rfl
  · cases ht
    refine ⟨awaits_handle P (by simp), readsAlike_protected h₁ h₂ ?_⟩
    exact h.readsAlike_getUserProfile.bind (hdone _)
  · cases ht
    refine ⟨awaits_handle P (by simp), readsAlike_protected h₁ h₂ ?_⟩
    exact h.readsAlike_getUserBilling.bind (hdone _)

theorem readsAlike_middlewares (procedure : Procedure) (h₁ : Authenticates P w₁ auth u)
    (h₂ : Authenticates P w₂ auth u) : (middlewares P procedure auth).ReadsAlike w₁ w₂ := by
  have hdone : (Async.pure () : Promise Unit).ReadsAlike w₁ w₂ := Async.readsAlike_pure _
  cases procedure
  case createCheckoutSession =>
    exact readsAlike_protected h₁ h₂ (readsAlike_verified hdone)
  case createCustomerPortalSession =>
    exact readsAlike_protected h₁ h₂ (readsAlike_verified hdone)
  all_goals first | exact hdone | exact readsAlike_protected h₁ h₂ hdone

/-- Typed or not, a read is answered from the caller's own rows. -/
theorem AgreeFor.reply_eq {procedure : Procedure} {input : Option Json} {r₁ r₂ : Except Err Reply}
    {w₁' w₂' : World} (h : AgreeFor u.id w₁.db w₂.db) (hp : procedure ∈ readProcedures)
    (h₁ : Authenticates P w₁ auth u) (h₂ : Authenticates P w₂ auth u)
    (hx₁ : (handleRaw P (.call procedure auth input)).Exec w₁ r₁ w₁')
    (hx₂ : (handleRaw P (.call procedure auth input)).Exec w₂ r₂ w₂') : r₁ = r₂ := by
  suffices H : (handleRaw P (.call procedure auth input)).Awaits ∧
      (handleRaw P (.call procedure auth input)).ReadsAlike w₁ w₂ by
    obtain ⟨hawaits, r, hr₁, hr₂⟩ := H
    rw [Async.exec_iff_run hawaits] at hx₁ hx₂
    cases hr₁.symm.trans hx₁
    cases hr₂.symm.trans hx₂
    rfl
  rw [handleRaw_eq]
  split
  next typed ht => exact h.readsAlike_handle hp h₁ h₂ ht
  next =>
    exact ⟨(awaits_middlewares procedure auth).bind fun _ => trivial,
      (readsAlike_middlewares procedure h₁ h₂).bind fun _ => Async.readsAlike_throw _⟩

/-- Stripe would answer a portal call in the same way. -/
def StripeAlike (w₁ w₂ : World) : Prop :=
  w₁.env.stripe = w₂.env.stripe ∧ w₁.env.portalUrl = w₂.env.portalUrl

/-- From both worlds the program makes the same portal calls and changes nothing else, and it
settles the same way unless Stripe answers differently. -/
def PortalsAlike {α : Type} (w₁ w₂ : World) (p : Promise α) : Prop :=
  ∃ calls r₁ r₂, p.run w₁ = (r₁, { w₁ with portals := w₁.portals ++ calls }) ∧
    p.run w₂ = (r₂, { w₂ with portals := w₂.portals ++ calls }) ∧
    (calls = [] ∨ StripeAlike w₁ w₂ → r₁ = r₂)

section Portals
variable {α β : Type} {p : Promise α} {f : α → Promise β} {a : α}

theorem portalsAlike_of_reads (h : p.ReadsAlike w₁ w₂) : PortalsAlike w₁ w₂ p := by
  obtain ⟨r, hr₁, hr₂⟩ := h
  exact ⟨[], r, r, by simpa using hr₁, by simpa using hr₂, fun _ => rfl⟩

theorem portalsAlike_bind (h₁ : p.run w₁ = (.ok a, w₁)) (h₂ : p.run w₂ = (.ok a, w₂))
    (hf : PortalsAlike w₁ w₂ (f a)) : PortalsAlike w₁ w₂ (p.bind f) := by
  obtain ⟨calls, r₁, r₂, hr₁, hr₂, hsame⟩ := hf
  exact ⟨calls, r₁, r₂, (Async.run_bind_ok h₁).trans hr₁, (Async.run_bind_ok h₂).trans hr₂, hsame⟩

theorem PortalsAlike.answer (h : PortalsAlike w₁ w₂ p) (g : α → β) :
    PortalsAlike w₁ w₂ (p.bind fun a => .pure (g a)) := by
  obtain ⟨calls, r₁, r₂, hr₁, hr₂, hsame⟩ := h
  refine ⟨calls, r₁.map g, r₂.map g, ?_, ?_, fun hs => by rw [hsame hs]⟩
  · rw [Async.run_bind, hr₁]
    cases r₁ <;> rfl
  · rw [Async.run_bind, hr₂]
    cases r₂ <;> rfl

end Portals

/-- What the portal procedure makes of Stripe's answer. -/
def portalAnswer (env : Environment) : Except Err String :=
  match env.stripe with
  | .rejected message => .error (.error message)
  | .created => .ok env.portalUrl

/-- The customer handed to the portal is read from the caller's own row. -/
theorem AgreeFor.portalsAlike_createCustomerPortalSession {returnUrl : String}
    (h : AgreeFor u.id w₁.db w₂.db) :
    PortalsAlike w₁ w₂ (createCustomerPortalSession returnUrl u) := by
  have hrow : Rows.lookup Billing.userId u.id w₁.db.billings =
      Rows.lookup Billing.userId u.id w₂.db.billings := by
    rw [Rows.lookup_eq_head?, Rows.lookup_eq_head?, h.billings]
  refine portalsAlike_bind (run_getBillingByUserId ..) (hrow ▸ run_getBillingByUserId ..) ?_
  split
  · exact portalsAlike_of_reads (Async.readsAlike_throw _)
  split
  · exact portalsAlike_of_reads (Async.readsAlike_throw _)
  next billing _ _ =>
    refine ⟨[⟨billing.externalCustomerId, returnUrl⟩], portalAnswer w₁.env, portalAnswer w₂.env,
      ?_, ?_, ?_⟩
    · cases hs : w₁.env.stripe <;> simp [portalAnswer, hs]
    · cases hs : w₂.env.stripe <;> simp [portalAnswer, hs]
    · rintro (hnil | ⟨hstripe, hurl⟩)
      · cases hnil
      · rw [portalAnswer, portalAnswer, hstripe, hurl]

/-- Typed or not, a call of the portal procedure. -/
theorem AgreeFor.portals_eq {input : Option Json} {r₁ r₂ : Except Err Reply} {w₁' w₂' : World}
    (h : AgreeFor u.id w₁.db w₂.db) (h₁ : Authenticates P w₁ auth u)
    (h₂ : Authenticates P w₂ auth u)
    (hx₁ : (handleRaw P (.call .createCustomerPortalSession auth input)).Exec w₁ r₁ w₁')
    (hx₂ : (handleRaw P (.call .createCustomerPortalSession auth input)).Exec w₂ r₂ w₂') :
    ∃ calls, w₁'.portals = w₁.portals ++ calls ∧ w₂'.portals = w₂.portals ++ calls ∧
      (calls = [] ∨ StripeAlike w₁ w₂ → r₁ = r₂) := by
  suffices H : (handleRaw P (.call .createCustomerPortalSession auth input)).Awaits ∧
      PortalsAlike w₁ w₂ (handleRaw P (.call .createCustomerPortalSession auth input)) by
    obtain ⟨hawaits, calls, _, _, hr₁, hr₂, hsame⟩ := H
    rw [Async.exec_iff_run hawaits] at hx₁ hx₂
    cases hr₁.symm.trans hx₁
    cases hr₂.symm.trans hx₂
    exact ⟨calls, rfl, rfl, hsame⟩
  rw [handleRaw_eq]
  split
  next typed ht =>
    simp only [RawRequest.typed, Option.bind_eq_bind, Option.bind_eq_some_iff] at ht
    obtain ⟨_, -, returnUrl, -, ⟨⟩⟩ := ht
    refine ⟨awaits_handle P (by simp), portalsAlike_bind (run_authMiddleware_ok h₁)
      (run_authMiddleware_ok h₂) ?_⟩
    by_cases hverified : u.emailVerified = true
    · rw [verifiedEmailMiddleware, if_pos hverified]
      refine portalsAlike_bind (a := u) rfl rfl ?_
      unfold validated
      split
      · exact h.portalsAlike_createCustomerPortalSession.answer Reply.portal
      · exact portalsAlike_of_reads (Async.readsAlike_throw _)
    · rw [verifiedEmailMiddleware, if_neg hverified]
      exact portalsAlike_of_reads (Async.readsAlike_throw _)
  next =>
    exact ⟨(awaits_middlewares _ auth).bind fun _ => trivial, portalsAlike_of_reads
      ((readsAlike_middlewares _ h₁ h₂).bind fun _ => Async.readsAlike_throw _)⟩

end Reads

/-- In every reachable world a protected procedure leaves the rows of all other users as they are.
What a user reads, and the customer handed to the Stripe portal, is the same wherever the products
and the user's own rows are. -/
theorem tenant_isolation {auth : Option String} {u : User} {procedure : Procedure}
    (input : Option Json) :
    (∀ {w₀ w w' : World} {tr : List Entry} {reply : Except Err Reply}, Fresh w₀ →
      ServerRun P w₀ tr w → procedure ∈ protectedProcedures → Authenticates P w auth u →
      (handleRaw P (.call procedure auth input)).Exec w reply w' →
      w'.db.others u.id = w.db.others u.id) ∧
    ∀ {w₁ w₂ w₁' w₂' : World} {r₁ r₂ : Except Err Reply}, AgreeFor u.id w₁.db w₂.db →
      Authenticates P w₁ auth u → Authenticates P w₂ auth u →
      (handleRaw P (.call procedure auth input)).Exec w₁ r₁ w₁' →
      (handleRaw P (.call procedure auth input)).Exec w₂ r₂ w₂' →
      (procedure ∈ readProcedures → r₁ = r₂) ∧
      (procedure = .createCustomerPortalSession → ∃ calls, w₁'.portals = w₁.portals ++ calls ∧
        w₂'.portals = w₂.portals ++ calls ∧ (calls = [] ∨ StripeAlike w₁ w₂ → r₁ = r₂)) := by
  refine ⟨?_, fun h h₁ h₂ hx₁ hx₂ => ⟨fun hp => h.reply_eq hp h₁ h₂ hx₁ hx₂, ?_⟩⟩
  swap
  · rintro rfl
    exact h.portals_eq h₁ h₂ hx₁ hx₂
  intro w₀ w w' tr reply h₀ hrun hp hu hx
  rcases exec_handleRaw_cases hx with h | ⟨typed, ht, hx⟩
  · rw [h.2]
  · exact (effect_of_exec (RunWhere.trx hrun h₀.trx) hx).others (typed_header hp ht) hu

namespace Sample

def annHeader : Option String := some ("Bearer " ++ accessToken.text)

/-- Ann tries to take Bob's id with a new name, and then asks for the portal. -/
def takeId : Option Json := some (.object [("fullName", .string "Ann Low"), ("id", .string "u2")])

def crowdedRenamed : World :=
  ((handleRaw packages (.call .updateUserById annHeader takeId)).run crowded).2

def portal : RawRequest := .call .createCustomerPortalSession annHeader
  (some (.object [("returnUrl", .string "https://back")]))

set_option maxRecDepth 10000 in
theorem crowded_facts :
    ((authMiddleware packages annHeader).run crowded).1.toOption = some (buyer crowded) ∧
    ((authMiddleware packages annHeader).run bought).1.toOption = some (buyer crowded) ∧
    bought.db.products = crowded.db.products ∧
    ((bought.db.users.filter fun u => u.id = (buyer crowded).id) =
      crowded.db.users.filter fun u => u.id = (buyer crowded).id) ∧
    ((bought.db.billings.filter fun b => b.userId = (buyer crowded).id) =
      crowded.db.billings.filter fun b => b.userId = (buyer crowded).id) ∧
    bought.env.stripe = crowded.env.stripe ∧ bought.env.portalUrl = crowded.env.portalUrl := by
  decide +kernel

end Sample

/-- Bob's row survives Ann's update, and Ann's portal is the one she had before he came. -/
theorem tenant_isolation_neighbour :
    Sample.crowdedRenamed.db.others (Sample.buyer Sample.crowded).id =
      Sample.crowded.db.others (Sample.buyer Sample.crowded).id ∧
    ∃ calls, ((handleRaw Sample.packages Sample.portal).run Sample.bought).2.portals =
        Sample.bought.portals ++ calls ∧
      ((handleRaw Sample.packages Sample.portal).run Sample.crowded).2.portals =
        Sample.crowded.portals ++ calls ∧
      ((handleRaw Sample.packages Sample.portal).run Sample.bought).1 =
        ((handleRaw Sample.packages Sample.portal).run Sample.crowded).1 := by
  obtain ⟨hc, hb, hproducts, husers, hbillings, hstripe⟩ := Sample.crowded_facts
  obtain ⟨tr, hrun⟩ := serverRun_play Sample.packages Sample.start
    (Sample.purchase ++ [.wait { Sample.env with uuid := "u2" }, .ask (.signup Sample.bob)])
  replace hc := authenticates_of_run hc
  replace hb := authenticates_of_run hb
  constructor
  · exact (tenant_isolation Sample.takeId).1 Sample.start_fresh hrun (by decide) hc
      (Async.exec_run ..)
  · obtain ⟨calls, h₁, h₂, hsame⟩ := ((tenant_isolation _).2 ⟨hproducts, husers, hbillings⟩ hb hc
      (Async.exec_run ..) (Async.exec_run ..)).2 rfl
    exact ⟨calls, h₁, h₂, hsame (.inr hstripe)⟩

end CodebaseTrpc
