import CodebaseTrpc.Invariants.Confinement
import CodebaseTrpc.Model.SamplePackages

/-! Every step of every handler stays within the cells of its request: one lemma for each
program, and the pool they run in. -/
namespace CodebaseTrpc
variable {P : Packages} {I : World → Prop}

theorem keeps_dateNow : dateNow.Keeps I := fun _ hs => ⟨hs, trivial⟩
theorem keeps_surroundings : surroundings.Keeps I := fun _ hs => ⟨hs, trivial⟩
theorem keeps_generateSixDigitsVerificationCode : generateSixDigitsVerificationCode.Keeps I :=
  fun _ hs => ⟨hs, trivial⟩

theorem keeps_verifyJwtToken (token : String) : (verifyJwtToken P token).Keeps I := by
  unfold verifyJwtToken
  split
  · trivial
  · intro s hs
    refine ⟨hs, ?_⟩
    dsimp only
    split <;> trivial

theorem keeps_decodeJwtToken (token : String) : (decodeJwtToken P token).Keeps I := by
  unfold decodeJwtToken
  split
  · trivial
  · split <;> trivial

theorem keeps_getFreeTierProduct : getFreeTierProduct.Keeps I := by
  refine (keeps_select _ _).bind fun row => ?_
  split <;> trivial

theorem keeps_hasExpiredSubscription (userId : String) :
    (hasExpiredSubscription userId).Keeps I := by
  refine (keeps_select _ _).bind fun billing => ?_
  split
  · trivial
  · exact keeps_dateNow.bind fun _ => trivial

theorem keeps_checkTokenCooldown (user : User) (now : ℕ) :
    (checkTokenCooldown P user now).Keeps I := by
  unfold checkTokenCooldown
  split
  · trivial
  refine Async.Keeps.tryCatch ?_ fun _ => trivial
  refine (keeps_verifyJwtToken _).bind fun _ => (keeps_decodeJwtToken _).bind fun t => ?_
  dsimp only
  split <;> split <;> trivial

theorem keeps_getUserBilling (user : User) : (getUserBilling user).Keeps I := by
  refine (keeps_select _ _).bind fun billing => ?_
  split
  · trivial
  · exact (keeps_select _ _).bind fun _ => trivial

/-- A token that is decoded is one that `jwt.decode` reads. -/
theorem settles_decodeJwtToken (token : String) :
    (decodeJwtToken P token).Settles I fun r => ∀ t, r = .ok t → P.jwt.decode token = some t := by
  unfold decodeJwtToken
  split
  · intro t ht
    cases ht
  · split
    next => intro t ht; cases ht
    next u hu => intro t ht; cases ht; exact hu

theorem settles_verifyJwtToken (token : String) :
    (verifyJwtToken P token).Settles I fun r => r = .ok () → P.jwt.authentic token = true := by
  unfold verifyJwtToken
  split
  · exact fun h => by cases h
  · intro s hs
    refine ⟨hs, ?_⟩
    dsimp only
    split
    next hlive => exact fun _ => hlive.1
    next => exact fun h => by cases h

/-- What a token that was verified and decoded is worth. -/
theorem bearerOf_eq {token : String} {t : Token} (ha : P.jwt.authentic token = true)
    (ht : P.jwt.decode token = some t) : bearerOf P token = some t.userId := by
  simp [bearerOf, ha, ht]

theorem bearerOf_sign (t : Token) : bearerOf P (P.jwt.sign t) = some t.userId :=
  bearerOf_eq (P.jwt.authentic_sign t) (P.jwt.decode_sign t)

theorem settles_getUserById (id : String) :
    (getUserById id).Settles I fun r => ∀ u, r = .ok (some u) → u.id = id := by
  refine fun s hs => ⟨hs, fun u hu => ?_⟩
  exact Rows.lookup_key (Except.ok.inj hu)

/-- The user that the middleware passes on is the one that the header's token names. -/
theorem settles_authMiddleware (auth : Option String) :
    (authMiddleware P auth).Settles I fun r =>
      ∀ u, r = .ok u → Request.subject P (.logout auth) = some u.id := by
  cases hh : truthyText auth with
  | none =>
    simp only [authMiddleware, hh]
    intro u hu
    cases hu
  | some header =>
    obtain ⟨rfl, hne⟩ := truthyText_eq_some hh
    rw [authMiddleware_eq header hne]
    refine Async.Settles.tryCatch (Q := fun r => ∀ u, r = .ok u →
      Request.subject P (.logout (some header)) = some u.id) ?_ (fun _ h => h) fun e _ => ?_
    · refine (settles_verifyJwtToken _).bind (fun _ _ _ hu => by cases hu) fun _ ha => ?_
      refine (settles_decodeJwtToken _).bind (fun _ _ _ hu => by cases hu) fun t ht => ?_
      refine (settles_getUserById _).bind (fun _ _ _ hu => by cases hu) fun user huser => ?_
      cases user with
      | none => intro u hu; cases hu
      | some user =>
        intro u hu
        cases hu
        simp [Request.subject, hh, bearerOf_eq (ha rfl) (ht t rfl), huser user rfl]
    · split <;> intro u hu <;> cases hu

section Parts
variable {g : Permit} {w₀ : World}

/-- A local action that leaves the tables alone. -/
theorem confined_act {α : Type} {upd : World → World} {k : World → Promise α}
    (hupd : ∀ s, (upd s).db = s.db ∧ (upd s).trx = s.trx)
    (hk : ∀ s, (k s).Keeps (Confined g w₀)) : (Async.act upd k).Keeps (Confined g w₀) :=
  fun s hs => ⟨hs.frame (hupd s).1 (hupd s).2, hk s⟩

theorem confined_generateJwtToken (kind : TokenKind) (input : Token) (expiresIn : ℕ) :
    (generateJwtToken P kind input expiresIn).Keeps (Confined g w₀) :=
  confined_act (fun _ => ⟨rfl, rfl⟩) fun _ => trivial

theorem confined_sendOr (mail : Mail) (message : String) :
    (sendOr mail message).Keeps (Confined g w₀) := by
  refine Async.Keeps.tryCatch (confined_act (fun _ => ⟨rfl, rfl⟩) fun s => ?_) fun _ => trivial
  split <;> trivial

theorem confined_updateUserById {id : String} (updates : UserUpdates)
    (hW : ∀ c, updates.Writes c → g.cell id c) (hv : updates.emailVerified ≠ .set false) :
    (updateUserById id updates).Keeps (Confined g w₀) :=
  keeps_write fun _ hs => hs.update hW hv

/-- The write of a pending secret. -/
theorem confined_storePending {id token : String} (h : g.cell id .emailVerificationToken) :
    (updateUserById id { emailVerificationToken := .set (some token) }).Keeps (Confined g w₀) :=
  confined_updateUserById (storePending token) (by simpa using h) nofun

theorem confined_startSession {id : String} (hp : g.cell id .currentProductId)
    (hr : g.cell id .refreshToken) : (startSession P id).Keeps (Confined g w₀) := by
  have hproduct : (downgradeToFreeTier id).Keeps (Confined g w₀) := by
    refine keeps_getFreeTierProduct.bind fun _ => Async.Keeps.bind ?_ fun _ => trivial
    exact confined_updateUserById (setProduct _) (by simpa using hp) nofun
  have hsession : ((generateTokens P id).bind fun tokens =>
      (updateUserById id { refreshToken := .set (some tokens.refreshToken) }).bind fun _ =>
        .pure tokens).Keeps (Confined g w₀) := by
    refine Async.Keeps.bind ?_ fun _ => Async.Keeps.bind ?_ fun _ => trivial
    · exact (confined_generateJwtToken ..).bind fun _ =>
        (confined_generateJwtToken ..).bind fun _ => trivial
    · exact confined_updateUserById (storeRefresh _) (by simpa using hr) nofun
  refine (keeps_hasExpiredSubscription _).bind fun expired => ?_
  dsimp only
  split
  · exact hproduct.bind fun _ => hsession
  · exact hsession

/-- The updated row is the one that was asked for. -/
theorem settles_updateUserById {id : String} (updates : UserUpdates)
    (hW : ∀ c, updates.Writes c → g.cell id c) (hv : updates.emailVerified ≠ .set false) :
    (updateUserById id updates).Settles (Confined g w₀) fun r => ∀ u, r = .ok u → u.id = id := by
  intro s hs
  have hup : Confined g w₀ (s.exec (updateUser id updates)) := hs.update hW hv
  simp only [World.exec, World.view, World.put] at hup ⊢
  rcases he : updateUser id updates s s.db with e | ⟨u, db⟩
  · exact ⟨by simpa [he] using hup, fun u hu => by cases hu⟩
  · refine ⟨by simpa [he] using hup, fun v hv => ?_⟩
    cases hv
    obtain ⟨old, hold, rfl, -⟩ := updateUser_ok he
    exact (Rows.lookup_key hold : old.id = id)

/-- The created row is none of those from before, so that its pending secret is written where
nothing is promised. -/
theorem settles_createUser (input : CreateUserInput) (hj : g.joins) :
    (createUser input).Settles (Confined g w₀) fun r =>
      ∀ u, r = .ok u → ∀ v ∈ w₀.db.users, v.id ≠ u.id := by
  intro s hs
  have hins : Confined g w₀ (s.exec (insertUser input)) := hs.insert hj
  simp only [World.exec, World.view, World.put] at hins ⊢
  rcases he : insertUser input s s.db with e | ⟨u, db⟩
  · exact ⟨by simpa [he] using hins, fun u hu => by cases hu⟩
  · refine ⟨by simpa [he] using hins, fun v hv => ?_⟩
    cases hv
    exact hs.fresh he

theorem confined_registerUser (input : SignupInput) (hj : g.joins)
    (hnew : ∀ id, (∀ v ∈ w₀.db.users, v.id ≠ id) → ∀ c, g.cell id c) :
    (registerUser P input).Keeps (Confined g w₀) := by
  rw [registerUser_eq]
  refine keeps_surroundings.bind fun _ => keeps_getFreeTierProduct.bind fun _ =>
    (settles_createUser _ hj).bind_keeps fun user huser => ?_
  refine (confined_generateJwtToken ..).bind fun token =>
    (confined_storePending (hnew _ (huser user rfl) _)).bind fun _ =>
      Async.Keeps.bind ?_ fun _ => ?_
  · exact (confined_sendOr ..).tryCatch fun _ => trivial
  · refine (keeps_getUserProfile _ _).bind fun profile => ?_
    split <;> trivial

theorem confined_verifyUserEmail (token : String)
    (hv : ∀ id, bearerOf P token = some id → g.cell id .emailVerified) :
    (verifyUserEmail P token).Keeps (Confined g w₀) := by
  refine (settles_verifyJwtToken token).bind_keeps fun _ ha =>
    (settles_decodeJwtToken token).bind_keeps fun t ht => ?_
  split
  · trivial
  refine (settles_getUserById _).bind_keeps fun user huser => ?_
  split
  · trivial
  next u =>
    split
    · trivial
    · split
      · trivial
      · refine Async.Keeps.bind (confined_updateUserById markVerified (fun c hc => ?_) nofun)
          fun _ => trivial
        rw [writes_markVerified.mp hc, huser u rfl]
        exact hv _ (bearerOf_eq (ha rfl) (ht t rfl))

theorem confined_resetPassword (token newPassword : String)
    (hp : ∀ id, bearerOf P token = some id → g.cell id .passwordHash) :
    (resetPassword P token newPassword).Keeps (Confined g w₀) := by
  refine (settles_verifyJwtToken token).bind_keeps fun _ ha =>
    (settles_decodeJwtToken token).bind_keeps fun t ht => ?_
  split
  · trivial
  refine (settles_getUserById _).bind_keeps fun user huser => ?_
  split
  · trivial
  next u =>
    refine keeps_surroundings.bind fun env => Async.Keeps.bind
      (confined_updateUserById (storePassword _) (fun c hc => ?_) nofun) fun _ => trivial
    rw [writes_storePassword.mp hc, huser u rfl]
    exact hp _ (bearerOf_eq (ha rfl) (ht t rfl))

theorem confined_revokeUserRefreshToken (userId : String) :
    (revokeUserRefreshToken userId).Keeps (Confined g w₀) :=
  (confined_updateUserById keepRefresh (fun _ hc => absurd hc writes_keepRefresh) nofun).bind
    fun _ => trivial

theorem confined_resendVerificationEmail {userId : String}
    (h : g.cell userId .emailVerificationToken) :
    (resendVerificationEmail P userId).Keeps (Confined g w₀) := by
  refine (settles_getUserById _).bind_keeps fun user huser => ?_
  split
  · trivial
  next u =>
    split
    · trivial
    · exact (confined_generateJwtToken ..).bind fun token =>
        (confined_storePending (huser u rfl ▸ h)).bind fun _ => confined_sendOr ..

theorem confined_forgotPassword (email : String) :
    (forgotPassword P email).Keeps (Confined g w₀) := by
  refine (keeps_select _ _).bind fun user => ?_
  split
  · trivial
  · exact (confined_generateJwtToken ..).bind fun _ => confined_sendOr ..

theorem confined_updateUserProfile {userId : String} (input : UpdateUserInput)
    (h : ∀ c, input.updates.Writes c → g.cell userId c) :
    (updateUserProfile userId input).Keeps (Confined g w₀) :=
  (confined_updateUserById _ h nofun).bind fun _ => trivial

theorem confined_requestEmailChange {userId : String} (newEmail : String)
    (h : g.cell userId .emailVerificationToken) :
    (requestEmailChange P userId newEmail).Keeps (Confined g w₀) := by
  refine (keeps_select _ _).bind fun user => ?_
  split
  · trivial
  split
  · trivial
  refine (keeps_select _ _).bind fun existing => ?_
  split
  · trivial
  · exact keeps_dateNow.bind fun _ => (keeps_checkTokenCooldown ..).bind fun _ =>
      keeps_generateSixDigitsVerificationCode.bind fun _ =>
      (confined_generateJwtToken ..).bind fun _ =>
      (confined_storePending h).bind fun _ => confined_sendOr ..

/-- The check that is not awaited writes the secret that holds its counter. -/
theorem confined_verifyEmailChange {userId : String} (code : String)
    (h : ∀ c ∈ [Column.email, .googleId, .emailVerified, .emailVerificationToken],
      g.cell userId c) : (verifyEmailChange P userId code).Keeps (Confined g w₀) := by
  rw [verifyEmailChange_eq]
  refine (keeps_select _ _).bind fun user => ?_
  split
  · trivial
  split
  · trivial
  refine (keeps_verifyJwtToken _).bind fun _ => (keeps_decodeJwtToken _).bind fun t => ?_
  split
  · trivial
  unfold checkedChange
  split
  swap
  · trivial
  split
  · trivial
  constructor
  · refine keeps_verifyEmailChangeCode_of fun s v iat _ hv _ =>
      ⟨hv.frame rfl rfl, fun x hx => hx.update (fun c hc => ?_) nofun⟩
    rw [writes_storePending.mp hc]
    exact h _ (by simp)
  · rw [applyEmailChange_eq]
    refine (keeps_select _ _).bind fun existing => ?_
    split
    · trivial
    refine (confined_updateUserById (changeEmail _) (fun c hc => ?_) nofun).bind fun _ => ?_
    · exact h c (writes_changeEmail.mp hc)
    · refine (keeps_getUserProfile _ _).bind fun profile => ?_
      split <;> trivial

theorem confined_createCheckoutSession (input : CreateCheckoutSessionInput) (user : User) :
    (createCheckoutSession input user).Keeps (Confined g w₀) := by
  refine (keeps_select _ _).bind fun product => ?_
  split
  · trivial
  split
  · refine (keeps_select _ _).bind fun billing => confined_act (fun _ => ⟨rfl, rfl⟩) fun s => ?_
    split
    · trivial
    · split <;> trivial
  · trivial

theorem confined_createCustomerPortalSession (returnUrl : String) (user : User) :
    (createCustomerPortalSession returnUrl user).Keeps (Confined g w₀) := by
  refine (keeps_select _ _).bind fun billing => ?_
  split
  · trivial
  split
  · trivial
  · exact confined_act (fun _ => ⟨rfl, rfl⟩) fun s => by split <;> trivial

section Found
variable {Seen : World → Prop}

/-- What is done with an answer of the tables. `Seen` are the worlds that the steps start from. -/
theorem keepsWhere_select {α β : Type} {query : Db → α} {f : α → Promise β}
    (h : ∀ w, Seen w → (f (query w.db)).KeepsWhere (fun _ w => Seen w) (Confined g w₀)) :
    ((select query).bind f).KeepsWhere (fun _ w => Seen w) (Confined g w₀) :=
  .stmt fun w hs hw => ⟨hs, h w hw⟩

theorem confined_authenticateUser {input : LoginInput} (hfound : ∀ id,
    (Request.login input).Finds P Seen id → ∀ c, (Request.login input).FoundColumn c →
      g.cell id c) :
    (authenticateUser P input).KeepsWhere (fun _ w => Seen w) (Confined g w₀) := by
  rw [authenticateUser_eq]
  refine keepsWhere_select fun w hw => .of_keeps ?_
  split
  · trivial
  next u hu =>
    split
    · trivial
    next hpw =>
      have hcell := hfound u.id ⟨w, u, hw, Rows.lookup_mem hu, rfl, Rows.lookup_key hu,
        by simpa using hpw⟩
      exact confined_startSession (hcell _ (by simp [Request.FoundColumn]))
        (hcell _ (by simp [Request.FoundColumn]))

theorem confined_refreshAccessToken {token : String} (hfound : ∀ id,
    (Request.refresh token).Finds P Seen id → ∀ c, (Request.refresh token).FoundColumn c →
      g.cell id c) :
    (refreshAccessToken P token).KeepsWhere (fun _ w => Seen w) (Confined g w₀) := by
  rw [refreshAccessToken_eq]
  by_cases ha : P.jwt.authentic token = true
  swap
  · refine .of_keeps ((settles_verifyJwtToken token).bind_keeps fun _ h => ?_)
    exact absurd (h rfl) ha
  refine .bind (keeps_verifyJwtToken _) fun _ => keepsWhere_select fun w hw => .of_keeps ?_
  split
  · trivial
  next u hu =>
    have hcell := hfound u.id ⟨ha, w, u, hw, Rows.lookup_mem hu, rfl, Rows.lookup_key hu⟩
    exact confined_startSession (hcell _ (by simp [Request.FoundColumn]))
      (hcell _ (by simp [Request.FoundColumn]))

/-- A sign-in writes to a row that it finds by its payload, or to the one that it adds. -/
theorem confined_authenticateWithGoogle {credential : String} (hj : g.joins)
    (hnew : ∀ id, (∀ v ∈ w₀.db.users, v.id ≠ id) → ∀ c, g.cell id c)
    (hfound : ∀ id, (Request.google credential).Finds P Seen id → ∀ c,
      (Request.google credential).FoundColumn c → g.cell id c) :
    (authenticateWithGoogle P).KeepsWhere (fun _ w => Seen w) (Confined g w₀) := by
  have hsession : ∀ u : User, (∀ c, (Request.google credential).FoundColumn c → g.cell u.id c) →
      (startSession P u.id).Keeps (Confined g w₀) := fun u hcell =>
    confined_startSession (hcell _ (by simp [Request.FoundColumn]))
      (hcell _ (by simp [Request.FoundColumn]))
  rw [authenticateWithGoogle_eq]
  refine .act fun v hv hsv => ⟨hv, ?_⟩
  dsimp only
  split
  · exact .of_keeps trivial
  · exact .of_keeps trivial
  next ticket hticket =>
    split
    · exact .of_keeps trivial
    next payload hpayload =>
      have hpay : GooglePayload P v payload := ⟨ticket, hticket, hpayload⟩
      rw [Async.bind_pure_left, resolveGoogle, Async.bind_eq, Async.bind_assoc]
      refine keepsWhere_select fun w hw => ?_
      split
      next u hu =>
        refine .of_keeps (hsession u fun c hc => hfound _ ?_ c hc)
        exact ⟨v, payload, w, u, hsv, hpay, hw, Rows.lookup_mem hu, rfl, .inl (Rows.lookup_key hu)⟩
      rw [Async.bind_eq, Async.bind_assoc]
      refine keepsWhere_select fun w hw => .of_keeps ?_
      split
      next u hu =>
        have hcell := hfound u.id ⟨v, payload, w, u, hsv, hpay, hw, Rows.lookup_mem hu, rfl,
          .inr (Rows.lookup_key hu)⟩
        refine (settles_updateUserById (linkGoogle _) (fun c hc => hcell c ?_)
          (fun h => by cases h)).bind_keeps fun u' hid => hsession u' (hid u' rfl ▸ hcell)
        rcases writes_linkGoogle.mp hc with rfl | rfl <;> simp [Request.FoundColumn]
      next =>
        simp only [Async.bind_eq, Async.bind_assoc]
        exact keeps_surroundings.bind fun _ => keeps_getFreeTierProduct.bind fun _ =>
          (settles_createUser _ hj).bind_keeps fun u hfresh =>
            hsession u fun c _ => hnew _ (hfresh u rfl) c

theorem confined_ifSubscribed {s : String} {write : Billing → Promise Unit}
    (h : ∀ w b, Seen w → b ∈ w.db.billings → b.externalSubscriptionId = s →
      (write b).Keeps (Confined g w₀)) :
    (ifSubscribed s write).KeepsWhere (fun _ w => Seen w) (Confined g w₀) := by
  unfold ifSubscribed
  split
  · exact .of_keeps trivial
  refine keepsWhere_select fun w hw => .of_keeps ?_
  split
  · trivial
  next b hb => exact h w b hw (Rows.lookup_mem hb) (Rows.lookup_key hb)

theorem confined_invoicePaid {invoice : Invoice}
    (hfound : ∀ id, (Request.webhook (.invoicePaid invoice)).Finds P Seen id →
      g.cell id .currentProductId) (hbills : g.bills) :
    (invoicePaid invoice).KeepsWhere (fun _ w => Seen w) (Confined g w₀) := by
  unfold invoicePaid
  split
  · exact .of_keeps trivial
  · exact .of_keeps trivial
  split
  · exact .of_keeps trivial
  split
  · exact .of_keeps trivial
  refine .bind (keeps_select _ _) fun product => ?_
  split
  · exact .of_keeps trivial
  split
  · exact .of_keeps trivial
  refine keepsWhere_select fun w hw => .of_keeps ?_
  split
  · trivial
  next user hu =>
    have hcell : g.cell user.id .currentProductId :=
      hfound _ ⟨w, user, hw, Rows.lookup_mem hu, rfl, Rows.lookup_key hu⟩
    exact (keeps_select _ _).bind fun _ =>
      keeps_transaction fun _ hs => hs.registerUserBilling hcell hbills

theorem confined_processBillingWebhookHandler {event : BillingEvent}
    (hfound : ∀ id, (Request.webhook event).Finds P Seen id → g.cell id .currentProductId)
    (hbills : g.bills) :
    (processBillingWebhookHandler event).KeepsWhere (fun _ w => Seen w) (Confined g w₀) := by
  cases event with
  | invoicePaid invoice => exact confined_invoicePaid hfound hbills
  | invoicePaymentFailed invoice =>
    rw [processBillingWebhookHandler, invoicePaymentFailed_eq]
    split
    · exact .of_keeps trivial
    · exact confined_ifSubscribed fun _ b _ _ _ =>
        (keeps_write fun _ hs => hs.paymentFailed hbills).bind fun _ => trivial
  | subscriptionUpdated subscription =>
    have hupdated : ∀ input : SubscriptionUpdate, input.externalSubscriptionId = subscription.id →
        (updateBillingOnSubscriptionUpdated input).KeepsWhere (fun _ w => Seen w)
          (Confined g w₀) := by
      intro input hid
      refine confined_ifSubscribed fun w b hw hb hs => keeps_transaction fun _ hc => ?_
      exact hc.subscriptionUpdated (hfound _ ⟨w, b, hw, hb, rfl, hs.trans hid⟩) hbills
    simp only [processBillingWebhookHandler, subscriptionUpdated]
    split
    · exact .of_keeps trivial
    · split
      · exact hupdated _ rfl
      · exact .bind (keeps_select _ _) fun _ => hupdated _ rfl
  | subscriptionDeleted subscription =>
    refine confined_ifSubscribed fun w b hw hb hs => keeps_transaction fun _ hc => ?_
    exact hc.subscriptionDeleted (hfound _ ⟨w, b, hw, hb, rfl, hs⟩) hbills
  | other type => exact .of_keeps trivial

end Found

end Parts

theorem keeps_validated {α : Type} {schema : Prop} [Decidable schema] {resolve : Promise α}
    (h : resolve.Keeps I) : (validated schema resolve).Keeps I := by
  unfold validated
  split
  · exact h
  · trivial

theorem keepsWhere_validated {α : Type} {C : Promise α → World → Prop} {schema : Prop}
    [Decidable schema] {resolve : Promise α} (h : resolve.KeepsWhere C I) :
    (validated schema resolve).KeepsWhere C I := by
  unfold validated
  split
  · exact h
  · exact .of_keeps trivial

/-- The cells that some request may write, and those of users who are not there yet. -/
def permit (P : Packages) (A : Request → Prop) (Seen : World → Prop) (w₀ : World) : Permit where
  cell id c :=
    (∃ request, A request ∧ request.MayWrite P Seen id c) ∨ ∀ v ∈ w₀.db.users, v.id ≠ id
  joins := ∃ request, A request ∧ request.Joins
  bills := ∃ request, A request ∧ request.Bills

section Handle
variable {A : Request → Prop} {request : Request} {Seen : World → Prop}

/-- Where a request writes to no row but that of its subject, or to a new one, its steps do not
depend on what is seen. -/
theorem confined_own (hA : A request) (hfound : ∀ c, ¬ request.FoundColumn c) (w₀ : World) :
    (handle P request).Keeps (Confined (permit P A Seen w₀) w₀) := by
  have hown : ∀ id, request.subject P = some id → ∀ c, request.OwnColumn c →
      (permit P A Seen w₀).cell id c := fun id hs c hc => .inl ⟨request, hA, .inl ⟨hs, hc⟩⟩
  cases request with
  | google credential => exact absurd (by simp [Request.FoundColumn]) (hfound .googleId)
  | login input => exact absurd (by simp [Request.FoundColumn]) (hfound .refreshToken)
  | refresh token => exact absurd (by simp [Request.FoundColumn]) (hfound .refreshToken)
  | webhook event => exact absurd rfl (hfound .currentProductId)
  | signup input =>
    have hnew : ∀ id, (∀ v ∈ w₀.db.users, v.id ≠ id) → ∀ c, (permit P A Seen w₀).cell id c :=
      fun id hid c => .inr hid
    have hj : (permit P A Seen w₀).joins := ⟨_, hA, trivial⟩
    exact keeps_validated ((confined_registerUser input hj hnew).bind fun _ => trivial)
  | logout auth =>
    exact (settles_authMiddleware auth).keeps.bind fun user =>
      (confined_revokeUserRefreshToken _).bind fun _ => trivial
  | verifyEmail token =>
    exact (confined_verifyUserEmail token fun id hid => hown id hid _ rfl).bind fun _ => trivial
  | resendVerificationEmail auth =>
    refine (settles_authMiddleware auth).bind_keeps fun user huser => ?_
    exact (confined_resendVerificationEmail (hown _ (huser user rfl) _ rfl)).bind fun _ => trivial
  | forgotPassword email =>
    exact keeps_validated ((confined_forgotPassword email).bind fun _ => trivial)
  | resetPassword token newPassword =>
    exact keeps_validated ((confined_resetPassword token newPassword
      fun id hid => hown id hid _ rfl).bind fun _ => trivial)
  | getUserById auth =>
    exact (settles_authMiddleware auth).keeps.bind fun user =>
      (keeps_getUserProfile _ _).bind fun _ => trivial
  | updateUserById auth input =>
    refine (settles_authMiddleware auth).bind_keeps fun user huser => ?_
    exact keeps_validated ((confined_updateUserProfile input (hown _ (huser user rfl))).bind
      fun _ => trivial)
  | requestEmailChange auth newEmail =>
    refine (settles_authMiddleware auth).bind_keeps fun user huser => ?_
    exact keeps_validated ((confined_requestEmailChange newEmail
      (hown _ (huser user rfl) _ rfl)).bind fun _ => trivial)
  | verifyEmailChange auth code =>
    refine (settles_authMiddleware auth).bind_keeps fun user huser => ?_
    exact keeps_validated ((confined_verifyEmailChange code (hown _ (huser user rfl))).bind
      fun _ => trivial)
  | getUserBilling auth =>
    exact (settles_authMiddleware auth).keeps.bind fun user =>
      (keeps_getUserBilling user).bind fun _ => trivial
  | createCheckoutSession auth input =>
    refine (settles_authMiddleware auth).keeps.bind fun user => Async.Keeps.bind ?_ fun user => ?_
    · unfold verifiedEmailMiddleware
      split <;> trivial
    · exact keeps_validated ((confined_createCheckoutSession input user).bind fun _ => trivial)
  | createCustomerPortalSession auth returnUrl =>
    refine (settles_authMiddleware auth).keeps.bind fun user => Async.Keeps.bind ?_ fun user => ?_
    · unfold verifiedEmailMiddleware
      split <;> trivial
    · exact keeps_validated
        ((confined_createCustomerPortalSession returnUrl user).bind fun _ => trivial)

theorem confined_handle (hA : A request) (w₀ : World) : (handle P request).KeepsWhere
    (fun _ w => Seen w) (Confined (permit P A Seen w₀) w₀) := by
  have hfound : ∀ id, request.Finds P Seen id → ∀ c, request.FoundColumn c →
      (permit P A Seen w₀).cell id c := fun id hf c hc => .inl ⟨request, hA, .inr ⟨hf, hc⟩⟩
  cases request with
  | google credential =>
    have hnew : ∀ id, (∀ v ∈ w₀.db.users, v.id ≠ id) → ∀ c, (permit P A Seen w₀).cell id c :=
      fun id hid c => .inr hid
    have hj : (permit P A Seen w₀).joins := ⟨_, hA, trivial⟩
    exact keepsWhere_validated ((confined_authenticateWithGoogle hj hnew hfound).bind_keeps
      fun _ => trivial)
  | login input =>
    exact keepsWhere_validated ((confined_authenticateUser hfound).bind_keeps fun _ => trivial)
  | refresh token =>
    exact keepsWhere_validated ((confined_refreshAccessToken hfound).bind_keeps fun _ => trivial)
  | webhook event =>
    have hbills : (permit P A Seen w₀).bills := ⟨_, hA, trivial⟩
    exact (confined_processBillingWebhookHandler (fun id hf => hfound id hf _ rfl)
      hbills).bind_keeps fun _ => trivial
  | _ => exact .of_keeps (confined_own hA (by simp [Request.FoundColumn]) w₀)

end Handle

/-- The handlers of a set of requests. -/
def Admitted (P : Packages) (A : Request → Prop) (p : Promise Reply) : Prop :=
  ∃ request, A request ∧ p = handle P request

/-- The worlds that the requests go through. -/
abbrev Between (P : Packages) (A : Request → Prop) (w : World)
    (calls : List (Async.Call World Err Reply)) (w' : World) : World → Prop :=
  Async.Pool.Passed (Async.Pool.Step (Admitted P A) Ticks) ([], w) (calls, w')

/-- What any number of requests, their steps in any order, did to the tables. -/
theorem confined_of_steps {A : Request → Prop} {w w' : World}
    {calls : List (Async.Call World Err Reply)} (htrx : w.trx = none)
    (h : Async.Pool.Steps (Admitted P A) Ticks ([], w) (calls, w')) :
    Confined (permit P A (Between P A w calls w') w) w w' := by
  refine ((Async.Pool.Steps.stepsWhere_passed h .refl).keeps ?_ ?_ (by simp) (.refl htrx)).1
  · rintro _ ⟨request, hA, rfl⟩
    exact confined_handle hA w
  · rintro s _ ⟨-⟩ hs
    exact hs.frame rfl rfl

/-- Of a row that was there, only the cells changed that some request may write. -/
theorem Confined.users_kept {A : Request → Prop} {Seen : World → Prop} {w w' : World}
    (h : Confined (permit P A Seen w) w w') :
    Rows.Evolved (Kept fun id c => ∃ request, A request ∧ request.MayWrite P Seen id c)
      (fun _ => ∃ request, A request ∧ request.Joins) w.db.users w'.db.users := by
  refine h.users.mono (fun u hu u' hkept => ?_) fun _ hj => hj
  refine { hkept with cells := fun c hc => hkept.cells c ?_ }
  rintro (hmay | hnew)
  · exact hc hmay
  · exact hnew u hu rfl

theorem Confined.freeTier {g : Permit} {w₀ w : World} (h : Confined g w₀ w) :
    w.freeTier = w₀.freeTier := by
  rw [World.freeTier, h.products]
  rfl

/-- Where no request may write billings, none changed. -/
theorem Confined.billings_eq {g : Permit} {w₀ w : World} (h : Confined g w₀ w) (hb : ¬ g.bills) :
    w.db.billings = w₀.db.billings := by
  obtain ⟨kept, added, heq, hkept, hadded⟩ := h.billings
  have hnil : added = [] := List.eq_nil_iff_forall_not_mem.mpr fun b hmem => hb (hadded b hmem)
  have hsame : List.Forall₂ Eq w₀.db.billings kept := hkept.imp fun _ _ hk => (hk.frozen hb).symm
  rw [List.forall₂_eq_eq_eq] at hsame
  rw [heq, hnil, List.append_nil, hsame]

namespace Sample

/-- Ann begins to log in: her request is on its way, and not answered yet. -/
def loginBegun (w : World) : Async.Pool World Err Reply :=
  Async.Pool.runSchedule [0, 0, 0] ([⟨handle packages (.login annLogin), []⟩], w)

def onlyLogin (request : Request) : Prop := request = .login annLogin

theorem steps_loginBegun (w : World) : Async.Pool.Steps (Admitted packages onlyLogin) Ticks
    ([], w) ((loginBegun w).1, (loginBegun w).2) :=
  .head (.arrive ⟨_, rfl, rfl⟩) (Async.Pool.steps_runSchedule ..)

end Sample

end CodebaseTrpc
