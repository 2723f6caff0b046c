import CodebaseTrpc.Async.Yields
import CodebaseTrpc.Properties.Answers

/-! Each procedure answers as its contract says, or is rejected for a reason that `Refusal` lists.
`I` are the worlds that its steps start from and end in, in an interleaving with any other calls;
`L` is whether its statements may be lost. -/
namespace CodebaseTrpc
variable {P : Packages} {I : World → Prop} {L : Prop} {R : Err → Prop}

section Statements
variable {α : Type} {Q : α → Prop}

theorem yields_select {query : Db → α} (hlost : L → R connectionLost) :
    (select query).Yields I L (fun a => ∃ w, I w ∧ a = query w.db) R :=
  ⟨fun w hw _ => ⟨w, hw, rfl⟩, hlost⟩

/-- What is done with the row that a lookup finds, or without one. -/
theorem yields_lookup {ρ κ : Type} [DecidableEq κ] {key : ρ → κ} {k : κ} {rows : Db → List ρ}
    {f : Option ρ → Promise α} (hlost : L → R connectionLost)
    (hnone : ∀ w, I w → Rows.lookup key k (rows w.db) = none → (f none).Yields I L Q R)
    (hsome : ∀ w a, I w → Rows.lookup key k (rows w.db) = some a → a ∈ rows w.db → key a = k →
      (f (some a)).Yields I L Q R) :
    ((select fun db => Rows.lookup key k (rows db)).bind f).Yields I L Q R := by
  refine (yields_select hlost).bind fun row hread => ?_
  obtain ⟨w, hw, hrow⟩ := hread
  cases row with
  | none => exact hnone w hw hrow.symm
  | some a =>
    exact hsome w a hw hrow.symm (Rows.lookup_mem hrow.symm) (Rows.lookup_key hrow.symm)

theorem not_constraints_of_store? {us : List User} {ps : List Product} {bs : List Billing}
    (h : Db.store? us ps bs = none) : ¬ Constraints us ps bs := by
  intro hsound
  simp [store?_of_constraints hsound] at h

theorem yields_write {statement : World → Db → Except Err (α × Db)}
    (hlost : L → R connectionLost)
    (hok : ∀ w a db, I w → I { w with db } → statement w w.db = .ok (a, db) → Q a)
    (herror : ∀ w e, I w → statement w w.db = .error e → R e) :
    (write .knex statement).Yields I L Q R := by
  refine ⟨fun w hw hw' => ?_, hlost⟩
  simp only [World.view, World.put] at hw' ⊢
  cases hs : statement w w.db with
  | error e => exact herror w e hw hs
  | ok x =>
    rw [hs] at hw'
    exact hok w x.1 x.2 hw hw' hs

end Statements

theorem yields_dateNow : dateNow.Yields I L (fun _ => True) R := fun _ _ _ => trivial
theorem yields_surroundings : surroundings.Yields I L (fun _ => True) R := fun _ _ _ => trivial

theorem yields_generateJwtToken (kind : TokenKind) (input : Token) (expiresIn : ℕ) :
    (generateJwtToken P kind input expiresIn).Yields I L
      (fun token => bearerOf P token = some input.userId) R := fun _ _ _ => bearerOf_sign _

theorem yields_verifyJwtToken (token : String) (hempty : token = "" → R tokenRequired)
    (hdead : ∀ w, I w → ¬ Live P token w.env.now → R (tokenError P token)) :
    (verifyJwtToken P token).Yields I L (fun _ => P.jwt.authentic token = true) R := by
  unfold verifyJwtToken
  split
  next h => exact hempty h
  intro w hw _
  dsimp only
  split
  next hlive => exact hlive.1
  next hdead' => exact hdead w hw hdead'

theorem yields_decodeJwtToken (token : String) (hempty : token = "" → R tokenRequired)
    (hnone : P.jwt.decode token = none → R (.typeError "Cannot read properties of null")) :
    (decodeJwtToken P token).Yields I L (fun t => P.jwt.decode token = some t) R := by
  unfold decodeJwtToken
  split
  next h => exact hempty h
  split
  next h => exact hnone h
  next t ht => exact ht

/-- The row after an update, in the table. -/
theorem yields_updateUserById (id : String) (updates : UserUpdates)
    (hlost : L → R connectionLost)
    (hgone : ∀ w, I w → Rows.lookup User.id id w.db.users = none → R noRowReturned)
    (hrefused : ∀ w, I w → ¬ Constraints (Rows.update User.id id (updates.apply w.env.now)
      w.db.users) w.db.products w.db.billings → R constraintViolated) :
    (updateUserById id updates).Yields I L (fun u => u.id = id ∧
      (∀ g, updates.googleId = .set g → u.googleId = g) ∧ ∃ w, I w ∧ u ∈ w.db.users) R := by
  refine yields_write hlost (fun w u db _ hw' hs => ?_) fun w e hw hs => ?_
  · obtain ⟨old, hold, rfl, husers, -⟩ := updateUser_ok hs
    obtain rfl := Rows.lookup_key hold
    refine ⟨rfl, fun g hg => by simp [hg], _, hw', ?_⟩
    rw [husers]
    exact Rows.mem_update_self User.id _ (Rows.lookup_mem hold)
  · simp only [updateUser] at hs
    split at hs
    next hnone => cases hs; exact hgone w hw hnone
    split at hs <;> cases hs
    next hnone => exact hrefused w hw (not_constraints_of_store? hnone)

theorem yields_createUser (input : CreateUserInput) (hlost : L → R connectionLost)
    (hrefused : ∀ w, I w →
      ¬ Constraints (w.db.users ++ [input.row w.env.uuid w.env.now]) w.db.products w.db.billings →
      R constraintViolated) :
    (createUser input).Yields I L (fun u => u.googleId = input.googleId ∧
      (∃ v db, I v ∧ insertUser input v v.db = .ok (u, db) ∧ I { v with db }) ∧
      ∃ w, I w ∧ u ∈ w.db.users) R := by
  refine yields_write hlost (fun w u db hw hw' hs => ?_) fun w e hw hs => ?_
  · obtain ⟨hrow, husers, -⟩ := insertUser_ok hs
    refine ⟨by rw [hrow]; rfl, ⟨w, db, hw, hs, hw'⟩, _, hw', ?_⟩
    rw [husers]
    simp
  · simp only [insertUser] at hs
    split at hs <;> cases hs
    next hnone => exact hrefused w hw (not_constraints_of_store? hnone)

theorem yields_getFreeTierProduct (hlost : L → R connectionLost)
    (hnone : ∀ w, I w → w.freeTier = none → R freeTierNotFound) :
    getFreeTierProduct.Yields I L (fun _ => True) R :=
  yields_lookup hlost hnone fun _ _ _ _ _ _ => trivial

section Parts
variable {request : Request}

theorem Gone.of_lookup {w : World} {u : User} (hu : ∃ v, I v ∧ u ∈ v.db.users) (hw : I w)
    (h : Rows.lookup User.id u.id w.db.users = none) : Gone I u.id := by
  obtain ⟨v, hv, hmem⟩ := hu
  exact ⟨⟨v, u, hv, hmem, rfl⟩, w, hw, h⟩

theorem yields_validated {α : Type} {Q : α → Prop} {schema : Prop} [Decidable schema]
    {resolve : Promise α} (hvalid : request.Valid P → schema)
    (h : resolve.Yields I L Q (Refusal P I L request)) :
    (validated schema resolve).Yields I L Q (Refusal P I L request) := by
  unfold validated
  split
  · exact h
  next hs => exact .input (mt hvalid hs)

/-- The update of a row that was seen. -/
theorem yields_updateSeen {u : User} (hu : ∃ v, I v ∧ u ∈ v.db.users) (updates : UserUpdates)
    (hstores : ∀ w, I w →
      request.Stores P I w (Rows.update User.id u.id (updates.apply w.env.now) w.db.users)) :
    (updateUserById u.id updates).Yields I L (fun u' => u'.id = u.id ∧
      (∀ g, updates.googleId = .set g → u'.googleId = g) ∧ ∃ w, I w ∧ u' ∈ w.db.users)
      (Refusal P I L request) :=
  yields_updateUserById u.id updates .lost
    (fun _ hw h => .gone (Gone.of_lookup hu hw h) (by simp [goneErrors]))
    fun w hw h => .constraint hw (hstores w hw) h

/-- An update that no constraint speaks of. -/
theorem yields_updateQuiet {u : User} {updates : UserUpdates} (hu : ∃ v, I v ∧ u ∈ v.db.users)
    (hq : updates.Quiet) :
    (updateUserById u.id updates).Yields I L (fun _ => True) (Refusal P I L request) :=
  (yields_updateUserById u.id updates .lost
    (fun _ hw h => .gone (Gone.of_lookup hu hw h) (by simp [goneErrors]))
    fun w _ h => absurd (w.db.sound.updateUser_quiet hq) h).mono (fun _ _ => trivial) fun _ he => he

theorem yields_getUserProfile {u : User} (hlost : L → R connectionLost) :
    (getUserProfile u.id).Yields I L (fun profile =>
      (∀ p ∈ profile, p.id = u.id ∧ ∃ w u', I w ∧ u' ∈ w.db.users ∧ p = removeUserSensitive u') ∧
      (profile = none → ∃ w, I w ∧ Rows.lookup User.id u.id w.db.users = none)) R := by
  refine (yields_select hlost).bind fun user ⟨w, hw, huser⟩ => ⟨fun p hp => ?_, fun hnone => ?_⟩
  · obtain ⟨u', rfl, rfl⟩ := Option.map_eq_some_iff.mp hp
    have hid : u'.id = u.id := Rows.lookup_key huser.symm
    exact ⟨hid, w, u', hw, Rows.lookup_mem huser.symm, rfl⟩
  · exact ⟨w, hw, by rw [← huser]; simpa using hnone⟩

theorem yields_sendOr (mail : Mail) (message : String)
    (h : ∀ w, I w → w.env.mail ≠ .accepted → R (.custom message .internalServerError)) :
    (sendOr mail message).Yields I L (fun _ => True) R := by
  refine Async.Yields.tryCatch
    (R := fun _ => R (.custom message .internalServerError)) ?_ fun _ he => he
  intro w hw _
  dsimp only
  split
  · trivial
  next hm => exact h w hw (by simp [hm])
  next hm => exact h w hw (by simp [hm])

theorem yields_startSession {u : User} (hr : request.OpensSession)
    (hu : ∃ v, I v ∧ u ∈ v.db.users) :
    (startSession P u.id).Yields I L (fun tokens => tokens.Names P u.id)
      (Refusal P I L request) := by
  have hsession : ((generateTokens P u.id).bind fun tokens =>
      (updateUserById u.id { refreshToken := .set (some tokens.refreshToken) }).bind fun _ =>
        .pure tokens).Yields I L (fun tokens => tokens.Names P u.id) (Refusal P I L request) := by
    have htokens : (generateTokens P u.id).Yields I L (fun tokens => tokens.Names P u.id)
        (Refusal P I L request) :=
      (yields_generateJwtToken ..).bind fun _ ha => (yields_generateJwtToken ..).bind fun _ hr =>
        ⟨ha, hr⟩
    exact htokens.bind fun tokens htokens => (yields_updateQuiet hu (storeRefresh_quiet _)).bind
      fun _ _ => htokens
  have hexpired :
      (hasExpiredSubscription u.id).Yields I L (fun _ => True) (Refusal P I L request) :=
    yields_lookup .lost (fun _ _ _ => trivial) fun _ _ _ _ _ _ =>
      yields_dateNow.bind fun _ _ => trivial
  refine hexpired.bind fun expired _ => ?_
  dsimp only
  split
  · refine Async.Yields.bind (Q := fun _ => True) ?_ fun _ _ => hsession
    exact (yields_getFreeTierProduct .lost fun _ hw h => .noFreeTier (.inl hr) hw h).bind fun _ _ =>
      (yields_updateQuiet hu (setProduct_quiet _)).bind fun _ _ => trivial
  · exact hsession

theorem yields_authenticateUser (input : LoginInput) :
    (authenticateUser P input).Yields I L (fun tokens => ∃ w u, I w ∧ u ∈ w.db.users ∧
      (Request.login input).SignsIn P I u ∧ tokens.Names P u.id)
      (Refusal P I L (.login input)) := by
  rw [authenticateUser_eq]
  refine yields_lookup .lost (fun w hw hnone => ?_) fun w u hw hu hmem hemail => ?_
  · exact .credentials hw fun u hu => by cases hnone.symm.trans hu
  dsimp only
  split
  next hpw =>
    refine .credentials hw fun v hv => ?_
    obtain rfl := Option.some.inj (hu.symm.trans hv)
    simpa using hpw
  next hpw =>
    have hpw' : P.compareSync input.password u.passwordHash = true := by simpa using hpw
    exact (yields_startSession (by trivial) ⟨w, hw, hmem⟩).mono
      (fun tokens htokens => ⟨w, u, hw, hmem, ⟨hemail, hpw'⟩, htokens⟩) fun _ he => he

theorem yields_refreshAccessToken (token : String) :
    (refreshAccessToken P token).Yields I L (fun tokens => ∃ w u, I w ∧ u ∈ w.db.users ∧
      (Request.refresh token).SignsIn P I u ∧ tokens.Names P u.id)
      (Refusal P I L (.refresh token)) := by
  rw [refreshAccessToken_eq]
  refine (yields_verifyJwtToken token (fun h => .noToken (congrArg some h))
    fun _ hw h => .dead rfl hw h).bind fun _ ha => ?_
  refine yields_lookup .lost (fun w hw hnone => .notHeld hw hnone) fun w u hw _ hmem hstored => ?_
  exact (yields_startSession (by trivial) ⟨w, hw, hmem⟩).mono
    (fun tokens htokens => ⟨w, u, hw, hmem, ⟨ha, hstored⟩, htokens⟩) fun _ he => he

theorem yields_resolveGoogle {credential : String} {v₀ : World} {payload : TGoogleTokenPayload}
    (hv₀ : I v₀) (hpay : GooglePayload P v₀ payload) :
    (resolveGoogle P payload).Yields I L (fun u => u.googleId = some payload.sub ∧
      ∃ w, I w ∧ u ∈ w.db.users) (Refusal P I L (.google credential)) := by
  refine yields_lookup .lost (fun _ _ _ => ?_) fun w u hw _ hmem hsub => ⟨hsub, w, hw, hmem⟩
  refine yields_lookup .lost (fun _ _ _ => ?_) fun w u hw _ hmem _ => ?_
  · refine yields_surroundings.bind fun env _ => ?_
    refine (yields_getFreeTierProduct .lost fun _ hw h => .noFreeTier (.inr trivial) hw h).bind
      fun product _ => ?_
    exact (yields_createUser _ .lost fun w hw h => .constraint hw (.google hv₀ hpay) h).mono
      (fun u hu => ⟨hu.1, hu.2.2⟩) fun _ he => he
  · exact (yields_updateSeen ⟨w, hw, hmem⟩ _ fun _ _ => .link hv₀ hpay).mono
      (fun u' hu' => ⟨hu'.2.1 _ rfl, hu'.2.2⟩) fun _ he => he

theorem yields_authenticateWithGoogle (credential : String) :
    (authenticateWithGoogle P).Yields I L (fun tokens => ∃ w u, I w ∧ u ∈ w.db.users ∧
      (Request.google credential).SignsIn P I u ∧ tokens.Names P u.id)
      (Refusal P I L (.google credential)) := by
  rw [authenticateWithGoogle_eq]
  have hpayload : (verifyGoogleCredential P).Yields I L (fun payload =>
      ∃ v, I v ∧ GooglePayload P v payload) (Refusal P I L (.google credential)) := by
    intro v hv _
    dsimp only
    split
    next h => exact .notGoogle hv h
    next h => exact .emptyTicket hv h
    next ticket hticket =>
      split
      next hmessages => exact .badTicket hv hticket hmessages
      next payload hpayload => exact ⟨v, hv, ticket, hticket, hpayload⟩
  refine hpayload.bind fun payload ⟨v, hv, hpay⟩ => ?_
  refine (yields_resolveGoogle hv hpay).bind fun u ⟨hsub, w, hw, hu⟩ => ?_
  exact (yields_startSession (by trivial) ⟨w, hw, hu⟩).mono
    (fun tokens htokens => ⟨w, u, hw, hu, ⟨v, payload, hv, hpay, hsub⟩, htokens⟩) fun _ he => he

theorem yields_registerUser (input : SignupInput) : (registerUser P input).Yields I L (fun p =>
    (Request.signup input).Adds P I p.id ∧ ∃ w u, I w ∧ u ∈ w.db.users ∧ p = removeUserSensitive u)
    (Refusal P I L (.signup input)) := by
  rw [registerUser_eq]
  refine yields_surroundings.bind fun env _ => ?_
  refine (yields_getFreeTierProduct .lost fun _ hw h => .noFreeTier (.inr trivial) hw h).bind
    fun product _ => ?_
  refine (yields_createUser _ .lost fun w hw h => .constraint hw .signup h).bind
    fun user ⟨_, ⟨v, db, hv, hinsert, hv'⟩, hseen⟩ => ?_
  refine (yields_generateJwtToken ..).bind fun token _ => ?_
  refine (yields_updateQuiet hseen (storePending_quiet _)).bind fun _ _ => ?_
  -- the user can ask for the mail again, so its failure is not told
  refine Async.Yields.bind (Async.Yields.tryCatch (Async.yields_any _) fun _ _ => trivial)
    fun _ _ => ?_
  refine (yields_getUserProfile .lost).bind fun profile hread => ?_
  obtain ⟨hprofile, hnone⟩ := hread
  split
  next =>
    obtain ⟨w, hw, h⟩ := hnone rfl
    exact .gone (Gone.of_lookup hseen hw h) (by simp [goneErrors])
  next p =>
    obtain ⟨hid, hrow⟩ := hprofile p rfl
    exact ⟨⟨v, env, product, user, db, hv, hinsert, hv', hid.symm⟩, hrow⟩

/-- The start of the two procedures behind a mailed link: the user that the token names. -/
theorem yields_link {α : Type} {Q : α → Prop} {token message : String} {purpose : TokenPurpose}
    (hin : request.tokenInput = some token) (hl : request.link = some (purpose, message))
    {f : User → Promise α}
    (h : ∀ w u, I w → u ∈ w.db.users → bearerOf P token = some u.id →
      (f u).Yields I L Q (Refusal P I L request)) :
    ((verifyJwtToken P token).bind fun _ => (decodeJwtToken P token).bind fun decoded =>
      if decoded.purpose ≠ some purpose then .throw (.custom message .badRequest)
      else (getUserById decoded.userId).bind fun
        | none => .throw (.custom message .badRequest)
        | some user => f user).Yields I L Q (Refusal P I L request) := by
  have hempty : token = "" → Refusal P I L request tokenRequired := fun he => .noToken (he ▸ hin)
  refine (yields_verifyJwtToken token hempty fun _ hw hd => .dead hin hw hd).bind fun _ ha => ?_
  refine (yields_decodeJwtToken token hempty fun hn => .unreadable hin hn).bind fun t ht => ?_
  split
  next hpurpose => exact .otherLink hin hl ht (.inl hpurpose)
  refine yields_lookup .lost (fun w hw hnone => .otherLink hin hl ht (.inr ⟨w, hw, hnone⟩)) ?_
  exact fun w u hw _ hmem hid => h w u hw hmem (by rw [bearerOf_eq ha ht, hid])

theorem yields_verifyUserEmail (token : String) :
    (verifyUserEmail P token).Yields I L (fun _ => True) (Refusal P I L (.verifyEmail token)) := by
  refine yields_link rfl rfl fun w u hw hu hid => ?_
  split
  next hother => exact .replaced ⟨hw, hu, hid⟩ hother
  split
  · trivial
  · exact (yields_updateQuiet ⟨w, hw, hu⟩ markVerified_quiet).bind fun _ _ => trivial

theorem yields_resetPassword (token newPassword : String) :
    (resetPassword P token newPassword).Yields I L (fun _ => True)
      (Refusal P I L (.resetPassword token newPassword)) :=
  yields_link rfl rfl fun w _ hw hu hid => yields_surroundings.bind fun _ _ =>
    (yields_updateSeen ⟨w, hw, hu⟩ _ fun _ _ => .password hid).bind fun _ _ => trivial

theorem yields_forgotPassword (email : String) :
    (forgotPassword P email).Yields I L (fun _ => True)
      (Refusal P I L (.forgotPassword email)) := by
  refine yields_lookup .lost (fun _ _ _ => trivial) fun _ _ _ _ _ _ => ?_
  exact (yields_generateJwtToken ..).bind fun _ _ =>
    yields_sendOr _ _ fun _ hw h => .unsent rfl hw h

section Caller
variable {auth : Option String} {w : World} {u : User}

theorem yields_resendVerificationEmail (h : OwnRow P I (.resendVerificationEmail auth) w u) :
    (resendVerificationEmail P u.id).Yields I L (fun _ => True)
      (Refusal P I L (.resendVerificationEmail auth)) := by
  have hseen : ∃ v, I v ∧ u ∈ v.db.users := ⟨w, h.seen, h.mem⟩
  refine yields_lookup .lost (fun v hv hnone => ?_) fun v u' hv _ hmem hid => ?_
  · exact .gone (Gone.of_lookup hseen hv hnone) (by simp [goneErrors])
  dsimp only
  split
  next hverified => exact .alreadyVerified ⟨hv, hmem, hid ▸ h.own⟩ hverified
  next =>
    exact (yields_generateJwtToken ..).bind fun _ _ => (yields_updateQuiet ⟨v, hv, hmem⟩
      (storePending_quiet _)).bind fun _ _ => yields_sendOr _ _ fun _ hw hm => .unsent rfl hw hm

theorem yields_requestEmailChange {newEmail : String}
    (h : OwnRow P I (.requestEmailChange auth newEmail) w u) :
    (requestEmailChange P u.id newEmail).Yields I L (fun _ => True)
      (Refusal P I L (.requestEmailChange auth newEmail)) := by
  have hseen : ∃ v, I v ∧ u ∈ v.db.users := ⟨w, h.seen, h.mem⟩
  refine yields_lookup .lost (fun v hv hnone => ?_) fun v u' hv _ hmem hid => ?_
  · exact .gone (Gone.of_lookup hseen hv hnone) (by simp [goneErrors])
  dsimp only
  split
  next hsame => exact .sameEmail ⟨hv, hmem, hid ▸ h.own⟩ hsame
  refine yields_lookup .lost (fun _ _ _ => ?_) fun x o hx _ ho he => .taken hx ho he
  refine yields_dateNow.bind fun now _ => ?_
  -- the cool-down is over or its error is caught
  have hcooldown : (checkTokenCooldown P u' now).Yields I L (fun _ => True)
      (Refusal P I L (.requestEmailChange auth newEmail)) := by
    unfold checkTokenCooldown
    split
    · trivial
    · exact Async.Yields.tryCatch (Async.yields_any _) fun _ _ => trivial
  refine hcooldown.bind fun _ _ => ?_
  refine Async.Yields.bind (Q := fun _ => True) (fun _ _ _ => trivial) fun code _ => ?_
  exact (yields_generateJwtToken ..).bind fun _ _ => (yields_updateQuiet hseen
    (storePending_quiet _)).bind fun _ _ => yields_sendOr _ _ fun _ hw hm => .unsent rfl hw hm

theorem yields_applyEmailChange {newEmail : String} (hseen : ∃ v, I v ∧ u ∈ v.db.users)
    (hstores : ∀ x, request.Stores P I x
      (Rows.update User.id u.id ((changeEmail newEmail).apply x.env.now) x.db.users))
    (htaken : ∀ x o, I x → o ∈ x.db.users → o.email = newEmail → o.id ≠ u.id →
      Refusal P I L request (.custom "This email is already in use" .conflict)) :
    (applyEmailChange u.id newEmail).Yields I L (fun p => p.id = u.id ∧
      ∃ w' u', I w' ∧ u' ∈ w'.db.users ∧ p = removeUserSensitive u') (Refusal P I L request) := by
  rw [applyEmailChange_eq]
  refine (yields_select .lost).bind fun existing hread => ?_
  obtain ⟨x, hx, hexisting⟩ := hread
  split
  next hother =>
    obtain ⟨o, rfl, hne⟩ := (Option.any_eq_true ..).mp hother
    exact htaken x o hx (Rows.lookup_mem hexisting.symm) (Rows.lookup_key hexisting.symm)
      (by simpa using hne)
  refine (yields_updateSeen hseen _ fun x _ => hstores x).bind fun _ _ => ?_
  refine (yields_getUserProfile .lost).bind fun profile hread => ?_
  obtain ⟨hprofile, hnone⟩ := hread
  split
  next =>
    obtain ⟨v, hv, hlost⟩ := hnone rfl
    exact .gone (Gone.of_lookup hseen hv hlost) (by simp [goneErrors])
  next p => exact hprofile p rfl

theorem yields_verifyEmailChange {code : String}
    (h : OwnRow P I (.verifyEmailChange auth code) w u) :
    (verifyEmailChange P u.id code).Yields I L (fun p => p.id = u.id ∧
      ∃ w' u', I w' ∧ u' ∈ w'.db.users ∧ p = removeUserSensitive u')
      (Refusal P I L (.verifyEmailChange auth code)) := by
  have hseen : ∃ v, I v ∧ u ∈ v.db.users := ⟨w, h.seen, h.mem⟩
  rw [verifyEmailChange_eq]
  refine yields_lookup .lost (fun v hv hnone => ?_) fun v u' hv _ hmem hid => ?_
  · exact .gone (Gone.of_lookup hseen hv hnone) (by simp [goneErrors])
  have hown : OwnRow P I (.verifyEmailChange auth code) v u' := ⟨hv, hmem, hid ▸ h.own⟩
  dsimp only
  split
  next hnone => exact .change hown (.unasked hnone)
  next token hstored =>
    obtain ⟨hstored, hne⟩ := truthyText_eq_some hstored
    refine (yields_verifyJwtToken token (fun he => absurd he hne)
      fun _ hx hdead => .change hown (.dead hstored hx hdead)).bind fun _ _ => ?_
    refine (yields_decodeJwtToken token (fun he => absurd he hne)
      fun hnone => .change hown (.unreadable hstored hnone)).bind fun t ht => ?_
    split
    next hpurpose => exact .change hown (.otherPurpose hstored ht hpurpose)
    unfold checkedChange
    split
    swap
    next hother =>
      refine .change hown (.incomplete hstored ht ?_)
      by_contra hall
      simp only [not_or, ← ne_eq, Option.ne_none_iff_exists'] at hall
      obtain ⟨⟨c, hc⟩, ⟨e, he⟩, n, hn⟩ := hall
      exact hother c e n hc he hn
    next c newEmail n hc hnew hn =>
      split
      next hspent => exact .change hown (.spent hstored ht hn hspent)
      -- the check that is not awaited answers nothing
      change Async.Yields _ _ _ _ (applyEmailChange u.id newEmail)
      exact yields_applyEmailChange hseen (fun _ => .email h.own) fun x o hx ho he hne =>
        .change hown (.taken hstored ht (truthyText_eq_some hnew).1 hx ho he (hid ▸ hne))

theorem yields_getUserBilling (user : User) (hlost : L → R connectionLost) :
    (getUserBilling user).Yields I L (fun billing =>
      ∀ row ∈ billing.billing, row.userId = user.id ∧ ∃ w, I w ∧ row ∈ w.db.billings) R := by
  refine (yields_select hlost).bind fun billing hread => ?_
  obtain ⟨v, hv, hbilling⟩ := hread
  have hrow : ∀ row ∈ billing, row.userId = user.id ∧ ∃ w, I w ∧ row ∈ w.db.billings := by
    rintro row hrow
    have hlook := hbilling.symm.trans hrow
    exact ⟨Rows.lookup_key hlook, v, hv, Rows.lookup_mem hlook⟩
  split
  · exact hrow
  · exact (yields_select hlost).bind fun _ _ => hrow

theorem yields_createCheckoutSession (input : CreateCheckoutSessionInput) (user : User) :
    (createCheckoutSession input user).Yields I L (fun _ => True)
      (Refusal P I L (.createCheckoutSession auth input)) := by
  refine yields_lookup .lost (fun v hv hnone => .noProduct hv hnone) fun v p hv _ hmem hprice => ?_
  dsimp only
  split
  · refine (yields_select .lost).bind fun billing _ x hx _ => ?_
    dsimp only
    split
    next message hstripe => exact .stripe trivial hx hstripe
    next =>
      split
      next hurl => exact .noUrl hx hurl
      next => trivial
  next hother =>
    refine .notForSale hv hmem hprice ?_
    by_contra hall
    simp only [not_or, ← ne_eq, Option.ne_none_iff_exists'] at hall
    obtain ⟨⟨price, hp⟩, external, he⟩ := hall
    exact hother price external hp he

theorem yields_createCustomerPortalSession {returnUrl : String}
    (hs : Request.subject P (.createCustomerPortalSession auth returnUrl) = some u.id) :
    (createCustomerPortalSession returnUrl u).Yields I L
      (fun url => (Request.createCustomerPortalSession auth returnUrl).Answers P I (.portal url))
      (Refusal P I L (.createCustomerPortalSession auth returnUrl)) := by
  refine yields_lookup .lost (fun v hv hnone => .noBilling hs hv hnone)
    fun v row hv _ hmem hid => ?_
  dsimp only
  split
  next hempty => exact .noCustomer (hid ▸ hs) hv hmem hempty
  intro x hx hx'
  dsimp only
  split
  next message hstripe => exact .stripe trivial hx hstripe
  next => exact ⟨auth, returnUrl, v, row, x, rfl, hv, hmem, hid ▸ hs, hx, rfl, hx'⟩

theorem subject_of_header (hh : request.header = some auth) :
    request.subject P = (truthyText auth).bind fun header => bearerOf P (tokenOf header) := by
  cases request <;> cases hh <;> rfl

/-- The user is the one that the token names, and was there when it was looked up. What is told
is an `UNAUTHORIZED`, of a header that did not authenticate when it was checked. -/
theorem yields_authMiddleware (hI : ∃ w, I w) (hh : request.header = some auth) :
    (authMiddleware P auth).Yields I L (fun u => ∃ w, OwnRow P I request w u)
      (Refusal P I L request) := by
  cases ha : truthyText auth with
  | none =>
    simp only [authMiddleware, ha]
    obtain ⟨w, hw⟩ := hI
    refine .header hh hw ?_
    rintro u ⟨_, _, ht, -⟩
    simp [ha] at ht
  | some header =>
    obtain ⟨rfl, hne⟩ := truthyText_eq_some ha
    have hfail : ∀ w, I w → (∀ t, opens P (tokenOf header) w.env.now t →
        Rows.lookup User.id t.userId w.db.users = none) → ∀ message,
        Refusal P I L request (unauthorized message) := by
      refine fun w hw h message => .header hh hw ?_
      rintro u ⟨_, t, hheader, ht, hu⟩
      cases ha.symm.trans hheader
      cases (h t ht).symm.trans hu
    rw [authMiddleware_eq header hne]
    refine Async.Yields.tryCatch (R := fun e => Refusal P I L request (unauthorized e.message) ∧
      ∀ code message, e = .trpc code message → code = .unauthorized) ?_ fun e he => ?_
    swap
    · split
      next code message => exact he.2 code message rfl ▸ he.1
      next => exact he.1
    obtain ⟨w, hw⟩ := hI
    refine (yields_verifyJwtToken _ (fun he => ?_) fun x hx hdead => ?_).bind fun _ htoken => ?_
    · exact ⟨hfail w hw (fun t ht => absurd he ht.1) _, fun _ _ h => by cases h⟩
    · exact ⟨hfail x hx (fun t ht => absurd ht.2.1 hdead) _, fun _ _ h => by cases h⟩
    refine (yields_decodeJwtToken _ (fun he => ?_) fun hnone => ?_).bind fun t ht => ?_
    · exact ⟨hfail w hw (fun t ht => absurd he ht.1) _, fun _ _ h => by cases h⟩
    · refine ⟨hfail w hw (fun t ht => ?_) _, fun _ _ h => by cases h⟩
      cases hnone.symm.trans ht.2.2
    refine yields_lookup (fun hl => ?_) (fun v hv hnone => ?_) fun v u hv _ hmem hid => ?_
    · exact ⟨.headerLost hh hl, fun _ _ h => by cases h⟩
    · refine ⟨hfail v hv (fun t' ht' => ?_) _, fun _ _ h => by cases h; rfl⟩
      cases ht.symm.trans ht'.2.2
      exact hnone
    · refine ⟨v, hv, hmem, ?_⟩
      rw [subject_of_header hh, ha, hid]
      exact bearerOf_eq htoken ht

theorem yields_verifiedEmailMiddleware (hu : OwnRow P I request w u) (hp : request.Purchases) :
    (verifiedEmailMiddleware u).Yields I L (fun u' => u' = u) (Refusal P I L request) := by
  unfold verifiedEmailMiddleware
  split
  · rfl
  next h => exact .unverified hp hu (by simpa using h)

end Caller

/-- Every procedure answers as the contracts say. -/
theorem yields_handle (hI : ∃ w, I w) (hcall : ∀ event, request ≠ .webhook event) :
    (handle P request).Yields I L (request.Answers P I) (Refusal P I L request) := by
  cases request with
  | google credential =>
    exact yields_validated id ((yields_authenticateWithGoogle credential).bind fun _ h => h)
  | login input =>
    exact yields_validated id ((yields_authenticateUser input).bind fun _ h => h)
  | signup input =>
    refine yields_validated id ((yields_registerUser input).bind fun p hp => ?_)
    rintro _ ⟨⟩
    exact ⟨.inr hp.1, hp.2⟩
  | refresh token =>
    exact yields_validated id ((yields_refreshAccessToken token).bind fun _ h => h)
  | logout auth =>
    refine (yields_authMiddleware hI rfl).bind fun user ⟨w, hu⟩ => ?_
    refine Async.Yields.bind (Q := fun _ => True) ?_ fun _ _ => trivial
    exact (yields_updateQuiet ⟨w, hu.seen, hu.mem⟩ keepRefresh_quiet).bind fun _ _ => trivial
  | verifyEmail token => exact (yields_verifyUserEmail token).bind fun _ _ => trivial
  | resendVerificationEmail auth =>
    exact (yields_authMiddleware hI rfl).bind fun _ ⟨_, hu⟩ =>
      (yields_resendVerificationEmail hu).bind fun _ _ => trivial
  | forgotPassword email =>
    exact yields_validated id ((yields_forgotPassword email).bind fun _ _ => trivial)
  | resetPassword token newPassword =>
    exact yields_validated id ((yields_resetPassword token newPassword).bind fun _ _ => trivial)
  | getUserById auth =>
    refine (yields_authMiddleware hI rfl).bind fun user ⟨w, hu⟩ => ?_
    refine (yields_getUserProfile .lost).bind fun profile hread p hp => ?_
    obtain ⟨hid, hrow⟩ := hread.1 p hp
    exact ⟨.inl (hid ▸ hu.own), hrow⟩
  | updateUserById auth input =>
    refine (yields_authMiddleware hI rfl).bind fun user ⟨w, hu⟩ => yields_validated id ?_
    have hprofile : (updateUserProfile user.id input).Yields I L (fun p => p.id = user.id ∧
        ∃ w u, I w ∧ u ∈ w.db.users ∧ p = removeUserSensitive u)
        (Refusal P I L (.updateUserById auth input)) :=
      (yields_updateSeen ⟨w, hu.seen, hu.mem⟩ _ fun _ _ => .profile hu.own).bind
        fun u ⟨hid, _, v, hv, hmem⟩ => ⟨hid, v, u, hv, hmem, rfl⟩
    refine hprofile.bind fun p hp => ?_
    rintro _ ⟨⟩
    exact ⟨.inl (hp.1 ▸ hu.own), hp.2⟩
  | requestEmailChange auth newEmail =>
    exact (yields_authMiddleware hI rfl).bind fun _ ⟨_, hu⟩ => yields_validated id
      ((yields_requestEmailChange hu).bind fun _ _ => trivial)
  | verifyEmailChange auth code =>
    refine (yields_authMiddleware hI rfl).bind fun _ ⟨_, hu⟩ => yields_validated id ?_
    refine (yields_verifyEmailChange hu).bind fun p hp => ?_
    rintro _ ⟨⟩
    exact ⟨.inl (hp.1 ▸ hu.own), hp.2⟩
  | getUserBilling auth =>
    refine (yields_authMiddleware hI rfl).bind fun user ⟨_, hu⟩ => ?_
    refine (yields_getUserBilling user .lost).bind fun billing hbilling row hrow => ?_
    obtain ⟨huser, hseen⟩ := hbilling row hrow
    exact ⟨huser ▸ hu.own, hseen⟩
  | createCheckoutSession auth input =>
    refine (yields_authMiddleware hI rfl).bind fun user ⟨_, hu⟩ => ?_
    exact (yields_verifiedEmailMiddleware hu trivial).bind fun user' _ =>
      yields_validated id ((yields_createCheckoutSession input user').bind fun _ _ => trivial)
  | createCustomerPortalSession auth returnUrl =>
    refine (yields_authMiddleware hI rfl).bind fun user ⟨_, hu⟩ => ?_
    refine (yields_verifiedEmailMiddleware hu trivial).bind fun user' huser => ?_
    subst huser
    exact yields_validated id ((yields_createCustomerPortalSession hu.own).bind fun _ h => h)
  | webhook event => exact absurd rfl (hcall event)

/-- A webhook's reply tells nothing. -/
theorem yields_reply (hI : ∃ w, I w) (request : Request) :
    (handle P request).Yields I L (request.Answers P I) fun _ => True := by
  by_cases h : ∃ event, request = .webhook event
  · obtain ⟨event, rfl⟩ := h
    exact (Async.yields_any _).bind fun _ _ => trivial
  · exact (yields_handle hI fun event he => h ⟨event, he⟩).mono (fun _ ha => ha) fun _ _ => trivial

end Parts

end CodebaseTrpc
