import CodebaseTrpc.Spec.Sessions

/-! What a run of each procedure of `auth.service.ts` did: rejected before any effect, or
the effects of one branch. -/
namespace CodebaseTrpc
variable {P : Packages} {w w' : World}

theorem lookup_of_mem {u : User} (hu : u ∈ w.db.users) :
    Rows.lookup User.id u.id w.db.users = some u :=
  (Rows.lookup_eq_some w.db.sound.users_id).mpr ⟨hu, rfl⟩

theorem authenticateUser_eq (input : LoginInput) : authenticateUser P input =
    (getUserByEmail input.email).bind fun
      | none => .throw wrongCredentials
      | some user =>
        if ¬ P.compareSync input.password user.passwordHash then .throw wrongCredentials
        else startSession P user.id := rfl

theorem refreshAccessToken_eq (token : String) : refreshAccessToken P token =
    (verifyJwtToken P token).bind fun _ => (getUserByRefreshToken token).bind fun
      | none => .throw (.custom "Invalid refresh token" .unauthorized)
      | some user => startSession P user.id := rfl

/-- A started session: what the caller gets and the world after it. -/
def Opened (P : Packages) (w : World) (userId : String) (r : Except Err LoginResponse)
    (w' : World) : Prop :=
  r = .ok (sessionTokens P userId w.env.now) ∧ w' = w.openSession P userId

theorem run_startSession_cases {u : User} {r : Except Err LoginResponse} (hu : u ∈ w.db.users)
    (h : (startSession P u.id).run w = (r, w')) : Refused w r w' ∨ Opened P w u.id r w' := by
  rw [run_startSession P (lookup_of_mem hu)] at h
  split_ifs at h
  · exact .inl (refused h)
  · obtain ⟨rfl, rfl⟩ := Prod.mk.inj h
    exact .inr ⟨rfl, rfl⟩

theorem run_authenticateUser_cases {input : LoginInput} {r : Except Err LoginResponse}
    (h : (authenticateUser P input).run w = (r, w')) :
    Refused w r w' ∨ ∃ u, Rows.lookup User.email input.email w.db.users = some u ∧
      P.compareSync input.password u.passwordHash = true ∧ Opened P w u.id r w' := by
  rw [authenticateUser_eq] at h
  rcases run_found_cases (run_getUserByEmail ..) rfl h with h | ⟨u, hl, h⟩
  · exact .inl h
  dsimp only at h
  split_ifs at h with hc
  · rcases run_startSession_cases (Rows.lookup_mem hl) h with h | h
    · exact .inl h
    · exact .inr ⟨u, hl, hc, h⟩
  · exact .inl (refused h)

theorem run_refreshAccessToken_cases {token : String} {r : Except Err LoginResponse}
    (h : (refreshAccessToken P token).run w = (r, w')) :
    Refused w r w' ∨ ∃ u, token ≠ "" ∧ Live P token w.env.now ∧
      Rows.lookup User.refreshToken (some token) w.db.users = some u ∧
      Opened P w u.id r w' := by
  rw [refreshAccessToken_eq, Async.run_bind, run_verifyJwtToken] at h
  split_ifs at h with he hl
  · exact .inl (refused h)
  · rcases run_found_cases (run_getUserByRefreshToken ..) rfl h with h | ⟨u, hu, h⟩
    · exact .inl h
    rcases run_startSession_cases (Rows.lookup_mem hu) h with h | h
    · exact .inl h
    · exact .inr ⟨u, he, hl, hu, h⟩
  · exact .inl (refused h)

def linkGoogle (sub : String) : UserUpdates :=
  { googleId := .set (some sub), emailVerified := .set true }

def googleUser (P : Packages) (payload : TGoogleTokenPayload) (env : Environment)
    (product : Product) : CreateUserInput where
  email := payload.email
  fullName := payload.name
  phone := ""
  age := 0
  passwordHash := P.hashSync env.salt env.randomPassword
  googleId := some payload.sub
  currentProductId := some product.id
  emailVerified := some true

/-- The user a Google payload resolves to, and the world once it is found, linked or created. -/
inductive Resolved (P : Packages) (w : World) (payload : TGoogleTokenPayload) :
    User → World → Prop
  | known {u : User} (h : Rows.lookup User.googleId (some payload.sub) w.db.users = some u) :
      Resolved P w payload u w
  | linked {u : User} (hg : Rows.lookup User.googleId (some payload.sub) w.db.users = none)
      (he : Rows.lookup User.email payload.email w.db.users = some u)
      (hw : (w.exec (updateUser u.id (linkGoogle payload.sub))).db.users =
        Rows.update User.id u.id ((linkGoogle payload.sub).apply w.env.now) w.db.users) :
      Resolved P w payload ((linkGoogle payload.sub).apply w.env.now u)
        (w.exec (updateUser u.id (linkGoogle payload.sub)))
  | created {product : Product}
      (hg : Rows.lookup User.googleId (some payload.sub) w.db.users = none)
      (he : Rows.lookup User.email payload.email w.db.users = none)
      (hp : w.freeTier = some product)
      (hw : (w.exec (insertUser (googleUser P payload w.env product))).db.users = w.db.users ++
        [(googleUser P payload w.env product).row w.env.uuid w.env.now]) :
      Resolved P w payload ((googleUser P payload w.env product).row w.env.uuid w.env.now)
        (w.exec (insertUser (googleUser P payload w.env product)))

/-- The program that finds, links or creates the user. -/
def resolveGoogle (P : Packages) (payload : TGoogleTokenPayload) : Promise User := do
  match ← getUserByGoogleId payload.sub with
  | some user => pure user
  | none => do
    match ← getUserByEmail payload.email with
    | some user => updateUserById user.id (linkGoogle payload.sub)
    | none => do
      let env ← surroundings
      let defaultProduct ← getFreeTierProduct
      createUser (googleUser P payload env defaultProduct)

theorem authenticateWithGoogle_eq : authenticateWithGoogle P =
    (verifyGoogleCredential P).bind fun payload => (resolveGoogle P payload).bind fun user =>
      startSession P user.id := by
  refine congrArg (Async.bind _) (funext fun payload => ?_)
  simp only [resolveGoogle, Async.bind_eq, Async.bind_assoc]
  refine congrArg (Async.bind _) (funext fun byId => ?_)
  cases byId with
  | some user => rfl
  | none =>
    simp only [Async.bind_assoc]
    refine congrArg (Async.bind _) (funext fun byEmail => ?_)
    cases byEmail with
    | some user => rfl
    | none => simp only [Async.bind_assoc]; rfl

/-- The payload of a Google sign-in that passed the checks. -/
def GooglePayload (P : Packages) (w : World) (payload : TGoogleTokenPayload) : Prop :=
  ∃ ticket, w.env.google = .ticket (some ticket) ∧
    googleTokenPayloadSchema P ticket = .ok payload

theorem run_verifyGoogleCredential_cases {r : Except Err TGoogleTokenPayload}
    (h : (verifyGoogleCredential P).run w = (r, w')) :
    Refused w r w' ∨ ∃ payload, r = .ok payload ∧ GooglePayload P w payload ∧ w' = w := by
  simp only [verifyGoogleCredential, Async.run_act, id] at h
  split at h
  next => exact .inl (refused h)
  next => exact .inl (refused h)
  next ticket ht =>
    split at h
    next => exact .inl (refused h)
    next data hd =>
      obtain ⟨rfl, rfl⟩ := Prod.mk.inj h
      exact .inr ⟨data, rfl, ⟨ticket, ht, hd⟩, rfl⟩

theorem run_resolveGoogle_cases {payload : TGoogleTokenPayload} {r : Except Err User}
    (h : (resolveGoogle P payload).run w = (r, w')) :
    Refused w r w' ∨ ∃ u, r = .ok u ∧ Resolved P w payload u w' := by
  simp only [resolveGoogle, Async.bind_eq] at h
  rw [Async.run_bind_ok (run_getUserByGoogleId ..)] at h
  cases hg : Rows.lookup User.googleId (some payload.sub) w.db.users with
  | some u =>
    rw [hg] at h
    obtain ⟨rfl, rfl⟩ := Prod.mk.inj h
    exact .inr ⟨u, rfl, .known hg⟩
  | none =>
    simp only [hg] at h
    rw [Async.run_bind_ok (run_getUserByEmail ..)] at h
    cases he : Rows.lookup User.email payload.email w.db.users with
    | some u =>
      simp only [he] at h
      rcases run_updateUserById_cases h with h | ⟨_, rfl, old, hold, rfl, rfl, hu⟩
      · exact .inl h
      · obtain rfl : u = old :=
          Option.some.inj ((lookup_of_mem (Rows.lookup_mem he)).symm.trans hold)
        exact .inr ⟨_, rfl, .linked hg he hu⟩
    | none =>
      simp only [he] at h
      rw [Async.run_bind_ok (run_surroundings w), Async.run_bind, run_getFreeTierProduct] at h
      cases hp : w.freeTier with
      | none => rw [hp] at h; exact .inl (refused h)
      | some product =>
        simp only [hp] at h
        rcases run_createUser_cases h with h | ⟨_, rfl, rfl, rfl, hu⟩
        · exact .inl h
        · exact .inr ⟨_, rfl, .created hg he hp hu⟩

theorem Resolved.mem {payload : TGoogleTokenPayload} {u : User} {w₁ : World}
    (h : Resolved P w payload u w₁) : u ∈ w₁.db.users := by
  cases h with
  | known h => exact Rows.lookup_mem h
  | @linked u hg he hw =>
    rw [hw]
    simpa using Rows.mem_update_self User.id ((linkGoogle payload.sub).apply w.env.now)
      (Rows.lookup_mem he)
  | created hg he hp hw => rw [hw]; simp

theorem Resolved.env {payload : TGoogleTokenPayload} {u : User} {w₁ : World}
    (h : Resolved P w payload u w₁) : w₁.env = w.env := by
  cases h <;> simp

theorem Resolved.freeTier {payload : TGoogleTokenPayload} {u : User} {w₁ : World}
    (h : Resolved P w payload u w₁) : w₁.freeTier = w.freeTier := by
  cases h <;> simp [World.freeTier]

theorem run_authenticateWithGoogle_cases {r : Except Err LoginResponse}
    (h : (authenticateWithGoogle P).run w = (r, w')) :
    Refused w r w' ∨ ∃ payload u w₁, GooglePayload P w payload ∧ Resolved P w payload u w₁ ∧
      (Refused w₁ r w' ∨ Opened P w₁ u.id r w') := by
  rw [authenticateWithGoogle_eq] at h
  replace h := run_then_cases run_verifyGoogleCredential_cases h
  rcases h with h | ⟨payload, _, ⟨hpay, rfl⟩, h⟩
  · exact .inl h
  rcases run_then_cases run_resolveGoogle_cases h with h | ⟨u, w₁, hres, h⟩
  · exact .inl h
  exact .inr ⟨payload, u, w₁, hpay, hres, run_startSession_cases hres.mem h⟩

def storePending (token : String) : UserUpdates := { emailVerificationToken := .set (some token) }

theorem storePending_quiet (token : String) : (storePending token).Quiet := {}

def verificationPayload (userId : String) (now : ℕ) : Token :=
  stamp { userId, purpose := some .emailVerification } (30 * secondsPerMinute) now

/-- The world after a verification token was signed, stored and mailed. -/
def World.issueVerification (P : Packages) (w : World) (user : User) : World :=
  let token := P.jwt.sign (verificationPayload user.id w.env.now)
  ((w.sign P (.purpose .emailVerification)
    { userId := user.id, purpose := some .emailVerification } (30 * secondsPerMinute)).exec
      (updateUser user.id (storePending token))).mailed
        (.verification user.email user.fullName token)

def signupUser (P : Packages) (input : SignupInput) (env : Environment) (product : Product) :
    CreateUserInput where
  passwordHash := P.hashSync env.salt input.password
  fullName := input.fullName
  email := input.email
  phone := input.phone
  age := input.age
  emailVerified := some false
  currentProductId := some product.id

/-- The mail went out: what its sender reports, and the mail in the outbox. -/
theorem run_sendVerificationEmail (recipient fullName token : String) (w : World) :
    (sendVerificationEmail recipient fullName token).run w =
      (w.delivery "Failed to send verification email",
        w.mailed (.verification recipient fullName token)) := run_sendOr ..

/-- `registerUser` from the inserted row on. -/
def finishSignup (P : Packages) (user : User) : Promise UserProfile := do
  let verificationToken ← generateJwtToken P (.purpose .emailVerification)
    { userId := user.id, purpose := some .emailVerification } (30 * secondsPerMinute)
  let _ ← updateUserById user.id (storePending verificationToken)
  (sendVerificationEmail user.email user.fullName verificationToken).tryCatch fun _ => .pure ()
  match ← getUserProfile user.id with
  | none => .throw (.custom "Failed to retrieve user profile" .internalServerError)
  | some userProfile => pure userProfile

theorem registerUser_eq (input : SignupInput) : registerUser P input =
    surroundings.bind fun env => getFreeTierProduct.bind fun product =>
      (createUser (signupUser P input env product)).bind (finishSignup P) := rfl

section Issue
variable (P) (w) (user : User)

@[simp] theorem issueVerification_env : (w.issueVerification P user).env = w.env := by
  simp [World.issueVerification, World.sign, World.mailed]
@[simp] theorem issueVerification_trx : (w.issueVerification P user).trx = w.trx := by
  simp [World.issueVerification, World.sign, World.mailed]
@[simp] theorem issueVerification_products :
    (w.issueVerification P user).db.products = w.db.products := by
  simp [World.issueVerification, World.sign, World.mailed]
@[simp] theorem issueVerification_billings :
    (w.issueVerification P user).db.billings = w.db.billings := by
  simp [World.issueVerification, World.sign, World.mailed]

theorem issueVerification_issued : (w.issueVerification P user).issued = w.issued ++
    [⟨.purpose .emailVerification, verificationPayload user.id w.env.now,
      P.jwt.sign (verificationPayload user.id w.env.now)⟩] := by
  simp [World.issueVerification, World.sign, World.mailed, verificationPayload]

theorem issueVerification_outbox : (w.issueVerification P user).outbox = w.outbox ++
    [(.verification user.email user.fullName (P.jwt.sign (verificationPayload user.id w.env.now)),
      w.env.mail)] := by
  simp [World.issueVerification, World.sign, World.mailed]

theorem issueVerification_users : (w.issueVerification P user).db.users =
    Rows.update User.id user.id ((storePending (P.jwt.sign
      (verificationPayload user.id w.env.now))).apply w.env.now) w.db.users := by
  rw [World.issueVerification, World.mailed, exec_updateUser_users (storePending_quiet _)]
  simp [World.sign]

end Issue

/-- Where the failure of a mail is swallowed. -/
theorem run_sendQuietly (recipient fullName token : String) (w : World) :
    ((sendVerificationEmail recipient fullName token).tryCatch fun _ => .pure ()).run w =
      (.ok (), w.mailed (.verification recipient fullName token)) := by
  rw [Async.run_tryCatch, run_sendVerificationEmail]
  cases w.delivery _ <;> rfl

theorem run_finishSignup {u : User} (hu : u ∈ w.db.users) :
    ∃ profile, (finishSignup P u).run w = (.ok profile, w.issueVerification P u) := by
  have hl : Rows.lookup User.id u.id (w.issueVerification P u).db.users =
      some ((storePending (P.jwt.sign (verificationPayload u.id w.env.now))).apply
        w.env.now u) := by
    rw [issueVerification_users, Rows.lookup_update_self fun _ => UserUpdates.apply_id ..,
      lookup_of_mem hu]
    rfl
  refine ⟨removeUserSensitive ((storePending (P.jwt.sign
    (verificationPayload u.id w.env.now))).apply w.env.now u), ?_⟩
  simp only [finishSignup, Async.bind_eq]
  rw [Async.run_bind_ok (run_generateJwtToken ..), Async.run_bind_ok
    (run_updateUserById_quiet _ (by simpa [World.sign] using lookup_of_mem hu)
      (storePending_quiet _)), Async.run_bind_ok (run_sendQuietly ..)]
  refine (Async.run_bind_ok (run_getUserProfile ..)).trans ?_
  change Async.run (match Option.map removeUserSensitive
    (Rows.lookup User.id u.id (w.issueVerification P u).db.users) with
    | none => _ | some _ => _) (w.issueVerification P u) = _
  rw [hl]
  rfl

theorem run_registerUser_cases {input : SignupInput} {r : Except Err UserProfile}
    (h : (registerUser P input).run w = (r, w')) :
    Refused w r w' ∨ ∃ product profile, w.freeTier = some product ∧
      (w.exec (insertUser (signupUser P input w.env product))).db.users = w.db.users ++
        [(signupUser P input w.env product).row w.env.uuid w.env.now] ∧
      r = .ok profile ∧
      w' = (w.exec (insertUser (signupUser P input w.env product))).issueVerification P
        ((signupUser P input w.env product).row w.env.uuid w.env.now) := by
  rw [registerUser_eq, Async.run_bind_ok (run_surroundings w), Async.run_bind,
    run_getFreeTierProduct] at h
  cases hp : w.freeTier with
  | none => rw [hp] at h; exact .inl (refused h)
  | some product =>
    simp only [hp] at h
    rcases run_then_cases run_createUser_cases h with h | ⟨_, _, ⟨rfl, rfl, hu⟩, h⟩
    · exact .inl h
    obtain ⟨profile, hrun⟩ := run_finishSignup (P := P) (w := w.exec (insertUser
      (signupUser P input w.env product))) (u := (signupUser P input w.env product).row
        w.env.uuid w.env.now) (by rw [hu]; simp)
    rw [hrun] at h
    obtain ⟨rfl, rfl⟩ := Prod.mk.inj h
    exact .inr ⟨product, profile, rfl, hu, rfl, rfl⟩

/-- An account that is not verified gets a new link. -/
theorem run_resendVerificationEmail {u : User} (hu : u ∈ w.db.users)
    (hv : u.emailVerified = false) : (resendVerificationEmail P u.id).run w =
      (w.delivery "Failed to send verification email", w.issueVerification P u) := by
  have hlook := lookup_of_mem hu
  simp only [resendVerificationEmail, Async.bind_eq]
  rw [Async.run_bind_ok (run_getUserById ..)]
  simp only [hlook, hv, Bool.false_eq_true, ↓reduceIte]
  refine (Async.run_bind_ok (run_generateJwtToken ..)).trans ?_
  refine (Async.run_bind_ok (run_updateUserById_quiet (storePending _)
    (by simpa [World.sign] using hlook) (storePending_quiet _))).trans ?_
  rw [run_sendVerificationEmail]
  exact Prod.ext (by simp [World.delivery, World.sign]) rfl

theorem run_resendVerificationEmail_cases {userId : String} {r : Except Err Unit}
    (h : (resendVerificationEmail P userId).run w = (r, w')) :
    Refused w r w' ∨ ∃ u, Rows.lookup User.id userId w.db.users = some u ∧
      u.emailVerified = false ∧ r = w.delivery "Failed to send verification email" ∧
      w' = w.issueVerification P u := by
  by_cases hcall : ∃ u ∈ w.db.users, u.id = userId ∧ u.emailVerified = false
  · obtain ⟨u, hu, rfl, hv⟩ := hcall
    rw [run_resendVerificationEmail hu hv] at h
    obtain ⟨rfl, rfl⟩ := Prod.mk.inj h
    exact .inr ⟨u, lookup_of_mem hu, hv, rfl, rfl⟩
  simp only [resendVerificationEmail, Async.bind_eq] at h
  rcases run_found_cases (run_getUserById ..) rfl h with h | ⟨u, hu, h⟩
  · exact .inl h
  dsimp only at h
  split_ifs at h with hv
  · exact .inl (refused h)
  · exact absurd ⟨u, Rows.lookup_mem hu, Rows.lookup_key hu, by simpa using hv⟩ hcall

def resetPayload (userId : String) (now : ℕ) : Token :=
  stamp { userId, purpose := some .passwordReset } (15 * secondsPerMinute) now

/-- The world after a reset token was signed and mailed. -/
def World.issueReset (P : Packages) (w : World) (user : User) : World :=
  (w.sign P (.purpose .passwordReset) { userId := user.id, purpose := some .passwordReset }
    (15 * secondsPerMinute)).mailed
      (.passwordReset user.email user.fullName (P.jwt.sign (resetPayload user.id w.env.now)))

theorem run_forgotPassword_cases {email : String} {r : Except Err Unit}
    (h : (forgotPassword P email).run w = (r, w')) :
    (Rows.lookup User.email email w.db.users = none ∧ r = .ok () ∧ w' = w) ∨
      ∃ u, Rows.lookup User.email email w.db.users = some u ∧
        r = w.delivery "Failed to send password reset email" ∧ w' = w.issueReset P u := by
  simp only [forgotPassword, Async.bind_eq] at h
  rw [Async.run_bind_ok (run_getUserByEmail ..)] at h
  cases hu : Rows.lookup User.email email w.db.users with
  | none =>
    rw [hu] at h
    obtain ⟨rfl, rfl⟩ := Prod.mk.inj h
    exact .inl ⟨rfl, rfl, rfl⟩
  | some u =>
    simp only [hu] at h
    rw [Async.run_bind_ok (run_generateJwtToken ..), sendPasswordResetEmail, run_sendOr] at h
    obtain ⟨rfl, rfl⟩ := Prod.mk.inj h
    exact .inr ⟨u, rfl, rfl, rfl⟩

def keepRefresh : UserUpdates := { refreshToken := .undefined }

theorem keepRefresh_quiet : keepRefresh.Quiet := {}

theorem run_revokeUserRefreshToken {userId : String} {u : User}
    (hu : Rows.lookup User.id userId w.db.users = some u) :
    (revokeUserRefreshToken userId).run w =
      (.ok (), w.exec (updateUser userId keepRefresh)) :=
  Async.run_bind_ok (run_updateUserById_quiet _ hu keepRefresh_quiet)

def markVerified : UserUpdates :=
  { emailVerified := .set true, emailVerificationToken := .undefined }

theorem markVerified_quiet : markVerified.Quiet := {}

theorem run_verifyUserEmail_cases {token : String} {r : Except Err Unit}
    (h : (verifyUserEmail P token).run w = (r, w')) :
    Refused w r w' ∨ ∃ t u, opens P token w.env.now t ∧ t.purpose = some .emailVerification ∧
      Rows.lookup User.id t.userId w.db.users = some u ∧ u.emailVerificationToken = some token ∧
      r = .ok () ∧ ((u.emailVerified = true ∧ w' = w) ∨
        (u.emailVerified = false ∧ w' = w.exec (updateUser u.id markVerified))) := by
  simp only [verifyUserEmail, Async.bind_eq] at h
  replace h := run_verify_decode P h
  rcases h with ⟨e, rfl, rfl⟩ | ⟨t, ht, h⟩
  · exact .inl ⟨⟨e, rfl⟩, rfl⟩
  split_ifs at h with hp
  · exact .inl (refused h)
  rcases run_found_cases (run_getUserById ..) rfl h with h | ⟨u, hu, h⟩
  · exact .inl h
  dsimp only at h
  split_ifs at h with hs hv
  · exact .inl (refused h)
  · obtain ⟨rfl, rfl⟩ := Prod.mk.inj h
    exact .inr ⟨t, u, ht, by simpa using hp, hu, by simpa using hs, rfl, .inl ⟨hv, rfl⟩⟩
  · replace h := (Async.run_bind_ok (run_updateUserById_quiet markVerified
      (lookup_of_mem (Rows.lookup_mem hu)) markVerified_quiet)).symm.trans h
    obtain ⟨rfl, rfl⟩ := Prod.mk.inj h
    exact .inr ⟨t, u, ht, by simpa using hp, hu, by simpa using hs, rfl,
      .inr ⟨by simpa using hv, rfl⟩⟩

def storePassword (passwordHash : String) : UserUpdates :=
  { passwordHash := .set passwordHash, refreshToken := .undefined }

theorem run_resetPassword_cases {token newPassword : String} {r : Except Err Unit}
    (h : (resetPassword P token newPassword).run w = (r, w')) :
    Refused w r w' ∨ ∃ t u, opens P token w.env.now t ∧ t.purpose = some .passwordReset ∧
      Rows.lookup User.id t.userId w.db.users = some u ∧ r = .ok () ∧
      w' = w.exec (updateUser u.id (storePassword (P.hashSync w.env.salt newPassword))) ∧
      w'.db.users = Rows.update User.id u.id ((storePassword
        (P.hashSync w.env.salt newPassword)).apply w.env.now) w.db.users := by
  simp only [resetPassword, Async.bind_eq] at h
  replace h := run_verify_decode P h
  rcases h with ⟨e, rfl, rfl⟩ | ⟨t, ht, h⟩
  · exact .inl ⟨⟨e, rfl⟩, rfl⟩
  split_ifs at h with hp
  · exact .inl (refused h)
  rcases run_found_cases (run_getUserById ..) rfl h with h | ⟨u, hu, h⟩
  · exact .inl h
  rw [Async.run_bind_ok (run_surroundings w)] at h
  rcases run_then_cases run_updateUserById_cases h with h | ⟨_, _, ⟨_, _, -, rfl, hw⟩, h⟩
  · exact .inl h
  obtain ⟨rfl, rfl⟩ := Prod.mk.inj h
  exact .inr ⟨t, u, ht, by simpa using hp, hu, rfl, rfl, hw⟩

theorem run_updateUserProfile_cases {userId : String} {input : UpdateUserInput}
    {r : Except Err UserProfile} (h : (updateUserProfile userId input).run w = (r, w')) :
    Refused w r w' ∨ ∃ u, Rows.lookup User.id userId w.db.users = some u ∧
      r = .ok (removeUserSensitive (input.updates.apply w.env.now u)) ∧
      w' = w.exec (updateUser userId input.updates) ∧
      w'.db.users = Rows.update User.id userId (input.updates.apply w.env.now) w.db.users := by
  rcases run_then_cases run_updateUserById_cases h with h | ⟨_, _, ⟨u, hu, rfl, rfl, hw⟩, h⟩
  · exact .inl h
  obtain ⟨rfl, rfl⟩ := Prod.mk.inj h
  exact .inr ⟨u, hu, rfl, rfl, hw⟩

end CodebaseTrpc
