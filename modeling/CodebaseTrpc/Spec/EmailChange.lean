import CodebaseTrpc.Spec.Auth
import CodebaseTrpc.Spec.Awaits

/-! What `requestEmailChange` and `verifyEmailChange` did. The second starts the check of the
code without awaiting it, so what it did is a statement about every schedule. -/
namespace CodebaseTrpc
variable {P : Packages} {w w' : World}

/-- The cool-down is computed and its error caught: the call always goes on. -/
theorem run_checkTokenCooldown (user : User) (now : ℕ) (w : World) :
    (checkTokenCooldown P user now).run w = (.ok (), w) := by
  unfold checkTokenCooldown
  split
  · rfl
  next token _ =>
    rw [Async.run_tryCatch]
    have hw : ((cooldownOf P token now).run w).2 = w := by
      rcases hr : (cooldownOf P token now).run w with ⟨r, w'⟩
      rcases run_verify_decode P hr with ⟨e, -, rfl⟩ | ⟨t, -, h⟩
      · rfl
      · dsimp only at h
        split at h <;> split at h <;> exact (Prod.mk.inj h).2.symm
    rcases hr : (cooldownOf P token now).run w with ⟨r, w'⟩
    obtain rfl : w' = w := by simpa [hr] using hw
    cases r <;> rfl

def codeOf (env : Environment) : String := toString (verificationCodeMin + env.random.val)

def changeInput (userId newEmail code : String) (now : ℕ) : Token where
  userId := userId
  purpose := some .emailChange
  code := some code
  newEmail := some newEmail
  attempts := some 0
  iat := some (now / millisecondsPerSecond)

def changePayload (userId newEmail code : String) (now : ℕ) : Token :=
  stamp (changeInput userId newEmail code now)
    (emailChangeTokenExpirationMinutes * secondsPerMinute) now

/-- The world after a code was drawn, its token stored and the code mailed. -/
def World.issueCode (P : Packages) (w : World) (user : User) (newEmail : String) : World :=
  ((w.sign P (.purpose .emailChange) (changeInput user.id newEmail (codeOf w.env) w.env.now)
    (emailChangeTokenExpirationMinutes * secondsPerMinute)).exec
      (updateUser user.id (storePending (P.jwt.sign
        (changePayload user.id newEmail (codeOf w.env) w.env.now))))).mailed
          (.emailChangeCode newEmail user.fullName (codeOf w.env))

section IssueCode
variable (P) (w) (user : User) (newEmail : String)

@[simp] theorem issueCode_env : (w.issueCode P user newEmail).env = w.env := by
  simp [World.issueCode, World.mailed, World.sign]
@[simp] theorem issueCode_trx : (w.issueCode P user newEmail).trx = w.trx := by
  simp [World.issueCode, World.mailed, World.sign]
@[simp] theorem issueCode_products :
    (w.issueCode P user newEmail).db.products = w.db.products := by
  simp [World.issueCode, World.mailed, World.sign]
@[simp] theorem issueCode_billings :
    (w.issueCode P user newEmail).db.billings = w.db.billings := by
  simp [World.issueCode, World.mailed, World.sign]

theorem issueCode_issued : (w.issueCode P user newEmail).issued = w.issued ++
    [⟨.purpose .emailChange, changePayload user.id newEmail (codeOf w.env) w.env.now,
      P.jwt.sign (changePayload user.id newEmail (codeOf w.env) w.env.now)⟩] := by
  simp [World.issueCode, World.mailed, World.sign, changePayload]

theorem issueCode_outbox : (w.issueCode P user newEmail).outbox = w.outbox ++
    [(.emailChangeCode newEmail user.fullName (codeOf w.env), w.env.mail)] := by
  simp [World.issueCode, World.mailed, World.sign]

theorem issueCode_users : (w.issueCode P user newEmail).db.users =
    Rows.update User.id user.id ((storePending (P.jwt.sign
      (changePayload user.id newEmail (codeOf w.env) w.env.now))).apply w.env.now) w.db.users := by
  rw [World.issueCode, World.mailed, exec_updateUser_users (storePending_quiet _)]
  rfl

end IssueCode

/-- An address that nobody has gets a code. -/
theorem run_requestEmailChange {u : User} {newEmail : String} (hu : u ∈ w.db.users)
    (hfree : ∀ v ∈ w.db.users, v.email ≠ newEmail) :
    (requestEmailChange P u.id newEmail).run w =
      (w.delivery "Failed to send verification code", w.issueCode P u newEmail) := by
  have hlook := lookup_of_mem hu
  simp only [requestEmailChange, Async.bind_eq]
  rw [Async.run_bind_ok (run_getUserById ..)]
  simp only [hlook, if_neg (hfree u hu)]
  rw [Async.run_bind_ok (run_getUserByEmail ..), Rows.lookup_eq_none.mpr hfree]
  simp only []
  rw [Async.run_bind_ok (run_dateNow w), Async.run_bind_ok (run_checkTokenCooldown ..)]
  refine (Async.run_bind_ok (run_generateJwtToken ..)).trans ?_
  refine (Async.run_bind_ok (run_updateUserById_quiet (storePending _)
    (by simpa [World.sign] using hlook) (storePending_quiet _))).trans ?_
  rw [sendEmailChangeCode, run_sendOr]
  exact Prod.ext (by simp [World.delivery, World.sign]) rfl

theorem run_requestEmailChange_cases {userId newEmail : String} {r : Except Err Unit}
    (h : (requestEmailChange P userId newEmail).run w = (r, w')) :
    Refused w r w' ∨ ∃ u, Rows.lookup User.id userId w.db.users = some u ∧ u.email ≠ newEmail ∧
      Rows.lookup User.email newEmail w.db.users = none ∧
      r = w.delivery "Failed to send verification code" ∧ w' = w.issueCode P u newEmail := by
  by_cases hcall : ∃ u ∈ w.db.users, u.id = userId ∧ ∀ v ∈ w.db.users, v.email ≠ newEmail
  · obtain ⟨u, hu, rfl, hfree⟩ := hcall
    rw [run_requestEmailChange hu hfree] at h
    obtain ⟨rfl, rfl⟩ := Prod.mk.inj h
    exact .inr ⟨u, lookup_of_mem hu, hfree u hu, Rows.lookup_eq_none.mpr hfree, rfl, rfl⟩
  simp only [requestEmailChange, Async.bind_eq] at h
  rcases run_found_cases (run_getUserById ..) rfl h with h | ⟨u, hu, h⟩
  · exact .inl h
  dsimp only at h
  split_ifs at h with hne
  · exact .inl (refused h)
  rw [Async.run_bind_ok (run_getUserByEmail ..)] at h
  cases he : Rows.lookup User.email newEmail w.db.users with
  | some v => rw [he] at h; exact .inl (refused h)
  | none =>
    exact absurd ⟨u, Rows.lookup_mem hu, Rows.lookup_key hu, Rows.lookup_eq_none.mp he⟩ hcall

/-- The token that a verification works on: stored for the user, live, of its purpose. -/
structure PendingChange (P : Packages) (w : World) (u : User) (token : String) (t : Token) :
    Prop where
  stored : u.emailVerificationToken = some token
  opens : opens P token w.env.now t
  purpose : t.purpose = some .emailChange

/-- The data of the token is complete, and there are attempts left. -/
structure Ready (t : Token) (newEmail : String) : Prop where
  hasCode : ∃ c, t.code = some c ∧ c ≠ ""
  hasEmail : t.newEmail = some newEmail
  hasText : newEmail ≠ ""
  attemptsLeft : ∃ n, t.attempts = some n ∧ n < maxVerificationAttempts

/-- `verifyEmailChange` once the token is known to be live and of its purpose. -/
def checkedChange (P : Packages) (userId code : String) (t : Token) : Promise UserProfile :=
  match truthyText t.code, truthyText t.newEmail, t.attempts with
  | some _, some newEmail, some attempts =>
    if attempts ≥ maxVerificationAttempts then
      .throw (badRequest "Too many failed attempts. Please request a new code")
    else
      .spawn (verifyEmailChangeCode P userId code t) (applyEmailChange userId newEmail)
  | _, _, _ => .throw (badRequest "Invalid verification data")

theorem verifyEmailChange_eq (userId code : String) : verifyEmailChange P userId code =
    (getUserById userId).bind fun
      | none => .throw noPendingEmailChange
      | some user => match truthyText user.emailVerificationToken with
        | none => .throw noPendingEmailChange
        | some token => (verifyJwtToken P token).bind fun _ =>
            (decodeJwtToken P token).bind fun t =>
              if t.purpose ≠ some .emailChange then .throw (badRequest "Invalid token purpose")
              else checkedChange P userId code t := rfl

theorem exec_throw {α : Type} {e : Err} {r : Except Err α}
    (h : (Async.throw e : Promise α).Exec w r w') : Refused w r w' := by
  obtain ⟨rfl, rfl⟩ := (Async.exec_settled (r := .error e)).mp h
  exact ⟨⟨e, rfl⟩, rfl⟩

section Exec
variable {userId code : String} {r : Except Err UserProfile}

/-- With a pending change, the call is what follows the checks of the token. -/
theorem exec_verifyEmailChange_of_pending {u : User} {token : String} {t : Token}
    (hu : Rows.lookup User.id userId w.db.users = some u) (hp : PendingChange P w u token t) :
    (verifyEmailChange P userId code).Exec w r w' ↔
      (checkedChange P userId code t).Exec w r w' := by
  obtain ⟨hne, hlive, hd⟩ := hp.opens
  rw [verifyEmailChange_eq, Async.exec_bind_ok (awaits_getUserById _) (run_getUserById ..)]
  simp only [hu, hp.stored, truthyText_of_ne hne]
  rw [Async.exec_bind_ok (a := ()) (t := w) (awaits_verifyJwtToken ..)
    (by simp [run_verifyJwtToken, hne, hlive])]
  rw [Async.exec_bind_ok (a := t) (t := w) (awaits_decodeJwtToken ..)
    (by simp [run_decodeJwtToken, hne, hd])]
  simp [hp.purpose]

/-- Without one, it rejects. -/
theorem exec_verifyEmailChange_cases (h : (verifyEmailChange P userId code).Exec w r w') :
    Refused w r w' ∨ ∃ u token t, Rows.lookup User.id userId w.db.users = some u ∧
      PendingChange P w u token t ∧ (checkedChange P userId code t).Exec w r w' := by
  rw [verifyEmailChange_eq, Async.exec_bind_ok (awaits_getUserById _) (run_getUserById ..)] at h
  cases hu : Rows.lookup User.id userId w.db.users with
  | none => rw [hu] at h; exact .inl (exec_throw h)
  | some u =>
    simp only [hu] at h
    cases ht : truthyText u.emailVerificationToken with
    | none => rw [ht] at h; exact .inl (exec_throw h)
    | some token =>
      simp only [ht] at h
      obtain ⟨hstored, hne⟩ := truthyText_eq_some ht
      by_cases hlive : Live P token w.env.now
      · rw [Async.exec_bind_ok (a := ()) (t := w) (awaits_verifyJwtToken ..)
          (by simp [run_verifyJwtToken, hne, hlive])] at h
        cases hd : P.jwt.decode token with
        | none =>
          rw [Async.exec_bind_error (e := .typeError _) (t := w) (awaits_decodeJwtToken ..)
            (by simp only [run_decodeJwtToken, hne, hd, if_false]; rfl)] at h
          exact .inl ⟨⟨_, h.1⟩, h.2⟩
        | some t =>
          rw [Async.exec_bind_ok (a := t) (t := w) (awaits_decodeJwtToken ..)
            (by simp [run_decodeJwtToken, hne, hd])] at h
          split_ifs at h with hpur
          · exact .inl (exec_throw h)
          · exact .inr ⟨u, token, t, rfl, ⟨hstored, ⟨hne, hlive, hd⟩, by simpa using hpur⟩, h⟩
      · rw [Async.exec_bind_error (e := tokenError P token) (t := w) (awaits_verifyJwtToken ..)
          (by simp [run_verifyJwtToken, hne, hlive])] at h
        exact .inl ⟨⟨_, h.1⟩, h.2⟩

/-- Past the checks: the data of the token was incomplete or used up, or the code is being
checked while the change goes on. -/
theorem exec_checkedChange_cases {t : Token} (h : (checkedChange P userId code t).Exec w r w') :
    Refused w r w' ∨ ∃ newEmail, Ready t newEmail ∧
      (Async.spawn (verifyEmailChangeCode P userId code t)
        (applyEmailChange userId newEmail)).Exec w r w' := by
  unfold checkedChange at h
  split at h
  next c newEmail attempts hc hn ha =>
    obtain ⟨hc, hcne⟩ := truthyText_eq_some hc
    obtain ⟨hn, hnne⟩ := truthyText_eq_some hn
    split_ifs at h with hmax
    · exact .inl (exec_throw h)
    · exact .inr ⟨newEmail, ⟨⟨c, hc, hcne⟩, hn, hnne, attempts, ha, by omega⟩, h⟩
  next => exact .inl (exec_throw h)

theorem checkedChange_of_ready {t : Token} {newEmail : String} (h : Ready t newEmail) :
    checkedChange P userId code t = .spawn (verifyEmailChangeCode P userId code t)
      (applyEmailChange userId newEmail) := by
  obtain ⟨⟨c, hc, hcne⟩, hn, hnne, n, hattempts, hmax⟩ := h
  simp only [checkedChange, hc, hn, hattempts, truthyText_of_ne hcne, truthyText_of_ne hnne]
  exact if_neg (by omega)

/-- Where the data is incomplete or used up the call rejects. -/
theorem exec_checkedChange_of_not_ready {t : Token} (h : ¬ ∃ newEmail, Ready t newEmail)
    (hx : (checkedChange P userId code t).Exec w r w') : Refused w r w' := by
  rcases exec_checkedChange_cases hx with hr | ⟨newEmail, hready, -⟩
  · exact hr
  · exact absurd ⟨newEmail, hready⟩ h

end Exec

def attemptInput (t : Token) (iat : ℕ) : Token where
  userId := t.userId
  purpose := some .emailChange
  code := t.code
  newEmail := t.newEmail
  attempts := t.attempts.map (· + 1)
  iat := some iat

def attemptSeconds (t : Token) (now : ℕ) : ℕ :=
  match t.exp with
  | some (n + 1) => max (n + 1 - now / millisecondsPerSecond) 1
  | _ => emailChangeTokenExpirationMinutes * secondsPerMinute

def attemptPayload (t : Token) (iat now : ℕ) : Token :=
  stamp (attemptInput t iat) (attemptSeconds t now) now

/-- The world after a wrong code was counted. -/
def World.countAttempt (P : Packages) (w : World) (userId : String) (t : Token) (iat : ℕ) : World :=
  (w.sign P (.purpose .emailChange) (attemptInput t iat) (attemptSeconds t w.env.now)).exec
    (updateUser userId (storePending (P.jwt.sign (attemptPayload t iat w.env.now))))

theorem countAttempt_users (userId : String) (t : Token) (iat : ℕ) :
    (w.countAttempt P userId t iat).db.users = Rows.update User.id userId
      ((storePending (P.jwt.sign (attemptPayload t iat w.env.now))).apply w.env.now)
      w.db.users := by
  rw [World.countAttempt, exec_updateUser_users (storePending_quiet _)]
  rfl

theorem verifyEmailChangeCode_wrong {userId code : String} {t : Token}
    (hp : t.purpose = some .emailChange) (hc : t.code ≠ some code) :
    verifyEmailChangeCode P userId code t = dateNow.bind fun now => match t.iat with
      | none => .throw (.error "\"iat\" should be a number of seconds")
      | some iat =>
        (generateJwtToken P (.purpose .emailChange) (attemptInput t iat)
          (attemptSeconds t now)).bind fun newToken =>
            (updateUserById userId (storePending newToken)).bind fun _ =>
              .throw (invalidCode (maxVerificationAttempts - (t.attempts.getD 0 + 1))) := by
  simp only [verifyEmailChangeCode, hp, hc, ne_eq, not_true_eq_false, not_false_eq_true, if_false,
    if_true]
  rfl

theorem verifyEmailChangeCode_settled (P : Packages) (userId : String) {code : String} {t : Token}
    (h : t.purpose ≠ some .emailChange ∨ t.code = some code) :
    (verifyEmailChangeCode P userId code t).Settled := by
  unfold verifyEmailChangeCode
  split_ifs with hp hc
  · exact ⟨.error _, rfl⟩
  · exact absurd hp (by simpa [hc] using h)
  · exact ⟨.ok (), rfl⟩

theorem run_verifyEmailChangeCode_wrong {userId code : String} {t : Token} {iat : ℕ} {u : User}
    (hu : Rows.lookup User.id userId w.db.users = some u)
    (hp : t.purpose = some .emailChange) (hc : t.code ≠ some code) (hiat : t.iat = some iat) :
    ∃ e, (verifyEmailChangeCode P userId code t).run w =
      (.error e, w.countAttempt P userId t iat) := by
  refine ⟨invalidCode (maxVerificationAttempts - (t.attempts.getD 0 + 1)), ?_⟩
  rw [verifyEmailChangeCode_wrong hp hc, Async.run_bind_ok (run_dateNow w)]
  simp only [hiat]
  rw [Async.run_bind_ok (run_generateJwtToken ..)]
  exact Async.run_bind_ok (run_updateUserById_quiet _ (by simpa [World.sign] using hu)
    (storePending_quiet _))

theorem run_verifyEmailChangeCode_undated {userId code : String} {t : Token}
    (hp : t.purpose = some .emailChange) (hc : t.code ≠ some code) (hiat : t.iat = none) :
    ((verifyEmailChangeCode P userId code t).run w).2 = w := by
  rw [verifyEmailChangeCode_wrong hp hc, Async.run_bind_ok (run_dateNow w)]
  simp [hiat]

def changeEmail (newEmail : String) : UserUpdates :=
  { googleId := .set none
    email := .set newEmail
    emailVerificationToken := .set none
    emailVerified := .set true }

/-- The new address cannot be taken: it is another user's, or it has no room in the column. -/
def Blocked (w : World) (userId newEmail : String) : Prop :=
  (∃ v ∈ w.db.users, v.id ≠ userId ∧ v.email = newEmail) ∨ 255 < newEmail.length

theorem changeEmail_constraints {u : User} (hu : u ∈ w.db.users) (newEmail : String) (now : ℕ) :
    Constraints (Rows.update User.id u.id ((changeEmail newEmail).apply now) w.db.users)
      w.db.products w.db.billings ↔ ¬ Blocked w u.id newEmail := by
  rw [constraints_updateUser w.db.sound hu rfl]
  have hfit := w.db.sound.users_fit u hu
  simp only [User.Fits] at hfit
  simp only [changeEmail, Patch.apply_set, User.Fits, Blocked, UserUpdates.apply_email,
    UserUpdates.apply_fullName, UserUpdates.apply_phone, UserUpdates.apply_passwordHash,
    UserUpdates.apply_googleId, UserUpdates.apply_age, Patch.apply_undefined]
  constructor
  · rintro ⟨h, -, hf, -⟩ (⟨v, hv, hne, he⟩ | hlen)
    · exact h v hv hne he
    · omega
  · intro h
    refine ⟨fun v hv hne he => h (.inl ⟨v, hv, hne, he⟩), by simp, ?_⟩
    exact ⟨by by_contra hlen; exact h (.inr (by omega)), hfit.2.1, hfit.2.2.1, hfit.2.2.2.1,
      by simp, hfit.2.2.2.2.2.1, hfit.2.2.2.2.2.2⟩

theorem updateUser_blocked {userId newEmail : String} (h : Blocked w userId newEmail) :
    ∃ e, updateUser userId (changeEmail newEmail) w w.db = .error e := by
  unfold updateUser
  cases hu : Rows.lookup User.id userId w.db.users with
  | none => exact ⟨_, rfl⟩
  | some u =>
    obtain rfl := Rows.lookup_key hu
    have hc := (changeEmail_constraints (Rows.lookup_mem hu) newEmail w.env.now).not.mpr
      (not_not.mpr h)
    simp only [store?_of_not hc]
    exact ⟨_, rfl⟩

theorem updateUser_unblocked {u : User} {newEmail : String} (hu : u ∈ w.db.users)
    (h : ¬ Blocked w u.id newEmail) : ∃ db, updateUser u.id (changeEmail newEmail) w w.db =
      .ok ((changeEmail newEmail).apply w.env.now u, db) := by
  have hc := (changeEmail_constraints hu newEmail w.env.now).mpr h
  simp only [updateUser, lookup_of_mem hu, store?_of_constraints hc]
  exact ⟨_, rfl⟩

theorem applyEmailChange_eq (userId newEmail : String) : applyEmailChange userId newEmail =
    (getUserByEmail newEmail).bind fun existing =>
      if existing.any (fun u => u.id ≠ userId) then
        .throw (.custom "This email is already in use" .conflict)
      else (updateUserById userId (changeEmail newEmail)).bind fun _ =>
        (getUserProfile userId).bind fun
          | none => .throw (.custom "Failed to fetch updated profile" .internalServerError)
          | some updatedUser => .pure updatedUser := rfl

/-- Where the address is blocked the change only reads, and rejects. -/
theorem applyEmailChange_reads (userId newEmail : String) :
    (applyEmailChange userId newEmail).Reads (fun s => Blocked s userId newEmail)
      fun r => ∃ e, r = .error e := by
  rw [applyEmailChange_eq]
  intro s _
  refine ⟨rfl, ?_⟩
  simp only [Async.bind_pure_left]
  split_ifs
  · exact ⟨_, rfl⟩
  · intro v hv
    obtain ⟨e, he⟩ := updateUser_blocked hv
    simp only [World.view, he, Async.bind_throw]
    exact ⟨trivial, e, rfl⟩

/-- Where it is free the user moves to it. -/
theorem run_applyEmailChange {u : User} {newEmail : String} (hu : u ∈ w.db.users)
    (h : ¬ Blocked w u.id newEmail) : ∃ profile, (applyEmailChange u.id newEmail).run w =
      (.ok profile, w.exec (updateUser u.id (changeEmail newEmail))) := by
  obtain ⟨db, hdb⟩ := updateUser_unblocked hu h
  have hrun : (updateUserById u.id (changeEmail newEmail)).run w =
      (.ok ((changeEmail newEmail).apply w.env.now u),
        w.exec (updateUser u.id (changeEmail newEmail))) := by
    rw [updateUserById, run_write, hdb]; rfl
  have hfree : ∀ v ∈ Rows.lookup User.email newEmail w.db.users, v.id = u.id := by
    intro v hv
    by_contra hne
    exact h (.inl ⟨v, Rows.lookup_mem hv, hne, Rows.lookup_key hv⟩)
  have hl : Rows.lookup User.id u.id (w.exec (updateUser u.id (changeEmail newEmail))).db.users =
      some ((changeEmail newEmail).apply w.env.now u) := by
    rw [exec_updateUser_users_of_ok hdb, Rows.lookup_update_self fun _ => UserUpdates.apply_id ..,
      lookup_of_mem hu]
    rfl
  refine ⟨removeUserSensitive ((changeEmail newEmail).apply w.env.now u), ?_⟩
  rw [applyEmailChange_eq, Async.run_bind_ok (run_getUserByEmail ..), if_neg (by
    simpa [Option.any_eq_true] using hfree), Async.run_bind_ok hrun,
    Async.run_bind_ok (run_getUserProfile ..), hl]
  rfl

end CodebaseTrpc
