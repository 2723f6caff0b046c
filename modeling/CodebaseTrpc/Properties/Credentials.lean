import CodebaseTrpc.Properties.TokenGate

/-! Clearing credentials. Logout, password reset and email verification pass `undefined` for the
column they mean to clear, and `undefined` leaves a column as it was. -/
namespace CodebaseTrpc
variable {P : Packages} {w w' : World}

/-- The exchange logs the user out, or resets its password. -/
def Clears (P : Packages) (x : Exchange) (userId : String) : Prop :=
  x.reply = .ok .success ∧
    ((∃ auth u, x.request = .logout auth ∧ Authenticates P x.before auth u ∧ u.id = userId) ∨
      ∃ token newPassword t, x.request = .resetPassword token newPassword ∧
        P.jwt.decode token = some t ∧ t.userId = userId)

/-- From here on, no refresh token that the user was ever issued is accepted. -/
def Revoked (P : Packages) (w : World) (userId : String) : Prop :=
  ∀ i ∈ w.issued, i.kind = .refresh → i.payload.userId = userId →
    ∀ tr w', ServerRun P w tr w' → ∀ r w'', (refreshAccessToken P i.text).Exec w' r w'' →
      ∃ e, r = .error e

/-- The user's row holds a refresh token that has not expired. -/
def HoldsLive (P : Packages) (w : World) (userId : String) : Prop :=
  ∃ u ∈ w.db.users, u.id = userId ∧ ∃ token ∈ u.refreshToken, Live P token w.env.now

/-- The exchange verifies the user's email. -/
def Flips (x : Exchange) (userId : String) : Prop :=
  (∃ token, x.request = .verifyEmail token) ∧
    (∃ u ∈ x.before.db.users, u.id = userId ∧ u.emailVerified = false) ∧
    ∃ u ∈ x.after.db.users, u.id = userId ∧ u.emailVerified = true

/-- A verification token is stored for the user. -/
def AwaitsVerification (P : Packages) (w : World) (userId : String) : Prop :=
  ∃ u ∈ w.db.users, u.id = userId ∧ ∃ token ∈ u.emailVerificationToken,
    ∃ t, P.jwt.decode token = some t ∧ t.purpose = some .emailVerification

theorem run_refreshAccessToken_dead {token : String} (h : ¬ Live P token w.env.now) :
    ∃ e, (refreshAccessToken P token).run w = (.error e, w) := by
  rw [refreshAccessToken_eq]
  by_cases he : token = ""
  · exact ⟨_, Async.run_bind_error (by rw [run_verifyJwtToken, if_pos he])⟩
  · exact ⟨_, Async.run_bind_error (by rw [run_verifyJwtToken, if_neg he, if_neg h])⟩

/-- A stored, live token is accepted wherever there is a free tier. -/
theorem run_refreshAccessToken_live {token : String} {u : User} (hne : token ≠ "")
    (hlive : Live P token w.env.now) (hu : u ∈ w.db.users) (ht : u.refreshToken = some token)
    (hfree : w.freeTier ≠ none) :
    ∃ tokens w', (refreshAccessToken P token).run w = (.ok tokens, w') := by
  obtain ⟨v, hv⟩ := Rows.exists_lookup User.refreshToken hu ht
  have hverify : (verifyJwtToken P token).run w = (.ok (), w) := by
    rw [run_verifyJwtToken, if_neg hne, if_pos hlive]
  rw [refreshAccessToken_eq, Async.run_bind_ok hverify,
    Async.run_bind_ok (run_getUserByRefreshToken ..), hv]
  dsimp only
  rw [run_startSession P (lookup_of_mem (Rows.lookup_mem hv)), if_neg fun h => hfree h.2]
  exact ⟨_, _, rfl⟩

/-- Neither request touches a session: not the column, not the record of what was signed. -/
theorem Clears.kept {x : Exchange} {userId : String} (h : Clears P x userId)
    (heff : Effect P x.before x.request x.reply x.after) :
    List.Forall₂ (fun u u' => u'.id = u.id ∧ u'.refreshToken = u.refreshToken)
      x.before.db.users x.after.db.users ∧
    x.after.issued = x.before.issued ∧ x.after.env = x.before.env := by
  obtain ⟨before, request, reply, after⟩ := x
  dsimp only [Clears] at h heff ⊢
  have hsame : ∀ u : User, u.id = u.id ∧ u.refreshToken = u.refreshToken := fun _ => ⟨rfl, rfl⟩
  rcases h with ⟨-, ⟨auth, u, rfl, -, -⟩ | ⟨token, newPassword, t, rfl, -, -⟩⟩
  · cases heff with
    | none => exact ⟨Rows.forall₂_refl hsame _, rfl, rfl⟩
    | logout hauth =>
      exact ⟨rows_updateUser hsame fun _ _ _ => ⟨rfl, rfl⟩, by simp, by simp⟩
  · cases heff with
    | none => exact ⟨Rows.forall₂_refl hsame _, rfl, rfl⟩
    | resetPassword ht hp hu hrow =>
      exact ⟨rows_updateUser hsame fun _ _ _ => ⟨rfl, rfl⟩, by simp, by simp⟩

theorem revoked_iff {x : Exchange} {userId : String} (hl : Ledger P x.before)
    (htrx : x.after.trx = none) (heff : Effect P x.before x.request x.reply x.after)
    (h : Clears P x userId) : Revoked P x.after userId ↔ ¬ HoldsLive P x.before userId := by
  obtain ⟨hrows, hissued, henv⟩ := h.kept heff
  constructor
  · rintro hrev ⟨u, hu, rfl, token, htoken, hlive⟩
    -- the token is still there, and accepted at once
    obtain ⟨i, hi, hkind, rfl, hid⟩ := hl.refresh u hu token htoken
    obtain ⟨u', hu', -, hr⟩ := Rows.exists_new hrows hu
    have hne : i.text ≠ "" := hl.text i hi ▸ P.jwt.sign_ne_empty _
    have hfree : x.after.freeTier ≠ none := by
      rw [World.freeTier, heff.products]
      exact hl.free fun hnil => by rw [hnil] at hu; cases hu
    obtain ⟨tokens, w'', hrun⟩ := run_refreshAccessToken_live hne (henv ▸ hlive) hu'
      (hr.trans htoken) hfree
    obtain ⟨e, he⟩ := hrev i (hissued ▸ hi) hkind hid [] x.after .start _ _
      (Async.exec_of_run hrun)
    cases he
  · intro hdead i hi hkind hid tr w' hrun r w'' hx
    rw [hissued] at hi
    obtain ⟨u, hu, huid⟩ := hl.owner i hi
    obtain ⟨t, e, e', hstored, he, he', hle⟩ := hl.newest i hi hkind u hu huid
    -- the stored token is dead, so all older ones are
    have hold : ¬ Live P (P.jwt.sign t) x.before.env.now := fun hlive =>
      hdead ⟨u, hu, huid.trans hid, _, hstored, hlive⟩
    have hnow : x.before.env.now ≤ w'.env.now := henv ▸ RunWhere.now_le hrun htrx
    have hdiv := Nat.div_le_div_right (c := millisecondsPerSecond) hnow
    have hdead' : ¬ Live P i.text w'.env.now := by
      rw [live_sign, he'] at hold
      rw [hl.text i hi, live_sign, he]
      simp only [Option.mem_def, Option.some.injEq, forall_eq'] at hold ⊢
      omega
    obtain ⟨err, hrun'⟩ := run_refreshAccessToken_dead hdead'
    rw [Async.exec_iff_run (awaits_refreshAccessToken P _), hrun'] at hx
    exact ⟨err, (Prod.mk.inj hx).1.symm⟩

/-- Verifying an email leaves its token where it was. -/
theorem awaits_of_flips {x : Exchange} {userId : String}
    (heff : Effect P x.before x.request x.reply x.after) (h : Flips x userId) :
    AwaitsVerification P x.after userId := by
  obtain ⟨before, request, reply, after⟩ := x
  dsimp only [Flips] at h heff ⊢
  obtain ⟨⟨token, rfl⟩, ⟨u, hu, rfl, hv⟩, u', hu', hid, hv'⟩ := h
  cases heff with
  | none =>
    obtain rfl := Db.user_eq hu hu' hid.symm
    rw [hv] at hv'
    cases hv'
  | @verifyEmail _ t v ht hp hl hstored hvv =>
    have hu'' := hu'
    rw [exec_updateUser_users markVerified_quiet] at hu''
    rcases Rows.mem_update.mp hu'' with ⟨y, hy, hk, rfl⟩ | ⟨hy, hk⟩
    · obtain rfl := Db.user_eq hy (Rows.lookup_mem hl) hk
      exact ⟨_, hu', hid, token, hstored, t, ht.2.2, hp⟩
    · obtain rfl := Db.user_eq hu hy hid.symm
      rw [hv] at hv'
      cases hv'

/-- After a logout or a reset, the earlier refresh tokens are rejected for good exactly if the
stored one was missing or expired; after a verification the token is pending still. -/
theorem clearing_effective_iff {w₀ : World} {tr : List Entry} {x : Exchange} {userId : String}
    (hrun : ServerRun P w₀ (.call x :: tr) w) (h₀ : Fresh w₀) :
    (Clears P x userId → (Revoked P w userId ↔ ¬ HoldsLive P x.before userId)) ∧
      (Flips x userId → AwaitsVerification P w userId) := by
  have htrx := RunWhere.trx hrun h₀.trx
  cases hrun with
  | step h hs =>
    obtain ⟨hserves, -⟩ := hs
    cases hserves with
    | call hx =>
      have htrx₁ := RunWhere.trx h h₀.trx
      have hl := RunWhere.ledger h h₀.trx (ledger_fresh h₀)
      have heff := effect_of_exec htrx₁ hx
      exact ⟨fun hc => revoked_iff (x := ⟨_, _, _, w⟩) hl htrx heff hc,
        fun hf => awaits_of_flips (x := ⟨_, _, _, w⟩) heff hf⟩

namespace Sample

def logout : Exchange :=
  let served := (handle packages (.logout (some accessToken.text))).run signedIn
  ⟨signedIn, .logout (some accessToken.text), served.1, served.2⟩

theorem serverRun_logout : ∃ tr, ServerRun packages start (.call logout :: tr) logout.after := by
  obtain ⟨tr, hrun⟩ := serverRun_signedIn
  exact ⟨tr, .step hrun ⟨(Move.ask (.logout (some accessToken.text))).serves packages signedIn,
    fun _ _ => trivial⟩⟩

set_option maxRecDepth 10000 in
theorem logout_clears : Clears packages logout "u1" := by
  have hid : (((authMiddleware packages (some accessToken.text)).run signedIn).1.toOption.map
      User.id) = some "u1" := by decide +kernel
  obtain ⟨u, hu, hid⟩ := Option.map_eq_some_iff.mp hid
  exact ⟨by decide +kernel, .inl ⟨some accessToken.text, u, rfl, authenticates_of_run hu, hid⟩⟩

end Sample

/-- The exchange that logs out the user of a fresh session. -/
theorem clearing_effective_iff_logout : Clears Sample.packages Sample.logout "u1" ∧
    (Revoked Sample.packages Sample.logout.after "u1" ↔
      ¬ HoldsLive Sample.packages Sample.logout.before "u1") := by
  obtain ⟨tr, hrun⟩ := Sample.serverRun_logout
  exact ⟨Sample.logout_clears,
    (clearing_effective_iff hrun Sample.start_fresh).1 Sample.logout_clears⟩

set_option maxRecDepth 10000 in
/-- A refresh token outlives the logout of its user. -/
theorem refresh_survives_logout : ¬ ∀ (tr : List Entry) (x : Exchange) (w : World)
    (userId : String), ServerRun Sample.packages Sample.start (.call x :: tr) w →
      (Clears Sample.packages x userId → Revoked Sample.packages w userId) ∧
        (Flips x userId → ¬ AwaitsVerification Sample.packages w userId) := by
  intro h
  obtain ⟨tr, hrun⟩ := Sample.serverRun_logout
  have hrev := (h tr _ _ "u1" hrun).1 Sample.logout_clears
  have hissued : Sample.refreshToken ∈ Sample.logout.after.issued ∧
      Sample.refreshToken.kind = .refresh ∧ Sample.refreshToken.payload.userId = "u1" := by
    decide +kernel
  obtain ⟨e, he⟩ := hrev _ hissued.1 hissued.2.1 hissued.2.2 [] _ .start _ _ (Async.exec_run _ _)
  have hok : ((refreshAccessToken Sample.packages Sample.refreshToken.text).run
      Sample.logout.after).1.isOk = true := by decide +kernel
  rw [he] at hok
  cases hok

end CodebaseTrpc
