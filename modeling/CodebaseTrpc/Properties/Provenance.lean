import CodebaseTrpc.Spec.Frames

/-! Where a verified email comes from. Five operations write the email, its mark, or the one
column that holds the pending token; an address is proved when a secret mailed to it comes
back, or when Google vouches for it. -/
namespace CodebaseTrpc
variable {P : Packages} {w w' : World}

/-- The mail was sent. -/
def Sent (w : World) (mail : Mail) : Prop := mail ∈ w.outbox.map Prod.fst

/-- The exchange proves that the user controls the address. -/
inductive Proves (P : Packages) (x : Exchange) : String → String → Prop
  /-- A verification token mailed to the address was presented. -/
  | link {token email fullName : String} {t : Token} (hrequest : x.request = .verifyEmail token)
      (hreply : x.reply = .ok .success) (hdecode : P.jwt.decode token = some t)
      (hsent : Sent x.before (.verification email fullName token)) : Proves P x t.userId email
  /-- The code mailed to the address of the pending change was presented. -/
  | code {auth : Option String} {code token email fullName : String} {u : User} {t : Token}
      (hrequest : x.request = .verifyEmailChange auth code)
      (hauth : Authenticates P x.before auth u) (hp : PendingChange P x.before u token t)
      (hcode : t.code = some code) (hemail : t.newEmail = some email)
      (hsent : Sent x.before (.emailChangeCode email fullName code)) : Proves P x u.id email
  /-- A Google sign-in with the address was resolved to the user. -/
  | google {credential : String} {payload : TGoogleTokenPayload} {u : User} {w₁ : World}
      (hrequest : x.request = .google credential) (hpay : GooglePayload P x.before payload)
      (hres : Resolved P x.before payload u w₁) : Proves P x u.id payload.email

/-- Earlier in the run the address was proved for the user. -/
def Proved (P : Packages) (tr : List Entry) (userId email : String) : Prop :=
  ∃ x, Entry.call x ∈ tr ∧ Proves P x userId email

/-- Every verified email was proved. -/
def Vouched (P : Packages) (tr : List Entry) (w : World) : Prop :=
  ∀ u ∈ w.db.users, u.emailVerified = true → Proved P tr u.id u.email

/-- The requests that sign users in or concern their email. -/
def Request.ConcernsEmail : Request → Prop
  | .signup _ | .login _ | .google _ | .verifyEmail _ | .resendVerificationEmail _
  | .updateUserById _ _ | .requestEmailChange _ _ | .verifyEmailChange _ _ => True
  | _ => False

/-- The schema and the tables take the update of the user's profile. -/
def TakesUpdate (P : Packages) (w : World) (u : User) (input : UpdateUserInput) : Prop :=
  updateUserSchema P input ∧
    Constraints (Rows.update User.id u.id (input.updates.apply w.env.now) w.db.users)
      w.db.products w.db.billings

/-- After the run `tr` the exchange puts no unproved address under a verified mark. -/
structure Careful (P : Packages) (tr : List Entry) (x : Exchange) : Prop where
  /-- A verified user's profile update, if it is stored, keeps the email or takes one proved
  before. -/
  profile : ∀ auth input u, x.request = .updateUserById auth input →
    Authenticates P x.before auth u → u.emailVerified = true → TakesUpdate P x.before u input →
      ∀ email ∈ input.email, email = u.email ∨ Proved P tr u.id email
  /-- A pending verification token that is still good comes back while its user has the address it
  was mailed to. -/
  link : ∀ token t u, x.request = .verifyEmail token → opens P token x.before.env.now t →
    u ∈ x.before.db.users → u.id = t.userId → u.emailVerificationToken = some token →
      u.emailVerified = false →
        (∃ fullName, Sent x.before (.verification u.email fullName token)) ∨
          Proved P tr u.id u.email
  /-- A wrong code meets a change that is refused, or leads to an address proved before. -/
  code : ∀ auth code u token t newEmail, x.request = .verifyEmailChange auth code →
    Authenticates P x.before auth u → PendingChange P x.before u token t → Ready t newEmail →
      t.code ≠ some code → Blocked x.before u.id newEmail ∨ Proved P tr u.id newEmail

/-- A code stored for a change of email was mailed to the new address. -/
def CodeSent (P : Packages) (w : World) (token : String) : Prop :=
  ∀ t code newEmail, P.jwt.decode token = some t → t.purpose = some .emailChange →
    t.code = some code → t.newEmail = some newEmail →
      ∃ fullName, Sent w (.emailChangeCode newEmail fullName code)

/-- What is kept along a run, its history included. -/
structure Provenance (P : Packages) (tr : List Entry) (w : World) : Prop where
  vouched : Vouched P tr w
  codes : ∀ u ∈ w.db.users, ∀ token ∈ u.emailVerificationToken, CodeSent P w token

theorem Proved.mono {tr tr' : List Entry} {userId email : String} (h : Proved P tr userId email)
    (hle : tr ⊆ tr') : Proved P tr' userId email := by
  obtain ⟨x, hx, hp⟩ := h
  exact ⟨x, hle hx, hp⟩

theorem Proves.proved {tr : List Entry} {x : Exchange} {userId email : String}
    (h : Proves P x userId email) : Proved P (.call x :: tr) userId email :=
  ⟨x, List.mem_cons_self, h⟩

theorem CodeSent.mono {token : String} (h : CodeSent P w token) (hle : w.outbox ⊆ w'.outbox) :
    CodeSent P w' token := by
  intro t code newEmail hdec hp hc he
  obtain ⟨fullName, hsent⟩ := h t code newEmail hdec hp hc he
  exact ⟨fullName, List.map_subset _ hle hsent⟩

/-- The outbox only grows. -/
theorem Effect.outbox {request : Request} {reply : Except Err Reply}
    (h : Effect P w request reply w') : w.outbox ⊆ w'.outbox := by
  cases h with
  | google _ hres => cases hres <;> simp
  | googleStopped _ hres => cases hres <;> simp
  | signup => simp [issueVerification_outbox]
  | resendVerificationEmail => simp [issueVerification_outbox]
  | requestEmailChange => simp [issueCode_outbox]
  | forgotPassword => simp [World.issueReset, World.mailed, World.sign]
  | codeWrong _ _ _ _ hdrift _ => simp [hdrift.outbox]
  | _ => simp

/-- A row that keeps its email, its mark and its pending token. -/
structure SameEmail (u u' : User) : Prop where
  id : u'.id = u.id
  email : u'.email = u.email
  verified : u'.emailVerified = u.emailVerified
  pending : u'.emailVerificationToken = u.emailVerificationToken

theorem SameEmail.refl (u : User) : SameEmail u u := ⟨rfl, rfl, rfl, rfl⟩

theorem SameEmail.trans {u v x : User} (h : SameEmail u v) (h' : SameEmail v x) : SameEmail u x :=
  ⟨h'.id.trans h.id, h'.email.trans h.email, h'.verified.trans h.verified,
    h'.pending.trans h.pending⟩

/-- A row that was touched: a mark it has is an old mark on the old email, or proved; its
pending token is the old one, or a code of it was mailed. -/
structure Traced (P : Packages) (tr : List Entry) (w : World) (u u' : User) : Prop where
  id : u'.id = u.id
  verified : u'.emailVerified = true →
    (u.emailVerified = true ∧ u'.email = u.email) ∨ Proved P tr u.id u'.email
  pending : ∀ token ∈ u'.emailVerificationToken,
    token ∈ u.emailVerificationToken ∨ CodeSent P w token

theorem SameEmail.traced {tr : List Entry} {u u' : User} (h : SameEmail u u') :
    Traced P tr w u u' where
  id := h.id
  verified := fun hv => .inl ⟨h.verified ▸ hv, h.email⟩
  pending := fun _ ht => .inl (h.pending ▸ ht)

theorem Provenance.rows {tr tr' : List Entry} (h : Provenance P tr w)
    (hrows : List.Forall₂ (Traced P tr' w') w.db.users w'.db.users)
    (houtbox : w.outbox ⊆ w'.outbox) (htr : tr ⊆ tr') : Provenance P tr' w' where
  vouched := by
    intro u' hu' hv'
    obtain ⟨u, hu, hR⟩ := Rows.exists_old hrows hu'
    rw [hR.id]
    rcases hR.verified hv' with ⟨hv, he⟩ | hp
    · exact he ▸ (h.vouched u hu hv).mono htr
    · exact hp
  codes := by
    intro u' hu' token ht
    obtain ⟨u, hu, hR⟩ := Rows.exists_old hrows hu'
    rcases hR.pending token ht with ht | hc
    · exact (h.codes u hu token ht).mono houtbox
    · exact hc

/-- A new row brings its proof with it, or no mark. -/
theorem Provenance.insert {tr tr' : List Entry} {row : User} (h : Provenance P tr w)
    (hrows : w'.db.users = w.db.users ++ [row])
    (hverified : row.emailVerified = true → Proved P tr' row.id row.email)
    (hpending : row.emailVerificationToken = none) (houtbox : w.outbox ⊆ w'.outbox)
    (htr : tr ⊆ tr') : Provenance P tr' w' where
  vouched := by
    intro u hu hv
    rw [hrows] at hu
    rcases List.mem_append.mp hu with hu | hu
    · exact (h.vouched u hu hv).mono htr
    · obtain rfl := List.mem_singleton.mp hu
      exact hverified hv
  codes := by
    intro u hu token ht
    rw [hrows] at hu
    rcases List.mem_append.mp hu with hu | hu
    · exact (h.codes u hu token ht).mono houtbox
    · obtain rfl := List.mem_singleton.mp hu
      rw [hpending] at ht
      cases ht

/-- A signed token of another purpose carries no code. -/
theorem codeSent_of_purpose {t : Token} (h : t.purpose ≠ some .emailChange) :
    CodeSent P w (P.jwt.sign t) := by
  intro t' _ _ hdec hp
  rw [P.jwt.decode_sign] at hdec
  cases hdec
  exact absurd hp h

/-- Counting an attempt stores the same code again. -/
theorem CodeSent.attempt {token : String} {t : Token} {iat now : ℕ} (h : CodeSent P w token)
    (hdec : P.jwt.decode token = some t) (hp : t.purpose = some .emailChange) :
    CodeSent P w (P.jwt.sign (attemptPayload t iat now)) := by
  intro t' code newEmail hdec' _ hc he
  rw [P.jwt.decode_sign] at hdec'
  cases hdec'
  exact h t code newEmail hdec hp hc he

theorem Provenance.resolved {tr : List Entry} {x : Exchange} {credential : String}
    {payload : TGoogleTokenPayload} {u : User} (h : Provenance P tr x.before)
    (hrequest : x.request = .google credential) (hpay : GooglePayload P x.before payload)
    (hres : Resolved P x.before payload u w') : Provenance P (.call x :: tr) w' := by
  have hproves : Proved P (.call x :: tr) u.id payload.email :=
    (Proves.google hrequest hpay hres).proved
  cases hres with
  | known =>
    exact h.rows (Rows.forall₂_refl (fun u => (SameEmail.refl u).traced) _) (by simp) (by simp)
  | @linked v hg he hw =>
    refine h.rows (rows_updateUser (fun u => (SameEmail.refl u).traced) fun y hy hid => ?_)
      (by simp) (by simp)
    obtain rfl := Db.user_eq hy (Rows.lookup_mem he) hid
    refine ⟨rfl, fun _ => .inr ?_, fun _ => .inl⟩
    rw [← Rows.lookup_key he] at hproves
    exact hproves
  | created hg he hp hw => exact h.insert hw (fun _ => hproves) rfl (by simp) (by simp)

theorem Provenance.openSession {tr : List Entry} (userId : String) (h : Provenance P tr w) :
    Provenance P tr (w.openSession P userId) := by
  refine h.rows (List.Forall₂.imp (fun _ _ => SameEmail.traced) (rows_openSession userId
    SameEmail.refl (fun _ _ _ => SameEmail.trans) ?_ ?_)) (by simp) (by simp)
  · exact fun _ _ => ⟨rfl, rfl, rfl, rfl⟩
  · exact fun _ _ => ⟨rfl, rfl, rfl, rfl⟩

theorem Provenance.mono {tr tr' : List Entry} (h : Provenance P tr w) (hle : tr ⊆ tr') :
    Provenance P tr' w :=
  h.rows (Rows.forall₂_refl (fun u => (SameEmail.refl u).traced) _) (List.Subset.refl _) hle

theorem Provenance.issueVerification {tr : List Entry} (u : User) (h : Provenance P tr w) :
    Provenance P tr (w.issueVerification P u) := by
  refine h.rows (rows_issueVerification u (fun u => (SameEmail.refl u).traced)
    fun y _ hid => ⟨rfl, fun hvv => .inl ⟨hvv, rfl⟩, fun token ht => .inr ?_⟩)
    (by simp [issueVerification_outbox]) (List.Subset.refl _)
  cases ht
  exact codeSent_of_purpose (by simp [verificationPayload, stamp])

theorem Provenance.issueCode {tr : List Entry} (u : User) (newEmail : String)
    (h : Provenance P tr w) : Provenance P tr (w.issueCode P u newEmail) := by
  refine h.rows (rows_issueCode u newEmail (fun u => (SameEmail.refl u).traced)
    fun y _ hid => ⟨rfl, fun hvv => .inl ⟨hvv, rfl⟩, fun token ht => .inr ?_⟩)
    (by simp [issueCode_outbox]) (List.Subset.refl _)
  cases ht
  intro t code email hdec _ hc he
  rw [P.jwt.decode_sign] at hdec
  cases hdec
  cases hc
  cases he
  exact ⟨u.fullName, by simp [Sent, issueCode_outbox]⟩

/-- A wrong code that is counted, or that leads to a proved address. -/
theorem Provenance.wrongCode {tr : List Entry} {x : Exchange} {u : User} {token newEmail : String}
    {t : Token} (h : Provenance P tr x.before) (hu : u ∈ x.before.db.users)
    (hp : PendingChange P x.before u token t) (hemail : t.newEmail = some newEmail)
    (hdrift : Drifted P x.before u.id t x.after)
    (hx : (x.after = x.before ∨ ∃ iat, x.after = x.before.countAttempt P u.id t iat) ∨
      Proved P tr u.id newEmail) : Provenance P (.call x :: tr) x.after := by
  have hsent : CodeSent P x.after token :=
    (h.codes u hu token hp.stored).mono (hdrift.outbox ▸ List.Subset.refl _)
  have hone : ∀ y ∈ x.before.db.users, y.id = u.id → y = u := fun y hy hid =>
    Db.user_eq hy hu hid
  rcases hx with (hx | ⟨iat, hx⟩) | hproved
  · rw [hx]
    exact h.mono (by simp)
  · refine h.rows ?_ (hdrift.outbox ▸ List.Subset.refl _) (by simp)
    rw [hx, countAttempt_users, ← hx]
    refine Rows.forall₂_update (fun u => (SameEmail.refl u).traced) fun y _ _ => ?_
    refine ⟨rfl, fun hv => .inl ⟨hv, rfl⟩, fun token' ht => .inr ?_⟩
    cases ht
    exact hsent.attempt hp.opens.2.2 hp.purpose
  · refine h.rows
      (rows_drifted (fun u => (SameEmail.refl u).traced) hdrift fun y y' hy hid hd => ?_)
      (hdrift.outbox ▸ List.Subset.refl _) (by simp)
    obtain rfl := hone y hy hid
    refine ⟨hd.id, fun hv => ?_, fun token' ht => ?_⟩
    · rcases hd.email with ⟨he, hverified⟩ | he
      · exact .inl ⟨hverified ▸ hv, he⟩
      · obtain rfl : newEmail = y'.email := Option.some.inj (hemail.symm.trans he)
        exact .inr (hproved.mono (by simp))
    · rcases hd.pending with hk | hk | ⟨iat, hk⟩ <;> rw [hk] at ht
      · exact .inl ht
      · cases ht
      · cases ht
        exact .inr (hsent.attempt hp.opens.2.2 hp.purpose)

/-- Every careful request keeps the provenance. -/
theorem Provenance.effect {tr : List Entry} {x : Exchange} (h : Provenance P tr x.before)
    (hx : Careful P tr x) (heff : Effect P x.before x.request x.reply x.after) :
    Provenance P (.call x :: tr) x.after := by
  have hone : ∀ u ∈ x.before.db.users, ∀ y ∈ x.before.db.users, y.id = u.id → y = u :=
    fun u hu y hy hid => Db.user_eq hy hu hid
  have houtbox := heff.outbox
  obtain ⟨w, request, reply, w'⟩ := x
  dsimp only at h heff houtbox hone ⊢
  have htr : tr ⊆ .call ⟨w, request, reply, w'⟩ :: tr := List.subset_cons_self _ _
  -- requests that leave every email, mark and pending token alone
  have hsame : List.Forall₂ SameEmail w.db.users w'.db.users →
      Provenance P (.call ⟨w, request, reply, w'⟩ :: tr) w' := fun hrows =>
    h.rows (hrows.imp fun _ _ => SameEmail.traced) houtbox htr
  cases heff with
  | none => exact hsame (Rows.forall₂_refl SameEmail.refl _)
  | google hpay hres => exact (h.resolved (x := ⟨w, _, _, _⟩) rfl hpay hres).openSession _
  | googleStopped hpay hres => exact h.resolved (x := ⟨w, _, _, _⟩) rfl hpay hres
  | login => exact (h.openSession _).mono htr
  | refresh => exact (h.openSession _).mono htr
  | signup hproduct hrow =>
    have hinsert : Provenance P tr _ :=
      h.insert hrow (by simp [signupUser]) rfl (by simp) (List.Subset.refl _)
    exact (hinsert.issueVerification _).mono htr
  | logout => exact hsame (rows_updateUser SameEmail.refl fun _ _ _ => ⟨rfl, rfl, rfl, rfl⟩)
  | @verifyEmail token t u ht hp hu hstored hv =>
    have hmem := Rows.lookup_mem hu
    have hid : u.id = t.userId := Rows.lookup_key hu
    refine h.rows (rows_updateUser (fun u => (SameEmail.refl u).traced) fun y hy hk => ?_)
      houtbox htr
    obtain rfl := hone u hmem y hy hk
    refine ⟨rfl, fun _ => .inr ?_, fun _ => .inl⟩
    rcases hx.link token t y rfl ht hmem hid hstored hv with ⟨fullName, hsent⟩ | hproved
    · exact hid ▸ (Proves.link (x := ⟨w, _, _, _⟩) rfl rfl ht.2.2 hsent).proved
    · exact hproved.mono htr
  | resendVerificationEmail => exact (h.issueVerification _).mono htr
  | forgotPassword => exact hsame (Rows.forall₂_refl SameEmail.refl _)
  | resetPassword => exact hsame (rows_updateUser SameEmail.refl fun _ _ _ => ⟨rfl, rfl, rfl, rfl⟩)
  | @updateUserById auth input u _ hauth hinput hrow =>
    refine h.rows (rows_updateUser (fun u => (SameEmail.refl u).traced) fun y hy hk => ?_)
      houtbox htr
    obtain rfl := hone u hauth.mem y hy hk
    refine ⟨rfl, fun hv => ?_, fun _ => .inl⟩
    have htakes : TakesUpdate P w y input := by
      refine ⟨hinput, ?_⟩
      have hsound := (w.exec (updateUser y.id input.updates)).db.sound
      rw [hrow] at hsound
      simpa using hsound
    have hprofile := hx.profile auth input y rfl hauth hv htakes
    simp only [UserUpdates.apply_email, UpdateUserInput.updates]
    cases he : input.email with
    | none => exact .inl ⟨hv, rfl⟩
    | some email =>
      rcases hprofile email he with hsame | hproved
      · exact .inl ⟨hv, hsame⟩
      · exact .inr (hproved.mono (List.subset_cons_self _ _))
  | requestEmailChange => exact (h.issueCode _ _).mono htr
  | @emailChanged auth code token newEmail u t _ hauth hp hcode hready hfree hrow =>
    obtain ⟨fullName, hsent⟩ := h.codes u hauth.mem token hp.stored t code newEmail hp.opens.2.2
      hp.purpose hcode hready.hasEmail
    refine h.rows (rows_updateUser (fun u => (SameEmail.refl u).traced) fun y hy hk => ?_)
      houtbox htr
    obtain rfl := hone u hauth.mem y hy hk
    refine ⟨rfl, fun _ => .inr ?_, fun token ht => by cases ht⟩
    exact (Proves.code (x := ⟨w, _, _, _⟩) rfl hauth hp hcode hready.hasEmail hsent).proved
  | @codeWrong auth code token newEmail u t _ _ hauth hp hcode hready hdrift hblocked =>
    refine h.wrongCode (x := ⟨w, _, _, w'⟩) hauth.mem hp hready.hasEmail hdrift ?_
    refine (hx.code auth code u token t newEmail rfl hauth hp hready hcode).imp_left fun hb => ?_
    exact (hblocked hb).2.imp_right fun h => h.imp fun _ => And.right
  | createCheckoutSession => exact hsame (Rows.forall₂_refl SameEmail.refl _)
  | createCustomerPortalSession => exact hsame (Rows.forall₂_refl SameEmail.refl _)
  | webhook hb => exact hsame (rows_billed SameEmail.refl hb fun _ _ => ⟨rfl, rfl, rfl, rfl⟩)

/-- In a run of careful exchanges every verified email was proved. -/
theorem vouched_of_careful {w₀ : World} {tr : List Entry}
    (hrun : RunWhere P (Careful P) w₀ tr w) (h₀ : Fresh w₀) : Vouched P tr w := by
  refine (Trace.Run.invariant (I := fun tr w => w.trx = none ∧ Provenance P tr w) hrun
    ⟨h₀.trx, ⟨?_, ?_⟩⟩ ?_).2.vouched
  · simp [Vouched, h₀.users]
  · simp [h₀.users]
  · rintro tr v _ _ ⟨htrx, hv⟩ ⟨hle | hx, hC⟩
    · refine ⟨htrx, hv.rows ?_ (List.Subset.refl _) (by simp)⟩
      exact Rows.forall₂_refl (fun u => (SameEmail.refl u).traced) _
    · have heff := effect_of_exec htrx hx
      exact ⟨heff.trx.trans htrx, hv.effect (x := ⟨v, _, _, _⟩) (hC _ rfl) heff⟩

theorem Proves.request {x : Exchange} {userId email : String} (h : Proves P x userId email) :
    (∃ token, x.request = .verifyEmail token) ∨
      (∃ auth code, x.request = .verifyEmailChange auth code) ∨
        ∃ credential, x.request = .google credential := by
  cases h with
  | link h => exact .inl ⟨_, h⟩
  | code h => exact .inr (.inl ⟨_, _, h⟩)
  | google h => exact .inr (.inr ⟨_, h⟩)

/-- A link proves the address it was mailed to. -/
theorem Proves.sent_link {x : Exchange} {token userId email : String}
    (h : Proves P x userId email) (hrequest : x.request = .verifyEmail token) :
    ∃ fullName, Sent x.before (.verification email fullName token) := by
  cases h with
  | link h _ _ hsent =>
    cases hrequest.symm.trans h
    exact ⟨_, hsent⟩
  | code h => cases hrequest.symm.trans h
  | google h => cases hrequest.symm.trans h

namespace Sample

def verification (before : World) : Exchange :=
  let served := (handle packages (.verifyEmail verificationToken.text)).run before
  ⟨before, .verifyEmail verificationToken.text, served.1, served.2⟩

/-- The run in which Ann clicks the link she was sent, after some moves. -/
def verifiedAfter (moves : List Move) : List Entry × World :=
  let x := verification (play packages start moves)
  (.call x :: (playFrom packages [] start moves).1, x.after)

def signingIn : List Move := [.ask (.signup ann), .ask (.login annLogin)]

def signingInRenamed : List Move := signingIn ++
  [.ask (.updateUserById (some accessToken.text) { email := some "ann@new" })]

set_option maxRecDepth 10000 in
theorem link_facts :
    signedIn.outbox.map Prod.fst = [.verification "ann@mail" "Ann Lee" verificationToken.text] ∧
    signedIn.db.users.map User.email = ["ann@mail"] ∧
    (play packages start signingInRenamed).outbox.map Prod.fst =
      [.verification "ann@mail" "Ann Lee" verificationToken.text] ∧
    buyer (verifiedAfter signingInRenamed).2 ∈ (verifiedAfter signingInRenamed).2.db.users ∧
    (buyer (verifiedAfter signingInRenamed).2).emailVerified = true ∧
    (buyer (verifiedAfter signingInRenamed).2).email = "ann@new" := by decide +kernel

end Sample

theorem careful_of_request {tr : List Entry} {x : Exchange}
    (hprofile : ∀ auth input, x.request ≠ .updateUserById auth input)
    (hlink : ∀ token, x.request ≠ .verifyEmail token)
    (hcode : ∀ auth code, x.request ≠ .verifyEmailChange auth code) : Careful P tr x where
  profile auth input _ h := absurd h (hprofile auth input)
  link token _ _ h := absurd h (hlink token)
  code auth code _ _ _ _ h := absurd h (hcode auth code)

/-- A link that comes back while its user has the address it was mailed to. -/
theorem vouched_of_careful_link :
    RunWhere Sample.packages (Careful Sample.packages) Sample.start
      (Sample.verifiedAfter Sample.signingIn).1 (Sample.verifiedAfter Sample.signingIn).2 ∧
    Vouched Sample.packages (Sample.verifiedAfter Sample.signingIn).1
      (Sample.verifiedAfter Sample.signingIn).2 := by
  have hsigned := runWhere_play Sample.packages (Careful Sample.packages) Sample.start
    Sample.signingIn fun request hr _ _ _ _ => by
      simp only [Sample.signingIn, List.mem_cons, Move.ask.injEq, List.not_mem_nil, or_false] at hr
      rcases hr with rfl | rfl <;> exact careful_of_request nofun nofun nofun
  have hrun : RunWhere Sample.packages (Careful Sample.packages) Sample.start
      (Sample.verifiedAfter Sample.signingIn).1 (Sample.verifiedAfter Sample.signingIn).2 := by
    refine .step hsigned ⟨(Move.ask (.verifyEmail _)).serves _ _, ?_⟩
    rintro x ⟨⟩
    refine ⟨fun _ _ _ h => (by cases h), ?_, fun _ _ _ _ _ _ h => (by cases h)⟩
    rintro token t u ⟨⟩ _ hu _ _ _
    change u ∈ Sample.signedIn.db.users at hu
    obtain ⟨hout, hmails, -⟩ := Sample.link_facts
    have he : u.email = "ann@mail" := by
      have hmem := List.mem_map_of_mem (f := User.email) hu
      rw [hmails] at hmem
      exact List.mem_singleton.mp hmem
    refine .inl ⟨"Ann Lee", ?_⟩
    change Mail.verification _ _ _ ∈ Sample.signedIn.outbox.map Prod.fst
    rw [hout, he]
    exact List.mem_singleton.mpr rfl
  exact ⟨hrun, vouched_of_careful hrun Sample.start_fresh⟩

/-- A link mailed to the old address verifies the new one. -/
theorem old_link_verifies_new_email : ¬ ∀ (tr : List Entry) (w : World),
    RunWhere Sample.packages (fun _ x => x.request.ConcernsEmail) Sample.start tr w →
      Vouched Sample.packages tr w := by
  intro h
  have hrenamed := runWhere_play Sample.packages (fun _ x => x.request.ConcernsEmail)
    Sample.start Sample.signingInRenamed fun request hr _ _ _ _ => by
      simp only [Sample.signingInRenamed, Sample.signingIn, List.cons_append, List.nil_append,
        List.mem_cons, Move.ask.injEq, List.not_mem_nil, or_false] at hr
      rcases hr with rfl | rfl | rfl <;> trivial
  have hrun : RunWhere Sample.packages (fun _ x => x.request.ConcernsEmail) Sample.start
      (Sample.verifiedAfter Sample.signingInRenamed).1
      (Sample.verifiedAfter Sample.signingInRenamed).2 := by
    refine .step hrenamed ⟨(Move.ask (.verifyEmail _)).serves _ _, ?_⟩
    rintro x ⟨⟩
    trivial
  obtain ⟨-, -, hout, hu, hv, he⟩ := Sample.link_facts
  obtain ⟨x, hx, hproves⟩ := h _ _ hrun _ hu hv
  rw [he] at hproves
  rcases List.mem_cons.mp hx with hx | hx
  · -- the only link that was mailed went to the old address
    cases hx
    obtain ⟨fullName, hsent⟩ := hproves.sent_link rfl
    change Mail.verification _ _ _ ∈
      (play Sample.packages Sample.start Sample.signingInRenamed).outbox.map Prod.fst at hsent
    rw [hout] at hsent
    simp at hsent
  · rcases mem_playFrom hx with hx | hx
    · cases hx
    · simp only [Sample.signingInRenamed, Sample.signingIn, List.cons_append, List.nil_append,
        List.mem_cons, Move.ask.injEq, List.not_mem_nil, or_false] at hx
      rcases hproves.request with ⟨_, h⟩ | ⟨_, _, h⟩ | ⟨_, h⟩ <;> rw [h] at hx <;>
        rcases hx with hx | hx | hx <;> cases hx

end CodebaseTrpc
