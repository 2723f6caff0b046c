import CodebaseTrpc.Invariants.SessionTokens
import CodebaseTrpc.Properties.MailedSecrets
import CodebaseTrpc.Properties.Procedures
import CodebaseTrpc.Trace.Knowledge

/-! An outsider and somebody's account. He may send any requests, as often as he likes and between
those of everybody else, and reads the mail of his own mailboxes; he forges no signature. -/
namespace CodebaseTrpc
variable {P : Packages} {w w' : World}

/-- The mailboxes he reads, the exchanges of a run that are his, by number, and the tokens that he
had before it. -/
structure Outsider where
  reads : String → Prop
  sends : ℕ → Prop
  knew : String → Prop

def Mail.recipient : Mail → String
  | .verification recipient _ _ | .passwordReset recipient _ _
  | .emailChangeCode recipient _ _ => recipient

/-- The token in the link of a mail. -/
def Mail.token : Mail → Option String
  | .verification _ _ token | .passwordReset _ _ token => some token
  | .emailChangeCode _ _ _ => none

/-- The tokens that a request presents. -/
def Request.presents : Request → List String
  | .logout auth | .resendVerificationEmail auth | .getUserById auth | .updateUserById auth _
  | .requestEmailChange auth _ | .verifyEmailChange auth _ | .getUserBilling auth
  | .createCheckoutSession auth _ | .createCustomerPortalSession auth _ =>
      (truthyText auth).toList.map tokenOf
  | .refresh token | .verifyEmail token | .resetPassword token _ => [token]
  | .google _ | .login _ | .signup _ | .forgotPassword _ | .webhook _ => []

/-- The address that a request gives to the account of its caller, with its header. -/
def Request.readdresses : Request → Option (Option String × String)
  | .requestEmailChange auth newEmail => some (auth, newEmail)
  | .updateUserById auth input => input.email.map fun newEmail => (auth, newEmail)
  | _ => none

/-- The request takes the account of the user to an address. -/
def Request.Moves (P : Packages) (w : World) (request : Request) (userId newEmail : String) :
    Prop :=
  ∃ auth u, request.readdresses = some (auth, newEmail) ∧ Authenticates P w auth u ∧ u.id = userId

namespace Outsider
variable (O : Outsider)

/-- The tokens that an entry tells him: in the answer to his request, or in a mail to him. -/
def Hears (tr : List Entry) : Entry → String → Prop
  | .idle _, _ => False
  | .call x, token =>
    (O.sends tr.length ∧ ∃ tokens : LoginResponse, x.reply = .ok (.tokens tokens) ∧
      (token = tokens.accessToken ∨ token = tokens.refreshToken)) ∨
    ∃ mails mail r, x.after.outbox = x.before.outbox ++ mails ∧ (mail, r) ∈ mails ∧
      O.reads mail.recipient ∧ mail.token = some token

abbrev Knows (tr : List Entry) (token : String) : Prop := Trace.Knows O.Hears O.knew tr token

/-- His requests: no token in them is forged, he has neither the user's password nor a Google
payload with the user's subject or address (the code links an account by the address alone), and
events are signed by the payment service. -/
structure Sends (P : Packages) (userId : String) (tr : List Entry) (x : Exchange) : Prop where
  tokens : ∀ token ∈ x.request.presents, P.jwt.authentic token = true → O.Knows tr token
  password : ∀ input, x.request = .login input → ∀ u ∈ x.before.db.users, u.id = userId →
    u.email = input.email → P.compareSync input.password u.passwordHash = false
  google : ∀ credential payload, x.request = .google credential →
    GooglePayload P x.before payload → ∀ u ∈ x.before.db.users, u.id = userId →
      u.googleId ≠ some payload.sub ∧ u.email ≠ payload.email
  noEvent : ∀ event, x.request ≠ .webhook event

/-- The requests of others: nobody moves the account to a mailbox that he reads. -/
def Spares (P : Packages) (userId : String) (x : Exchange) : Prop :=
  ∀ newEmail, x.request.Moves P x.before userId newEmail → ¬ O.reads newEmail

def Plays (P : Packages) (userId : String) (tr : List Entry) (x : Exchange) : Prop :=
  (O.sends tr.length → O.Sends P userId tr x) ∧ (¬ O.sends tr.length → O.Spares P userId x)

end Outsider

theorem bearerOf_opens {token : String} {t : Token} {now : ℕ} (h : opens P token now t) :
    bearerOf P token = some t.userId := bearerOf_eq h.2.1.1 h.2.2

theorem authentic_of_bearerOf {token userId : String} (h : bearerOf P token = some userId) :
    P.jwt.authentic token = true := by
  unfold bearerOf at h
  split_ifs at h with ha
  exact ha

theorem bearerOf_sessionTokens (userId : String) (now : ℕ) {token : String}
    (h : token = (sessionTokens P userId now).accessToken ∨
      token = (sessionTokens P userId now).refreshToken) : bearerOf P token = some userId := by
  rcases h with rfl | rfl
  · exact bearerOf_sign (accessPayload userId now)
  · exact bearerOf_sign (refreshPayload userId now)

/-- The header of an authenticated request carries a token of its user. -/
theorem Authenticates.presents {auth : Option String} {u : User} (h : Authenticates P w auth u) :
    ∃ token ∈ (truthyText auth).toList.map tokenOf, bearerOf P token = some u.id := by
  obtain ⟨header, t, hh, ht, hu⟩ := h
  refine ⟨tokenOf header, by simp [hh], ?_⟩
  rw [bearerOf_opens ht, Rows.lookup_key hu]

/-- So does a refresh that finds a user. -/
theorem Ledger.bearerOf_refresh {token : String} {u : User} (h : Ledger P w)
    (hu : Rows.lookup User.refreshToken (some token) w.db.users = some u) :
    bearerOf P token = some u.id := by
  obtain ⟨i, hi, -, rfl, hid⟩ := h.refresh u (Rows.lookup_mem hu) token (Rows.lookup_key hu)
  rw [h.text i hi, bearerOf_sign, hid]

section Others
variable {u : User} {id : String}

theorem mem_updateUser_of_ne {updates : UserUpdates} (hu : u ∈ w.db.users) (hne : u.id ≠ id) :
    u ∈ (w.exec (updateUser id updates)).db.users := by
  rcases hs : updateUser id updates w w.db with e | ⟨v, db⟩
  · simpa [World.exec, hs] using hu
  · rw [exec_updateUser_users_of_ok hs]
    exact Rows.mem_update.mpr (.inr ⟨hu, hne⟩)

theorem mem_openSession_of_ne (hu : u ∈ w.db.users) (hne : u.id ≠ id) :
    u ∈ (w.openSession P id).db.users := by
  rw [openSession_users]
  refine Rows.mem_update.mpr (.inr ⟨?_, hne⟩)
  rcases settle_users w id with h | ⟨product, -, -, h⟩
  · rwa [h]
  · rw [h]
    exact Rows.mem_update.mpr (.inr ⟨hu, hne⟩)

theorem mem_issueVerification_of_ne {v : User} (hu : u ∈ w.db.users) (hne : u.id ≠ v.id) :
    u ∈ (w.issueVerification P v).db.users := by
  rw [issueVerification_users]
  exact Rows.mem_update.mpr (.inr ⟨hu, hne⟩)

theorem mem_issueCode_of_ne {v : User} {newEmail : String} (hu : u ∈ w.db.users)
    (hne : u.id ≠ v.id) : u ∈ (w.issueCode P v newEmail).db.users := by
  rw [issueCode_users]
  exact Rows.mem_update.mpr (.inr ⟨hu, hne⟩)

theorem Resolved.mem_of_ne {payload : TGoogleTokenPayload} {v : User}
    (h : Resolved P w payload v w') (hu : u ∈ w.db.users) (hne : u.id ≠ v.id) :
    u ∈ w'.db.users := by
  cases h with
  | known => exact hu
  | linked => exact mem_updateUser_of_ne hu hne
  | created _ _ _ hw =>
    rw [hw]
    exact List.mem_append_left _ hu

theorem Drifted.mem_of_ne {t : Token} (h : Drifted P w id t w') (hu : u ∈ w.db.users)
    (hne : u.id ≠ id) : u ∈ w'.db.users := by
  obtain ⟨f, hf, -⟩ := h.users
  rw [hf]
  exact Rows.mem_update.mpr (.inr ⟨hu, hne⟩)

end Others

/-- A session is answered only to a request that starts one. -/
theorem opensSession_of_exec {request : Request} {tokens : LoginResponse}
    (h : (handle P request).Exec w (.ok (.tokens tokens)) w') : request.OpensSession := by
  obtain ⟨_, u, -, -, hsigns, -⟩ := h.yields (yields_reply ⟨w, trivial⟩ request)
  cases request <;> trivial

section Outside
variable {O : Outsider} {userId : String} {tr : List Entry} {x : Exchange}

/-- He knows no token of the user, so he presents none. -/
theorem Outsider.Sends.bearer_ne (h : O.Sends P userId tr x)
    (hknown : ∀ token, O.Knows tr token → bearerOf P token ≠ some userId) :
    ∀ token ∈ x.request.presents, bearerOf P token ≠ some userId :=
  fun token ht hb => hknown token (h.tokens token ht (authentic_of_bearerOf hb)) hb

theorem ne_of_authenticates {auth : Option String} {v : User} (h : Authenticates P w auth v)
    (hne : ∀ token ∈ (truthyText auth).toList.map tokenOf, bearerOf P token ≠ some userId) :
    userId ≠ v.id := by
  rintro rfl
  obtain ⟨token, ht, hb⟩ := h.presents
  exact hne token ht hb

/-- The user that a Google sign-in resolves to. -/
theorem Resolved.ne {payload : TGoogleTokenPayload} {u v : User} (h : Resolved P w payload v w')
    (hu : u ∈ w.db.users) (hg : u.googleId ≠ some payload.sub ∧ u.email ≠ payload.email) :
    u.id ≠ v.id := by
  intro hid
  cases h with
  | known hv =>
    obtain rfl := w.db.user_eq hu (Rows.lookup_mem hv) hid
    exact hg.1 (Rows.lookup_key hv)
  | linked _ hv _ =>
    obtain rfl := w.db.user_eq hu (Rows.lookup_mem hv) hid
    exact hg.2 (Rows.lookup_key hv)
  | created _ _ _ hw => exact Db.id_ne_added hw hu hid

/-- His request leaves the user's row as it is, and a session that it starts is another user's. -/
theorem Outsider.Sends.outside {u : User} (hs : O.Sends P u.id tr x)
    (heff : Effect P x.before x.request x.reply x.after) (hl : Ledger P x.before)
    (hknown : ∀ token, O.Knows tr token → bearerOf P token ≠ some u.id)
    (hu : u ∈ x.before.db.users) : u ∈ x.after.db.users ∧
      (x.request.OpensSession → ∀ tokens, x.reply = .ok (.tokens tokens) →
        ∃ v : User, u.id ≠ v.id ∧ tokens = sessionTokens P v.id x.before.env.now) := by
  have hbearer := hs.bearer_ne hknown
  have hne : ∀ {auth v}, Authenticates P x.before auth v →
      (truthyText auth).toList.map tokenOf = x.request.presents → u.id ≠ v.id := by
    intro auth v hauth hreq
    exact ne_of_authenticates hauth (hreq ▸ hbearer)
  obtain ⟨w, request, reply, w'⟩ := x
  dsimp only at *
  cases heff with
  | none h =>
    refine ⟨hu, fun hopens tokens hreply => ?_⟩
    rcases h with ⟨e, rfl⟩ | h
    · cases hreply
    · cases request <;> cases h <;> cases hopens
  | @google credential payload v w₁ hpay hres =>
    have hv := hres.ne hu (hs.google credential payload rfl hpay u hu rfl)
    refine ⟨mem_openSession_of_ne (hres.mem_of_ne hu hv) hv, ?_⟩
    rintro - _ ⟨⟩
    exact ⟨v, hv, rfl⟩
  | @googleStopped credential payload v w₁ e hpay hres =>
    have hv := hres.ne hu (hs.google credential payload rfl hpay u hu rfl)
    exact ⟨hres.mem_of_ne hu hv, nofun⟩
  | @login input v hlook hpw =>
    have hv : u.id ≠ v.id := by
      intro hid
      obtain rfl := w.db.user_eq hu (Rows.lookup_mem hlook) hid
      have hno := hs.password input rfl u hu rfl (Rows.lookup_key hlook)
      rw [hpw] at hno
      cases hno
    refine ⟨mem_openSession_of_ne hu hv, ?_⟩
    rintro - _ ⟨⟩
    exact ⟨v, hv, rfl⟩
  | signup _ hrow =>
    refine ⟨mem_issueVerification_of_ne ?_ (Db.id_ne_added hrow hu), nofun⟩
    rw [hrow]
    exact List.mem_append_left _ hu
  | @refresh token v _ hlook =>
    have hv : u.id ≠ v.id := by
      intro hid
      exact hbearer token (by simp [Request.presents]) (hid ▸ hl.bearerOf_refresh hlook)
    refine ⟨mem_openSession_of_ne hu hv, ?_⟩
    rintro - _ ⟨⟩
    exact ⟨v, hv, rfl⟩
  | logout hauth => exact ⟨mem_updateUser_of_ne hu (hne hauth rfl), nofun⟩
  | @verifyEmail token t v ht _ hv _ _ =>
    have hid : u.id ≠ v.id := fun hid => hbearer token (by simp [Request.presents])
      (by rw [bearerOf_opens ht, hid, Rows.lookup_key hv])
    exact ⟨mem_updateUser_of_ne hu hid, nofun⟩
  | resendVerificationEmail hauth _ =>
    exact ⟨mem_issueVerification_of_ne hu (hne hauth rfl), nofun⟩
  | forgotPassword _ => exact ⟨hu, nofun⟩
  | @resetPassword token _ t v ht _ hv _ =>
    have hid : u.id ≠ v.id := fun hid => hbearer token (by simp [Request.presents])
      (by rw [bearerOf_opens ht, hid, Rows.lookup_key hv])
    exact ⟨mem_updateUser_of_ne hu hid, nofun⟩
  | updateUserById hauth => exact ⟨mem_updateUser_of_ne hu (hne hauth rfl), nofun⟩
  | requestEmailChange hauth => exact ⟨mem_issueCode_of_ne hu (hne hauth rfl), nofun⟩
  | emailChanged hauth => exact ⟨mem_updateUser_of_ne hu (hne hauth rfl), nofun⟩
  | codeWrong hauth _ _ _ hdrift _ => exact ⟨hdrift.mem_of_ne hu (hne hauth rfl), nofun⟩
  | createCheckoutSession hauth => exact ⟨hu, nofun⟩
  | createCustomerPortalSession hauth => exact ⟨hu, nofun⟩
  | @webhook event _ _ => exact absurd rfl (hs.noEvent event)

end Outside

/-- The account's mail goes elsewhere than to the mailboxes, and so it will after a change of its
address that is under way. -/
def Reserved (P : Packages) (reads : String → Prop) (u : User) : Prop :=
  ¬ reads u.email ∧ ∀ token ∈ u.emailVerificationToken, ∀ t ∈ P.jwt.decode token,
    ∀ e ∈ t.newEmail, ¬ reads e

section Mail
variable {reads : String → Prop} {userId : String}

/-- A row before and after a request: that of the user stays reserved. -/
def KeepsReserved (P : Packages) (reads : String → Prop) (userId : String) (u u' : User) : Prop :=
  u'.id = u.id ∧ (u.id = userId → Reserved P reads u → Reserved P reads u')

theorem KeepsReserved.refl (u : User) : KeepsReserved P reads userId u u := ⟨rfl, fun _ h => h⟩

theorem KeepsReserved.trans {u v x : User} (h : KeepsReserved P reads userId u v)
    (h' : KeepsReserved P reads userId v x) : KeepsReserved P reads userId u x :=
  ⟨h'.1.trans h.1, fun hid hu => h'.2 (h.1.trans hid) (h.2 hid hu)⟩

/-- An update of neither column. -/
theorem keepsReserved_of_quiet {updates : UserUpdates} (he : updates.email = .undefined)
    (hp : updates.emailVerificationToken = .undefined) (now : ℕ) (u : User) :
    KeepsReserved P reads userId u (updates.apply now u) := by
  refine ⟨rfl, fun _ h => ?_⟩
  simpa [Reserved, he, hp] using h

/-- A new pending token that names no mailbox of these. -/
theorem keepsReserved_storePending {t : Token} (h : ∀ e ∈ t.newEmail, ¬ reads e) (now : ℕ)
    (u : User) : KeepsReserved P reads userId u ((storePending (P.jwt.sign t)).apply now u) := by
  refine ⟨rfl, fun _ hu => ⟨hu.1, ?_⟩⟩
  rintro _ ⟨⟩ t' ht'
  rw [P.jwt.decode_sign] at ht'
  cases ht'
  exact h

theorem PendingChange.unread {u : User} {token newEmail : String} {t : Token}
    (hp : PendingChange P w u token t) (hready : Ready t newEmail) (h : Reserved P reads u) :
    ¬ reads newEmail :=
  h.2 token hp.stored t hp.opens.2.2 newEmail hready.hasEmail

theorem keepsReserved_openSession (id : String) :
    List.Forall₂ (KeepsReserved P reads userId) w.db.users (w.openSession P id).db.users :=
  rows_openSession id KeepsReserved.refl (fun _ _ _ => KeepsReserved.trans)
    (fun u _ => keepsReserved_of_quiet rfl rfl _ u) fun u _ => keepsReserved_of_quiet rfl rfl _ u

theorem keepsReserved_resolved {payload : TGoogleTokenPayload} {u : User}
    (h : Resolved P w payload u w') :
    Rows.Evolved (KeepsReserved P reads userId) (fun _ => True) w.db.users w'.db.users := by
  cases h with
  | known _ => exact .refl KeepsReserved.refl _
  | linked _ _ _ =>
    exact .of_forall₂ (rows_updateUser KeepsReserved.refl fun v _ _ =>
      keepsReserved_of_quiet rfl rfl _ v)
  | created _ _ _ hw =>
    rw [hw]
    exact .append KeepsReserved.refl trivial

/-- No request takes the user's mail to the mailboxes, unless it asks for that. -/
theorem Effect.keepsReserved {request : Request} {reply : Except Err Reply}
    (h : Effect P w request reply w')
    (hspares : ∀ newEmail, request.Moves P w userId newEmail → ¬ reads newEmail) :
    Rows.Evolved (KeepsReserved P reads userId) (fun _ => True) w.db.users w'.db.users := by
  have hrefl : ∀ u, KeepsReserved P reads userId u u := .refl
  have htrans : ∀ u v x, KeepsReserved P reads userId u v → KeepsReserved P reads userId v x →
      KeepsReserved P reads userId u x := fun _ _ _ => .trans
  have hupdate : ∀ (id : String) (updates : UserUpdates), updates.email = .undefined →
      updates.emailVerificationToken = .undefined → Rows.Evolved (KeepsReserved P reads userId)
        (fun _ => True) w.db.users (w.exec (updateUser id updates)).db.users :=
    fun id updates he hp => .of_forall₂ (rows_updateUser hrefl fun v _ _ =>
      keepsReserved_of_quiet he hp _ v)
  have hverification : ∀ (v : World) (u : User), List.Forall₂ (KeepsReserved P reads userId)
      v.db.users (v.issueVerification P u).db.users := fun v u =>
    rows_issueVerification u hrefl fun x _ _ =>
      keepsReserved_storePending (by simp [verificationPayload, stamp]) _ x
  cases h with
  | none => exact .refl hrefl _
  | google _ hres =>
    exact (keepsReserved_resolved hres).forall₂ (keepsReserved_openSession _) htrans
      fun _ _ _ _ => trivial
  | googleStopped _ hres => exact keepsReserved_resolved hres
  | login => exact .of_forall₂ (keepsReserved_openSession _)
  | signup _ hrow =>
    refine Rows.Evolved.forall₂ ?_ (hverification _ _) htrans fun _ _ _ _ => trivial
    rw [hrow]
    exact .append hrefl trivial
  | refresh => exact .of_forall₂ (keepsReserved_openSession _)
  | logout => exact hupdate _ _ rfl rfl
  | verifyEmail => exact hupdate _ _ rfl rfl
  | resendVerificationEmail => exact .of_forall₂ (hverification _ _)
  | forgotPassword => exact .refl hrefl _
  | resetPassword => exact hupdate _ _ rfl rfl
  | @updateUserById auth input u _ hauth _ _ =>
    refine .of_forall₂ (rows_updateUser hrefl fun v _ hid => ⟨rfl, fun huser hv => ⟨?_, hv.2⟩⟩)
    cases he : input.email with
    | none => simpa [UpdateUserInput.updates, patchOf, he] using hv.1
    | some newEmail =>
      have hmoves : (Request.updateUserById auth input).Moves P w userId newEmail :=
        ⟨auth, u, by simp [Request.readdresses, he], hauth, hid.symm.trans huser⟩
      simpa [UpdateUserInput.updates, patchOf, he] using hspares newEmail hmoves
  | @requestEmailChange auth newEmail u _ hauth _ _ =>
    refine .of_forall₂ (rows_issueCode _ _ hrefl fun v _ hid => ?_)
    by_cases huser : v.id = userId
    · refine keepsReserved_storePending (fun e he => ?_) _ v
      obtain rfl : newEmail = e := by simpa [changePayload, changeInput, stamp] using he
      exact hspares newEmail ⟨auth, u, rfl, hauth, hid.symm.trans huser⟩
    · exact ⟨rfl, fun h => absurd h huser⟩
  | emailChanged hauth hp _ hready _ _ =>
    refine .of_forall₂ (rows_updateUser hrefl fun v hv hid => ⟨rfl, fun _ hres => ?_⟩)
    obtain rfl := w.db.user_eq hv hauth.mem hid
    exact ⟨hp.unread hready hres, fun _ h => by cases h⟩
  | codeWrong hauth hp _ hready hdrift _ =>
    refine .of_forall₂ (rows_drifted hrefl hdrift fun v v' hv hid hd => ⟨hd.id, fun _ hres => ?_⟩)
    obtain rfl := w.db.user_eq hv hauth.mem hid
    have hunread := hp.unread hready hres
    constructor
    · rcases hd.email with ⟨he, -⟩ | he
      · exact he ▸ hres.1
      · obtain rfl := Option.some.inj (hready.hasEmail.symm.trans he)
        exact hunread
    · intro token htoken t' ht' e he
      rcases hd.pending with hsame | hnone | ⟨iat, hcounted⟩
      · exact hres.2 token (hsame ▸ htoken) t' ht' e he
      · rw [hnone] at htoken
        cases htoken
      · rw [hcounted] at htoken
        cases htoken
        rw [P.jwt.decode_sign] at ht'
        cases ht'
        obtain rfl := Option.some.inj (hready.hasEmail.symm.trans he)
        exact hunread
  | createCheckoutSession => exact .refl hrefl _
  | createCustomerPortalSession => exact .refl hrefl _
  | webhook hb =>
    exact .of_forall₂ (rows_billed hrefl hb fun u p => keepsReserved_of_quiet rfl rfl _ u)

end Mail

theorem Effect.outbox_cases {request : Request} {reply : Except Err Reply}
    (h : Effect P w request reply w') :
    w'.outbox = w.outbox ∨ ∃ mail r, w'.outbox = w.outbox ++ [(mail, r)] := by
  cases h with
  | google _ hres => exact .inl (by cases hres <;> simp)
  | googleStopped _ hres => exact .inl (by cases hres <;> simp)
  | signup => exact .inr ⟨_, _, by rw [issueVerification_outbox, exec_outbox]⟩
  | resendVerificationEmail => exact .inr ⟨_, _, issueVerification_outbox ..⟩
  | forgotPassword => exact .inr ⟨_, _, rfl⟩
  | requestEmailChange => exact .inr ⟨_, _, issueCode_outbox ..⟩
  | codeWrong _ _ _ _ hdrift _ => exact .inl hdrift.outbox
  | _ => exact .inl (by simp)

/-- The mails of a request. -/
theorem Effect.mails_of_mem {request : Request} {reply : Except Err Reply}
    {mails : List (Mail × MailReply)} {mail : Mail} {r : MailReply}
    (h : Effect P w request reply w') (hmails : w'.outbox = w.outbox ++ mails)
    (hmem : (mail, r) ∈ mails) : Mails P w mail w' := by
  rcases h.outbox_cases with hnone | ⟨mail', r', hone⟩
  · rw [hnone, List.self_eq_append_right] at hmails
    rw [hmails] at hmem
    cases hmem
  · obtain rfl : mails = [(mail', r')] := List.append_cancel_left (hmails.symm.trans hone)
    obtain ⟨rfl, rfl⟩ := Prod.mk.inj (List.mem_singleton.mp hmem)
    exact h.mails hone

/-- A link goes to the address of the account that it is for. -/
theorem Mails.recipient {mail : Mail} {token : String} (h : Mails P w mail w')
    (htoken : mail.token = some token) :
    ∃ u ∈ w'.db.users, mail.recipient = u.email ∧ bearerOf P token = some u.id := by
  cases h with
  | @verification x u hu =>
    cases htoken
    refine ⟨(storePending (P.jwt.sign (verificationPayload u.id x.env.now))).apply x.env.now u,
      ?_, rfl, bearerOf_sign _⟩
    rw [issueVerification_users]
    exact Rows.mem_update_self User.id _ hu
  | @passwordReset u hu =>
    cases htoken
    exact ⟨u, hu, rfl, bearerOf_sign _⟩
  | emailChangeCode => cases htoken

section Run
variable {O : Outsider} {userId : String} {tr : List Entry} {x : Exchange}

theorem Request.Moves.presents {request : Request} {newEmail : String}
    (h : request.Moves P w userId newEmail) :
    ∃ token ∈ request.presents, bearerOf P token = some userId := by
  obtain ⟨auth, u, hreq, hauth, rfl⟩ := h
  have hpresents : request.presents = (truthyText auth).toList.map tokenOf := by
    cases request <;> simp [Request.readdresses] at hreq
    · obtain ⟨_, -, rfl, -⟩ := hreq
      rfl
    · obtain ⟨rfl, -⟩ := hreq
      rfl
  exact hpresents ▸ hauth.presents

/-- The user that a request speaks for is named by a token that it presents. -/
theorem Request.presents_of_subject {request : Request} (h : request.subject P = some userId) :
    ∃ token ∈ request.presents, bearerOf P token = some userId := by
  cases request <;> simp_all [Request.subject, Request.presents, Option.bind_eq_some_iff]

/-- The user is there, the account's mail goes elsewhere. -/
structure Guarded (P : Packages) (O : Outsider) (userId : String) (w : World) : Prop where
  trx : w.trx = none
  ledger : Ledger P w
  reserved : ∃ u ∈ w.db.users, u.id = userId ∧ Reserved P O.reads u

theorem Guarded.served (h : Guarded P O userId x.before)
    (hknown : ∀ token, O.Knows tr token → bearerOf P token ≠ some userId)
    (heff : Effect P x.before x.request x.reply x.after) (hplays : O.Plays P userId tr x) :
    Guarded P O userId x.after := by
  refine ⟨heff.trx.trans h.trx, h.ledger.effect heff, ?_⟩
  have hspares : O.Spares P userId x := by
    by_cases hsends : O.sends tr.length
    · intro newEmail hmoves
      obtain ⟨token, htoken, hb⟩ := hmoves.presents
      exact absurd hb ((hplays.1 hsends).bearer_ne hknown token htoken)
    · exact hplays.2 hsends
  obtain ⟨u, hu, hid, hres⟩ := h.reserved
  obtain ⟨u', hu', hkeeps⟩ := (heff.keepsReserved hspares).exists_new hu
  exact ⟨u', hu', hkeeps.1.trans hid, hkeeps.2 hid hres⟩

theorem Guarded.hears_ne (h : Guarded P O userId x.before) (h' : Guarded P O userId x.after)
    (hknown : ∀ token, O.Knows tr token → bearerOf P token ≠ some userId)
    (hx : (handle P x.request).Exec x.before x.reply x.after) (hplays : O.Plays P userId tr x) :
    ∀ token, O.Hears tr (.call x) token → bearerOf P token ≠ some userId := by
  have heff := effect_of_exec h.trx hx
  rintro token (⟨hsends, tokens, hreply, htoken⟩ | ⟨mails, mail, r, hmails, hmem, hreads, htoken⟩)
  · obtain ⟨u, hu, rfl, -⟩ := h.reserved
    have hopens := opensSession_of_exec (hreply ▸ hx)
    obtain ⟨v, hne, rfl⟩ := ((hplays.1 hsends).outside heff h.ledger hknown hu).2 hopens _ hreply
    rw [bearerOf_sessionTokens v.id x.before.env.now htoken]
    exact fun heq => hne (Option.some.inj heq).symm
  · obtain ⟨u, hu, hrecipient, hb⟩ := (heff.mails_of_mem hmails hmem).recipient htoken
    obtain ⟨v, hv, rfl, hres⟩ := h'.reserved
    rw [hb]
    intro heq
    obtain rfl := x.after.db.user_eq hu hv (Option.some.inj heq)
    exact hres.1 (hrecipient ▸ hreads)

/-- The invariant of a run, and what the outsider knows after it. -/
theorem Guarded.run {w₁ : World} (h : Guarded P O userId w₁)
    (hknew : ∀ token, O.knew token → bearerOf P token ≠ some userId)
    (hrun : RunWhere P (O.Plays P userId) w₁ tr w) : Guarded P O userId w ∧
      ∀ token, O.Knows tr token → bearerOf P token ≠ some userId := by
  refine Trace.Run.discreet hrun h hknew ?_
  rintro tr s entry t hs hknown ⟨hserves, hplays⟩
  cases hserves with
  | idle hle =>
    refine ⟨⟨hs.trx, hs.ledger.idle hle, hs.reserved⟩, fun token htoken => htoken.elim⟩
  | call hx =>
    have hplays' := hplays _ rfl
    have ht := hs.served hknown (effect_of_exec hs.trx hx) hplays'
    exact ⟨ht, hs.hears_ne ht hknown hx hplays'⟩

/-- An outsider who forges no signature, does not know the user's password and has neither the
user's Google account nor the user's mail never comes by a token of the user, whatever he and
everybody else do; and no request of his writes to the account or speaks for it. -/
theorem no_account_takeover {w₀ w₁ : World} {tr₀ : List Entry} {u : User} (h₀ : Fresh w₀)
    (hbefore : ServerRun P w₀ tr₀ w₁) (hu : u ∈ w₁.db.users) (hmail : Reserved P O.reads u)
    (hknew : ∀ token, O.knew token → bearerOf P token ≠ some u.id)
    (hrun : RunWhere P (O.Plays P u.id) w₁ tr w) :
    (∀ token, O.Knows tr token → bearerOf P token ≠ some u.id) ∧
    (∃ v ∈ w.db.users, v.id = u.id ∧ Reserved P O.reads v) ∧
    ∀ tr' x, .call x :: tr' <:+ tr → O.sends tr'.length →
      x.request.subject P ≠ some u.id ∧ x.after.db.billings = x.before.db.billings ∧
      ∃ v ∈ x.before.db.users, v.id = u.id ∧ v ∈ x.after.db.users := by
  have hs := hbefore.sessions h₀
  have hguarded : Guarded P O u.id w₁ := ⟨hs.trx, hs.ledger, u, hu, rfl, hmail⟩
  obtain ⟨hend, hknown⟩ := hguarded.run hknew hrun
  refine ⟨hknown, hend.reserved, ?_⟩
  rintro tr' x ⟨post, rfl⟩ hsends
  obtain ⟨w', hrun'⟩ := hrun.earlier
  cases hrun' with
  | step hprefix hstep =>
    obtain ⟨hserves, hplays⟩ := hstep
    obtain ⟨hg, hknown'⟩ := hguarded.run hknew hprefix
    have hplay := (hplays x rfl).1 hsends
    cases hserves with
    | call hx =>
      have heff := effect_of_exec hg.trx hx
      obtain ⟨v, hv, hid, -⟩ := hg.reserved
      refine ⟨fun hsubject => ?_, heff.billings hplay.noEvent, v, hv, hid, ?_⟩
      · obtain ⟨token, htoken, hb⟩ := Request.presents_of_subject hsubject
        exact hplay.bearer_ne hknown' token htoken hb
      · rw [← hid] at hplay hknown'
        exact (hplay.outside heff hg.ledger hknown' hv).1

end Run

namespace Sample

/-- Bob, who reads his own mail only, and makes every request of the run. -/
def stranger : Outsider := ⟨fun mailbox => mailbox = bob.email, fun _ => True, fun _ => False⟩

/-- He signs up and asks for a reset link to Ann's account, -/
def strangerMoves : List Move := [.wait { env with uuid := "u2" }, .ask (.signup bob),
  .ask (.forgotPassword ann.email)]

def intruded : World := play packages signedIn strangerMoves

/-- and logs in. -/
def strangerLogin : Request := .login ⟨bob.email, bob.password⟩

def strangerEntries : List Entry :=
  .call ⟨intruded, strangerLogin, ((handle packages strangerLogin).run intruded).1,
    ((handle packages strangerLogin).run intruded).2⟩ ::
      (playFrom packages [] signedIn strangerMoves).1

set_option maxRecDepth 10000 in
theorem intruded_facts : buyer signedIn ∈ signedIn.db.users ∧
    (buyer signedIn).email ≠ bob.email ∧ (buyer signedIn).id = "u1" ∧
    (∀ token ∈ (buyer signedIn).emailVerificationToken, ∀ t ∈ packages.jwt.decode token,
      t.newEmail = none) ∧
    (∀ u ∈ intruded.db.users, u.id = "u1" → u.email ≠ bob.email) := by decide +kernel

theorem plays_strangerMoves (request : Request) (h : .ask request ∈ strangerMoves)
    (userId : String) (tr : List Entry) (v : World) (r : Except Err Reply) (v' : World) :
    stranger.Plays packages userId tr ⟨v, request, r, v'⟩ := by
  refine ⟨fun _ => ?_, fun h => absurd trivial h⟩
  have hreq : request = .signup bob ∨ request = .forgotPassword ann.email := by
    simpa [strangerMoves] using h
  rcases hreq with rfl | rfl <;>
    exact ⟨by simp [Request.presents], by simp, by simp, by simp⟩

end Sample

/-- With Bob logged in, and a link to Ann's account mailed at his request, her row keeps an address
that he does not read. -/
theorem no_account_takeover_intruded :
    ∃ v ∈ ((handle Sample.packages Sample.strangerLogin).run Sample.intruded).2.db.users,
      v.id = (Sample.buyer Sample.signedIn).id ∧
        Reserved Sample.packages Sample.stranger.reads v := by
  obtain ⟨hu, hemail, hid, hpending, hothers⟩ := Sample.intruded_facts
  obtain ⟨tr₀, hbefore⟩ := Sample.serverRun_signedIn
  have hreserved :
      Reserved Sample.packages Sample.stranger.reads (Sample.buyer Sample.signedIn) := by
    refine ⟨hemail, fun token htoken t ht e he => ?_⟩
    rw [hpending token htoken t ht] at he
    cases he
  have hrun : RunWhere Sample.packages
      (Sample.stranger.Plays Sample.packages (Sample.buyer Sample.signedIn).id) Sample.signedIn
      Sample.strangerEntries ((handle Sample.packages Sample.strangerLogin).run
        Sample.intruded).2 := by
    refine .step (runWhere_play _ _ _ Sample.strangerMoves fun request h =>
      Sample.plays_strangerMoves request h _) ⟨.call (Async.exec_run ..), ?_⟩
    rintro x ⟨⟩
    refine ⟨fun _ => ⟨by simp [Sample.strangerLogin, Request.presents], ?_, nofun, nofun⟩,
      fun h => absurd trivial h⟩
    rintro input ⟨⟩ u hmem huser he
    exact absurd he (hothers u hmem (huser.trans hid))
  exact (no_account_takeover Sample.start_fresh hbefore hu hreserved nofun hrun).2.1

end CodebaseTrpc
