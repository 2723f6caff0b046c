import CodebaseTrpc.Invariants.SessionTokens
import CodebaseTrpc.Invariants.Writers
import CodebaseTrpc.Properties.PendingSecret

/-! What a request that failed leaves behind, where every statement was served: nothing, or a
pending secret of its caller. -/
namespace CodebaseTrpc
variable {P : Packages} {w w' : World} {e : Err}

/-- The request failed with the error, and this is the world after it. -/
inductive Leaves (P : Packages) (w : World) : Request → Err → World → Prop
  | nothing {request : Request} {e : Err} : Leaves P w request e w
  /-- The new link was stored, and its mail was not accepted. -/
  | linkUnsent {auth : Option String} {u : User} (hauth : Authenticates P w auth u)
      (hv : u.emailVerified = false) (hmail : w.env.mail ≠ .accepted) :
      Leaves P w (.resendVerificationEmail auth)
        (.custom "Failed to send verification email" .internalServerError) (w.issueVerification P u)
  | codeUnsent {auth : Option String} {newEmail : String} {u : User}
      (hauth : Authenticates P w auth u) (hmail : w.env.mail ≠ .accepted) :
      Leaves P w (.requestEmailChange auth newEmail)
        (.custom "Failed to send verification code" .internalServerError)
        (w.issueCode P u newEmail)
  | resetUnsent {email : String} {u : User}
      (hu : Rows.lookup User.email email w.db.users = some u) (hmail : w.env.mail ≠ .accepted) :
      Leaves P w (.forgotPassword email)
        (.custom "Failed to send password reset email" .internalServerError) (w.issueReset P u)
  /-- A wrong code, for an address that is no longer free. -/
  | counted {auth : Option String} {code token newEmail : String} {u : User} {t : Token} {iat : ℕ}
      {e : Err} (hauth : Authenticates P w auth u) (hp : PendingChange P w u token t)
      (hready : Ready t newEmail) (hcode : t.code ≠ some code) (hiat : t.iat = some iat) :
      Leaves P w (.verifyEmailChange auth code) e (w.countAttempt P u.id t iat)
  /-- Stripe created the session, and returned no url for it. -/
  | noUrl {auth : Option String} {input : CreateCheckoutSessionInput} {u : User}
      {session : CheckoutSession} (hauth : Authenticates P w auth u)
      (hurl : truthyText w.env.sessionUrl = none) :
      Leaves P w (.createCheckoutSession auth input)
        (.trpc .internalServerError "Checkout URL not available")
        { w with checkouts := w.checkouts ++ [session] }
  | checkoutRejected {auth : Option String} {input : CreateCheckoutSessionInput} {u : User}
      {session : CheckoutSession} {message : String} (hauth : Authenticates P w auth u)
      (hstripe : w.env.stripe = .rejected message) :
      Leaves P w (.createCheckoutSession auth input) (.error message)
        { w with checkouts := w.checkouts ++ [session] }
  | portalRejected {auth : Option String} {returnUrl : String} {u : User}
      {session : PortalSession} {message : String} (hauth : Authenticates P w auth u)
      (hstripe : w.env.stripe = .rejected message) :
      Leaves P w (.createCustomerPortalSession auth returnUrl) (.error message)
        { w with portals := w.portals ++ [session] }

theorem Refused.leaves {α : Type} {request : Request} {r : Except Err α} (h : Refused w r w') :
    Leaves P w request e w' := h.2 ▸ .nothing

/-- With a free tier to fall back on, a Google sign-in that resolved an account succeeds. -/
theorem google_leaves {credential : String} (hfree : w.db.users ≠ [] → w.freeTier ≠ none)
    (h : (handle P (.google credential)).run w = (.error e, w')) :
    Leaves P w (.google credential) e w' := by
  rcases run_validated_cases h with h | ⟨-, h⟩
  · exact h.leaves
  rcases run_return_cases h with ⟨e', hrun, -⟩ | ⟨_, -, heq⟩
  swap
  · cases heq
  clear h
  rw [authenticateWithGoogle_eq] at hrun
  replace hrun := run_then_cases run_verifyGoogleCredential_cases hrun
  rcases hrun with hrun | ⟨payload, _, ⟨-, rfl⟩, hrun⟩
  · exact hrun.leaves
  rcases run_then_cases run_resolveGoogle_cases hrun with hrun | ⟨u, w₁, hres, hrun⟩
  · exact hrun.leaves
  have hfree₁ : w₁.freeTier ≠ none := by
    rw [hres.freeTier]
    cases hres with
    | known hu => exact hfree (List.ne_nil_of_mem (Rows.lookup_mem hu))
    | linked _ hu _ => exact hfree (List.ne_nil_of_mem (Rows.lookup_mem hu))
    | created _ _ hp _ => exact hp ▸ nofun
  rw [run_startSession P (lookup_of_mem hres.mem), if_neg fun hno => hfree₁ hno.2] at hrun
  cases hrun

theorem resend_leaves {auth : Option String}
    (h : (handle P (.resendVerificationEmail auth)).run w = (.error e, w')) :
    Leaves P w (.resendVerificationEmail auth) e w' := by
  rcases run_protected_cases h with h | ⟨u, ha, h⟩
  · exact h.leaves
  rcases run_return_cases h with ⟨e', h, heq⟩ | ⟨_, -, heq⟩
  swap
  · cases heq
  cases heq
  rcases run_resendVerificationEmail_cases h with h | ⟨v, hv, hverified, hdelivery, rfl⟩
  · exact h.leaves
  obtain rfl := Option.some.inj ((lookup_of_mem ha.mem).symm.trans hv)
  obtain ⟨hmail, rfl⟩ := delivery_error hdelivery.symm
  exact .linkUnsent ha hverified hmail

theorem requestEmailChange_leaves {auth : Option String} {newEmail : String}
    (h : (handle P (.requestEmailChange auth newEmail)).run w = (.error e, w')) :
    Leaves P w (.requestEmailChange auth newEmail) e w' := by
  rcases run_protected_cases h with h | ⟨u, ha, h⟩
  · exact h.leaves
  rcases run_validated_cases h with h | ⟨-, h⟩
  · exact h.leaves
  rcases run_return_cases h with ⟨e', h, heq⟩ | ⟨_, -, heq⟩
  swap
  · cases heq
  cases heq
  rcases run_requestEmailChange_cases h with h | ⟨v, hv, -, -, hdelivery, rfl⟩
  · exact h.leaves
  obtain rfl := Option.some.inj ((lookup_of_mem ha.mem).symm.trans hv)
  obtain ⟨hmail, rfl⟩ := delivery_error hdelivery.symm
  exact .codeUnsent ha hmail

theorem forgotPassword_leaves {email : String}
    (h : (handle P (.forgotPassword email)).run w = (.error e, w')) :
    Leaves P w (.forgotPassword email) e w' := by
  rcases run_validated_cases h with h | ⟨-, h⟩
  · exact h.leaves
  rcases run_return_cases h with ⟨e', h, heq⟩ | ⟨_, -, heq⟩
  swap
  · cases heq
  cases heq
  rcases run_forgotPassword_cases h with ⟨-, heq, -⟩ | ⟨u, hu, hdelivery, rfl⟩
  · cases heq
  obtain ⟨hmail, rfl⟩ := delivery_error hdelivery.symm
  exact .resetUnsent hu hmail

theorem createCheckoutSession_leaves {auth : Option String} {input : CreateCheckoutSessionInput}
    (h : (handle P (.createCheckoutSession auth input)).run w = (.error e, w')) :
    Leaves P w (.createCheckoutSession auth input) e w' := by
  rcases run_protected_cases h with h | ⟨u, ha, h⟩
  · exact h.leaves
  rcases run_verifiedEmailMiddleware_cases h with h | h
  · exact h.leaves
  rcases run_validated_cases h with h | ⟨-, h⟩
  · exact h.leaves
  rcases run_return_cases h with ⟨e', h, heq⟩ | ⟨_, -, heq⟩
  swap
  · cases heq
  cases heq
  rw [createCheckoutSession, Async.bind_eq] at h
  rcases run_found_cases (run_getProductByExternalPriceId ..) rfl h with h | ⟨product, -, h⟩
  · exact h.leaves
  dsimp only at h
  split at h
  · rw [Async.bind_eq, Async.run_bind_ok (run_getBillingByUserId ..), Async.run_act] at h
    split at h
    next message hstripe =>
      cases h
      exact .checkoutRejected ha hstripe
    split at h
    next hurl =>
      cases h
      exact .noUrl ha hurl
    next => cases h
  · exact (refused h).leaves

theorem createCustomerPortalSession_leaves {auth : Option String} {returnUrl : String}
    (h : (handle P (.createCustomerPortalSession auth returnUrl)).run w = (.error e, w')) :
    Leaves P w (.createCustomerPortalSession auth returnUrl) e w' := by
  rcases run_protected_cases h with h | ⟨u, ha, h⟩
  · exact h.leaves
  rcases run_verifiedEmailMiddleware_cases h with h | h
  · exact h.leaves
  rcases run_validated_cases h with h | ⟨-, h⟩
  · exact h.leaves
  rcases run_return_cases h with ⟨e', h, heq⟩ | ⟨_, -, heq⟩
  swap
  · cases heq
  cases heq
  rcases run_createCustomerPortalSession_cases h with h | ⟨session, rfl, hrejected⟩
  · exact h.leaves
  obtain ⟨message, hstripe, rfl⟩ := hrejected _ rfl
  exact .portalRejected ha hstripe

/-- Every failed execution of a request, where there is a free tier to fall back on. -/
theorem leaves_of_exec {request : Request} (htrx : w.trx = none)
    (hfree : w.db.users ≠ [] → w.freeTier ≠ none)
    (h : (handle P request).Exec w (.error e) w') : Leaves P w request e w' := by
  have hrun : (∀ auth code, request ≠ .verifyEmailChange auth code) →
      (handle P request).run w = (.error e, w') := fun hreq =>
    (Async.exec_iff_run (awaits_handle P hreq)).mp h
  have heff := effect_of_exec htrx h
  generalize hr : (Except.error e : Except Err Reply) = reply at heff
  cases heff with
  | none => exact .nothing
  | googleStopped => exact google_leaves hfree (hrun nofun)
  | resendVerificationEmail => exact resend_leaves (hrun nofun)
  | forgotPassword => exact forgotPassword_leaves (hrun nofun)
  | requestEmailChange => exact requestEmailChange_leaves (hrun nofun)
  | codeWrong =>
    rcases exec_verifyEmailChange_error h with rfl | ⟨u, token, t, newEmail, iat, ha, hp, hready,
      hcode, hiat, rfl⟩
    · exact .nothing
    · exact .counted ha hp hready hcode hiat
  | createCheckoutSession => exact createCheckoutSession_leaves (hrun nofun)
  | createCustomerPortalSession => exact createCustomerPortalSession_leaves (hrun nofun)
  | _ => cases hr

theorem Authenticates.subject {auth : Option String} {u : User} (h : Authenticates P w auth u) :
    Request.subject P (.logout auth) = some u.id := by
  obtain ⟨header, t, hh, ht, hu⟩ := h
  simp [Request.subject, hh, bearerOf_eq ht.2.1.1 ht.2.2, Rows.lookup_key hu]

theorem replaced_countAttempt (P : Packages) (w : World) (userId : String) (t : Token) (iat : ℕ) :
    Replaced w (w.countAttempt P userId t iat) userId
      (P.jwt.sign (attemptPayload t iat w.env.now)) :=
  ⟨countAttempt_users .., by simp [World.countAttempt, World.sign],
    by simp [World.countAttempt, World.sign]⟩

theorem Leaves.tables {request : Request} (h : Leaves P w request e w') :
    w'.db = w.db ∨ ∃ u ∈ w.db.users, request.subject P = some u.id ∧
      ∃ token, Replaced w w' u.id token := by
  cases h with
  | nothing => exact .inl rfl
  | linkUnsent hauth => exact .inr ⟨_, hauth.mem, hauth.subject, _, replaced_issueVerification ..⟩
  | codeUnsent hauth => exact .inr ⟨_, hauth.mem, hauth.subject, _, replaced_issueCode ..⟩
  | resetUnsent => exact .inl rfl
  | counted hauth => exact .inr ⟨_, hauth.mem, hauth.subject, _, replaced_countAttempt ..⟩
  | noUrl => exact .inl rfl
  | checkoutRejected => exact .inl rfl
  | portalRejected => exact .inl rfl

/-- In every reachable world: a request that fails, all of its statements served, leaves the tables
as they were, or a new pending secret in the row of its caller; and only if a mail was not accepted,
or to count a wrong code. -/
theorem failed_request_leaves {w₀ : World} {tr : List Entry} {request : Request}
    (hrun : ServerRun P w₀ tr w) (h₀ : Fresh w₀) (h : (handle P request).Exec w (.error e) w') :
    Leaves P w request e w' ∧ (w'.db = w.db ∨ ∃ u ∈ w.db.users,
      request.subject P = some u.id ∧ ∃ token, Replaced w w' u.id token) := by
  have hs := hrun.sessions h₀
  have hleaves := leaves_of_exec hs.trx hs.ledger.free h
  exact ⟨hleaves, hleaves.tables⟩

namespace Sample

/-- The mail service is down, and Ann asks for a code through the API. -/
def noMail : Environment := { env with mail := .errorStatus "unavailable" }
def mailLost : World := { signedIn with env := noMail }
def codeAsked : Request := .requestEmailChange (some accessToken.text) "new@mail"

set_option maxRecDepth 10000 in
theorem mailLost_facts : signedIn.env.now ≤ noMail.now ∧
    ((handle packages codeAsked).run mailLost).1 =
    .error (.custom "Failed to send verification code" .internalServerError) ∧
    ((handle packages codeAsked).run mailLost).2.db.users ≠ mailLost.db.users := by
  decide +kernel

end Sample

/-- Her code failed to be sent, and her pending secret was replaced. -/
theorem failed_request_leaves_mailLost : ∃ u ∈ Sample.mailLost.db.users, ∃ token,
    Replaced Sample.mailLost ((handle Sample.packages Sample.codeAsked).run Sample.mailLost).2
      u.id token := by
  obtain ⟨tr, hsigned⟩ := Sample.serverRun_signedIn
  obtain ⟨hnow, hreply, hwrites⟩ := Sample.mailLost_facts
  have hidle : Serves Sample.packages Sample.signedIn (.idle Sample.noMail) Sample.mailLost :=
    .idle hnow
  have hrun : ServerRun Sample.packages Sample.start (.idle Sample.noMail :: tr) Sample.mailLost :=
    .step hsigned ⟨hidle, fun _ _ => trivial⟩
  obtain ⟨-, hsame | ⟨u, hu, -, hreplaced⟩⟩ := failed_request_leaves hrun Sample.start_fresh
    (Async.exec_of_run (Prod.ext hreply rfl :
      (handle Sample.packages Sample.codeAsked).run Sample.mailLost = (_, _)))
  · exact absurd (congrArg Db.users hsame) hwrites
  · exact ⟨u, hu, hreplaced⟩

end CodebaseTrpc
