import CodebaseTrpc.Async.Rules
import CodebaseTrpc.Model.Api

/-! Every request but `verifyEmailChange` awaits all it starts. -/
namespace CodebaseTrpc
variable (P : Packages)

theorem awaits_select {α : Type} (query : Db → α) : (select query).Awaits :=
  ⟨fun _ => trivial, trivial⟩

theorem awaits_write {α : Type} (conn : Conn) (statement : World → Db → Except Err (α × Db)) :
    (write conn statement).Awaits := by
  refine ⟨fun w => ?_, trivial⟩
  dsimp only
  split <;> trivial

theorem awaits_getUserById (id : String) : (getUserById id).Awaits := awaits_select _

theorem awaits_transaction {α : Type} (callback : Promise α) : (transaction callback).Awaits :=
  ⟨fun _ => trivial, fun _ => trivial⟩

theorem awaits_dateNow : dateNow.Awaits := fun _ => trivial
theorem awaits_surroundings : surroundings.Awaits := fun _ => trivial

theorem awaits_generateJwtToken (kind : TokenKind) (input : Token) (expiresIn : ℕ) :
    (generateJwtToken P kind input expiresIn).Awaits := fun _ => trivial

theorem awaits_verifyJwtToken (token : String) : (verifyJwtToken P token).Awaits := by
  unfold verifyJwtToken
  split
  · trivial
  · intro w
    dsimp only
    split <;> trivial

theorem awaits_decodeJwtToken (token : String) : (decodeJwtToken P token).Awaits := by
  unfold decodeJwtToken
  split
  · trivial
  · split <;> trivial

theorem awaits_generateSixDigitsVerificationCode :
    generateSixDigitsVerificationCode.Awaits := fun _ => trivial

theorem awaits_sendOr (mail : Mail) (message : String) : (sendOr mail message).Awaits := by
  refine Async.Awaits.tryCatch (fun w => ?_) fun _ => trivial
  dsimp only
  split <;> trivial

theorem awaits_getFreeTierProduct : getFreeTierProduct.Awaits := by
  refine (awaits_select _).bind fun row => ?_
  split <;> trivial

theorem awaits_updateUserById (id : String) (updates : UserUpdates) (conn : Conn) :
    (updateUserById id updates conn).Awaits := awaits_write _ _

theorem awaits_downgradeToFreeTier (userId : String) (conn : Conn) :
    (downgradeToFreeTier userId conn).Awaits :=
  awaits_getFreeTierProduct.bind fun _ => (awaits_updateUserById ..).bind fun _ => trivial

theorem awaits_hasExpiredSubscription (userId : String) :
    (hasExpiredSubscription userId).Awaits := by
  refine (awaits_select _).bind fun billing => ?_
  split
  · trivial
  · exact awaits_dateNow.bind fun _ => trivial

theorem awaits_generateTokens (userId : String) : (generateTokens P userId).Awaits :=
  (awaits_generateJwtToken ..).bind fun _ => (awaits_generateJwtToken ..).bind fun _ => trivial

theorem awaits_getUserProfile (userId : String) : (getUserProfile userId).Awaits :=
  (awaits_select _).bind fun _ => trivial

/-- The tail of the three procedures that start a session. -/
theorem awaits_session (userId : String) :
    (do
      if ← hasExpiredSubscription userId then
        downgradeToFreeTier userId
      let tokens ← generateTokens P userId
      let _ ← updateUserById userId { refreshToken := .set (some tokens.refreshToken) }
      pure tokens : Promise LoginResponse).Awaits := by
  have htail : ((generateTokens P userId).bind fun tokens =>
      (updateUserById userId { refreshToken := .set (some tokens.refreshToken) }).bind fun _ =>
        .pure tokens).Awaits :=
    (awaits_generateTokens ..).bind fun _ => (awaits_updateUserById ..).bind fun _ => trivial
  refine (awaits_hasExpiredSubscription _).bind fun expired => ?_
  dsimp only
  split
  · exact (awaits_downgradeToFreeTier ..).bind fun _ => htail
  · exact htail

theorem awaits_authenticateUser (input : LoginInput) : (authenticateUser P input).Awaits := by
  refine (awaits_select _).bind fun user => ?_
  split
  · trivial
  · split
    · trivial
    · exact awaits_session P _

theorem awaits_authenticateWithGoogle : (authenticateWithGoogle P).Awaits := by
  refine Async.Awaits.bind (fun w => ?_) fun payload => (awaits_select _).bind fun byId => ?_
  · dsimp only
    split <;> try trivial
    split <;> trivial
  dsimp only
  split
  · exact awaits_session P _
  refine (awaits_select _).bind fun byEmail => ?_
  split
  · exact (awaits_updateUserById ..).bind fun _ => awaits_session P _
  · exact awaits_surroundings.bind fun _ => awaits_getFreeTierProduct.bind fun _ =>
      (awaits_write ..).bind fun _ => awaits_session P _

theorem awaits_registerUser (input : SignupInput) : (registerUser P input).Awaits := by
  refine awaits_surroundings.bind fun _ => awaits_getFreeTierProduct.bind fun _ =>
    (awaits_write ..).bind fun _ => (awaits_generateJwtToken ..).bind fun _ =>
    (awaits_updateUserById ..).bind fun _ => Async.Awaits.bind ?_ fun _ => ?_
  · exact (awaits_sendOr ..).tryCatch fun _ => trivial
  · refine (awaits_getUserProfile _).bind fun profile => ?_
    split <;> trivial

theorem awaits_refreshAccessToken (token : String) : (refreshAccessToken P token).Awaits := by
  refine (awaits_verifyJwtToken ..).bind fun _ => (awaits_select _).bind fun user => ?_
  split
  · trivial
  · exact awaits_session P _

theorem awaits_revokeUserRefreshToken (userId : String) :
    (revokeUserRefreshToken userId).Awaits :=
  (awaits_updateUserById ..).bind fun _ => trivial

theorem awaits_verifyUserEmail (token : String) : (verifyUserEmail P token).Awaits := by
  refine (awaits_verifyJwtToken ..).bind fun _ => (awaits_decodeJwtToken ..).bind fun t => ?_
  split
  · trivial
  refine (awaits_select _).bind fun user => ?_
  split
  · trivial
  · split
    · trivial
    · split
      · trivial
      · exact (awaits_updateUserById ..).bind fun _ => trivial

theorem awaits_resendVerificationEmail (userId : String) :
    (resendVerificationEmail P userId).Awaits := by
  refine (awaits_select _).bind fun user => ?_
  split
  · trivial
  · split
    · trivial
    · exact (awaits_generateJwtToken ..).bind fun _ => (awaits_updateUserById ..).bind fun _ =>
        awaits_sendOr ..

theorem awaits_forgotPassword (email : String) : (forgotPassword P email).Awaits := by
  refine (awaits_select _).bind fun user => ?_
  split
  · trivial
  · exact (awaits_generateJwtToken ..).bind fun _ => awaits_sendOr ..

theorem awaits_resetPassword (token newPassword : String) :
    (resetPassword P token newPassword).Awaits := by
  refine (awaits_verifyJwtToken ..).bind fun _ => (awaits_decodeJwtToken ..).bind fun t => ?_
  split
  · trivial
  refine (awaits_select _).bind fun user => ?_
  split
  · trivial
  · exact awaits_surroundings.bind fun _ => (awaits_updateUserById ..).bind fun _ => trivial

theorem awaits_updateUserProfile (userId : String) (input : UpdateUserInput) :
    (updateUserProfile userId input).Awaits :=
  (awaits_updateUserById ..).bind fun _ => trivial

theorem awaits_checkTokenCooldown (user : User) (now : ℕ) :
    (checkTokenCooldown P user now).Awaits := by
  unfold checkTokenCooldown
  split
  · trivial
  refine Async.Awaits.tryCatch ?_ fun _ => trivial
  refine (awaits_verifyJwtToken ..).bind fun _ => (awaits_decodeJwtToken ..).bind fun t => ?_
  dsimp only
  split <;> split <;> trivial

theorem awaits_requestEmailChange (userId newEmail : String) :
    (requestEmailChange P userId newEmail).Awaits := by
  refine (awaits_select _).bind fun user => ?_
  split
  · trivial
  split
  · trivial
  refine (awaits_select _).bind fun existing => ?_
  split
  · trivial
  · exact awaits_dateNow.bind fun _ => (awaits_checkTokenCooldown ..).bind fun _ =>
      awaits_generateSixDigitsVerificationCode.bind fun _ =>
      (awaits_generateJwtToken ..).bind fun _ => (awaits_updateUserById ..).bind fun _ =>
      awaits_sendOr ..

theorem awaits_verifyEmailChangeCode (userId code : String) (tokenData : Token) :
    (verifyEmailChangeCode P userId code tokenData).Awaits := by
  unfold verifyEmailChangeCode
  split
  · trivial
  split
  · refine awaits_dateNow.bind fun _ => ?_
    dsimp only
    split
    · trivial
    · exact (awaits_generateJwtToken ..).bind fun _ => (awaits_updateUserById ..).bind fun _ =>
        trivial
  · trivial

theorem awaits_applyEmailChange (userId newEmail : String) :
    (applyEmailChange userId newEmail).Awaits := by
  refine (awaits_select _).bind fun existing => ?_
  split
  · trivial
  · refine (awaits_updateUserById ..).bind fun _ => (awaits_getUserProfile _).bind fun _ => ?_
    split <;> trivial

theorem awaits_registerUserBilling (input : UpdateUserBillingInput) :
    (registerUserBilling input).Awaits := by
  refine (awaits_select _).bind fun user => ?_
  split
  · trivial
  · exact (awaits_select _).bind fun _ => awaits_transaction _

/-- What the handlers of three events share: go on with the subscription's row, if it has one. -/
def ifSubscribed (externalSubscriptionId : String) (write : Billing → Promise Unit) :
    Promise Unit :=
  if externalSubscriptionId = "" then .pure ()
  else (getBillingByExternalSubscriptionId externalSubscriptionId).bind fun
    | none => .pure ()
    | some billing => write billing

theorem updateBillingOnPaymentFailed_eq (s : String) : updateBillingOnPaymentFailed s =
    ifSubscribed s fun billing =>
      (updateBillingById billing.id { status := .set "past_due" }).bind fun _ => .pure () := rfl

theorem updateBillingOnSubscriptionUpdated_eq (input : SubscriptionUpdate) :
    updateBillingOnSubscriptionUpdated input = ifSubscribed input.externalSubscriptionId
      fun billing => transaction (writeSubscriptionUpdate input billing) := rfl

theorem updateBillingOnSubscriptionDeleted_eq (s : String) :
    updateBillingOnSubscriptionDeleted s =
      ifSubscribed s fun billing => transaction (writeSubscriptionDeleted billing) := rfl

theorem awaits_ifSubscribed {s : String} {write : Billing → Promise Unit}
    (h : ∀ b, (write b).Awaits) : (ifSubscribed s write).Awaits := by
  unfold ifSubscribed
  split
  · trivial
  refine (awaits_select _).bind fun billing => ?_
  split
  · trivial
  · exact h _

theorem awaits_updateBillingOnPaymentFailed (s : String) :
    (updateBillingOnPaymentFailed s).Awaits :=
  awaits_ifSubscribed fun _ => (awaits_write ..).bind fun _ => trivial

theorem awaits_updateBillingOnSubscriptionUpdated (input : SubscriptionUpdate) :
    (updateBillingOnSubscriptionUpdated input).Awaits :=
  awaits_ifSubscribed fun _ => awaits_transaction _

theorem awaits_updateBillingOnSubscriptionDeleted (s : String) :
    (updateBillingOnSubscriptionDeleted s).Awaits :=
  awaits_ifSubscribed fun _ => awaits_transaction _

theorem awaits_processBillingWebhookHandler (event : BillingEvent) :
    (processBillingWebhookHandler event).Awaits := by
  cases event with
  | invoicePaid invoice =>
    simp only [processBillingWebhookHandler, invoicePaid]
    split <;> try trivial
    split <;> try trivial
    split <;> try trivial
    refine (awaits_select _).bind fun product => ?_
    split <;> try trivial
    split
    · trivial
    · exact awaits_registerUserBilling _
  | invoicePaymentFailed invoice =>
    simp only [processBillingWebhookHandler, invoicePaymentFailed]
    split
    · trivial
    · exact awaits_updateBillingOnPaymentFailed _
  | subscriptionUpdated subscription =>
    simp only [processBillingWebhookHandler, subscriptionUpdated]
    split
    · trivial
    · split
      · exact awaits_updateBillingOnSubscriptionUpdated _
      · exact (awaits_select _).bind fun _ => awaits_updateBillingOnSubscriptionUpdated _
  | subscriptionDeleted subscription => exact awaits_updateBillingOnSubscriptionDeleted _
  | other type => trivial

theorem awaits_getUserBilling (user : User) : (getUserBilling user).Awaits := by
  refine (awaits_select _).bind fun billing => ?_
  split
  · trivial
  · exact (awaits_select _).bind fun _ => trivial

theorem awaits_createCheckoutSession (input : CreateCheckoutSessionInput) (user : User) :
    (createCheckoutSession input user).Awaits := by
  refine (awaits_select _).bind fun product => ?_
  split
  · trivial
  split
  · refine (awaits_select _).bind fun billing w => ?_
    dsimp only
    split
    · trivial
    · split <;> trivial
  · trivial

theorem awaits_createCustomerPortalSession (returnUrl : String) (user : User) :
    (createCustomerPortalSession returnUrl user).Awaits := by
  refine (awaits_select _).bind fun billing => ?_
  split
  · trivial
  split
  · trivial
  · intro w
    dsimp only
    split <;> trivial

theorem awaits_authMiddleware (auth : Option String) : (authMiddleware P auth).Awaits := by
  unfold authMiddleware
  split
  · trivial
  refine Async.Awaits.tryCatch ?_ fun error => by split <;> trivial
  refine (awaits_verifyJwtToken ..).bind fun _ => (awaits_decodeJwtToken ..).bind fun t =>
    (awaits_select _).bind fun user => ?_
  split <;> trivial

theorem awaits_verifiedEmailMiddleware (user : User) : (verifiedEmailMiddleware user).Awaits := by
  unfold verifiedEmailMiddleware
  split <;> trivial

theorem awaits_validated {α : Type} {schema : Prop} [Decidable schema] {resolve : Promise α}
    (h : resolve.Awaits) : (validated schema resolve).Awaits := by
  unfold validated
  split
  · exact h
  · trivial

theorem awaits_handle {request : Request}
    (h : ∀ auth code, request ≠ .verifyEmailChange auth code) :
    (handle P request).Awaits := by
  cases request with
  | google credential =>
    exact awaits_validated ((awaits_authenticateWithGoogle P).bind fun _ => trivial)
  | login input => exact awaits_validated ((awaits_authenticateUser P _).bind fun _ => trivial)
  | signup input => exact awaits_validated ((awaits_registerUser P _).bind fun _ => trivial)
  | refresh token =>
    exact awaits_validated ((awaits_refreshAccessToken P _).bind fun _ => trivial)
  | logout auth =>
    exact (awaits_authMiddleware P _).bind fun _ =>
      (awaits_revokeUserRefreshToken _).bind fun _ => trivial
  | verifyEmail token => exact (awaits_verifyUserEmail P _).bind fun _ => trivial
  | resendVerificationEmail auth =>
    exact (awaits_authMiddleware P _).bind fun _ =>
      (awaits_resendVerificationEmail P _).bind fun _ => trivial
  | forgotPassword email =>
    exact awaits_validated ((awaits_forgotPassword P _).bind fun _ => trivial)
  | resetPassword token newPassword =>
    exact awaits_validated ((awaits_resetPassword P ..).bind fun _ => trivial)
  | getUserById auth =>
    exact (awaits_authMiddleware P _).bind fun _ =>
      (awaits_getUserProfile _).bind fun _ => trivial
  | updateUserById auth input =>
    exact (awaits_authMiddleware P _).bind fun _ =>
      awaits_validated ((awaits_updateUserProfile ..).bind fun _ => trivial)
  | requestEmailChange auth newEmail =>
    exact (awaits_authMiddleware P _).bind fun _ =>
      awaits_validated ((awaits_requestEmailChange P ..).bind fun _ => trivial)
  | verifyEmailChange auth code => exact absurd rfl (h auth code)
  | getUserBilling auth =>
    exact (awaits_authMiddleware P _).bind fun _ =>
      (awaits_getUserBilling _).bind fun _ => trivial
  | createCheckoutSession auth input =>
    exact (awaits_authMiddleware P _).bind fun _ =>
      (awaits_verifiedEmailMiddleware _).bind fun _ =>
        awaits_validated ((awaits_createCheckoutSession ..).bind fun _ => trivial)
  | createCustomerPortalSession auth returnUrl =>
    exact (awaits_authMiddleware P _).bind fun _ =>
      (awaits_verifiedEmailMiddleware _).bind fun _ =>
        awaits_validated ((awaits_createCustomerPortalSession ..).bind fun _ => trivial)
  | webhook event => exact (awaits_processBillingWebhookHandler _).bind fun _ => trivial

end CodebaseTrpc
