import CodebaseTrpc.Model.AuthService

/-! `services/billing.service.ts` -/
namespace CodebaseTrpc

/-- The callback `registerUserBilling` passes to `db.transaction`. -/
def writeUserBilling (input : UpdateUserBillingInput) (user : User) (billing : Option Billing) :
    Promise Unit := do
  let expiresAtDate := unixTimestampToDate input.expiresAt
  let _ ← match billing with
    | none =>
      createBilling
        { userId := user.id
          productId := input.productId
          externalSubscriptionId := input.externalSubscriptionId
          externalCustomerId := input.externalCustomerId
          status := "active"
          expiresAt := expiresAtDate } .trx
    | some billing =>
      updateBillingById billing.id
        { productId := .set input.productId
          externalSubscriptionId := .set input.externalSubscriptionId
          externalCustomerId := .set input.externalCustomerId
          status := .set "active"
          expiresAt := .set expiresAtDate } .trx
  let _ ← updateUserById user.id { currentProductId := .set (some input.productId) } .trx

def registerUserBilling (input : UpdateUserBillingInput) : Promise Unit := do
  match ← getUserByEmail input.userEmail with
  | none => .throw (.error ("User with email \"" ++ input.userEmail ++ "\" not found"))
  | some user => do
    let billing ← getBillingByUserId user.id
    transaction (writeUserBilling input user billing)

def updateBillingOnPaymentFailed (externalSubscriptionId : String) : Promise Unit :=
  if externalSubscriptionId = "" then pure ()
  else do
    match ← getBillingByExternalSubscriptionId externalSubscriptionId with
    | none => pure ()
    | some billing => do
      let _ ← updateBillingById billing.id { status := .set "past_due" }

structure SubscriptionUpdate where
  externalSubscriptionId : String
  productId : Option String := none
  status : Option String := none
  currentPeriodEnd : ℕ
  deriving DecidableEq, Repr

/-- `...(value && { key: value })`: neither `undefined` nor the empty string is spread. -/
def spread : Option String → Patch String
  | none => .undefined
  | some value => if value = "" then .undefined else .set value

/-- The callback `updateBillingOnSubscriptionUpdated` passes to `db.transaction`. -/
def writeSubscriptionUpdate (input : SubscriptionUpdate) (billing : Billing) : Promise Unit := do
  let _ ← updateBillingById billing.id
    { productId := spread input.productId
      status := spread input.status
      expiresAt := .set input.currentPeriodEnd } .trx
  if input.status = some "canceled" ∨ input.status = some "unpaid" then
    downgradeToFreeTier billing.userId .trx
  else match spread input.productId with
    | .undefined => pure ()
    | .set productId =>
      if productId ≠ billing.productId then do
        let _ ← updateUserById billing.userId { currentProductId := .set (some productId) } .trx
      else pure ()

def updateBillingOnSubscriptionUpdated (input : SubscriptionUpdate) : Promise Unit :=
  if input.externalSubscriptionId = "" then pure ()
  else do
    match ← getBillingByExternalSubscriptionId input.externalSubscriptionId with
    | none => pure ()
    | some billing => transaction (writeSubscriptionUpdate input billing)

/-- The callback `updateBillingOnSubscriptionDeleted` passes to `db.transaction`. -/
def writeSubscriptionDeleted (billing : Billing) : Promise Unit := do
  let now ← dateNow
  let _ ← updateBillingById billing.id { status := .set "canceled", expiresAt := .set now } .trx
  downgradeToFreeTier billing.userId .trx

def updateBillingOnSubscriptionDeleted (externalSubscriptionId : String) : Promise Unit :=
  if externalSubscriptionId = "" then pure ()
  else do
    match ← getBillingByExternalSubscriptionId externalSubscriptionId with
    | none => pure ()
    | some billing => transaction (writeSubscriptionDeleted billing)

end CodebaseTrpc
