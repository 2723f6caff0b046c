import CodebaseTrpc.Model.Repositories

/-! `services/user.service.ts` -/
namespace CodebaseTrpc

def removeUserSensitive (user : User) : UserProfile where
  id := user.id
  email := user.email
  fullName := user.fullName
  age := user.age
  phone := user.phone
  emailVerified := user.emailVerified

def getUserProfile (userId : String) : Promise (Option UserProfile) := do
  let user ← getUserById userId
  pure (user.map removeUserSensitive)

/-- A key of a `z.object` with optional fields, as the key of an update. -/
def patchOf {α : Type} : Option α → Patch α
  | none => .undefined
  | some value => .set value

def UpdateUserInput.updates (input : UpdateUserInput) : UserUpdates where
  fullName := patchOf input.fullName
  email := patchOf input.email
  phone := patchOf input.phone
  age := patchOf input.age

def updateUserProfile (userId : String) (updates : UpdateUserInput) : Promise UserProfile := do
  let user ← updateUserById userId updates.updates
  pure (removeUserSensitive user)

end CodebaseTrpc
