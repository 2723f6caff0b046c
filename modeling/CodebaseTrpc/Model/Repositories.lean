import CodebaseTrpc.Model.World

/-! The repositories. Where several rows match, a lookup takes the first of the table. -/
namespace CodebaseTrpc

def constraintViolated : Err := .database "violates a constraint"

/-- `keysToCamelCase(undefined)`: the `RETURNING` clause brought no row back. -/
def noRowReturned : Err := .typeError "Cannot convert undefined or null to object"

/-- `INSERT INTO users ... RETURNING *` -/
def insertUser (input : CreateUserInput) (w : World) (db : Db) : Except Err (User × Db) :=
  let row := input.row w.env.uuid w.env.now
  match Db.store? (db.users ++ [row]) db.products db.billings with
  | none => .error constraintViolated
  | some db' => .ok (row, db')

def createUser (input : CreateUserInput) : Promise User := write .knex (insertUser input)

def getUserByEmail (email : String) : Promise (Option User) :=
  select fun db => Rows.lookup User.email email db.users

def getUserByGoogleId (googleId : String) : Promise (Option User) :=
  select fun db => Rows.lookup User.googleId (some googleId) db.users

def getUserById (id : String) : Promise (Option User) :=
  select fun db => Rows.lookup User.id id db.users

def getUserByRefreshToken (refreshToken : String) : Promise (Option User) :=
  select fun db => Rows.lookup User.refreshToken (some refreshToken) db.users

/-- `UPDATE users SET ... WHERE id = ... RETURNING *` -/
def updateUser (id : String) (updates : UserUpdates) (w : World) (db : Db) :
    Except Err (User × Db) :=
  match Rows.lookup User.id id db.users with
  | none => .error noRowReturned
  | some user =>
    match Db.store? (Rows.update User.id id (updates.apply w.env.now) db.users)
        db.products db.billings with
    | none => .error constraintViolated
    | some db' => .ok (updates.apply w.env.now user, db')

def updateUserById (id : String) (updates : UserUpdates) (conn : Conn := .knex) :
    Promise User := write conn (updateUser id updates)

def getProductById (id : String) : Promise (Option Product) :=
  select fun db => Rows.lookup Product.id id db.products

def getProductByExternalPriceId (id : String) : Promise (Option Product) :=
  select fun db => Rows.lookup Product.externalPriceId (some id) db.products

def freeTierNotFound : Err := .error ("Free tier product not found. " ++
  "Update your database seed to mark one product with is_free_tier = true.")

def getFreeTierProduct : Promise Product :=
  (select fun db => Rows.lookup Product.isFreeTier true db.products) >>= fun row =>
    match row with
    | none => .throw freeTierNotFound
    | some product => .pure product

/-- `INSERT INTO billings ... RETURNING *` -/
def insertBilling (input : CreateBilling) (w : World) (db : Db) : Except Err (Billing × Db) :=
  match input.externalCustomerId with
  | none => .error constraintViolated
  | some externalCustomerId =>
    let row : Billing :=
      { id := w.env.uuid
        userId := input.userId
        productId := input.productId
        externalSubscriptionId := input.externalSubscriptionId
        externalCustomerId
        status := input.status
        expiresAt := input.expiresAt
        createdAt := w.env.now
        updatedAt := w.env.now }
    match Db.store? db.users db.products (db.billings ++ [row]) with
    | none => .error constraintViolated
    | some db' => .ok (row, db')

def createBilling (input : CreateBilling) (conn : Conn := .knex) : Promise Billing :=
  write conn (insertBilling input)

def getBillingByUserId (userId : String) : Promise (Option Billing) :=
  select fun db => Rows.lookup Billing.userId userId db.billings

def getBillingByExternalSubscriptionId (externalSubscriptionId : String) :
    Promise (Option Billing) :=
  select fun db => Rows.lookup Billing.externalSubscriptionId externalSubscriptionId db.billings

/-- `UPDATE billings SET ... WHERE id = ... RETURNING *` -/
def updateBilling (id : String) (updates : BillingUpdates) (w : World) (db : Db) :
    Except Err (Billing × Db) :=
  match Rows.lookup Billing.id id db.billings with
  | none => .error noRowReturned
  | some billing =>
    match updates.applyTo w.env.now billing with
    | none => .error constraintViolated
    | some billing' =>
      match Db.store? db.users db.products
          (Rows.update Billing.id id (fun b => (updates.applyTo w.env.now b).getD b)
            db.billings) with
      | none => .error constraintViolated
      | some db' => .ok (billing', db')

def updateBillingById (id : String) (updates : BillingUpdates) (conn : Conn := .knex) :
    Promise Billing := write conn (updateBilling id updates)

end CodebaseTrpc
