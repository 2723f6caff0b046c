import Mathlib.Data.Rat.Init
import CodebaseTrpc.Model.Input
import CodebaseTrpc.Model.Repositories

/-! The pricing configuration, its validation, and the seed that loads it into `products`. -/
namespace CodebaseTrpc

/-- `IPricingPlan`, as far as the validation and the seed read it. A price may be any number. -/
structure PricingPlan where
  name : String
  description : String
  priceInCents : ℚ
  externalProductId : Option String
  externalPriceId : Option String
  active : Bool
  isFreeTier : Bool
  maxProjects : Option ℚ

/-- `validatePricingConfig`, with `PRICING_PLANS` as a parameter. -/
def validatePricingConfig (plans : List PricingPlan) : Except Err Unit :=
  let freeTiers := plans.filter (·.isFreeTier)
  match freeTiers with
  | [] => .error (.error "Pricing config must have exactly one free tier")
  | free :: others =>
    if others ≠ [] then
      .error (.error ("Pricing config has " ++ toString freeTiers.length ++
        " free tiers, must have exactly one"))
    else if free.priceInCents ≠ 0 then
      .error (.error "Free tier must have priceInCents = 0")
    else
      let paidPlans := plans.filter (!·.isFreeTier)
      match paidPlans.find? fun plan => truthyText plan.externalPriceId = none with
      | some plan => .error (.error ("Paid plan \"" ++ plan.name ++ "\" missing externalPriceId"))
      | none => .ok ()

def varchar (text : String) : Option String := if text.length ≤ 255 then some text else none

def int4 (n : ℤ) : Option ℤ := if -2147483648 ≤ n ∧ n ≤ 2147483647 then some n else none

/-- The row with the column set, unless there is no such column that can hold the value. -/
def setProductColumn (column : String) (value : Value) (product : Product) : Option Product :=
  match column, value with
  | "name", .json (.string s) => (varchar s).map fun name => { product with name }
  | "description", .json (.string s) => some { product with description := s }
  | "price_in_cents", .json (.number n) =>
      (int4 n).map fun priceInCents => { product with priceInCents }
  | "external_product_id", .json (.string s) =>
      (varchar s).map fun s => { product with externalProductId := some s }
  | "external_product_id", .json .null => some { product with externalProductId := none }
  | "external_price_id", .json (.string s) =>
      (varchar s).map fun s => { product with externalPriceId := some s }
  | "external_price_id", .json .null => some { product with externalPriceId := none }
  | "active", .json (.bool b) => some { product with active := b }
  | "is_free_tier", .json (.bool b) => some { product with isFreeTier := b }
  | "max_projects", .json (.number n) =>
      (int4 n).map fun n => { product with maxProjects := some n }
  | "max_projects", .json .null => some { product with maxProjects := none }
  | _, _ => none

/-- A row of column defaults, before the columns of the insert. -/
def defaultProduct (id : String) : Product where
  id := id
  name := ""
  description := ""
  priceInCents := 0
  externalProductId := none
  externalPriceId := none
  active := true
  isFreeTier := false
  maxProjects := none

/-- The `NOT NULL` columns without a default. -/
def requiredProductColumns : List String := ["name", "description", "price_in_cents"]

def productOf (record : Properties) (id : String) : Option Product :=
  if requiredProductColumns.all fun column => (record.lookup column).isSome then
    record.foldlM (fun product kv => setProductColumn kv.1 kv.2 product) (defaultProduct id)
  else none

/-- `knex('products').insert(records)`, all rows or none. The database draws an id for each. -/
def insertProducts (records : List Properties) (uuids : ℕ → String) (db : Db) :
    Except Err (Unit × Db) :=
  match records.zipIdx.mapM fun record => productOf record.1 (uuids record.2) with
  | none => .error constraintViolated
  | some rows =>
    match Db.store? db.users (db.products ++ rows) db.billings with
    | none => .error constraintViolated
    | some db' => .ok ((), db')

/-- `knex('products').del()`. The billings of the products go with them: `ON DELETE CASCADE`. -/
def deleteProducts (db : Db) : Except Err (Unit × Db) :=
  let kept := db.billings.filter fun b => !db.products.any fun p => p.id = b.productId
  match Db.store? db.users [] kept with
  | none => .error constraintViolated
  | some db' => .ok ((), db')

def jsonNumber (q : ℚ) : Json := if q.den = 1 then .number q.num else .fraction

def jsonOrNull {α : Type} (json : α → Json) : Option α → Json
  | none => .null
  | some a => json a

def dbRecord (plan : PricingPlan) : Properties := keysToSnakeCase
  [("name", .text plan.name),
    ("description", .text plan.description),
    ("priceInCents", .json (jsonNumber plan.priceInCents)),
    ("externalProductId", .json (jsonOrNull .string plan.externalProductId)),
    ("externalPriceId", .json (jsonOrNull .string plan.externalPriceId)),
    ("active", .json (.bool plan.active)),
    ("isFreeTier", .json (.bool plan.isFreeTier)),
    ("maxProjects", .json (jsonOrNull jsonNumber plan.maxProjects))]

/-- `seed`, with `PRICING_PLANS` as a parameter. Each statement commits by itself. -/
def seed (plans : List PricingPlan) (uuids : ℕ → String) : Promise Unit := do
  write .knex fun _ => deleteProducts
  let dbRecords := plans.map dbRecord
  write .knex fun _ => insertProducts dbRecords uuids

end CodebaseTrpc
