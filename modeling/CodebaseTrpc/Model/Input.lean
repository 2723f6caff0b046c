import CodebaseTrpc.Model.Types

/-! JSON values, the properties of JavaScript objects, and what `z.object` makes of an input. -/
namespace CodebaseTrpc

/-- What `JSON.parse` returns. An object is its list of own properties; a number that is no
integer is kept apart from those that are. -/
inductive Json where
  | null
  | bool (b : Bool)
  | number (n : ℤ)
  | fraction
  | string (s : String)
  | array (items : List Json)
  | object (properties : List (String × Json))

/-- The properties of an input that is an object. -/
def inputProperties : Option Json → Option (List (String × Json))
  | some (.object properties) => some properties
  | _ => none

inductive Value where
  | json (value : Json)
  | date (ms : ℕ)

abbrev Value.text (s : String) : Value := .json (.string s)

/-- The own properties of an object, in their order. -/
abbrev Properties : Type := List (String × Value)

/-- The own property `key` becomes `value`, in its place or as the last. -/
def setProperty {α : Type} (key : String) (value : α) : List (String × α) → List (String × α)
  | [] => [(key, value)]
  | (k, v) :: rest => if k = key then (k, value) :: rest else (k, v) :: setProperty key value rest

/-- `{ ...object, ...source }` -/
def spreadInto (object source : Properties) : Properties :=
  source.foldl (fun o kv => setProperty kv.1 kv.2 o) object

def toSnakeCase (str : String) : String :=
  String.ofList (str.toList.flatMap fun letter =>
    if letter.isUpper then ['_', letter.toLower] else [letter])

/-- The matches of `/_([a-z])/g` from left to right, none overlapping the one before. -/
def camelLetters : List Char → List Char
  | [] => []
  | [c] => [c]
  | c :: letter :: rest =>
    if c = '_' ∧ letter.isLower = true then letter.toUpper :: camelLetters rest
    else c :: camelLetters (letter :: rest)

def toCamelCase (str : String) : String := String.ofList (camelLetters str.toList)

/-- `result[key] = value`. On a plain object `__proto__` is a setter of its prototype, which leaves
no own property. -/
def assignProperty {α : Type} (key : String) (value : α) (result : List (String × α)) :
    List (String × α) :=
  if key = "__proto__" then result else setProperty key value result

/-- The body of both functions on keys. -/
def convertKeys {α : Type} (convert : String → String) (obj : List (String × α)) :
    List (String × α) :=
  obj.foldl (fun result kv => assignProperty (convert kv.1) kv.2 result) []

def keysToSnakeCase {α : Type} (obj : List (String × α)) : List (String × α) :=
  convertKeys toSnakeCase obj

def keysToCamelCase {α : Type} (obj : List (String × α)) : List (String × α) :=
  convertKeys toCamelCase obj

structure Field where
  key : String
  accepts : Json → Bool
  isOptional : Bool := false

def stringField (accepts : String → Prop) [DecidablePred accepts] : Json → Bool
  | .string s => accepts s
  | _ => false

def integerField (accepts : ℤ → Prop) [DecidablePred accepts] : Json → Bool
  | .number n => accepts n
  | _ => false

/-- The fields in their order; keys of the input that are no field are not copied. -/
def parseFields : List Field → List (String × Json) → Option Properties
  | [], _ => some []
  | field :: fields, properties =>
    match properties.lookup field.key with
    | none => if field.isOptional then parseFields fields properties else none
    | some value =>
      if field.accepts value then
        (parseFields fields properties).map ((field.key, .json value) :: ·)
      else none

/-- `z.object(fields)` on the input of a call, which may be missing. -/
def zodObject (fields : List Field) (input : Option Json) : Option Properties :=
  (inputProperties input).bind (parseFields fields)

def textOf (properties : List (String × Json)) (key : String) : Option String :=
  match properties.lookup key with
  | some (.string s) => some s
  | _ => none

def integerOf (properties : List (String × Json)) (key : String) : Option ℤ :=
  match properties.lookup key with
  | some (.number n) => some n
  | _ => none

/-- A field that may be left out, but not be of another type. -/
def optionalTextOf (properties : List (String × Json)) (key : String) : Option (Option String) :=
  match properties.lookup key with
  | none => some none
  | some (.string s) => some (some s)
  | some _ => none

def optionalIntegerOf (properties : List (String × Json)) (key : String) : Option (Option ℤ) :=
  match properties.lookup key with
  | none => some none
  | some (.number n) => some (some n)
  | some _ => none

end CodebaseTrpc
