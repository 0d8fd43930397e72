import CatalogSync.Json.Writer

/-!
# Reading records from JSON values

A `Reader` turns a value into something of the domain or says why not. A record is read from an
object, or from an array that holds its fields in order. In an object the first member, in key
order, that does not read decides the error; then the first field that is missing does. Members that
no field names have no effect.
-/

namespace CatalogSync.Json

open CatalogSync.Text

/-- Reads a value, or says what is wrong with it. -/
abbrev Reader (α : Type) := Json → Except String α

/-- What a value is, for an error text. -/
def describe : Json → String
  | .null => "null"
  | .bool b => "boolean `" ++ (if b then "true" else "false") ++ "`"
  | .int i => "integer `" ++ Decimal.ofInt i ++ "`"
  | .real x => "floating point `" ++ x.pointed ++ "`"
  | .text s => "string " ++ quoted s
  | .array _ => "sequence"
  | .object _ => "map"

/-- The error over a value of the wrong kind. -/
def wrongKind (v : Json) (expected : String) : String :=
  "invalid type: " ++ v.describe ++ ", expected " ++ expected

/-- The error over a value of the right kind that is out of bounds. -/
def wrongValue (described expected : String) : String :=
  "invalid value: " ++ described ++ ", expected " ++ expected

/-! ## Single values -/

namespace Reader

def any : Reader Json := fun v => .ok v

def text : Reader String
  | .text s => .ok s
  | v => .error (v.wrongKind "a string")

def nat64 : Reader Nat
  | .int i => if 0 ≤ i then .ok i.toNat else .error (wrongValue (describe (.int i)) "u64")
  | v => .error (v.wrongKind "u64")

def int64 : Reader Int
  | .int i => if i ≤ Decimal.maxInt64 then .ok i else .error (wrongValue (describe (.int i)) "i64")
  | v => .error (v.wrongKind "i64")

/-- Null, or what `r` reads. -/
def optional {α : Type} (r : Reader α) : Reader (Option α)
  | .null => .ok none
  | v => do return some (← r v)

def list {α : Type} (r : Reader α) : Reader (List α)
  | .array items => items.mapM r
  | v => .error (v.wrongKind "a sequence")

/-- The names of a choice as an error text lists them. -/
def alternatives : List String → String
  | [] => "there are no variants"
  | [a] => "expected `" ++ a ++ "`"
  | [a, b] => "expected `" ++ a ++ "` or `" ++ b ++ "`"
  | names => "expected one of " ++ ", ".intercalate (names.map fun a => "`" ++ a ++ "`")

/-- One of the names of `options`. -/
def named {α : Type} (options : List (String × α)) (name : String) : Except String α :=
  match options.lookup name with
  | some a => .ok a
  | none => .error ("unknown variant `" ++ name ++ "`, " ++ alternatives (options.map Prod.fst))

/-- A choice: its name, or an object with the name as its only key and null as its value. -/
def choice {α : Type} (options : List (String × α)) : Reader α
  | .text name => named options name
  | .object [(name, v)] => do
    let a ← named options name
    match v with
    | .null => return a
    | v => throw (v.wrongKind "unit")
  | .object _ => .error (wrongValue "map" "map with a single key")
  | v => .error (v.wrongKind "string or map")

end Reader

/-! ## Records -/

/-- A field of a record. -/
structure Slot (α : Type) where
  name : String
  read : Reader α
  /-- The value of a member that an object lacks; `none` if there has to be one. -/
  absent : Option α
  /-- The value past the end of an array; `none` if there has to be one. -/
  short : Option α

namespace Slot

def required {α : Type} (name : String) (read : Reader α) : Slot α := ⟨name, read, none, none⟩

/-- A field that may be null, and that an object may lack. -/
def optional {α : Type} (name : String) (read : Reader α) : Slot (Option α) :=
  ⟨name, read.optional, some none, none⟩

/-- A field with a value of its own for when it is not there. -/
def defaulted {α : Type} (name : String) (read : Reader α) (value : α) : Slot α :=
  ⟨name, read, some value, some value⟩

/-- What the field says of a value, whatever it reads. -/
def probe {α : Type} (s : Slot α) : String × (Json → Except String Unit) :=
  (s.name, fun v => do let _ ← s.read v)

end Slot

/-- Where the fields of a record come from. -/
inductive Fields where
  | members (members : List (String × Json))
  | items (record : String) (size : Nat) (items : List Json)

def elements (n : Nat) : String := Decimal.ofNat n ++ (if n = 1 then " element" else " elements")

def wrongLength (n : Nat) (expected : String) : String :=
  "invalid length " ++ Decimal.ofNat n ++ ", expected " ++ expected

/-- The value of a field, the one at `index` of its record. -/
def Fields.get {α : Type} (f : Fields) (index : Nat) (s : Slot α) : Except String α :=
  match f with
  | .members ms =>
    match Dict.find? ms s.name with
    | some v => s.read v
    | none =>
      match s.absent with
      | some a => .ok a
      | none => .error ("missing field `" ++ s.name ++ "`")
  | .items record size found =>
    match found[index]? with
    | some v => s.read v
    | none =>
      match s.short with
      | some a => .ok a
      | none => .error (wrongLength index ("struct " ++ record ++ " with " ++ elements size))

/-- The first error of a member, in key order, that a field does not read. -/
def checkMembers (probes : List (String × (Json → Except String Unit))) :
    List (String × Json) → Except String Unit
  | [] => .ok ()
  | (k, v) :: r =>
    match probes.lookup k with
    | some check => do
      check v
      checkMembers probes r
    | none => checkMembers probes r

/-- Reads a record of the given name and fields. -/
def record {α : Type} (name : String) (probes : List (String × (Json → Except String Unit)))
    (build : Fields → Except String α) : Reader α
  | .object ms => do
    checkMembers probes ms
    build (.members ms)
  | .array items => do
    let a ← build (.items name probes.length items)
    if probes.length < items.length then throw (wrongLength items.length "fewer elements in array")
    return a
  | v => .error (v.wrongKind ("struct " ++ name))

end CatalogSync.Json
