import CatalogSync.Binary64.Basic
import CatalogSync.Text.Dict

/-!
# JSON values

Numbers are integers where they are written so and fit into 64 bits, and doubles otherwise. The
members of an object stand in key order, each key once.
-/

namespace CatalogSync

/-- A JSON value. -/
inductive Json where
  | null
  | bool (b : Bool)
  | int (i : Int)
  | real (x : Binary64)
  | text (s : String)
  | array (items : List Json)
  | object (members : List (String × Json))
deriving Repr, Inhabited, BEq

namespace Json

/-- An object from pairs, a later pair replacing an earlier one of the same key. -/
def ofPairs (pairs : List (String × Json)) : Json := .object (Text.Dict.ofList pairs)

/-- The value of a member, if the value is an object that has it. -/
def member? (v : Json) (key : String) : Option Json :=
  match v with
  | .object members => Text.Dict.find? members key
  | _ => none

/-- The text, if the value is one. -/
def text? : Json → Option String
  | .text s => some s
  | _ => none

def ofNat (n : Nat) : Json := .int n

/-- A text, or null in its absence. -/
def ofText? : Option String → Json
  | none => .null
  | some s => .text s

end Json

end CatalogSync
