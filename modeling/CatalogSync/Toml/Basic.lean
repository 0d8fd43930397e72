import CatalogSync.Binary64.Basic
import CatalogSync.Text.Dict
import CatalogSync.Toml.Moment

/-!
# TOML values

A `Value` is what a key of a TOML document has. `settled?` takes a table that opens with the key of
moments for the moment it stands for, at any depth.
-/

namespace CatalogSync.Toml

/-- A value of a TOML document. A table keeps its keys in the order they were written in, each once. -/
inductive Value where
  | string (s : String)
  | integer (n : Int64)
  | float (x : Binary64)
  | boolean (b : Bool)
  | moment (m : Moment)
  | array (elements : List Value)
  | table (entries : List (String × Value))
deriving Repr, Inhabited

/-- The keys of a table and their values. -/
abbrev Entries := List (String × Value)

def Entries.find? (entries : Entries) (key : String) : Option Value := entries.lookup key

namespace Value

/-- The key of a table that stands for a moment. -/
def momentKey : String := "$__toml_private_datetime"

/-- The entries of a table; a moment counts as the table that stands for it. -/
def entries? : Value → Option Entries
  | .table entries => some entries
  | .moment m => some [(momentKey, .string m.text)]
  | _ => none

def isTable : Value → Bool
  | .table _ => true
  | _ => false

/-- The value under the key of moments, if a table opens with that key. -/
def spelling? : List (String × Value) → Option Value
  | (key, v) :: _ => if key = momentKey then some v else none
  | [] => none

mutual

/-- The value with its tables for moments taken as moments; `none` if one of them spells none. -/
def settled? : Value → Option Value
  | .array elements => (settledElements? elements).map .array
  | .table entries =>
    match spelling? entries with
    | some (.string s) => (Moment.ofString? s).map .moment
    | some _ => none
    | none => (settledEntries? entries).map .table
  | v => some v

def settledElements? : List Value → Option (List Value)
  | [] => some []
  | v :: rest => do return (← settled? v) :: (← settledElements? rest)

def settledEntries? : List (String × Value) → Option (List (String × Value))
  | [] => some []
  | (key, v) :: rest => do return (key, ← settled? v) :: (← settledEntries? rest)

end

end Value

end CatalogSync.Toml
