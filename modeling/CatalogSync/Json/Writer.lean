import CatalogSync.Json.Basic
import CatalogSync.Binary64.Text
import CatalogSync.Text.Quoted

/-!
# Writing JSON

`Json.write` gives the compact text of a value. Only quotes, backslashes and controls are escaped.
-/

namespace CatalogSync.Json

open CatalogSync.Text

/-- A control character by its number. -/
def controlEscape (c : Char) : List Char :=
  ['\\', 'u', '0', '0', hexDigit (c.toNat / 16), hexDigit (c.toNat % 16)]

/-- A character as it stands inside a JSON string. -/
def escapeChar (c : Char) : List Char :=
  if c = '"' then ['\\', '"']
  else if c = '\\' then ['\\', '\\']
  else if c = '\n' then ['\\', 'n']
  else if c = '\r' then ['\\', 'r']
  else if c = '\t' then ['\\', 't']
  else if c = '\x08' then ['\\', 'b']
  else if c = '\x0c' then ['\\', 'f']
  else if c.toNat < 0x20 then controlEscape c
  else [c]

def writeText (s : String) : List Char := '"' :: s.toList.flatMap escapeChar ++ ['"']

/-- A double as a JSON number; what is not finite has no JSON number and becomes null. -/
def writeReal (x : Binary64) : List Char := if x.isFinite then x.pointed.toList else "null".toList

mutual

/-- The characters of a value. -/
def chars : Json → List Char
  | .null => "null".toList
  | .bool true => "true".toList
  | .bool false => "false".toList
  | .int i => (Decimal.ofInt i).toList
  | .real x => writeReal x
  | .text s => writeText s
  | .array items => '[' :: itemChars items ++ [']']
  | .object members => '\x7b' :: memberChars members ++ ['\x7d']

/-- The characters of the items of an array, commas between them. -/
def itemChars : List Json → List Char
  | [] => []
  | [v] => chars v
  | v :: w :: r => chars v ++ ',' :: itemChars (w :: r)

/-- The characters of the members of an object, commas between them. -/
def memberChars : List (String × Json) → List Char
  | [] => []
  | [(k, v)] => writeText k ++ ':' :: chars v
  | (k, v) :: m :: r => writeText k ++ ':' :: chars v ++ ',' :: memberChars (m :: r)

end

def write (v : Json) : String := String.ofList v.chars

end CatalogSync.Json
