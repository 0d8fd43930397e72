import CatalogSync.Store.Error
import CatalogSync.Text.Blank
import CatalogSync.Time.Rfc3339

/-!
# Reading settings

Settings are texts. A reader takes what a store answered for a key and gives its meaning, or a
default when the key is absent, the store failed, or the text has no such meaning.
-/

namespace CatalogSync.Settings

open CatalogSync.Text

abbrev Answer := Except StoreError (Option String)

def Answer.text? : Answer → Option String
  | .ok value => value
  | .error _ => none

/-- A small letter for a capital one of ASCII. -/
def lower (c : Char) : Char := if 'A' ≤ c ∧ c ≤ 'Z' then Char.ofNat (c.toNat + 32) else c

/-- The truth value that a text spells, in any case and with blanks around it. -/
def parseBool (s : String) : Option Bool :=
  let word := String.ofList ((trimmed s.toList).map lower)
  if word = "true" ∨ word = "1" ∨ word = "yes" ∨ word = "on" then some true
  else if word = "false" ∨ word = "0" ∨ word = "no" ∨ word = "off" then some false
  else none

/-- The integer that a text spells, with blanks around it. -/
def parseInt (s : String) : Option Int := Decimal.readInt64 (trimmed s.toList)

/-- The instant that a text spells, with blanks around it. -/
def parseTime (s : String) : Option Time.Instant := Time.readChars? (trimmed s.toList)

/-- The text of an answer or a default. -/
def Answer.text (a : Answer) (default : String) : String := a.text?.getD default

/-- The truth value of an answer or a default. -/
def Answer.bool (a : Answer) (default : Bool) : Bool := (a.text?.bind parseBool).getD default

/-- The integer of an answer or a default. -/
def Answer.int (a : Answer) (default : Int) : Int := (a.text?.bind parseInt).getD default

def Answer.time? (a : Answer) : Option Time.Instant := a.text?.bind parseTime

end CatalogSync.Settings
