import CatalogSync.Binary64.Basic
import CatalogSync.Text.Decimal

/-!
# Cells of an integer column

An integer column keeps a text as it is, unless the text spells a number: that is kept as an integer
if it is a whole number of 64 bits, and as a double otherwise.
-/

namespace CatalogSync.Store

open CatalogSync.Text

/-- What a cell of an integer column holds. -/
inductive Cell where
  | integer (i : Int)
  | real (x : Binary64)
  | text (s : String)
deriving DecidableEq, Repr, Inhabited

/-- A number as it is spelt. -/
structure Spelling where
  negative : Bool
  /-- The digits before and after the point. -/
  digits : List Char
  /-- How many of the digits are after the point. -/
  places : Nat
  exponent : Int
  /-- Whether there is neither a point nor an exponent. -/
  plain : Bool
deriving DecidableEq, Repr

/-- The blanks that may stand around a number. -/
def isGap (c : Char) : Bool := c = ' ' || ('\t' ≤ c && c ≤ '\r')

/-- The exponent of a number, if the text after its digits is one or is empty. -/
def exponent? : List Char → Option (Option Int)
  | [] => some none
  | c :: cs =>
    if c = 'e' ∨ c = 'E' then
      let (negative, ds) := Decimal.splitSign cs
      if ds.isEmpty || !ds.all Decimal.isDigit then none
      else some (some (if negative then -(Decimal.value ds : Int) else Decimal.value ds))
    else none

/-- The number that a text spells, with blanks around it. -/
def spelling? (s : String) : Option Spelling := do
  let cs := (s.toList.dropWhile isGap).reverse.dropWhile isGap |>.reverse
  let (negative, cs) := Decimal.splitSign cs
  let whole := cs.takeWhile Decimal.isDigit
  let cs := cs.dropWhile Decimal.isDigit
  let (fraction, cs, pointed) := match cs with
    | '.' :: r => (r.takeWhile Decimal.isDigit, r.dropWhile Decimal.isDigit, true)
    | _ => ([], cs, false)
  if whole.isEmpty && fraction.isEmpty then none
  else
    let exponent ← exponent? cs
    some ⟨negative, whole ++ fraction, fraction.length, exponent.getD 0, !pointed && exponent.isNone⟩

/-- An exponent beyond which every number is zero or infinite. -/
def exponentBound : Int := 100000

/-- The double nearest to a spelt number. -/
def Spelling.real (n : Spelling) : Binary64 :=
  let e := max (-exponentBound) (min exponentBound n.exponent)
  Binary64.ofDecimal n.negative (Decimal.value n.digits) (e - n.places)

/-- The integer that a double is, if it is one strictly between the bounds of 64 bits. -/
def wholeOf? : Binary64 → Option Int
  | x@(.finite negative m e) =>
    if x.isWhole then
      let (a, b) := Binary64.ratio m e
      let i := Binary64.signed negative (a / b)
      if Decimal.minInt64 < i ∧ i < Decimal.maxInt64 then some i else none
    else none
  | _ => none

/-- The cell that a text becomes. -/
def Cell.ofText (s : String) : Cell :=
  match spelling? s with
  | none => .text s
  | some n =>
    let i := Binary64.signed n.negative (Decimal.value n.digits)
    if n.plain && Decimal.fitsInt64 i then .integer i
    else
      match wholeOf? n.real with
      | some i => .integer i
      | none => .real n.real

/-- The integer in a cell, or the kind of what it holds instead. -/
def Cell.int : Cell → Except String Int
  | .integer i => .ok i
  | .real _ => .error "Real"
  | .text _ => .error "Text"

end CatalogSync.Store
