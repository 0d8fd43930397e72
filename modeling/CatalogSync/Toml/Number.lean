import CatalogSync.Binary64.Text
import CatalogSync.Toml.Basic
import CatalogSync.Toml.Scan

/-!
# Numbers of a TOML document

Integers of 64 bits in four bases and floats, where a single underscore may stand between two digits.
-/

namespace CatalogSync.Toml

open CatalogSync.Text

/-- A digit of a base up to sixteen. -/
def isDigitOf (base : Nat) (c : Char) : Bool := (digitValue? c).any (· < base)

/-- The digits that go on a row of them, without the underscores. -/
def moreDigits (base : Nat) : List Char → List Char × List Char
  | [] => ([], [])
  | '_' :: d :: r => if isDigitOf base d then push d (moreDigits base r) else ([], '_' :: d :: r)
  | c :: r => if isDigitOf base c then push c (moreDigits base r) else ([], c :: r)

def digits? (base : Nat) : Scan (List Char)
  | c :: r => if isDigitOf base c then some (push c (moreDigits base r)) else none
  | [] => none

def valueOf (base : Nat) (ds : List Char) : Nat := ds.foldl (fun n c => base * n + (digitValue? c).getD 0) 0

def integerOf? (negative : Bool) (n : Nat) : Option Int64 :=
  let i : Int := if negative then -n else n
  if Decimal.fitsInt64 i then some (Int64.ofInt i) else none

def basedInteger? (base : Nat) (cs : List Char) : Option (Int64 × List Char) := do
  let (ds, rest) ← digits? base cs
  some (← integerOf? false (valueOf base ds), rest)

/-- The whole part of a decimal number; a zero in front stands alone. -/
def wholePart? : Scan (List Char)
  | '0' :: r => some (['0'], r)
  | cs => digits? 10 cs

/-- The fraction of a float after its point. -/
def fractionPart? : Scan (List Char)
  | '.' :: r => digits? 10 r
  | _ => none

/-- The exponent of a float after its mark. -/
def exponentPart? : Scan Int
  | c :: r =>
    if c = 'e' || c = 'E' then
      let (negative, r) := Decimal.splitSign r
      (digits? 10 r).map fun (ds, rest) =>
        let n : Int := valueOf 10 ds
        (if negative then -n else n, rest)
    else none
  | [] => none

/-- A float of its digits, if it is not too great. -/
def floatOf? (negative : Bool) (ds : List Char) (exponent : Int) : Option Binary64 :=
  match Binary64.ofDigits negative ds exponent with
  | .infinite false => none
  | x => some x

/-- A float in digits: a whole part with a fraction, an exponent or both. -/
def float? (negative : Bool) (cs : List Char) : Option (Binary64 × List Char) := do
  let (whole, rest) ← wholePart? cs
  match fractionPart? rest with
  | some (fraction, rest) =>
    let (exponent, rest) := (exponentPart? rest).getD (0, rest)
    some (← floatOf? negative (whole ++ fraction) (exponent - fraction.length), rest)
  | none =>
    let (exponent, rest) ← exponentPart? rest
    some (← floatOf? negative whole exponent, rest)

def integer? (negative : Bool) (cs : List Char) : Option (Int64 × List Char) := do
  let (ds, rest) ← wholePart? cs
  some (← integerOf? negative (valueOf 10 ds), rest)

/-- A float that is spelt as a word. -/
def special? (negative : Bool) : Scan Binary64
  | 'i' :: 'n' :: 'f' :: r => some (.infinite negative, r)
  | 'n' :: 'a' :: 'n' :: r => some (.nan negative, r)
  | _ => none

/-- A number after its sign. -/
def unsigned? (negative : Bool) (cs : List Char) : Option (Value × List Char) :=
  match special? negative cs, float? negative cs, integer? negative cs with
  | some (x, r), _, _ => some (.float x, r)
  | none, some (x, r), _ => some (.float x, r)
  | none, none, some (n, r) => some (.integer n, r)
  | none, none, none => none

/-- A number. Bases other than ten have no sign. -/
def number? : Scan Value
  | '0' :: 'x' :: r => (basedInteger? 16 r).map fun (n, r) => (.integer n, r)
  | '0' :: 'o' :: r => (basedInteger? 8 r).map fun (n, r) => (.integer n, r)
  | '0' :: 'b' :: r => (basedInteger? 2 r).map fun (n, r) => (.integer n, r)
  | '+' :: r => unsigned? false r
  | '-' :: r => unsigned? true r
  | cs => unsigned? false cs

end CatalogSync.Toml
