/-!
# Whole numbers in decimal

Printing naturals and integers, padding with zeros, and reading signed numbers of 64 bits.
-/

namespace CatalogSync.Text.Decimal

def digit (n : Nat) : Char := Char.ofNat (48 + n)

/-- The decimal digits of a natural number, the leading one first; zero has one digit. -/
def digits (n : Nat) : List Char :=
  if n < 10 then [digit n] else digits (n / 10) ++ [digit (n % 10)]
termination_by n
decreasing_by omega

def ofNat (n : Nat) : String := String.ofList (digits n)

/-- An integer in decimal, with a minus sign when it is negative. -/
def ofInt : Int → String
  | .ofNat n => ofNat n
  | .negSucc n => "-" ++ ofNat (n + 1)

/-- The digits of `n`, with zeros in front up to `width` of them. -/
def padded (width n : Nat) : List Char :=
  let ds := digits n
  List.replicate (width - ds.length) '0' ++ ds

def isDigit (c : Char) : Bool := '0' ≤ c && c ≤ '9'

def digitValue (c : Char) : Nat := c.toNat - 48

def value (cs : List Char) : Nat := cs.foldl (fun n c => 10 * n + digitValue c) 0

def minInt64 : Int := -9223372036854775808

def maxInt64 : Int := 9223372036854775807

def maxNat64 : Nat := 18446744073709551615

def fitsInt64 (i : Int) : Bool := minInt64 ≤ i && i ≤ maxInt64

/-- A sign and the text after it; a missing sign counts as plus. -/
def splitSign : List Char → Bool × List Char
  | '+' :: cs => (false, cs)
  | '-' :: cs => (true, cs)
  | cs => (false, cs)

/-- Reads an optional sign and at least one digit, and nothing else, as an integer of 64 bits. -/
def readInt64 (cs : List Char) : Option Int :=
  let (negative, ds) := splitSign cs
  if ds.isEmpty || !ds.all isDigit then none
  else
    let i : Int := if negative then -(value ds : Int) else value ds
    if fitsInt64 i then some i else none

end CatalogSync.Text.Decimal
