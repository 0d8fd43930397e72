import CatalogSync.Binary64.Shortest
import CatalogSync.Text.Decimal

/-!
# Doubles as text

Two ways to write the shortest decimal of a number, `plain` (positional, whole numbers without a
point) and `pointed` (a point always, an exponent from 10 ^ 16 up and below 10 ^ -5), and `fixed`
with a given number of places.
-/

namespace CatalogSync.Binary64

open CatalogSync.Text

/-- The digits with a point after the first `at` of them, zeros filling either side. -/
def positional (ds : List Char) (at_ : Int) : List Char :=
  if at_ ≤ 0 then '0' :: '.' :: (List.replicate (-at_).toNat '0' ++ ds)
  else
    let n := at_.toNat
    if ds.length ≤ n then ds ++ List.replicate (n - ds.length) '0'
    else ds.take n ++ '.' :: ds.drop n

/-- A minus sign in front of a negative number. -/
def signText (negative : Bool) : List Char := if negative then ['-'] else []

/-- Positional decimal: every digit written out, and no point in a whole number. -/
def plain : Binary64 → String
  | .nan _ => "NaN"
  | .infinite s => String.ofList (signText s ++ "inf".toList)
  | .finite s m e =>
    if m = 0 then String.ofList (signText s ++ ['0'])
    else
      let d := shortest m e
      let ds := Decimal.digits d.digits
      String.ofList (signText s ++ positional ds (ds.length + d.exponent))

/-- A decimal exponent with its sign and at least two digits. -/
def exponentChars (n : Int) : List Char := (if 0 ≤ n then '+' else '-') :: Decimal.padded 2 n.natAbs

/-- Decimal with a point, or with an exponent for numbers from 10 ^ 16 up and below 10 ^ -5. -/
def pointed : Binary64 → String
  | .nan _ => "NaN"
  | .infinite s => String.ofList (signText s ++ "inf".toList)
  | .finite s m e =>
    if m = 0 then String.ofList (signText s ++ "0.0".toList)
    else
      let d := shortest m e
      let ds := Decimal.digits d.digits
      let at_ : Int := ds.length + d.exponent
      let body :=
        if 0 ≤ d.exponent && at_ ≤ 16 then positional ds at_ ++ ['.', '0']
        else if -5 < at_ && at_ ≤ 16 then positional ds at_
        else
          let mantissa := match ds with
            | [c] => [c]
            | c :: r => c :: '.' :: r
            | [] => []
          mantissa ++ 'e' :: exponentChars (at_ - 1)
      String.ofList (signText s ++ body)

/-- A number with exactly `places` digits after the point, a half going to the even neighbour. -/
def fixed (places : Nat) : Binary64 → String
  | .nan _ => "NaN"
  | .infinite s => String.ofList (signText s ++ "inf".toList)
  | .finite s m e =>
    let (a, b) := ratio m e
    let n := roundHalfEven (a * Nat.pow 10 places) b
    let ds := Decimal.padded (places + 1) n
    let cut := ds.length - places
    let body := if places = 0 then ds else ds.take cut ++ '.' :: ds.drop cut
    String.ofList (signText s ++ body)

/-! ## Reading -/

/-- The double nearest to a row of decimal digits times a power of ten. A number beyond every double
by its length alone is settled without being written out. -/
def ofDigits (negative : Bool) (ds : List Char) (exponent : Int) : Binary64 :=
  let n := Decimal.value ds
  if n = 0 then zero negative
  else if 310 < exponent then .infinite negative
  else if ds.length + exponent < -330 then zero negative
  else ofDecimal negative n exponent

end CatalogSync.Binary64
