import CatalogSync.Binary64.Basic

/-!
# The fewest digits that read back

`shortest m e` is the decimal `digits · 10 ^ exponent` of the fewest digits among those that round
to `m · 2 ^ e`, the nearest of them, a tie going to the even one.
-/

namespace CatalogSync.Binary64

/-- A positive number `digits · 10 ^ exponent`. -/
structure Scaled where
  digits : Nat
  exponent : Int
deriving DecidableEq, Repr, Inhabited

/-- The reals that round to `m · 2 ^ e`, as numerators over one denominator. -/
structure Interval where
  low : Nat
  mid : Nat
  high : Nat
  den : Nat
  /-- Whether the ends round to the number too. -/
  closed : Bool

/-- The interval about `m · 2 ^ e`. Below a power of two the spacing is half of that above. -/
def interval (m : Nat) (e : Int) : Interval :=
  let below := if m = Nat.pow 2 52 && e > -1074 then 1 else 2
  let (a, b) := ratio 1 e
  { low := (4 * m - below) * a, mid := 4 * m * a, high := (4 * m + 2) * a, den := 4 * b,
    closed := m % 2 == 0 }

def Interval.holds (i : Interval) (n d : Nat) : Bool :=
  if i.closed then i.low * d ≤ n * i.den && n * i.den ≤ i.high * d
  else i.low * d < n * i.den && n * i.den < i.high * d

/-- `n · 10 ^ p` as a numerator and a denominator. -/
def decimalRatio (n : Nat) (p : Int) : Nat × Nat :=
  if 0 ≤ p then (n * Nat.pow 10 p.toNat, 1) else (n, Nat.pow 10 (-p).toNat)

/-- The point of the grid of multiples of `10 ^ p` that lies in the interval, the nearer of two. -/
def Interval.onGrid? (i : Interval) (p : Int) : Option Nat :=
  let (u, v) := decimalRatio 1 p
  let q := (i.mid * v) / (i.den * u)
  let holds (n : Nat) : Bool := n != 0 && i.holds (n * u) v
  -- distances of the two neighbours from the number, in one unit
  let down := i.mid * v - q * i.den * u
  let up := (q + 1) * i.den * u - i.mid * v
  match holds q, holds (q + 1) with
  | true, true =>
    if down < up then some q else if up < down then some (q + 1) else some (q + q % 2)
  | true, false => some q
  | false, true => some (q + 1)
  | false, false => none

/-- The largest `k` with `10 ^ k ≤ num / den`, found near a guess from the binary logarithms. -/
def decimalExponent (num den : Nat) : Int :=
  let guess : Int := ((num.log2 : Int) - (den.log2 : Int) - 1) * 30103 / 100000 - 1
  let fits (k : Int) : Bool := let (u, v) := decimalRatio 1 k; u * den ≤ num * v
  let up (k : Int) : Int := if fits (k + 1) then k + 1 else k
  up (up (up (up guess)))

/-- Tries grids of more and more digits, `left` of them. -/
def firstOnGrid (i : Interval) (k : Int) : Nat → Nat → Scaled
  | _, 0 => ⟨0, 0⟩
  | n, left + 1 =>
    let p := k - n
    match i.onGrid? p with
    | some d => ⟨d, p⟩
    | none => firstOnGrid i k (n + 1) left

/-- Moves zeros at the end of the digits into the exponent. -/
def Scaled.normal (d : Scaled) : Nat → Scaled
  | 0 => d
  | fuel + 1 =>
    if d.digits % 10 = 0 && d.digits ≠ 0 then Scaled.normal ⟨d.digits / 10, d.exponent + 1⟩ fuel
    else d

/-- The shortest decimal that rounds to `m · 2 ^ e`, for positive `m`. -/
def shortest (m : Nat) (e : Int) : Scaled :=
  let i := interval m e
  (firstOnGrid i (decimalExponent i.mid i.den) 0 18).normal 18

end CatalogSync.Binary64
