/-!
# Double precision numbers

`Binary64` holds the numbers of the double format as `± m · 2 ^ e` with exact arithmetic beneath:
`ofRatio` is the nearest double of a ratio, and sum, product and quotient are the exact results so rounded.
-/

namespace CatalogSync

/-- A number of the double format. A finite one is `m · 2 ^ e`; it is kept with `m < 2 ^ 53` and
`-1074 ≤ e`, and with `2 ^ 52 ≤ m` unless `e = -1074`. -/
inductive Binary64 where
  | finite (negative : Bool) (m : Nat) (e : Int)
  | infinite (negative : Bool)
  | nan (negative : Bool)
deriving DecidableEq, Repr, Inhabited

namespace Binary64

def zero (negative : Bool) : Binary64 := .finite negative 0 (-1074)

/-- The sign of a number, true for minus. -/
def sign : Binary64 → Bool
  | .finite s _ _ => s
  | .infinite s => s
  | .nan s => s

/-- The number with a sign put on it. -/
def withSign (s : Bool) : Binary64 → Binary64
  | .finite _ m e => .finite s m e
  | .infinite _ => .infinite s
  | .nan _ => .nan s

def neg (x : Binary64) : Binary64 := x.withSign !x.sign

def isZero : Binary64 → Bool
  | .finite _ m _ => m == 0
  | _ => false

/-- `num / den` to the nearest natural number, a half going to the even neighbour. -/
def roundHalfEven (num den : Nat) : Nat :=
  let q := num / den
  let twice := 2 * (num % den)
  if twice < den then q else if den < twice then q + 1 else q + q % 2

/-- `num / den` in units of `2 ^ e`, as a numerator and a denominator. -/
def inUnits (num den : Nat) (e : Int) : Nat × Nat :=
  if 0 ≤ e then (num, den * Nat.pow 2 e.toNat) else (num * Nat.pow 2 (-e).toNat, den)

/-- The unit in the last place of the doubles about `num / den`, as an exponent of two. -/
def unitExponent (num den : Nat) : Int :=
  let guess : Int := (num.log2 : Int) - (den.log2 : Int) - 53
  let (a, b) := inUnits num den guess
  let e := if a / b < Nat.pow 2 53 then guess else guess + 1
  max e (-1074)

/-- The double nearest to `num / den`, a tie going to the even mantissa; infinite past the largest. -/
def ofRatio (negative : Bool) (num den : Nat) : Binary64 :=
  if num = 0 then zero negative
  else
    let e := unitExponent num den
    let (a, b) := inUnits num den e
    let m := roundHalfEven a b
    let (m, e) := if m = Nat.pow 2 53 then (Nat.pow 2 52, e + 1) else (m, e)
    if e > 971 then .infinite negative else .finite negative m e

def ofNat (n : Nat) : Binary64 := ofRatio false n 1

def ofInt (i : Int) : Binary64 := ofRatio (i < 0) i.natAbs 1

def ofDecimal (negative : Bool) (digits : Nat) (exponent : Int) : Binary64 :=
  if 0 ≤ exponent then ofRatio negative (digits * Nat.pow 10 exponent.toNat) 1
  else ofRatio negative digits (Nat.pow 10 (-exponent).toNat)

/-- The size of `m · 2 ^ e` as a numerator and a denominator. -/
def ratio (m : Nat) (e : Int) : Nat × Nat :=
  if 0 ≤ e then (m * Nat.pow 2 e.toNat, 1) else (m, Nat.pow 2 (-e).toNat)

/-- The double nearest to a signed ratio, a zero taking the sign `ifZero`. -/
def ofSignedRatio (ifZero : Bool) (num : Int) (den : Nat) : Binary64 :=
  if num = 0 then zero ifZero else ofRatio (num < 0) num.natAbs den

/-- The signed size of a finite number over `den`. -/
def signed (negative : Bool) (n : Nat) : Int := if negative then -(n : Int) else n

/-- The sum, rounded once. -/
def add : Binary64 → Binary64 → Binary64
  | .finite s m e, .finite t n f =>
    let (a, b) := ratio m e
    let (c, d) := ratio n f
    ofSignedRatio (s && t) (signed s (a * d) + signed t (c * b)) (b * d)
  | .nan s, _ => .nan s
  | _, .nan s => .nan s
  | .infinite s, .infinite t => if s = t then .infinite s else .nan false
  | .infinite s, _ => .infinite s
  | _, .infinite s => .infinite s

/-- The product, rounded once. -/
def mul : Binary64 → Binary64 → Binary64
  | .finite s m e, .finite t n f =>
    let (a, b) := ratio m e
    let (c, d) := ratio n f
    ofRatio (s != t) (a * c) (b * d)
  | .nan s, _ => .nan s
  | _, .nan s => .nan s
  | .infinite s, y => if y.isZero then .nan false else .infinite (s != y.sign)
  | x, .infinite t => if x.isZero then .nan false else .infinite (x.sign != t)

/-- The quotient, rounded once. -/
def div : Binary64 → Binary64 → Binary64
  | .finite s m e, .finite t n f =>
    if n = 0 then (if m = 0 then .nan false else .infinite (s != t))
    else
      let (a, b) := ratio m e
      let (c, d) := ratio n f
      ofRatio (s != t) (a * d) (b * c)
  | .nan s, _ => .nan s
  | _, .nan s => .nan s
  | .infinite _, .infinite _ => .nan false
  | .infinite s, y => .infinite (s != y.sign)
  | x, .infinite t => zero (x.sign != t)

/-- The order of the finite and infinite numbers; false where a side is not a number. -/
def lt : Binary64 → Binary64 → Bool
  | .finite s m e, .finite t n f =>
    let (a, b) := ratio m e
    let (c, d) := ratio n f
    decide (signed s (a * d) < signed t (c * b))
  | .nan _, _ => false
  | _, .nan _ => false
  | .infinite s, .infinite t => s && !t
  | .infinite s, .finite _ _ _ => s
  | .finite _ _ _, .infinite t => !t

/-- The order with equality; false where a side is not a number. -/
def le : Binary64 → Binary64 → Bool
  | .nan _, _ => false
  | _, .nan _ => false
  | x, y => !lt y x

def isWhole : Binary64 → Bool
  | .finite _ m e => let (a, b) := ratio m e; a % b == 0
  | _ => false

def isFinite : Binary64 → Bool
  | .finite _ _ _ => true
  | _ => false

end Binary64

end CatalogSync
