/-!
# Where bytes stop being UTF-8

`wellFormed` counts the bytes in front of the first sequence that is not well formed.
-/

namespace CatalogSync.Text.Utf8

def within (low high b : UInt8) : Bool := low ≤ b && b ≤ high

def continues (b : UInt8) : Bool := within 0x80 0xBF b

/-- The length of a sequence with the first two of its bytes, if they can begin one of two bytes or more. -/
def sequenceLength (a b : UInt8) : Option Nat :=
  if within 0xC2 0xDF a then (if continues b then some 2 else none)
  else if within 0xE0 0xEF a then
    let low := if a = 0xE0 then 0xA0 else 0x80
    let high := if a = 0xED then 0x9F else 0xBF
    if within low high b then some 3 else none
  else if within 0xF0 0xF4 a then
    let low := if a = 0xF0 then 0x90 else 0x80
    let high := if a = 0xF4 then 0x8F else 0xBF
    if within low high b then some 4 else none
  else none

/-- How many bytes in front are well-formed UTF-8. -/
def wellFormed : List UInt8 → Nat
  | [] => 0
  | a :: r =>
    if a < 0x80 then 1 + wellFormed r
    else
      match r with
      | [] => 0
      | b :: r =>
        match sequenceLength a b with
        | some 2 => 2 + wellFormed r
        | some 3 =>
          match r with
          | c :: r => if continues c then 3 + wellFormed r else 0
          | [] => 0
        | some 4 =>
          match r with
          | c :: d :: r => if continues c && continues d then 4 + wellFormed r else 0
          | _ => 0
        | _ => 0

end CatalogSync.Text.Utf8
