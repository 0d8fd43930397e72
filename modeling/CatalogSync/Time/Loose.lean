import CatalogSync.Time.Rfc3339
import CatalogSync.Text.Blank

/-!
# Loosely written instants

A reading of dates and times that allows blanks before the parts, short numbers, years of any length
after a sign, and offsets without a colon or spelled `UTC`. A text that is refused is refused for
one of a few causes.
-/

namespace CatalogSync.Time.Loose

open CatalogSync.Text

/-- Why a text is no date and time. -/
inductive Fault where
  | tooShort
  | invalid
  | outOfRange
  | tooLong
  | impossible
deriving DecidableEq, Repr

/-- The wording of a fault. -/
def Fault.message : Fault → String
  | .tooShort => "premature end of input"
  | .invalid => "input contains invalid characters"
  | .outOfRange => "input is out of range"
  | .tooLong => "trailing input"
  | .impossible => "no possible date and time matching input"

/-- Up to `most` digits in front, at least one. -/
def number (most : Nat) (cs : List Char) : Except Fault (Nat × List Char) :=
  match cs with
  | [] => .error .tooShort
  | c :: _ =>
    if Decimal.isDigit c then
      let ds := (cs.take most).takeWhile Decimal.isDigit
      .ok (Decimal.value ds, cs.drop ds.length)
    else .error .invalid

/-- A number after blanks, at most `greatest`. -/
def part (most least greatest : Nat) (cs : List Char) : Except Fault (Nat × List Char) := do
  let (n, cs) ← number most (trimStart cs)
  if least ≤ n ∧ n ≤ greatest then return (n, cs) else throw .outOfRange

/-- A year after blanks: up to four digits, or a sign and any digits. -/
def year (cs : List Char) : Except Fault (Int × List Char) := do
  let cs := trimStart cs
  let (y, cs) ← match cs with
    | '-' :: r => do
      let (n, r) ← number r.length r
      pure (-(n : Int), r)
    | '+' :: r => do
      let (n, r) ← number r.length r
      pure ((n : Int), r)
    | _ => do
      let (n, r) ← number 4 cs
      pure ((n : Int), r)
  if -2147483648 ≤ y ∧ y ≤ 2147483647 then return (y, cs) else throw .outOfRange

def mark (c : Char) (cs : List Char) : Except Fault (List Char) :=
  match trimStart cs with
  | [] => .error .tooShort
  | d :: r => if d = c then .ok r else .error .invalid

def twoDigits (cs : List Char) : Except Fault (Char × Char × List Char) :=
  match cs with
  | a :: b :: r => .ok (a, b, r)
  | _ => .error .tooShort

/-- An offset from UTC in seconds: `Z`, or signed hours and minutes with or without a colon or
blanks between. -/
def offset (cs : List Char) : Except Fault (Int × List Char) :=
  match cs with
  | [] => .error .tooShort
  | c :: r =>
    if c = 'Z' ∨ c = 'z' then .ok (0, r)
    else
      match offsetSign? cs with
      | none => .error .invalid
      | some (negative, r) => do
        let (a, b, r) ← twoDigits r
        if !(Decimal.isDigit a && Decimal.isDigit b) then throw .invalid
        let r := r.dropWhile fun c => c = ':' || isBlank c
        let (m, n, r) ← twoDigits r
        if !(Decimal.isDigit m && Decimal.isDigit n) then throw .invalid
        if Decimal.digitValue m > 5 then throw .outOfRange
        let seconds : Int := (Decimal.value [a, b] * 3600 + Decimal.value [m, n] * 60 : Nat)
        return (if negative then -seconds else seconds, r)

/-- Whether a text starts with `UTC` in any case. -/
def startsWithUtc : List Char → Bool
  | a :: b :: c :: _ => a.toLower = 'u' && b.toLower = 't' && c.toLower = 'c'
  | _ => false

/-- Reads a date and a time with an offset. -/
def readChars (cs : List Char) : Except Fault Instant := do
  let (y, cs) ← year cs
  let cs ← mark '-' cs
  let (month, cs) ← part 2 1 12 cs
  let cs ← mark '-' cs
  let (day, cs) ← part 2 1 31 cs
  let cs ← match cs with
    | [] => throw .tooShort
    | c :: r => if c = 'T' ∨ c = 't' ∨ c = ' ' then pure r else throw .invalid
  let (hour, cs) ← part 2 0 23 cs
  let cs ← mark ':' cs
  let (minute, cs) ← part 2 0 59 cs
  let cs ← mark ':' cs
  let (second, cs) ← part 2 0 60 cs
  let (nano, cs) ← match cs with
    | '.' :: r => do
      let (_, _) ← number 9 r
      pure (nanosOf (r.takeWhile Decimal.isDigit), r.dropWhile Decimal.isDigit)
    | _ => pure (0, cs)
  let cs := trimStart cs
  let (shift, cs) ← if startsWithUtc cs then pure (0, cs.drop 3) else offset cs
  if !(trimStart cs).isEmpty then throw .tooLong
  let date : Date := ⟨y, month, day⟩
  if !(date.isValid && Instant.firstYear ≤ y && y ≤ Instant.lastYear) then throw .outOfRange
  match OfDay.ofClock? hour minute second nano with
  | none => throw .outOfRange
  | some time =>
    if 86400 ≤ shift.natAbs then throw .outOfRange
    match Instant.ofLocal? date time shift with
    | some t => return t
    | none => throw .impossible

def read (s : String) : Except Fault Instant := readChars s.toList

end CatalogSync.Time.Loose
