import CatalogSync.Time.Instant
import CatalogSync.Text.Decimal

/-!
# RFC 3339

Instants written in UTC (`Instant.stamp` to the millisecond, `Instant.text` exactly) and read with
any offset (`read?`).
-/

namespace CatalogSync.Time

open CatalogSync.Text

/-! ## Writing -/

/-- A year: four digits from 0 to 9999, else a sign and at least four digits. -/
def yearChars (year : Int) : List Char :=
  if 0 ≤ year ∧ year ≤ 9999 then Decimal.padded 4 year.toNat
  else (if year < 0 then '-' else '+') :: Decimal.padded 4 year.natAbs

def Date.chars (d : Date) : List Char :=
  yearChars d.year ++ '-' :: Decimal.padded 2 d.month ++ '-' :: Decimal.padded 2 d.day

def OfDay.chars (t : OfDay) : List Char :=
  Decimal.padded 2 t.hour ++ ':' :: Decimal.padded 2 t.minute ++ ':' :: Decimal.padded 2 t.clockSecond

/-- A fraction of a second: none, or 3, 6 or 9 digits, as few as are exact. -/
def fractionChars (nano : Nat) : List Char :=
  if nano = 0 then []
  else if nano % 1000000 = 0 then '.' :: Decimal.padded 3 (nano / 1000000)
  else if nano % 1000 = 0 then '.' :: Decimal.padded 6 (nano / 1000)
  else '.' :: Decimal.padded 9 nano

/-- Date and time to the second. -/
def Instant.secondChars (t : Instant) : List Char := (Date.ofNumber t.day).chars ++ 'T' :: t.time.chars

/-- An instant cut down to the millisecond, as stores keep it. -/
def Instant.stamp (t : Instant) : String :=
  String.ofList (t.secondChars ++ '.' :: Decimal.padded 3 (t.time.fraction / 1000000) ++ ['Z'])

/-- An instant with its whole fraction and the given mark of UTC. -/
def Instant.textWith (zone : String) (t : Instant) : String :=
  String.ofList (t.secondChars ++ fractionChars t.time.fraction ++ zone.toList)

/-- An instant with its whole fraction and the offset of UTC. -/
def Instant.text (t : Instant) : String := t.textWith "+00:00"

/-- An instant with its whole fraction and the letter of UTC. -/
def Instant.zulu (t : Instant) : String := t.textWith "Z"

/-! ## Reading -/

def exactDigits? (n : Nat) (cs : List Char) : Option (Nat × List Char) :=
  let ds := cs.take n
  if ds.length = n ∧ ds.all Decimal.isDigit then some (Decimal.value ds, cs.drop n) else none

def expect? (c : Char) : List Char → Option (List Char)
  | d :: r => if d = c then some r else none
  | [] => none

/-- The nanoseconds of a fraction's digits; those past the ninth are dropped. -/
def nanosOf (ds : List Char) : Nat :=
  let kept := ds.take 9
  Decimal.value kept * Nat.pow 10 (9 - kept.length)

/-- A fraction after its point: at least one digit. -/
def fractionDigits? (cs : List Char) : Option (Nat × List Char) :=
  let ds := cs.takeWhile Decimal.isDigit
  if ds.isEmpty then none else some (nanosOf ds, cs.dropWhile Decimal.isDigit)

/-- The sign of an offset; the minus of mathematics counts as one. -/
def offsetSign? : List Char → Option (Bool × List Char)
  | '+' :: r => some (false, r)
  | '-' :: r => some (true, r)
  | '−' :: r => some (true, r)
  | _ => none

/-- An offset from UTC in seconds, `Z` or signed hours and minutes. -/
def offset? : List Char → Option (Int × List Char)
  | 'Z' :: r => some (0, r)
  | 'z' :: r => some (0, r)
  | cs => do
    let (negative, cs) ← offsetSign? cs
    let (hours, cs) ← exactDigits? 2 cs
    let cs ← expect? ':' cs
    let (minutes, cs) ← exactDigits? 2 cs
    if minutes < 60 then
      let seconds : Int := (hours * 3600 + minutes * 60 : Nat)
      some (if negative then -seconds else seconds, cs)
    else none

/-- An instant from its date, its time and its offset, all as written. -/
def Instant.ofLocal? (date : Date) (time : OfDay) (offset : Int) : Option Instant :=
  if date.isValid ∧ offset.natAbs < 86400 then
    let t := Instant.addSeconds ⟨date.number, time⟩ (-offset)
    if t.inRange then some t else none
  else none

/-- A time of day with seconds and perhaps a fraction in front. -/
def clock? (cs : List Char) : Option (OfDay × List Char) := do
  let (hour, cs) ← exactDigits? 2 cs
  let cs ← expect? ':' cs
  let (minute, cs) ← exactDigits? 2 cs
  let cs ← expect? ':' cs
  let (second, cs) ← exactDigits? 2 cs
  let (nano, cs) ← match cs with
    | '.' :: r => fractionDigits? r
    | _ => some (0, cs)
  return (← OfDay.ofClock? hour minute second nano, cs)

/-- Reads a time of day with seconds, and nothing else. -/
def OfDay.read? (s : String) : Option OfDay :=
  match clock? s.toList with
  | some (t, []) => some t
  | _ => none

/-- Reads a date and a time with an offset, and nothing else. -/
def readChars? (cs : List Char) : Option Instant := do
  let (year, cs) ← exactDigits? 4 cs
  let cs ← expect? '-' cs
  let (month, cs) ← exactDigits? 2 cs
  let cs ← expect? '-' cs
  let (day, cs) ← exactDigits? 2 cs
  let cs ← match cs with
    | 'T' :: r => some r
    | 't' :: r => some r
    | ' ' :: r => some r
    | _ => none
  let (time, cs) ← clock? cs
  let (offset, cs) ← offset? cs
  if cs.isEmpty then
    Instant.ofLocal? ⟨year, month, day⟩ time offset
  else none

def read? (s : String) : Option Instant := readChars? s.toList

end CatalogSync.Time
