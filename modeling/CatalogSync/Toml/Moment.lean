import CatalogSync.Time.Rfc3339

/-!
# Moments of a TOML document

A date, a time of day, both, or both with an offset from UTC. `Moment.scan?` reads the longest
moment in front of a text and `Moment.text` writes one, with a `T` between date and time and without
zeros at the end of a fraction.
-/

namespace CatalogSync.Toml

open CatalogSync.Text CatalogSync.Time

/-- A time of day as a clock shows it. -/
structure ClockTime where
  hour : Nat
  minute : Nat
  second : Nat
  nano : Nat
deriving DecidableEq, Repr, Inhabited

/-- An offset from UTC. -/
inductive Offset where
  | zulu
  | minutes (east : Int)
deriving DecidableEq, Repr, Inhabited

/-- A date, a time of day, or both. -/
structure Moment where
  date : Option Date
  time : Option ClockTime
  offset : Option Offset
deriving DecidableEq, Repr, Inhabited

namespace Moment

/-- How far the parts of a moment go. -/
structure Bounds where
  hour : Nat
  offsetHour : Nat
  offsetMinute : Nat
deriving DecidableEq, Repr, Inhabited

/-- The bounds of a moment that stands as a value of its own. -/
def Bounds.ofValue : Bounds := ⟨23, 23, 59⟩

/-- The bounds of a moment that is spelt out in a string. -/
def Bounds.ofString : Bounds := ⟨24, 99, 99⟩

/-! ## Reading -/

/-- Two digits that count no more than `most`. -/
def twoDigits? (most : Nat) (cs : List Char) : Option (Nat × List Char) :=
  (exactDigits? 2 cs).filter (·.1 ≤ most)

/-- A date in front. -/
def date? (cs : List Char) : Option (Date × List Char) := do
  let (year, cs) ← exactDigits? 4 cs
  let cs ← expect? '-' cs
  let (month, cs) ← exactDigits? 2 cs
  let cs ← expect? '-' cs
  let (day, cs) ← exactDigits? 2 cs
  let d : Date := ⟨year, month, day⟩
  if d.isValid then some (d, cs) else none

/-- A fraction of a second in front, if there is one. -/
def fraction (cs : List Char) : Nat × List Char :=
  match cs with
  | '.' :: r => (fractionDigits? r).getD (0, cs)
  | _ => (0, cs)

/-- A time of day in front. -/
def time? (b : Bounds) (cs : List Char) : Option (ClockTime × List Char) := do
  let (hour, cs) ← twoDigits? b.hour cs
  let cs ← expect? ':' cs
  let (minute, cs) ← twoDigits? 59 cs
  let cs ← expect? ':' cs
  let (second, cs) ← twoDigits? 60 cs
  let (nano, cs) := fraction cs
  some (⟨hour, minute, second, nano⟩, cs)

/-- The hours and minutes of an offset, up to a whole day. -/
def offsetMinutes? (b : Bounds) (cs : List Char) : Option (Nat × List Char) := do
  let (hours, cs) ← twoDigits? b.offsetHour cs
  let cs ← expect? ':' cs
  let (minutes, cs) ← twoDigits? b.offsetMinute cs
  if hours * 60 + minutes ≤ 1440 then some (hours * 60 + minutes, cs) else none

/-- An offset in front. -/
def offset? (b : Bounds) : List Char → Option (Offset × List Char)
  | 'Z' :: r => some (.zulu, r)
  | 'z' :: r => some (.zulu, r)
  | '+' :: r => (offsetMinutes? b r).map fun (n, r) => (.minutes n, r)
  | '-' :: r => (offsetMinutes? b r).map fun (n, r) => (.minutes (-n), r)
  | _ => none

/-- Whether a time may follow a date after this character. -/
def joinsTime (c : Char) : Bool := c = 'T' || c = 't' || c = ' '

/-- The time that belongs to the date before it, if one follows. -/
def timeAfterDate? (b : Bounds) : List Char → Option (ClockTime × List Char)
  | c :: r => if joinsTime c then time? b r else none
  | [] => none

/-- The longest moment in front. -/
def scan? (b : Bounds) (cs : List Char) : Option (Moment × List Char) :=
  match date? cs with
  | some (date, cs) =>
    match timeAfterDate? b cs with
    | some (time, cs) =>
      match offset? b cs with
      | some (offset, cs) => some (⟨some date, some time, some offset⟩, cs)
      | none => some (⟨some date, some time, none⟩, cs)
    | none => some (⟨some date, none, none⟩, cs)
  | none => (time? b cs).map fun (time, cs) => (⟨none, some time, none⟩, cs)

def ofString? (s : String) : Option Moment :=
  match scan? .ofString s.toList with
  | some (m, []) => some m
  | _ => none

/-! ## Writing -/

/-- A date with a year of four digits. -/
def dateChars (d : Date) : List Char :=
  Decimal.padded 4 d.year.toNat ++ '-' :: Decimal.padded 2 d.month ++ '-' :: Decimal.padded 2 d.day

/-- The digits of a fraction up to the last that is not zero, after a point. -/
def fractionText (nano : Nat) : List Char :=
  if nano = 0 then [] else '.' :: ((Decimal.padded 9 nano).reverse.dropWhile (· = '0')).reverse

def timeChars (t : ClockTime) : List Char :=
  Decimal.padded 2 t.hour ++ ':' :: Decimal.padded 2 t.minute ++ ':' :: Decimal.padded 2 t.second ++ fractionText t.nano

/-- An offset; none from UTC is written with a plus. -/
def offsetChars : Offset → List Char
  | .zulu => ['Z']
  | .minutes n =>
    (if n < 0 then '-' else '+') :: Decimal.padded 2 (n.natAbs / 60) ++ ':' :: Decimal.padded 2 (n.natAbs % 60)

def chars (m : Moment) : List Char :=
  let joint := if m.date.isSome && m.time.isSome then ['T'] else []
  (m.date.map dateChars).getD [] ++ joint ++ (m.time.map timeChars).getD [] ++ (m.offset.map offsetChars).getD []

def text (m : Moment) : String := String.ofList m.chars

end Moment

end CatalogSync.Toml
