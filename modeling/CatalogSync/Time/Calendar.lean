/-!
# The calendar

Dates of the Gregorian calendar, carried on in both directions, and their numbers counted in days
from 1970-01-01.
-/

namespace CatalogSync.Time

/-- A date. -/
structure Date where
  year : Int
  month : Nat
  day : Nat
deriving DecidableEq, Repr, Inhabited

/-- Whether a year has 366 days. -/
def isLeap (year : Int) : Bool := year % 4 == 0 && (year % 100 != 0 || year % 400 == 0)

/-- The days of a month. -/
def daysInMonth (year : Int) (month : Nat) : Nat :=
  match month with
  | 2 => if isLeap year then 29 else 28
  | 4 | 6 | 9 | 11 => 30
  | _ => 31

/-- The days of a year before one of its months. -/
def daysBeforeMonth (year : Int) (month : Nat) : Nat :=
  let leap := if isLeap year then 1 else 0
  match month with
  | 0 | 1 => 0
  | 2 => 31
  | 3 => 59 + leap
  | 4 => 90 + leap
  | 5 => 120 + leap
  | 6 => 151 + leap
  | 7 => 181 + leap
  | 8 => 212 + leap
  | 9 => 243 + leap
  | 10 => 273 + leap
  | 11 => 304 + leap
  | _ => 334 + leap

/-- The days from the start of the year 0 to the start of a year. -/
def daysBeforeYear (year : Int) : Int :=
  365 * year + (year + 3) / 4 - (year + 99) / 100 + (year + 399) / 400

/-- The days from the start of the year 0 to 1970-01-01. -/
def epoch : Int := 719528

def Date.isValid (d : Date) : Bool :=
  1 ≤ d.month && d.month ≤ 12 && 1 ≤ d.day && d.day ≤ daysInMonth d.year d.month

def Date.number (d : Date) : Int :=
  daysBeforeYear d.year + daysBeforeMonth d.year d.month + d.day - 1 - epoch

/-- The year of the day that comes `n` days after the start of the year 0. -/
def yearAt (n : Int) : Int :=
  let guess := n * 400 / 146097
  if n < daysBeforeYear guess then guess - 1
  else if daysBeforeYear (guess + 1) ≤ n then guess + 1
  else guess

/-- The month of the day that comes `n` days after the start of a year. -/
def monthAt (year : Int) (n : Nat) : Nat :=
  if n < daysBeforeMonth year 2 then 1
  else if n < daysBeforeMonth year 3 then 2
  else if n < daysBeforeMonth year 4 then 3
  else if n < daysBeforeMonth year 5 then 4
  else if n < daysBeforeMonth year 6 then 5
  else if n < daysBeforeMonth year 7 then 6
  else if n < daysBeforeMonth year 8 then 7
  else if n < daysBeforeMonth year 9 then 8
  else if n < daysBeforeMonth year 10 then 9
  else if n < daysBeforeMonth year 11 then 10
  else if n < daysBeforeMonth year 12 then 11
  else 12

/-- The date of a number. -/
def Date.ofNumber (number : Int) : Date :=
  let n := number + epoch
  let year := yearAt n
  let ofYear := (n - daysBeforeYear year).toNat
  let month := monthAt year ofYear
  ⟨year, month, ofYear - daysBeforeMonth year month + 1⟩

end CatalogSync.Time
