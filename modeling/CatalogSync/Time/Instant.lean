import CatalogSync.Time.Calendar

/-!
# Instants

A time of day counts seconds and nanoseconds; a leap second is kept as a second of more than 10 ^ 9
nanoseconds. An instant is a day and a time of day, in UTC. `OfDay.since` and `Instant.since`
measure in nanoseconds.
-/

namespace CatalogSync.Time

def perSecond : Nat := 1000000000

def secondsPerDay : Nat := 86400

/-- A time of day. From 10 ^ 9 on, `nano` stands for the leap second after `second`. -/
structure OfDay where
  second : Nat
  nano : Nat
  second_lt : second < 86400
  nano_lt : nano < 2000000000
deriving DecidableEq, Repr

instance : Inhabited OfDay := ⟨⟨0, 0, by decide, by decide⟩⟩

/-- A point in time. -/
structure Instant where
  /-- Days from 1970-01-01. -/
  day : Int
  time : OfDay
deriving DecidableEq, Repr, Inhabited

namespace OfDay

/-- A time of day from seconds and nanoseconds, if they make one. -/
def of? (second nano : Nat) : Option OfDay :=
  if h : second < 86400 ∧ nano < 2000000000 then some ⟨second, nano, h.1, h.2⟩ else none

/-- A time of day from its clock reading; the second 60 is the leap second after 59. -/
def ofClock? (hour minute second nano : Nat) : Option OfDay :=
  if hour < 24 ∧ minute < 60 ∧ second ≤ 60 ∧ nano < perSecond then
    if second = 60 then of? (hour * 3600 + minute * 60 + 59) (perSecond + nano)
    else of? (hour * 3600 + minute * 60 + second) nano
  else none

def hour (t : OfDay) : Nat := t.second / 3600

def minute (t : OfDay) : Nat := t.second / 60 % 60

/-- The seconds on the clock, 60 in a leap second. -/
def clockSecond (t : OfDay) : Nat := t.second % 60 + t.nano / perSecond

/-- The nanoseconds within the second on the clock. -/
def fraction (t : OfDay) : Nat := t.nano % perSecond

/-- The nanoseconds from `b` to `a` on one day, counting a leap second that lies between them. -/
def since (a b : OfDay) : Int :=
  let apart : Int := (a.second : Int) - b.second
  let leap : Int :=
    if b.second < a.second && perSecond ≤ b.nano then 1
    else if a.second < b.second && perSecond ≤ a.nano then -1
    else 0
  (apart + leap) * perSecond + ((a.nano : Int) - b.nano)

def toMillis (t : OfDay) : OfDay :=
  ⟨t.second, t.nano / 1000000 * 1000000, t.second_lt, by have := t.nano_lt; omega⟩

end OfDay

namespace Instant

/-- The nanoseconds from `b` to `a`. -/
def since (a b : Instant) : Int := (a.day - b.day) * (secondsPerDay * perSecond : Nat) + a.time.since b.time

/-- The second of the day that lies `total` seconds after some midnight. -/
theorem secondOfDay_lt (total : Int) : (total % secondsPerDay).toNat < secondsPerDay := by
  have h := Int.emod_lt_of_pos total (show (0 : Int) < secondsPerDay by decide)
  have h0 := Int.emod_nonneg total (show (secondsPerDay : Int) ≠ 0 by decide)
  exact (Int.toNat_lt h0).2 h

/-- The instant some seconds later, or earlier if they are negative. -/
def addSeconds (t : Instant) (s : Int) : Instant :=
  let total := t.day * secondsPerDay + t.time.second + s
  ⟨total / secondsPerDay, (total % secondsPerDay).toNat, t.time.nano, secondOfDay_lt total, t.time.nano_lt⟩

def toMillis (t : Instant) : Instant := ⟨t.day, t.time.toMillis⟩

def le (a b : Instant) : Bool :=
  a.day < b.day || (a.day == b.day &&
    (a.time.second < b.time.second || (a.time.second == b.time.second && a.time.nano ≤ b.time.nano)))

def firstYear : Int := -262143

def lastYear : Int := 262142

/-- Whether the instant is in a year that instants are kept for. -/
def inRange (t : Instant) : Bool :=
  let y := (Date.ofNumber t.day).year
  firstYear ≤ y && y ≤ lastYear

/-- The instant some whole days earlier, if it is in range. -/
def minusDays? (t : Instant) (days : Nat) : Option Instant :=
  let u : Instant := ⟨t.day - days, t.time⟩
  if u.inRange then some u else none

end Instant

end CatalogSync.Time
