import CatalogSync.Settings.Keys
import CatalogSync.Schedule.Task

/-!
# Periods of the scheduler

How often the scheduler looks for tasks that are due, and whether and when it makes a pass to catch
up after its start.
-/

namespace CatalogSync.Schedule

open CatalogSync.Time

/-- The periods of a scheduler. -/
structure Periods where
  check : Span := Span.ofSeconds 300
  catchUp : Bool := true
  delay : Span := Span.ofSeconds 60
deriving DecidableEq, Repr, Inhabited

/-- The most seconds of a period. -/
def maxPeriod : Nat := 24 * 60 * 60

/-- The integer nearest to `n` from `low` to `high`. -/
def clamp (low high n : Int) : Int := max low (min high n)

/-- The periods that the settings ask for, within bounds. -/
def Periods.ofSettings (read : Lookup) : Periods :=
  let minutes := (read Settings.checkMinutesKey).int 5
  let seconds := (read Settings.catchUpDelayKey).int 60
  { check := Span.ofSeconds ((clamp 1 (maxPeriod / 60 : Nat) minutes).toNat * 60)
    catchUp := (read Settings.catchUpKey).bool true
    delay := Span.ofSeconds (clamp 0 maxPeriod seconds).toNat }

/-- A period as it is used. -/
def bounded (s : Span) : Span := ⟨min s.nanos (Span.ofSeconds maxPeriod).nanos⟩

end CatalogSync.Schedule
