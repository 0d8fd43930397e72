import CatalogSync.Time.Loose

/-!
# Windows of the day

A window opens at a time of day written `HH:MM` and stays open for five minutes, past midnight if need be.
-/

namespace CatalogSync.Time.Window

open CatalogSync.Text

/-- The seconds a window stays open. -/
def length : Nat := 300

/-- The time of day that a text names, hours and minutes, blanks around it aside. -/
def start? (s : String) : Option OfDay :=
  let read : Except Loose.Fault (Nat × Nat) := do
    let (hour, cs) ← Loose.part 2 0 23 (trimmed s.toList)
    let cs ← match cs with
      | ':' :: r => pure r
      | [] => throw .tooShort
      | _ => throw .invalid
    let (minute, cs) ← Loose.part 2 0 59 cs
    if cs.isEmpty then return (hour, minute) else throw .tooLong
  match read with
  | .ok (hour, minute) => OfDay.ofClock? hour minute 0 0
  | .error _ => none

/-- Whether a time of day is in the window that a text opens; a text that names no time opens none.
The time since the start counts in whole seconds, cut toward zero. -/
def isOpen (opening : String) (now : OfDay) : Bool :=
  match start? opening with
  | none => false
  | some start =>
    let seconds := (now.since start).tdiv perSecond
    seconds % (secondsPerDay : Int) < length

end CatalogSync.Time.Window
