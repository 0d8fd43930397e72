import CatalogSync.Settings.Readers
import CatalogSync.Text.Quoted
import CatalogSync.Time.Span
import CatalogSync.Time.Window
import CatalogSync.Time.Zone

/-!
# Tasks

A task has a name and runs again once its interval is over. It may be confined to a window of the
day, gated by a setting, and told by another setting when it last ran. `isDue` decides whether a
pass starts it.
-/

namespace CatalogSync.Schedule

open CatalogSync.Text CatalogSync.Time

/-- The start of the window of the day in which a task runs. -/
inductive TimeOfDay where
  | fixed (text : String)
  /-- What a setting says, or a default. -/
  | setting (key default : String)
deriving DecidableEq, Repr, Inhabited

/-- A task that is repeated. -/
structure Task where
  name : String
  /-- The least time between two runs. -/
  interval : Span
  timeOfDay : Option TimeOfDay := none
  /-- The setting that has to be true. -/
  enabledKey : Option String := none
  /-- The setting that tells the last run before this process. -/
  lastRunKey : Option String := none
deriving DecidableEq, Repr, Inhabited

/-- What started a run. -/
inductive Trigger where
  | tick
  | catchUp
  | manual
deriving DecidableEq, Repr, Inhabited

def Trigger.text : Trigger → String
  | .tick => "tick"
  | .catchUp => "catch-up"
  | .manual => "manual"

/-- Why a run failed. -/
inductive TaskError where
  | failed (reason : String)
  | cancelled
deriving DecidableEq, Repr, Inhabited

def TaskError.message : TaskError → String
  | .failed reason => "Execution failed: " ++ reason
  | .cancelled => "Task was cancelled"

/-- How a run ends. -/
abbrev TaskOutcome := Except TaskError Unit

def statusOf : TaskOutcome → String
  | .ok () => "success"
  | .error .cancelled => "cancelled"
  | .error (.failed _) => "failed"

/-! ## Text -/

def fieldsText (name : String) (fields : List (String × String)) (more : Bool) : String :=
  let shown := fields.map fun (field, value) => field ++ ": " ++ value
  name ++ " \x7b " ++ ", ".intercalate (shown ++ if more then [".."] else []) ++ " \x7d"

def optionText : Option String → String
  | none => "None"
  | some s => "Some(" ++ s ++ ")"

def TimeOfDay.text : TimeOfDay → String
  | .fixed s => "Fixed(" ++ quoted s ++ ")"
  | .setting key default => fieldsText "Setting" [("key", quoted key), ("default", quoted default)] false

/-- The text of a task. -/
def Task.text (t : Task) : String :=
  fieldsText "TaskDefinition"
    [ ("name", quoted t.name),
      ("interval", t.interval.text),
      ("time_of_day", optionText (t.timeOfDay.map TimeOfDay.text)),
      ("enabled_key", optionText (t.enabledKey.map quoted)),
      ("last_run_key", optionText (t.lastRunKey.map quoted)) ] true

/-! ## Whether a task is due -/

/-- What the settings answer for each key. -/
abbrev Lookup := String → Settings.Answer

def TimeOfDay.resolve (read : Lookup) : TimeOfDay → String
  | .fixed s => s
  | .setting key default => (read key).text default

/-- Whether the setting that gates a task allows it. -/
def Task.isEnabled (read : Lookup) (t : Task) : Bool :=
  match t.enabledKey with
  | none => true
  | some key => (read key).bool false

/-- Whether an instant is in the window of a task, on the clocks of a zone. -/
def Task.isInWindow (zone : Zone) (read : Lookup) (now : Instant) (t : Task) : Bool :=
  match t.timeOfDay with
  | none => true
  | some timeOfDay => Window.isOpen (timeOfDay.resolve read) (zone.timeOfDay now)

/-- The last time a task was started: in this process, or else as a setting tells. -/
def Task.lastRun (read : Lookup) (inProcess : Option Instant) (t : Task) : Option Instant :=
  inProcess <|> t.lastRunKey.bind fun key => (read key).time?

/-- Whether the interval of a task is over since its last run. -/
def Task.isOver (now : Instant) (t : Task) : Option Instant → Bool
  | none => true
  | some last => t.interval.nanos ≤ now.since last

end CatalogSync.Schedule
