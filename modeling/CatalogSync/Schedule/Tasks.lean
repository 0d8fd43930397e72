import CatalogSync.Import.Tracked
import CatalogSync.Schedule.Task

/-!
# The tasks of a server

Each dataset is refreshed on schedule, cards daily and sets every two weeks, and old jobs are
removed once a day. A task has a definition, by which the scheduler knows when to run it, and a
body, which is a program.
-/

namespace CatalogSync.Schedule

open CatalogSync.Time

def day : Span := Span.ofSeconds 86400

/-! ## Refreshing a dataset -/

def refreshDays : Dataset → Nat
  | .cards => 1
  | .sets => 14

/-- The time of day at which a dataset is refreshed, unless a setting names another. -/
def refreshTime : Dataset → String
  | .cards => "03:00"
  | .sets => "04:00"

/-- The task that refreshes a dataset. -/
def refreshTask (d : Dataset) : Task :=
  { name := d.taskName
    interval := ⟨refreshDays d * day.nanos⟩
    timeOfDay := some (.setting (Settings.updateTimeKey d.key) (refreshTime d))
    enabledKey := some (Settings.autoUpdateKey d.key)
    lastRunKey := some (Settings.lastUpdateKey d.key) }

/-- Makes a job and imports the dataset. -/
def refresh (setup : Import.Setup) (d : Dataset) (token : Token) : Program TaskOutcome := do
  match ← Import.createImportJob d with
  | .error e => return .error (.failed ("Failed to create job: " ++ e.message))
  | .ok job =>
    match ← Import.downloadAndImport setup d job.id token with
    | .ok _ => return .ok ()
    | .error .cancelled => return .error .cancelled
    | .error e => return .error (.failed e.message)

/-! ## Removing old jobs -/

/-- The task that removes old jobs. -/
def cleanupTask : Task :=
  { name := "job_cleanup"
    interval := day
    timeOfDay := some (.fixed "02:00")
    lastRunKey := some Settings.cleanupLastRunKey }

/-- The days that jobs are kept for, unless a setting names another number. -/
def defaultRetention : Int := 30

/-- The days that jobs are kept for: one at least. -/
def retentionDays : Program Int := do
  let days ← Settings.getInt Settings.retentionDaysKey defaultRetention
  return max days 1

/-- Removes old jobs and notes when. -/
def cleanup (token : Token) : Program TaskOutcome := do
  let cancelled : Bool ← Program.call (.isCancelled token)
  if cancelled then return .error .cancelled
  else
    let days ← retentionDays
    match ← Program.call (.cleanJobs days) with
    | .error e => return .error (.failed e.message)
    | .ok n =>
      Program.call (.record (.jobsCleaned n))
      let now : Instant ← Program.call .now
      let _ ← Settings.setTime Settings.cleanupLastRunKey now
      return .ok ()

/-! ## All tasks -/

/-- The tasks of a server, in the order of registration. -/
def tasks : List Task := [refreshTask .cards, refreshTask .sets, cleanupTask]

def body (setup : Import.Setup) (token : Token) (t : Task) : Program TaskOutcome :=
  if t.name = Dataset.cards.taskName then refresh setup .cards token
  else if t.name = Dataset.sets.taskName then refresh setup .sets token
  else cleanup token

end CatalogSync.Schedule
