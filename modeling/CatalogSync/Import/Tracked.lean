import CatalogSync.Import.Run

/-!
# Imports with a job

`downloadAndImport` runs an import under the lock of its dataset and settles its job and settings
afterwards. A run that finds the lock taken fails without touching the status of the run that holds
it.
-/

namespace CatalogSync.Import

open CatalogSync.Time

/-- The status of a dataset while an import of it runs. -/
def inProgressStatus : String := "in_progress"

/-- The status of a dataset after an import that counts as done. -/
def successStatus : String := "success"

/-- The status of a dataset after an import that failed. -/
def failedStatus : String := "failed"

/-- Notes the status of a dataset, if the store takes it. -/
def setStatus (dataset : Dataset) (status : String) : Program Unit := do
  let _ ← Program.call (.writeSetting (Settings.lastUpdateStatusKey dataset.key) status)
  return ()

def createImportJob (dataset : Dataset) : Program (Stored Job) :=
  Program.call (.createJob dataset.jobType (Progress.start dataset).toJson)

/-- Starts the job and runs the import. -/
def importNow (setup : Setup) (dataset : Dataset) (job : Int) (token : Token) : Program (Except Failure Summary) := do
  setStatus dataset inProgressStatus
  match ← Program.call (.startJob job) with
  | .error e => return .error (.store e)
  | .ok () => run setup dataset job token

/-- Settles the job and the settings by the outcome of an import that took some time. -/
def settle (dataset : Dataset) (job : Int) (outcome : Except Failure Summary) (elapsed : Span) : Program Unit := do
  match outcome with
  | .ok _ =>
    let _ ← Program.call (.completeJob job)
    let now : Instant ← Program.call .now
    let _ ← Settings.setTime (Settings.lastUpdateKey dataset.key) now
    setStatus dataset successStatus
    Program.call (.record (.importRun dataset.key successStatus elapsed))
    match ← Program.call (.countRows dataset) with
    | .ok n => Program.call (.record (.catalogItems dataset.key n))
    | .error _ => return ()
  | .error e =>
    let _ ← Program.call (.failJob job e.message)
    if e ≠ .alreadyRunning then setStatus dataset failedStatus
    Program.call (.record (.importRun dataset.key e.kind elapsed))

/-- Runs an import under the lock of its dataset, unless the lock is taken. -/
def underLock (dataset : Dataset) (p : Program (Except Failure Summary)) : Program (Except Failure Summary) := do
  let free : Bool ← Program.call (.lock dataset)
  if free then
    let outcome ← p
    Program.call (.unlock dataset)
    return outcome
  else return .error .alreadyRunning

/-- Runs the import of a job unless another import of the dataset is running, and settles the job. -/
def downloadAndImport (setup : Setup) (dataset : Dataset) (job : Int) (token : Token) :
    Program (Except Failure Summary) := do
  let started : Instant ← Program.call .now
  let outcome ← underLock dataset (importNow setup dataset job token)
  let stopped : Instant ← Program.call .now
  settle dataset job outcome ⟨(stopped.since started).toNat⟩
  return outcome

/-- Makes a job for the first import of a dataset, if there are no rows of it yet. -/
def initialJob (dataset : Dataset) : Program (Stored (Option Int)) := do
  match ← Program.call (.countRows dataset) with
  | .error e => return .error e
  | .ok n =>
    if 0 < n then return .ok none
    else
      match ← createImportJob dataset with
      | .error e => return .error e
      | .ok job => return .ok (some job.id)

end CatalogSync.Import
