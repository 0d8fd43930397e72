import CatalogSync.Metrics.Registry
import CatalogSync.Binary64.Text

/-!
# Metrics as text

A registry is shown family by family in the order of their names: a line of help, a line for the
type, and a line for each value. A family without values is left out.
-/

namespace CatalogSync.Metrics

open CatalogSync.Text

/-- A character as it stands in a label value. -/
def labelChar (c : Char) : List Char :=
  if c = '\\' then ['\\', '\\']
  else if c = '\n' then ['\\', 'n']
  else if c = '"' then ['\\', '"']
  else [c]

def labelText (name value : String) : String :=
  name ++ "=\"" ++ String.ofList (value.toList.flatMap labelChar) ++ "\""

def labelsText (labels : List (String × String)) : String :=
  if labels.isEmpty then ""
  else "\x7b" ++ ",".intercalate (labels.map fun (name, value) => labelText name value) ++ "\x7d"

def valueLine (name : String) (labels : List (String × String)) (value : String) : String :=
  name ++ labelsText labels ++ " " ++ value

def fullName (name : String) : String := "cardkeep_" ++ name

/-- The two lines above the values of a family. -/
def heading (name help type : String) : List String :=
  ["# HELP " ++ fullName name ++ " " ++ help, "# TYPE " ++ fullName name ++ " " ++ type]

def numberLines (name help type : String) (labels : List String) (s : Series Binary64) : List String :=
  if s.isEmpty then []
  else
    heading name help type ++ s.map fun (values, x) => valueLine (fullName name) (labels.zip values) x.plain

/-- The lines of one histogram. -/
def histogramValueLines (name : String) (labels : List (String × String)) (h : Histogram) : List String :=
  let bucket := fun bound n => valueLine (name ++ "_bucket") (labels ++ [("le", bound)]) (Decimal.ofNat n)
  h.cumulative.map (fun (b, n) => bucket b.plain n) ++
    [ bucket "+Inf" h.count,
      valueLine (name ++ "_sum") labels h.sum.plain,
      valueLine (name ++ "_count") labels (Decimal.ofNat h.count) ]

/-- The lines of a family of histograms. -/
def histogramLines (name help : String) (labels : List String) (s : Series Histogram) : List String :=
  if s.isEmpty then []
  else
    heading name help "histogram" ++
      s.flatMap fun (values, h) => histogramValueLines (fullName name) (labels.zip values) h

/-- All lines of a registry. -/
def Registry.lines (r : Registry) : List String :=
  numberLines "catalog_items" "Rows in the local catalog" "gauge" ["dataset"] r.catalogItems ++
    histogramLines "import_duration_seconds" "Import run duration in seconds" ["dataset"] r.importDuration ++
    numberLines "import_records_total" "Feed records processed by imports" "counter" ["dataset", "outcome"]
      r.importRecords ++
    numberLines "import_runs_total" "Import runs by final status" "counter" ["dataset", "status"] r.importRuns ++
    numberLines "jobs_cleaned_total" "Job records removed by retention cleanup" "counter" [] [([], r.jobsCleaned)] ++
    histogramLines "task_duration_seconds" "Scheduled task duration in seconds" ["task"] r.taskDuration ++
    numberLines "task_executions_total" "Scheduled task executions" "counter" ["status", "task"] r.taskExecutions ++
    numberLines "task_running" "Whether a scheduled task is running (1) or idle (0)" "gauge" ["task"] r.taskRunning

/-! ## Serving -/

/-- What is answered to a request: the HTTP status and the lines of the body. -/
structure Answer where
  status : Nat
  lines : List String
deriving DecidableEq, Repr, Inhabited

/-- The answer to a request for a path: the metrics under `/metrics`, and nothing elsewhere. -/
def Registry.serve (r : Registry) (path : String) : Answer :=
  if path.toList.takeWhile (· ≠ '?') = "/metrics".toList then ⟨200, r.lines⟩ else ⟨404, []⟩

/-- The error over a port that is taken, the port as the caller writes it. -/
def busyMessage (port : String) : String :=
  "Failed to bind metrics port " ++ port ++ ": Address already in use (os error 98)"

end CatalogSync.Metrics
