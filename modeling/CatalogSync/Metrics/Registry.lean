import CatalogSync.Binary64.Basic
import CatalogSync.Time.Span

/-!
# Metrics

A registry counts events by their labels. A series keeps its label values in rising order.
-/

namespace CatalogSync.Metrics

open CatalogSync.Time

/-- What is worth counting. -/
inductive Event where
  | taskExecution (task status : String) (elapsed : Span)
  | taskRunning (task : String) (running : Bool)
  | importRecords (dataset : String) (succeeded failed : Nat)
  | importRun (dataset status : String) (elapsed : Span)
  | jobsCleaned (count : Nat)
  | catalogItems (dataset : String) (count : Nat)
deriving DecidableEq, Repr, Inhabited

/-! ## Series -/

/-- Values by label values. -/
abbrev Series (α : Type) := List (List String × α)

namespace Series

variable {α : Type}

def find? (s : Series α) (labels : List String) : Option α := s.lookup labels

/-- Changes the value for some label values, starting from `initial`. -/
def update (s : Series α) (labels : List String) (initial : α) (f : α → α) : Series α :=
  match s with
  | [] => [(labels, f initial)]
  | (k, v) :: r =>
    if k = labels then (k, f v) :: r
    else if labels < k then (labels, f initial) :: (k, v) :: r
    else (k, v) :: update r labels initial f

end Series

/-! ## Histograms -/

/-- Observations counted by the first bound that they do not exceed. -/
structure Histogram where
  bounds : List Binary64
  /-- The number of observations for each bound, apart from those of lower bounds. -/
  counts : List Nat
  sum : Binary64
  count : Nat
deriving DecidableEq, Repr, Inhabited

namespace Histogram

def empty (bounds : List Binary64) : Histogram := ⟨bounds, bounds.map fun _ => 0, Binary64.zero false, 0⟩

/-- Adds one to the count of the first bound that `x` does not exceed. -/
def countIn (x : Binary64) : List Binary64 → List Nat → List Nat
  | b :: bounds, n :: counts => if x.le b then (n + 1) :: counts else n :: countIn x bounds counts
  | _, counts => counts

def observe (h : Histogram) (x : Binary64) : Histogram :=
  { h with counts := countIn x h.bounds h.counts, sum := h.sum.add x, count := h.count + 1 }

/-- Each bound with the number of observations that do not exceed it. -/
def cumulative (h : Histogram) : List (Binary64 × Nat) :=
  let step := fun (total, done) (b, n) => (total + n, done ++ [(b, total + n)])
  ((h.bounds.zip h.counts).foldl step ((0 : Nat), ([] : List (Binary64 × Nat)))).2

end Histogram

/-! ## The registry -/

/-- Everything that is counted. -/
structure Registry where
  /-- By status and task. -/
  taskExecutions : Series Binary64 := []
  taskDuration : Series Histogram := []
  taskRunning : Series Binary64 := []
  /-- By dataset and outcome. -/
  importRecords : Series Binary64 := []
  /-- By dataset and status. -/
  importRuns : Series Binary64 := []
  importDuration : Series Histogram := []
  jobsCleaned : Binary64 := Binary64.zero false
  catalogItems : Series Binary64 := []
deriving Repr, Inhabited

def seconds (s : Span) : Binary64 :=
  (Binary64.ofNat s.seconds).add ((Binary64.ofNat (s.nanos % 1000000000)).div (Binary64.ofNat 1000000000))

def taskBounds : List Binary64 :=
  Binary64.ofDecimal false 1 (-1) :: [1, 10, 60, 300, 900, 1800, 3600].map Binary64.ofNat

def importBounds : List Binary64 := [1, 10, 60, 300, 900, 1800, 3600].map Binary64.ofNat

namespace Registry

def addTo (s : Series Binary64) (labels : List String) (n : Nat) : Series Binary64 :=
  s.update labels (Binary64.zero false) (·.add (Binary64.ofNat n))

def setTo (s : Series Binary64) (labels : List String) (n : Nat) : Series Binary64 :=
  s.update labels (Binary64.zero false) fun _ => Binary64.ofNat n

/-- Counts an event. -/
def record (r : Registry) : Event → Registry
  | .taskExecution task status elapsed =>
    { r with
      taskExecutions := addTo r.taskExecutions [status, task] 1
      taskDuration := r.taskDuration.update [task] (Histogram.empty taskBounds) (·.observe (seconds elapsed)) }
  | .taskRunning task running => { r with taskRunning := setTo r.taskRunning [task] (if running then 1 else 0) }
  | .importRecords dataset succeeded failed =>
    { r with
      importRecords := addTo (addTo r.importRecords [dataset, "succeeded"] succeeded) [dataset, "failed"] failed }
  | .importRun dataset status elapsed =>
    { r with
      importRuns := addTo r.importRuns [dataset, status] 1
      importDuration := r.importDuration.update [dataset] (Histogram.empty importBounds) (·.observe (seconds elapsed)) }
  | .jobsCleaned count => { r with jobsCleaned := r.jobsCleaned.add (Binary64.ofNat count) }
  | .catalogItems dataset count => { r with catalogItems := setTo r.catalogItems [dataset] count }

end Registry

end CatalogSync.Metrics
