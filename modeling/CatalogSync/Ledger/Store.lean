import CatalogSync.Ledger.Query
import CatalogSync.Ledger.Row

/-!
# The ledger of jobs

The ledger keeps a row for every job until old jobs are removed. A job only moves forward: pending,
in progress, ended. Calls on a job that is missing or has ended change nothing. `list` shows the
jobs by time of creation, the latest first.
-/

namespace CatalogSync

open CatalogSync.Time CatalogSync.Ledger

/-- The rows of all jobs, by rising id. -/
structure Ledger where
  rows : List Ledger.Row := []
deriving DecidableEq, Repr, Inhabited

namespace Ledger

/-- The error of jobs that a restart interrupted. -/
def interrupted : String := "job was interrupted by a server restart"

def find? (l : Ledger) (id : Int) : Option Row := l.rows.find? (·.id == id)

def modify (l : Ledger) (id : Int) (f : Row → Row) : Ledger :=
  ⟨l.rows.map fun r => if r.id = id then f r else r⟩

theorem find?_modify {f : Row → Row} (hf : ∀ r, (f r).id = r.id) (l : Ledger) (id : Int) :
    (l.modify id f).find? id = (l.find? id).map f := by
  unfold find? modify
  induction l.rows with
  | nil => rfl
  | cons r rest ih =>
    rw [List.map_cons]
    by_cases hr : r.id = id
    · rw [if_pos hr, List.find?_cons_of_pos (by simp [hf, hr]), List.find?_cons_of_pos (by simp [hr])]
      rfl
    · rw [if_neg hr, List.find?_cons_of_neg (by simp [hr]), List.find?_cons_of_neg (by simp [hr]), ih]

theorem find?_modify_of_ne {f : Row → Row} (hf : ∀ r, (f r).id = r.id) (l : Ledger) {id other : Int} (hne : other ≠ id) :
    (l.modify id f).find? other = l.find? other := by
  unfold find? modify
  induction l.rows with
  | nil => rfl
  | cons r rest ih =>
    have hid : (if r.id = id then f r else r).id = r.id := by
      split
      · exact hf r
      · rfl
    rw [List.map_cons, List.find?_cons, List.find?_cons, hid, ih]
    by_cases hr : r.id = other
    · rw [if_neg (by rw [hr]; exact hne)]
    · rw [beq_false_of_ne hr]

/-- The greatest id, zero without rows. -/
def lastId (l : Ledger) : Int := l.rows.foldl (fun n r => max n r.id) 0

/-- Makes a pending job with the id after the greatest. -/
def create (now : Instant) (type : JobType) (metadata : Json) (l : Ledger) : Except StoreError Job × Ledger :=
  let row := Row.fresh now (l.lastId + 1) type metadata
  (row.toJob now, ⟨l.rows ++ [row]⟩)

def start (now : Instant) (id : Int) (l : Ledger) : Ledger := l.modify id (Row.start now)

def finish (now : Instant) (id : Int) (status : JobStatus) (error : Option String) (l : Ledger) : Ledger :=
  l.modify id (Row.finish now status error)

def complete (now : Instant) (id : Int) (l : Ledger) : Ledger := l.finish now id .completed none

def fail (now : Instant) (id : Int) (message : String) (l : Ledger) : Ledger := l.finish now id .failed (some message)

def cancel (now : Instant) (id : Int) (reason : String) (l : Ledger) : Ledger :=
  l.finish now id .cancelled (some reason)

def publish (now : Instant) (id : Int) (metadata : Json) (l : Ledger) : Ledger := l.modify id (Row.publish now metadata)

def get (now : Instant) (id : Int) (l : Ledger) : Except StoreError (Option Job) :=
  match l.find? id with
  | none => .ok none
  | some r => within ("Failed to load job " ++ Text.Decimal.ofInt id) ((r.toJob now).map some)

/-- Whether a row matches the type and status of a query. -/
def Query.matches (q : Query) (r : Row) : Bool :=
  (match q.type with | none => true | some t => r.jobType = t.name) &&
    (match q.status with | none => true | some s => r.status = s.name)

/-- Whether a row is shown before another: the later creation first, then the greater id. -/
def Row.before (a b : Row) : Bool := b.createdAt < a.createdAt || (a.createdAt == b.createdAt && b.id ≤ a.id)

/-- The rows of a query on all pages. -/
def matching (l : Ledger) (q : Query) : List Row := (l.rows.filter q.matches).mergeSort Row.before

/-- The rows before a page, where more than 63 bits count as none. -/
def Query.skipped (q : Query) : Nat := if q.offset < Nat.pow 2 63 then q.offset else 0

def list (now : Instant) (q : Query) (l : Ledger) : Except StoreError Page := do
  let rows := l.matching q
  let jobs ← within "Failed to list jobs" (((rows.drop q.skipped).take q.limit).mapM (Row.toJob now))
  return ⟨jobs, rows.length⟩

def lastOfType (now : Instant) (type : JobType) (l : Ledger) : Except StoreError (Option Job) :=
  match (l.matching { type := some type }).head? with
  | none => .ok none
  | some r => (r.toJob now).map some

/-- The most days that make a length of time of their own. -/
def maxDays : Int := 106751991167

/-- The instant before which jobs are old, if it is one that instants are kept for. -/
def cutoff? (now : Instant) (days : Int) : Option Instant :=
  let days := max days 0
  if maxDays < days then none else now.minusDays? days.toNat

/-- Removes the jobs made more than some days ago, and says how many they were. -/
def clean (now : Instant) (days : Int) (l : Ledger) : Nat × Ledger :=
  match cutoff? now days with
  | none => (0, l)
  | some t =>
    let kept := l.rows.filter fun r => !(r.createdAt < t.stamp)
    (l.rows.length - kept.length, ⟨kept⟩)

/-- Cancels the jobs that have not ended, and says how many they were. -/
def cancelOpen (now : Instant) (l : Ledger) : Nat × Ledger :=
  ((l.rows.filter Row.isOpen).length, ⟨l.rows.map (Row.finish now .cancelled (some interrupted))⟩)

end Ledger

end CatalogSync
