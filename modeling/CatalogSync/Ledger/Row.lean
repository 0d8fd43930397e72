import CatalogSync.Ledger.Job
import CatalogSync.Json.Reader
import CatalogSync.Store.Error
import CatalogSync.Time.Rfc3339

/-!
# Rows of jobs

A row keeps a job as texts. `Row.toJob` reads it: a type or status that is none is an error,
metadata that is no JSON reads as null, and an unreadable time of creation or change reads as the
present.
-/

namespace CatalogSync.Ledger

open CatalogSync.Time

/-- A job as it is stored. -/
structure Row where
  id : Int
  jobType : String
  status : String
  metadata : String
  error : Option String
  createdAt : String
  updatedAt : String
  startedAt : Option String
  completedAt : Option String
deriving DecidableEq, Repr, Inhabited

/-- The JSON value of a stored text, null if it is none. -/
def readMetadata (s : String) : Json :=
  match Json.read s with
  | .ok v => v
  | .error _ => .null

namespace Row

/-- A job that has just been made. -/
def fresh (now : Instant) (id : Int) (type : JobType) (metadata : Json) : Row :=
  { id
    jobType := type.name
    status := JobStatus.pending.name
    metadata := metadata.write
    error := none
    createdAt := now.stamp
    updatedAt := now.stamp
    startedAt := none
    completedAt := none }

/-- The job in a row. -/
def toJob (now : Instant) (r : Row) : Except StoreError Job :=
  match JobType.parse r.jobType with
  | none => .error (.of (.unknownJobType r.jobType))
  | some type =>
    match JobStatus.parse r.status with
    | none => .error (.of (.unknownJobStatus r.status))
    | some status => .ok {
        id := r.id
        type
        status
        metadata := readMetadata r.metadata
        error := r.error
        createdAt := (read? r.createdAt).getD now
        updatedAt := (read? r.updatedAt).getD now
        startedAt := r.startedAt.bind read?
        completedAt := r.completedAt.bind read? }

/-- Whether the job has not ended. -/
def isOpen (r : Row) : Bool := r.status = JobStatus.pending.name || r.status = JobStatus.inProgress.name

def start (now : Instant) (r : Row) : Row :=
  if r.status = JobStatus.pending.name then
    { r with status := JobStatus.inProgress.name, startedAt := some now.stamp, updatedAt := now.stamp }
  else r

def finish (now : Instant) (status : JobStatus) (error : Option String) (r : Row) : Row :=
  if r.isOpen then
    { r with status := status.name, error, completedAt := some now.stamp, updatedAt := now.stamp }
  else r

def publish (now : Instant) (metadata : Json) (r : Row) : Row :=
  if r.isOpen then { r with metadata := metadata.write, updatedAt := now.stamp } else r

/-- Overwrites a column by its name; `none` if no such column can hold the value. -/
def overwrite (r : Row) (column : String) (value : Option String) : Option Row :=
  match column, value with
  | "job_type", some s => some { r with jobType := s }
  | "status", some s => some { r with status := s }
  | "metadata", some s => some { r with metadata := s }
  | "created_at", some s => some { r with createdAt := s }
  | "updated_at", some s => some { r with updatedAt := s }
  | "error", v => some { r with error := v }
  | "started_at", v => some { r with startedAt := v }
  | "completed_at", v => some { r with completedAt := v }
  | _, _ => none

end Row

end CatalogSync.Ledger
