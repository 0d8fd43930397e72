import CatalogSync.Json.Record
import CatalogSync.Time.Loose

/-!
# Jobs

A job has a type, a status and free metadata, and remembers when it was made, started and ended.
`Job.toJson` and `Job.reader` are its JSON form.
-/

namespace CatalogSync

open CatalogSync.Time

/-- What a job does. -/
inductive JobType where
  | cardImport
  | setImport
deriving DecidableEq, Repr, Inhabited

/-- How far a job is. -/
inductive JobStatus where
  | pending
  | inProgress
  | completed
  | failed
  | cancelled
deriving DecidableEq, Repr, Inhabited

namespace JobType

def name : JobType → String
  | .cardImport => "card_data_import"
  | .setImport => "set_data_import"

def options : List (String × JobType) := [.cardImport, .setImport].map fun t => (t.name, t)

def parse (s : String) : Option JobType := options.lookup s

end JobType

namespace JobStatus

/-- The name of a status. -/
def name : JobStatus → String
  | .pending => "pending"
  | .inProgress => "in_progress"
  | .completed => "completed"
  | .failed => "failed"
  | .cancelled => "cancelled"

def options : List (String × JobStatus) :=
  [.pending, .inProgress, .completed, .failed, .cancelled].map fun t => (t.name, t)

def parse (s : String) : Option JobStatus := options.lookup s

/-- Whether a job with this status has ended. -/
def isTerminal : JobStatus → Bool
  | .pending => false
  | .inProgress => false
  | .completed => true
  | .failed => true
  | .cancelled => true

end JobStatus

/-- A background job. -/
structure Job where
  id : Int
  type : JobType
  status : JobStatus
  metadata : Json
  error : Option String
  createdAt : Instant
  updatedAt : Instant
  startedAt : Option Instant
  completedAt : Option Instant
deriving Inhabited

namespace Job

def instantJson (t : Instant) : Json := .text t.zulu

/-- An instant as JSON, or null in its absence. -/
def instantJson? : Option Instant → Json
  | none => .null
  | some t => instantJson t

/-- The JSON form of a job. -/
def toJson (job : Job) : Json :=
  .ofPairs
    [ ("id", .int job.id),
      ("job_type", .text job.type.name),
      ("status", .text job.status.name),
      ("metadata", job.metadata),
      ("error", .ofText? job.error),
      ("created_at", instantJson job.createdAt),
      ("updated_at", instantJson job.updatedAt),
      ("started_at", instantJson? job.startedAt),
      ("completed_at", instantJson? job.completedAt) ]

/-- Reads an instant from a text. -/
def instantReader : Json.Reader Instant
  | .text s =>
    match Loose.read s with
    | .ok t => .ok t
    | .error e => .error e.message
  | v => .error (v.wrongKind "an RFC 3339 formatted date and time string")

section Slots

open Json

def idSlot : Slot Int := .required "id" Reader.int64
def typeSlot : Slot JobType := .required "job_type" (Reader.choice JobType.options)
def statusSlot : Slot JobStatus := .required "status" (Reader.choice JobStatus.options)
def metadataSlot : Slot Json := .required "metadata" Reader.any
def errorSlot : Slot (Option String) := .optional "error" Reader.text
def createdSlot : Slot Instant := .required "created_at" instantReader
def updatedSlot : Slot Instant := .required "updated_at" instantReader
def startedSlot : Slot (Option Instant) := .optional "started_at" instantReader
def completedSlot : Slot (Option Instant) := .optional "completed_at" instantReader

end Slots

/-- Reads a job from its JSON form. -/
def reader : Json.Reader Job :=
  Json.record "Job"
    [ idSlot.probe, typeSlot.probe, statusSlot.probe, metadataSlot.probe, errorSlot.probe, createdSlot.probe,
      updatedSlot.probe, startedSlot.probe, completedSlot.probe ]
    fun f => do
      return {
        id := ← f.get 0 idSlot
        type := ← f.get 1 typeSlot
        status := ← f.get 2 statusSlot
        metadata := ← f.get 3 metadataSlot
        error := ← f.get 4 errorSlot
        createdAt := ← f.get 5 createdSlot
        updatedAt := ← f.get 6 updatedSlot
        startedAt := ← f.get 7 startedSlot
        completedAt := ← f.get 8 completedSlot }

end Job

end CatalogSync
