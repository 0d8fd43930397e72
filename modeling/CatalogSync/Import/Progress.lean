import CatalogSync.Import.Dataset

/-!
# Progress of an import

A batch counts what succeeded and failed in it, and keeps the first few failure messages. Progress
adds the batches up and is published as the metadata of a job.
-/

namespace CatalogSync.Import

open CatalogSync.Text

/-- How many failure messages are kept. -/
def maxExamples : Nat := 10

/-- How many characters of a failure message are kept. -/
def maxMessageLength : Nat := 100

/-- A message cut to its first characters, with dots for what is cut off. -/
def truncate (message : String) : String :=
  let cs := message.toList
  if cs.length ≤ maxMessageLength then message
  else String.ofList (cs.take maxMessageLength ++ ['.', '.', '.'])

/-- What came of one batch. -/
structure BatchResult where
  succeeded : Nat
  failed : Nat
  examples : List String
deriving DecidableEq, Repr, Inhabited

namespace BatchResult

/-- A batch of which nothing is known yet. -/
def empty : BatchResult := ⟨0, 0, []⟩

/-- Counts a failure, and keeps its message while there is room. -/
def recordFailure (b : BatchResult) (message : String) : BatchResult :=
  { b with
    failed := b.failed + 1
    examples := if b.examples.length < maxExamples then b.examples ++ [truncate message] else b.examples }

/-- Counts several failures in order. -/
def recordFailures (b : BatchResult) (messages : List String) : BatchResult :=
  messages.foldl recordFailure b

end BatchResult

/-- How far a run is. -/
inductive Phase where
  | queued
  | resolving
  | downloading
  | importing
  | completed
  | failed
deriving DecidableEq, Repr, Inhabited

namespace Phase

/-- The name of a phase. -/
def name : Phase → String
  | .queued => "queued"
  | .resolving => "resolving"
  | .downloading => "downloading"
  | .importing => "importing"
  | .completed => "completed"
  | .failed => "failed"

def options : List (String × Phase) :=
  [.queued, .resolving, .downloading, .importing, .completed, .failed].map fun p => (p.name, p)

end Phase

/-- The progress of a run. -/
structure Progress where
  dataset : String
  phase : Phase
  downloadUri : Option String
  processed : Nat
  succeeded : Nat
  failed : Nat
  batches : Nat
  examples : List String
  error : Option String
deriving DecidableEq, Repr, Inhabited

/-- The share of `failed` in `failed + succeeded`, zero if both are. -/
def failureRate (failed succeeded : Nat) : Binary64 :=
  let total := failed + succeeded
  if total = 0 then Binary64.zero false else (Binary64.ofNat failed).div (Binary64.ofNat total)

namespace Progress

/-- The progress of a run that has not begun. -/
def start (dataset : Dataset) : Progress := ⟨dataset.key, .queued, none, 0, 0, 0, 0, [], none⟩

/-- Adds a batch. -/
def absorb (p : Progress) (b : BatchResult) : Progress :=
  { p with
    batches := p.batches + 1
    succeeded := p.succeeded + b.succeeded
    failed := p.failed + b.failed
    processed := p.processed + (b.succeeded + b.failed)
    examples := p.examples ++ b.examples.take (maxExamples - p.examples.length) }

def failureRate (p : Progress) : Binary64 := Import.failureRate p.failed p.succeeded

/-- The JSON form of progress. -/
def toJson (p : Progress) : Json :=
  .ofPairs
    [ ("dataset", .text p.dataset),
      ("phase", .text p.phase.name),
      ("download_uri", .ofText? p.downloadUri),
      ("processed", .ofNat p.processed),
      ("succeeded", .ofNat p.succeeded),
      ("failed", .ofNat p.failed),
      ("batches", .ofNat p.batches),
      ("failure_examples", .array (p.examples.map .text)),
      ("error", .ofText? p.error) ]

section Slots

open Json

def datasetSlot : Slot String := .required "dataset" Reader.text
def phaseSlot : Slot Phase := .required "phase" (Reader.choice Phase.options)
def uriSlot : Slot (Option String) := .optional "download_uri" Reader.text
def countSlot (name : String) : Slot Nat := .required name Reader.nat64
def examplesSlot : Slot (List String) := .required "failure_examples" (Reader.list Reader.text)
def errorSlot : Slot (Option String) := .optional "error" Reader.text

end Slots

/-- Reads progress from its JSON form. -/
def reader : Json.Reader Progress :=
  Json.record "ImportProgress"
    [ datasetSlot.probe, phaseSlot.probe, uriSlot.probe, (countSlot "processed").probe,
      (countSlot "succeeded").probe, (countSlot "failed").probe, (countSlot "batches").probe,
      examplesSlot.probe, errorSlot.probe ]
    fun f => do
      return {
        dataset := ← f.get 0 datasetSlot
        phase := ← f.get 1 phaseSlot
        downloadUri := ← f.get 2 uriSlot
        processed := ← f.get 3 (countSlot "processed")
        succeeded := ← f.get 4 (countSlot "succeeded")
        failed := ← f.get 5 (countSlot "failed")
        batches := ← f.get 6 (countSlot "batches")
        examples := ← f.get 7 examplesSlot
        error := ← f.get 8 errorSlot }

end Progress

end CatalogSync.Import
