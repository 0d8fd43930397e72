import CatalogSync.Feed.Directory
import CatalogSync.Import.Batch
import CatalogSync.Settings.Access
import CatalogSync.Settings.Keys
import CatalogSync.Web.Status

/-!
# A run of an import

A run finds the feed in the directory of feeds, opens it, and applies it batch by batch. It
publishes its progress as the metadata of a job after each step. `applyFeed` is the part that takes
batches, and `run` is the whole.
-/

namespace CatalogSync.Import

open CatalogSync.Text

/-- How imports work. -/
structure Setup where
  /-- How many elements make a batch. -/
  batchSize : Nat := 1000
  /-- The greatest share of failures that is put up with. -/
  threshold : Binary64 := Binary64.ofDecimal false 5 (-2)
  /-- The directory of the assets. -/
  assets : String
deriving Repr, Inhabited

/-- A part of a run ends with progress, whether it fails or not. -/
abbrev Staged (α : Type) := Except Failure α × Progress

/-- Publishes progress. A store that refuses it has no effect on the run. -/
def publish (job : Int) (p : Progress) : Program Unit := do
  let _ ← Program.call (.publish job p.toJson)
  return ()

/-- Takes batches and applies them until no more come, at most `rounds` of them. -/
def consume (setup : Setup) (dataset : Dataset) (job : Int) (token : Token) (decoder : Nat) :
    Nat → Progress → Program (Staged Unit)
  | 0, p => return (.ok (), p)
  | rounds + 1, p => do
    match ← Program.call (.receive decoder token) with
    | .cancelled => return (.error .cancelled, p)
    | .closed => return (.ok (), p)
    | .batch items =>
      match ← applyBatch dataset setup.assets items token with
      | .error e => return (.error (.store e), p)
      | .ok result =>
        let p := p.absorb result
        publish job p
        consume setup dataset job token decoder rounds p

/-- What the end of a decoder means for a run. -/
def decoderFailure (cancelled : Bool) : Feed.DecodeFault → Failure
  | .cancelled => .cancelled
  | .read reason => if cancelled then .cancelled else .transport reason
  | .framing reason => if cancelled then .cancelled else .framing reason
  | .panicked reason => .framing ("decoder task failed: " ++ (Feed.DecodeFault.panicked reason).message)

/-- Decodes a feed and applies it. Every batch has an element and every element a byte, which bounds
the rounds. -/
def applyFeed (setup : Setup) (dataset : Dataset) (source : Feed.Source) (job : Int) (token : Token) (p : Progress) :
    Program (Staged Unit) := do
  let decoder ← Program.call (.startDecoder source setup.batchSize token)
  let (outcome, p) ← consume setup dataset job token decoder (source.bytes.length + 1) p
  match outcome with
  | .error e =>
    Program.call (.abandon decoder)
    return (.error e, p)
  | .ok () =>
    match ← Program.call (.join decoder) with
    | .ok _ => return (.ok (), p)
    | .error fault =>
      let cancelled ← Program.call (.isCancelled token)
      return (.error (decoderFailure cancelled fault), p)

/-! ## Finding the feed -/

/-- The entry of a dataset in the directory of feeds. -/
def resolve (dataset : Dataset) : Program (Except Failure Feed.Entry) := do
  let key := Settings.urlKey dataset.key
  match ← Program.call (.readSetting key) with
  | .error e => return .error (.store e)
  | .ok value =>
    match value.filter fun url => !isAllBlank url with
    | none => return .error (.config ("setting " ++ key ++ " is not set"))
    | some url =>
      let location := trim url
      let type ← Settings.get (Settings.datasetTypeKey dataset.key) dataset.defaultType
      match ← Program.call (.request location .timed none) with
      | .failed chain => return .error (.transport (location ++ ": " ++ chain.headD ""))
      | .none => return .error (.transport (location ++ ": " ++ Web.timedOut))
      | .cancelled => return .error .cancelled
      | .answered status body =>
        if !Web.isSuccess status then return .error (.httpStatus status location)
        else
          match body.ending with
          | .closed =>
            match Feed.Directory.read body.bytes with
            | .error _ =>
              return .error (.framing ("dataset catalog at " ++ location ++ ": " ++ Web.brokenBody))
            | .ok directory =>
              match directory.find type with
              | none => return .error (.datasetNotFound type)
              | some entry => return .ok entry
          | _ => return .error (.transport (location ++ ": " ++ Web.brokenBody))

/-- Opens the feed at a location. -/
def openFeed (location : String) (token : Token) : Program (Except Failure Feed.Source) := do
  match ← Program.call (.request location .patient (some token)) with
  | .cancelled => return .error .cancelled
  | .none => return .error .cancelled
  | .failed chain => return .error (.transport (location ++ ": " ++ chain.headD ""))
  | .answered status body =>
    if Web.isSuccess status then return .ok body else return .error (.httpStatus status location)

/-! ## The whole run -/

/-- The phases of a run up to its verdict. -/
def phases (setup : Setup) (dataset : Dataset) (job : Int) (token : Token) (p : Progress) :
    Program (Staged Summary) := do
  let p := { p with phase := .resolving }
  publish job p
  match ← resolve dataset with
  | .error e => return (.error e, p)
  | .ok entry =>
    let p := { p with phase := .downloading, downloadUri := some entry.downloadUri }
    publish job p
    match ← openFeed entry.downloadUri token with
    | .error e => return (.error e, p)
    | .ok source =>
      let p := { p with phase := .importing }
      publish job p
      let (outcome, p) ← applyFeed setup dataset source job token p
      match outcome with
      | .error e => return (.error e, p)
      | .ok () => return (verdict setup.threshold p, p)

/-- The progress of a run that has ended. -/
def ended (p : Progress) : Except Failure Summary → Progress
  | .ok _ => { p with phase := .completed }
  | .error e => { p with phase := .failed, error := some e.message }

/-- Runs an import for a job. The status of the job is left to the caller. -/
def run (setup : Setup) (dataset : Dataset) (job : Int) (token : Token) : Program (Except Failure Summary) := do
  let (outcome, p) ← phases setup dataset job token (Progress.start dataset)
  let p := ended p outcome
  publish job p
  Program.call (.record (.importRecords dataset.key p.succeeded p.failed))
  return outcome

end CatalogSync.Import
