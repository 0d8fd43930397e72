import CatalogSync.Schedule.Board
import CatalogSync.Schedule.Tasks
import CatalogSync.Server.Basic

/-!
# A host

A host is a server with a scheduler and at most one import in the background. Its operations run
programs on the server: an import in the foreground, the import in the background as far as it gets,
and the tasks that a pass or a trigger starts.
-/

namespace CatalogSync

open CatalogSync.Time

/-- An import in the background: what is left of it, or what came of it. -/
structure Background where
  dataset : Dataset
  job : Int
  token : Token
  state : Program (Except Import.Failure Import.Summary) ⊕ Except Import.Failure Import.Summary

/-- A server with its scheduler and its import in the background. -/
structure Host where
  server : Server
  /-- What its clocks show. -/
  zone : Zone := .utc
  setup : Import.Setup
  board : Schedule.Board := {}
  background : Option Background := none
  /-- How many tokens have been given out. -/
  tokens : Nat := 1

namespace Host

def taskToken : Token := ⟨0⟩

def newToken (h : Host) : Token × Host := (⟨h.tokens⟩, { h with tokens := h.tokens + 1 })

/-- Runs a program; `none` if it has to wait. -/
def perform {α : Type} (h : Host) (p : Program α) : Option α × Host :=
  match h.server.run p with
  | .done a server => (some a, { h with server })
  | .waiting _ server => (none, { h with server })

def lookup (h : Host) : Schedule.Lookup := fun key =>
  (h.server.guarded .readSetting fun s => (.ok (s.setting? key), s)).1

def record (h : Host) (e : Metrics.Event) : Host :=
  { h with server := { h.server with registry := h.server.registry.record e } }

/-! ## Imports -/

def createImportJob (h : Host) (d : Dataset) : Option (Stored Job) × Host := h.perform (Import.createImportJob d)

/-- Runs the import of a job. -/
def importJob (h : Host) (d : Dataset) (job : Int) (cancelled : Bool) :
    Option (Except Import.Failure Import.Summary) × Host :=
  let (token, h) := h.newToken
  let server := { h.server with importToken := some token, published := [] }
  let server := if cancelled then server.cancel token else server
  { h with server }.perform (Import.downloadAndImport h.setup d job token)

/-- Lets the import in the background go on as far as it gets. -/
def proceed (h : Host) : Host :=
  match h.background with
  | some b =>
    match b.state with
    | .inl rest =>
      match h.server.run rest with
      | .done outcome server => { h with server, background := some { b with state := .inr outcome } }
      | .waiting rest server => { h with server, background := some { b with state := .inl rest } }
    | .inr _ => h
  | none => h

/-- Starts the import of a job in the background. -/
def beginImport (h : Host) (d : Dataset) (job : Int) : Host :=
  let (token, h) := h.newToken
  { h with
    server := { h.server with importToken := some token, published := [] }
    background := some ⟨d, job, token, .inl (Import.downloadAndImport h.setup d job token)⟩ }.proceed

def cancelImport (h : Host) : Host :=
  match h.background with
  | some b => { h with server := h.server.cancel b.token }
  | none => h

/-- What came of the import in the background, which is gone then. -/
def joinImport (h : Host) : Option (Background × Except Import.Failure Import.Summary) × Host :=
  let h := h.proceed
  match h.background with
  | some b =>
    match b.state with
    | .inr outcome => (some (b, outcome), { h with background := none })
    | .inl _ => (none, h)
  | none => (none, h)

/-- Whether the metadata of a job shows a phase and a number of processed records. -/
def shows (h : Host) (job : Int) (phase : String) (processed : Nat) : Bool :=
  match h.server.ledger.get h.server.clock job with
  | .ok (some job) =>
    (job.metadata.member? "phase").bind Json.text? == some phase &&
      job.metadata.member? "processed" == some (Json.ofNat processed)
  | _ => false

/-- Makes the first import of a dataset, if there are no rows of it; `before` is its job as it was made. -/
def initialImport (h : Host) (d : Dataset) : Option (Stored (Option (Int × Option Job))) × Host :=
  match h.perform (Import.initialJob d) with
  | (none, h) => (none, h)
  | (some (.error e), h) => (some (.error e), h)
  | (some (.ok none), h) => (some (.ok none), h)
  | (some (.ok (some id)), h) =>
    let before := match h.server.ledger.get h.server.clock id with
      | .ok job => job
      | .error _ => none
    let (_, h) := h.importJob d id false
    (some (.ok (some (id, before))), h)

/-! ## Tasks -/

/-- Runs the body of a task that is on the board, and takes it off. -/
def runBody (h : Host) (t : Schedule.Task) : Option Schedule.TaskOutcome × Host :=
  let h := { h with server := { h.server with importToken := some taskToken } }
  let (outcome, h) := h.perform (Schedule.body h.setup taskToken t)
  let h := match outcome with
    | some outcome => h.record (.taskExecution t.name (Schedule.statusOf outcome) ⟨0⟩)
    | none => h
  (outcome, { h with board := h.board.release t.name }.record (.taskRunning t.name false))

/-- Runs the bodies of tasks that were just started. -/
def runBodies (h : Host) (started : List Schedule.Task) : Host :=
  let h := started.foldl (fun h t => h.record (.taskRunning t.name true)) h
  started.foldl (fun h t => (h.runBody t).2) h

/-- A pass over the tasks, and the names of those it starts. -/
def pass (h : Host) (now : Instant) (anyTime : Bool) : List String × Host :=
  let (started, board) := Schedule.Board.pass h.zone h.lookup now anyTime Schedule.tasks h.board
  (started.map (·.name), { h with board }.runBodies started)

/-- Starts a task at once, and tells whether it was not running already. -/
def trigger (h : Host) (name : String) : Except String Bool × Host :=
  match Schedule.find Schedule.tasks name with
  | .error e => (.error e, h)
  | .ok t =>
    match h.board.acquire name h.server.clock with
    | none => (.ok false, h)
    | some board => (.ok true, { h with board }.runBodies [t])

/-- Runs the body of a task by itself. -/
def runTask (h : Host) (p : Token → Program Schedule.TaskOutcome) (cancelled : Bool) :
    Option Schedule.TaskOutcome × Host :=
  let (token, h) := h.newToken
  let server := { h.server with importToken := some token }
  let server := if cancelled then server.cancel token else server
  { h with server }.perform (p token)

end Host

end CatalogSync
