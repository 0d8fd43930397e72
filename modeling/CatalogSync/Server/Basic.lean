import CatalogSync.Catalog.Store
import CatalogSync.Ledger.Store
import CatalogSync.Program.Basic

/-!
# A server

A server holds what programs work on: settings, the ledger of jobs, the catalog, files, metrics and
a view of the web. `Server.answer` answers the questions of one program; a cancelled token comes
before a batch that is ready. Store calls can be made to refuse, and upserts to fail or to cancel
the import they belong to.
-/

namespace CatalogSync

open CatalogSync.Text CatalogSync.Time

/-- What is to go wrong. -/
structure Faults where
  refused : List Call := []
  /-- The upsert, counted from one, that finds no room. -/
  failUpsert : Option Nat := none
  /-- The upsert after which the running import is cancelled. -/
  cancelUpsert : Option Nat := none
  /-- How many upserts there have been. -/
  upserts : Nat := 0
deriving DecidableEq, Repr, Inhabited

/-- A decoder at work, and the token that stops it. -/
structure Decoding where
  token : Token
  exchange : Feed.Exchange
deriving Inhabited

/-- Everything a server holds. -/
structure Server where
  clock : Instant
  settings : Dict String := []
  ledger : Ledger := {}
  catalog : Catalog := {}
  files : Dict (List UInt8) := []
  web : Web.Network := {}
  registry : Metrics.Registry := {}
  locked : List Dataset := []
  cancelled : List Token := []
  decodings : List Decoding := []
  faults : Faults := {}
  /-- The token of the import that an upsert may cancel. -/
  importToken : Option Token := none
  /-- The metadata that jobs were given, the last one first. -/
  published : List Json := []
deriving Inhabited

namespace Server

/-! ## Store calls -/

/-- A store call, unless it is one that refuses. -/
def guarded {α : Type} (s : Server) (call : Call) (f : Server → Stored α × Server) : Stored α × Server :=
  if s.faults.refused.contains call then (.error (.of (.refused call)), s) else f s

def changeLedger (f : Instant → Ledger → Ledger) (s : Server) : Stored Unit × Server :=
  (.ok (), { s with ledger := f s.clock s.ledger })

def setting? (s : Server) (key : String) : Option String := s.settings.find? key

def putSetting (s : Server) (key value : String) : Server := { s with settings := s.settings.put key value }

def createJob (type : JobType) (metadata : Json) (s : Server) : Stored Job × Server :=
  let (job, ledger) := s.ledger.create s.clock type metadata
  (job, { s with ledger })

def cleanJobs (days : Int) (s : Server) : Nat × Server :=
  let (n, ledger) := s.ledger.clean s.clock days
  (n, { s with ledger })

def cancel (s : Server) (t : Token) : Server := { s with cancelled := t :: s.cancelled }

def isCancelled (s : Server) (t : Token) : Bool := s.cancelled.contains t

/-- An upsert into the catalog, which may be the one to fail or to cancel the running import. -/
def upsert (f : Instant → Catalog → Nat × Catalog) (s : Server) : Stored Nat × Server :=
  let n := s.faults.upserts + 1
  let s := { s with faults := { s.faults with upserts := n } }
  if s.faults.failUpsert = some n then (.error (.of (.diskFull n)), s)
  else
    let (written, catalog) := f s.clock s.catalog
    let s := { s with catalog }
    let s := match s.importToken with
      | some t => if s.faults.cancelUpsert = some n then s.cancel t else s
      | none => s
    (.ok written, s)

/-- How many rows of a dataset there are. -/
def countRows (s : Server) : Dataset → Nat
  | .cards => s.catalog.cards.length
  | .sets => s.catalog.sets.length

/-! ## Files -/

def directoriesAbove (path : String) : List String :=
  let parts := Web.Url.splitBy (· = '/') path.toList
  (List.range parts.length).filterMap fun n =>
    if n = 0 then none else some (String.ofList (['/'].intercalate (parts.take n)))

/-- Whether a plain file is in the way of what lies under it. -/
def isBlocked (s : Server) (path : String) : Bool :=
  (directoriesAbove path).any fun p => (s.files.find? p).isSome

/-- A file operation under a path, unless a plain file is in its way. -/
def filed (s : Server) (path : String) (f : Server → Server) : Filed Unit × Server :=
  if s.isBlocked path then (.error "Not a directory (os error 20)", s) else (.ok (), f s)

/-- Moves a file, in place of one that was there. -/
def moveFile (source target : String) (s : Server) : Filed Unit × Server :=
  match s.files.find? source with
  | none => (.error "No such file or directory (os error 2)", s)
  | some bytes =>
    (.ok (), { s with files := Dict.put (s.files.filter fun (p, _) => p ≠ source) target bytes })

/-! ## Decoders -/

def modifyDecoding (s : Server) (id : Nat) (f : Decoding → Decoding) : Server :=
  { s with decodings := s.decodings.modify id f }

/-- The exchange of a decoding as far as its feed comes: a cancelled token ends a feed that would have to be waited for. -/
def supplied (s : Server) (d : Decoding) : Feed.Exchange :=
  if s.isCancelled d.token then d.exchange.cutOff else d.exchange

/-- A decoding that has done what it can. -/
def settled (s : Server) (d : Decoding) : Feed.Exchange :=
  (s.supplied d).settle (s.isCancelled d.token || !d.exchange.attended)

/-- The next batch for a receiver. -/
def receive (s : Server) (id : Nat) (token : Token) : Option (Feed.Arrival × Server) :=
  if s.isCancelled token then some (.cancelled, s)
  else
    match s.decodings[id]? with
    | none => some (.closed, s)
    | some d => do
      let (arrival, exchange) ← (s.settled d).take?
      return (arrival, s.modifyDecoding id fun d => { d with exchange })

/-- How a decoder ends. -/
def join (s : Server) (id : Nat) : Option (Feed.Outcome × Server) :=
  match s.decodings[id]? with
  | none => some (.error .cancelled, s)
  | some d => do
    let exchange := s.settled d
    let outcome ← exchange.outcome?
    return (outcome, s.modifyDecoding id fun d => { d with exchange })

/-! ## Requests -/

/-- Sends a request, unless it is given up before. -/
def request (s : Server) (location : String) (patience : Web.Patience) (token : Option Token) :
    Option (Web.Reply × Server) :=
  if token.any s.isCancelled then some (.cancelled, s)
  else
    match s.web.send location patience with
    | (.none, _) => none
    | (reply, web) => some (reply, { s with web })

/-! ## All questions -/

/-- Answers a question. -/
def answer : Program.Handler Server := fun q s =>
  match q with
  | .now => some (s.clock, s)
  | .readSetting key => some (s.guarded .readSetting fun s => (.ok (s.setting? key), s))
  | .writeSetting key value => some (s.guarded .writeSetting fun s => (.ok (), s.putSetting key value))
  | .createJob type metadata => some (s.guarded .createJob (createJob type metadata))
  | .startJob id => some (s.guarded .startJob (changeLedger fun now => Ledger.start now id))
  | .completeJob id => some (s.guarded .completeJob (changeLedger fun now => Ledger.complete now id))
  | .failJob id message => some (s.guarded .failJob (changeLedger fun now => Ledger.fail now id message))
  | .publish id metadata =>
    some (s.guarded .publish fun s =>
      changeLedger (fun now => Ledger.publish now id metadata) { s with published := metadata :: s.published })
  | .cleanJobs days => some (s.guarded .cleanJobs fun s => let (n, s) := cleanJobs days s; (.ok n, s))
  | .upsertCards cards => some (s.guarded .upsert (upsert fun now => Catalog.upsertCards now cards))
  | .upsertSets sets => some (s.guarded .upsert (upsert fun now => Catalog.upsertSets now sets))
  | .countRows dataset => some (s.guarded .count fun s => (.ok (s.countRows dataset), s))
  | .findSet code => some (s.guarded .findSet fun s => (s.catalog.set? s.clock code, s))
  | .recordIcon code path =>
    some (s.guarded .recordIcon fun s => (.ok (), { s with catalog := s.catalog.recordIcon code path }))
  | .lock dataset =>
    if s.locked.contains dataset then some (false, s) else some (true, { s with locked := dataset :: s.locked })
  | .unlock dataset => some ((), { s with locked := s.locked.filter (· ≠ dataset) })
  | .isCancelled token => some (s.isCancelled token, s)
  | .request location patience token => s.request location patience token
  | .startDecoder source size token =>
    some (s.decodings.length, { s with decodings := s.decodings ++ [⟨token, Feed.Exchange.start source size⟩] })
  | .receive decoder token => s.receive decoder token
  | .join decoder => s.join decoder
  | .abandon decoder => some ((), s.modifyDecoding decoder fun d => { d with exchange := d.exchange.leave })
  | .fileExists path => some ((s.files.find? path).isSome, s)
  | .makeDirectory path => some (s.filed path id)
  | .createFile path => some (s.filed path fun s => { s with files := s.files.put path [] })
  | .appendFile path bytes =>
    some (s.filed path fun s => { s with files := s.files.put path ((s.files.find? path).getD [] ++ bytes) })
  | .flushFile path => some (s.filed path id)
  | .moveFile source target => some (s.moveFile source target)
  | .record event => some ((), { s with registry := s.registry.record event })

def run {α : Type} (p : Program α) (s : Server) : Program.Run α Server := p.run answer s

end Server

end CatalogSync
