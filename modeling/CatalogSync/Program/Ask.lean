import CatalogSync.Catalog.Record
import CatalogSync.Feed.Exchange
import CatalogSync.Import.Dataset
import CatalogSync.Metrics.Registry
import CatalogSync.Store.Error
import CatalogSync.Web.Page

/-!
# What a program asks of its surroundings

A program reads the clock, calls stores, sends requests and so on by asking. `Ask` lists the
questions and `Ask.Answer` says what answers each.
-/

namespace CatalogSync

open CatalogSync.Time

/-- Tells those to stop who hold it, once it is cancelled. -/
structure Token where
  id : Nat
deriving DecidableEq, Repr, Inhabited

abbrev Stored (α : Type) := Except StoreError α

/-- The outcome of a file operation, or the text of its error. -/
abbrev Filed (α : Type) := Except String α

/-- A question to the surroundings. -/
inductive Ask where
  | now
  | readSetting (key : String)
  | writeSetting (key value : String)
  | createJob (type : JobType) (metadata : Json)
  | startJob (id : Int)
  | completeJob (id : Int)
  | failJob (id : Int) (message : String)
  /-- Replaces the metadata of a job. -/
  | publish (id : Int) (metadata : Json)
  | cleanJobs (days : Int)
  | upsertCards (cards : List Catalog.Card)
  | upsertSets (sets : List Catalog.CardSet)
  | countRows (dataset : Dataset)
  | findSet (code : String)
  | recordIcon (code path : String)
  /-- Takes the lock on imports of a dataset, unless it is taken. -/
  | lock (dataset : Dataset)
  | unlock (dataset : Dataset)
  | isCancelled (token : Token)
  /-- Sends a request and waits for its answer, at most until a token is cancelled. -/
  | request (location : String) (patience : Web.Patience) (token : Option Token)
  /-- Starts to decode a feed, and tells by which number to refer to it. -/
  | startDecoder (source : Feed.Source) (size : Nat) (token : Token)
  /-- Waits for the next batch, at most until a token is cancelled. -/
  | receive (decoder : Nat) (token : Token)
  /-- Waits for a decoder to end. -/
  | join (decoder : Nat)
  /-- Stops a decoder and takes no more of its batches. -/
  | abandon (decoder : Nat)
  | fileExists (path : String)
  /-- Creates a directory with all above it. -/
  | makeDirectory (path : String)
  /-- Creates a file, or empties it. -/
  | createFile (path : String)
  | appendFile (path : String) (bytes : List UInt8)
  /-- Waits until all that was appended to a file is written. -/
  | flushFile (path : String)
  | moveFile (source target : String)
  | record (event : Metrics.Event)
deriving Inhabited

/-- What answers a question. -/
def Ask.Answer : Ask → Type
  | .now => Instant
  | .readSetting _ => Stored (Option String)
  | .writeSetting _ _ => Stored Unit
  | .createJob _ _ => Stored Job
  | .startJob _ => Stored Unit
  | .completeJob _ => Stored Unit
  | .failJob _ _ => Stored Unit
  | .publish _ _ => Stored Unit
  | .cleanJobs _ => Stored Nat
  | .upsertCards _ => Stored Nat
  | .upsertSets _ => Stored Nat
  | .countRows _ => Stored Nat
  | .findSet _ => Stored (Option Catalog.StoredSet)
  | .recordIcon _ _ => Stored Unit
  | .lock _ => Bool
  | .unlock _ => Unit
  | .isCancelled _ => Bool
  | .request _ _ _ => Web.Reply
  | .startDecoder _ _ _ => Nat
  | .receive _ _ => Feed.Arrival
  | .join _ => Feed.Outcome
  | .abandon _ => Unit
  | .fileExists _ => Bool
  | .makeDirectory _ => Filed Unit
  | .createFile _ => Filed Unit
  | .appendFile _ _ => Filed Unit
  | .flushFile _ => Filed Unit
  | .moveFile _ _ => Filed Unit
  | .record _ => Unit

end CatalogSync
