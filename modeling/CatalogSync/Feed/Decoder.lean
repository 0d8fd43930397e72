import CatalogSync.Json.Reader
import CatalogSync.Json.Record
import CatalogSync.Text.Quoted

/-!
# Decoding a feed

A feed is the text of one JSON array, which streams in. A decoder takes it element by element and
hands the elements over in batches, so that no more than a few batches are held at once.
`Decoder.step` is one step of it, `deliver` is what an undisturbed decoder delivers.
-/

namespace CatalogSync.Feed

open CatalogSync.Json

/-- A feed: its bytes and what comes after them. -/
structure Source where
  bytes : List UInt8
  ending : Ending
deriving Repr, Inhabited

/-- Elements handed over together. -/
abbrev Batch := List Json

/-- The bytes that an element takes up in a batch. -/
def elementBytes : Nat := 32

/-- The most bytes that one allocation may have, `2 ^ 63 - 1`. -/
def maxBytes : Nat := 9223372036854775807

/-- A batch of this size can be set up: its elements do not take up more bytes than one allocation may have. -/
def HasRoom (size : Nat) : Prop := max size 1 * elementBytes ≤ maxBytes

instance : DecidablePred HasRoom := fun size => inferInstanceAs (Decidable (max size 1 * elementBytes ≤ maxBytes))

/-- Why a feed was not decoded to its end. -/
inductive DecodeFault where
  /-- The bytes are not one JSON array. -/
  | framing (text : String)
  /-- A read failed. -/
  | read (text : String)
  | cancelled
  /-- The task of the decoder panicked. Its number, which the runtime gives out, is left out. -/
  | panicked (text : String)
deriving DecidableEq, Repr, Inhabited

/-- How a decoder ends: with the number of elements or a fault. -/
abbrev Outcome := Except DecodeFault Nat

namespace DecodeFault

/-- The wording of a fault. -/
def message : DecodeFault → String
  | .framing reason => reason
  | .read reason => "read failed: " ++ reason
  | .cancelled => "decoding cancelled"
  | .panicked reason => "task panicked with message " ++ Text.quoted reason

/-- A batch was too large to be set up. -/
def overflow : DecodeFault := .panicked "capacity overflow"

/-- How the text of a decoder that was told to stop begins. -/
def stopMark : String := "decoding stopped"

/-- What a failure of the reader is, as the decoder sees it. -/
def ofFailure (cancelled : Bool) (f : Failure) : DecodeFault :=
  if cancelled || stopMark.toList.isPrefixOf f.message.toList then .cancelled
  else
    match f.cause with
    | .read _ => .read f.message
    | _ => .framing f.message

end DecodeFault

/-- What a decoder is at. -/
inductive Decoder where
  /-- Nothing but blanks has been read. -/
  | opening (cursor : Cursor)
  /-- Inside the array: `batch` holds the elements not handed over yet, the last one first. -/
  | reading (cursor : Cursor) (first : Bool) (batch : Batch) (count : Nat)
  /-- A batch waits to be handed over. -/
  | holding (batch : Batch) (next : Decoder)
  /-- The array is closed, and nothing may follow. -/
  | closing (cursor : Cursor) (count : Nat)
  | failing (failure : Failure)
  | finished (outcome : Outcome)
deriving Inhabited

namespace Decoder

/-- The failure of a decoder that was told to stop. -/
def stopped : Failure := ⟨.mismatch DecodeFault.stopMark, none⟩

/-- The place after all the bytes. -/
def endOf (c : Cursor) : Position := c.rest.foldl Position.after c.position

/-- After a failure: an unfinished read is waited for, and a failed one is told at the end of the bytes. -/
def failed (c : Cursor) (f : Failure) (waiting : Decoder) : Decoder :=
  match f.cause with
  | .stalled => waiting
  | _ => .failing (f.placedAt (endOf c))

/-- How deep an element of a feed may nest. -/
def elementDepth : Nat := depthLimit - 1

/-- The decoder of a feed before its first step. -/
def start (source : Source) : Decoder := .opening (Cursor.stream source.bytes source.ending)

/-- Opens the array. -/
def openArray (c : Cursor) : Except Failure Cursor := do
  let (next, c) ← c.skipSpace
  match next with
  | none => c.failAhead .endInValue
  | some 91 => return c.skip
  | some _ =>
    match readKind c with
    | .ok (v, c) => c.fail (.mismatch (v.wrongKind "a JSON array of records"))
    | .error f => throw (f.placedAt (endOf c))

/-- Reads the next element, if there is one. -/
def nextElement (fuel : Nat) (c : Cursor) (first : Bool) : Except Failure (Option Json × Cursor) := do
  let (more, c) ← elementAhead c first
  if more then
    let (v, c) ← readValue fuel elementDepth c
    return (some v, c)
  else return (none, c.skip)

/-- One step. `size` is how many elements make a batch, `fuel` suffices to read any element. A
decoder that holds a batch or has finished stays as it is, and so does one that waits for bytes. -/
def step (fuel size : Nat) (cancelled : Bool) (d : Decoder) : Decoder :=
  match d with
  | .opening c =>
    match openArray c with
    -- the first batch is set up as soon as the array is open
    | .ok c => if HasRoom size then .reading c true [] 0 else .finished (.error .overflow)
    | .error f => match f.cause with
      | .stalled => d
      | _ => .failing f
  | .reading c first batch count =>
    if cancelled then .failing stopped
    else
      match nextElement fuel c first with
      | .error f => failed c f d
      | .ok (some v, c) =>
        let batch := v :: batch
        if max size 1 ≤ batch.length then .holding batch.reverse (.reading c false [] (count + 1))
        else .reading c false batch (count + 1)
      | .ok (none, c) =>
        if batch.isEmpty then .closing c count else .holding batch.reverse (.closing c count)
  | .holding _ _ => d
  | .closing c count =>
    match readEnd c with
    | .ok () => .finished (.ok count)
    | .error f => match f.cause with
      | .stalled => d
      | _ => .failing f
  | .failing f => .finished (.error (DecodeFault.ofFailure cancelled f))
  | .finished _ => d

/-- Whether a decoder can go on by itself. -/
def isBusy : Decoder → Bool
  | .holding _ _ => false
  | .finished _ => false
  | _ => true

/-- Steps until a batch waits or the decoder has finished, at most `steps` of them. -/
def advance (fuel size : Nat) (cancelled : Bool) : Nat → Decoder → Decoder
  | 0, d => d
  | steps + 1, d => if d.isBusy then advance fuel size cancelled steps (d.step fuel size cancelled) else d

end Decoder

/-- Steps that suffice to read any element of a feed. -/
def Source.fuel (s : Source) : Nat := enoughSteps s.bytes.length

/-- Steps that suffice to bring a decoder from one batch to the next. -/
def Source.steps (s : Source) : Nat := s.bytes.length + 4

/-- The decoder advanced to its next batch or to its end. -/
def Source.advance (s : Source) (size : Nat) (cancelled : Bool) (d : Decoder) : Decoder :=
  d.advance s.fuel size cancelled s.steps

/-- The batches that a receiver takes, at most `n` of them, and the decoder after that. -/
def Source.take (s : Source) (size : Nat) (cancelled : Bool) : Nat → Decoder → List Batch × Decoder
  | 0, d => ([], d)
  | n + 1, d =>
    match s.advance size cancelled d with
    | .holding batch next =>
      let (batches, d) := s.take size cancelled n next
      (batch :: batches, d)
    | d => ([], d)

/-- The end of a decoder that nobody takes batches from any more; `none` if it waits for bytes. -/
def Source.finish (s : Source) (size : Nat) (cancelled : Bool) (d : Decoder) : Option Outcome :=
  match s.advance size cancelled d with
  | .holding _ _ => some (.error (DecodeFault.ofFailure cancelled Decoder.stopped))
  | .finished outcome => some outcome
  | _ => none

/-- All batches of a feed and how its decoder ends. -/
def deliver (s : Source) (size : Nat) (cancelled : Bool) : List Batch × Option Outcome :=
  let (batches, d) := s.take size cancelled (s.bytes.length + 1) (Decoder.start s)
  (batches, s.finish size cancelled d)

/-- How many batches wait for the receiver at most. -/
def channelDepth : Nat := 2

/-- The first `n` batches of a feed, and how its decoder ends when the receiver then goes away;
before that the decoder has filled the channel. -/
def deliverFirst (s : Source) (size : Nat) (cancelled : Bool) (n : Nat) : List Batch × Option Outcome :=
  let (batches, d) := s.take size cancelled n (Decoder.start s)
  let (_, d) := s.take size cancelled channelDepth d
  (batches, s.finish size cancelled d)

end CatalogSync.Feed
