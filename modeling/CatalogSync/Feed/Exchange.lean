import CatalogSync.Feed.Decoder

/-!
# Handing batches over

The decoder works ahead of its receiver by a channel of bounded depth. `Exchange.work` is one step
on the decoder's side, `take?` and `leave` are the receiver's, and the two sides may take their
steps in any order. The channel closes as soon as the decoder is past the array, while what follows
the array may still be waited for.
-/

namespace CatalogSync.Feed

namespace Decoder

/-- A decoder past its array, whose side of the channel is closed. -/
def hungUp : Decoder → Bool
  | .closing _ _ => true
  | .failing _ => true
  | .finished _ => true
  | _ => false

/-- The text ends here if more of it would have to be waited for. -/
def cutOff : Decoder → Decoder
  | .opening c => .opening c.cutOff
  | .reading c first batch count => .reading c.cutOff first batch count
  | .holding batch next => .holding batch next.cutOff
  | .closing c count => .closing c.cutOff count
  | .failing f => .failing f
  | .finished outcome => .finished outcome

end Decoder

/-- A decoder, the batches on their way, and whether somebody still takes them. -/
structure Exchange where
  source : Source
  /-- Steps that suffice to read any element. -/
  fuel : Nat := source.fuel
  /-- How many elements make a batch. -/
  size : Nat
  decoder : Decoder
  queue : List Batch
  attended : Bool
deriving Inhabited

/-- What a receiver finds. -/
inductive Arrival where
  | batch (items : Batch)
  /-- The decoder is past the array, and no batch is on its way. -/
  | closed
  | cancelled
deriving Inhabited

namespace Exchange

/-- The exchange of a feed before the first step. -/
def start (source : Source) (size : Nat) : Exchange :=
  { source, size, decoder := Decoder.start source, queue := [], attended := true }

/-- One step of the decoder. A batch that it holds goes into the channel if there is room, and stops
the decoder if nobody takes batches any more. -/
def work (cancelled : Bool) (e : Exchange) : Exchange :=
  match e.decoder with
  | .holding batch next =>
    if !e.attended then { e with decoder := .failing Decoder.stopped }
    else if e.queue.length < channelDepth then { e with queue := e.queue ++ [batch], decoder := next }
    else e
  | d => { e with decoder := d.step e.fuel e.size cancelled }

/-- Whether the decoder has something to do. -/
def isBusy (e : Exchange) : Bool :=
  match e.decoder with
  | .holding _ _ => !e.attended || e.queue.length < channelDepth
  | .finished _ => false
  | _ => true

/-- Steps of the decoder until it has nothing to do, at most `steps` of them. -/
def workOn (cancelled : Bool) : Nat → Exchange → Exchange
  | 0, e => e
  | steps + 1, e => if e.isBusy then workOn cancelled steps (e.work cancelled) else e

/-- The exchange once the decoder has done what it can. -/
def settle (cancelled : Bool) (e : Exchange) : Exchange := e.workOn cancelled (2 * e.source.steps)

def outcome? (e : Exchange) : Option Outcome :=
  match e.decoder with
  | .finished outcome => some outcome
  | _ => none

/-- What a receiver takes, if there is something to take. -/
def take? (e : Exchange) : Option (Arrival × Exchange) :=
  match e.queue with
  | batch :: queue => some (.batch batch, { e with queue })
  | [] => if e.decoder.hungUp then some (.closed, e) else none

/-- The feed ends here if more of it would have to be waited for. -/
def cutOff (e : Exchange) : Exchange := { e with decoder := e.decoder.cutOff }

def leave (e : Exchange) : Exchange := { e with attended := false, queue := [] }

end Exchange

end CatalogSync.Feed
