import CatalogSync.Feed.Exchange
import CatalogSync.Proofs.Feed.Flowing

/-!
# Draining a feed

A decoder works on its own while pieces of the feed arrive and a receiver takes one batch after the
other. `Draining.Reaches` lets these things happen in any order. Whatever the order, the receiver has
got the batches of the whole feed when the decoder has ended and nothing is on its way.

Main statement: `decoder_agrees`, the decoder and the reader of whole documents agree on every input.
-/

namespace CatalogSync.Feed

open CatalogSync.Json CatalogSync.Json.Outlook

/-! ## Steps of an exchange -/

namespace Exchange

variable {e e' : Exchange} {batch : Batch} {next : Decoder}

/-- A batch that somebody waits for goes on its way if there is room. -/
theorem work_of_holding (hd : e.decoder = .holding batch next) (hattended : e.attended = true) (cancelled : Bool) :
    e.work cancelled = { e with queue := e.queue ++ [batch], decoder := next } ∨ e.work cancelled = e := by
  unfold work
  simp only [hd, hattended, Bool.not_true, Bool.false_eq_true, if_false]
  split
  · exact .inl rfl
  · exact .inr rfl

theorem work_of_not_holding (h : ∀ batch next, e.decoder ≠ .holding batch next) (cancelled : Bool) :
    e.work cancelled = { e with decoder := e.decoder.step e.fuel e.size cancelled } := by
  unfold work
  split
  · next hd => exact absurd hd (h _ _)
  · rfl

theorem take_batch (h : e.take? = some (.batch batch, e')) :
    ∃ queue, e.queue = batch :: queue ∧ e' = { e with queue } := by
  unfold take? at h
  split at h
  · next queue hqueue =>
    cases h
    exact ⟨_, hqueue, rfl⟩
  · split at h <;> cases h

theorem decoder_of_outcome {outcome : Outcome} (h : e.outcome? = some outcome) : e.decoder = .finished outcome := by
  unfold outcome? at h
  split at h
  · next hd =>
    injection h with h
    rw [hd, h]
  · cases h

end Exchange

/-! ## Pieces, an exchange and a receiver -/

/-- An exchange to which a feed comes piece by piece. -/
structure Draining where
  /-- The pieces to come; none once the end of the feed has been seen. -/
  pieces : Option (List (List UInt8))
  exchange : Exchange
  /-- What the receiver has taken. -/
  received : List Batch

namespace Draining

/-- Before the first piece arrives. -/
def start (pieces : List (List UInt8)) (ending : Ending) (size : Nat) : Draining where
  pieces := some pieces
  exchange := { Exchange.start ⟨pieces.flatten, ending⟩ size with decoder := Decoder.start ⟨[], .stalled⟩ }
  received := []

/-- One thing that happens. -/
inductive Moves : Draining → Draining → Prop
  | arrive {piece : List UInt8} {pieces : List (List UInt8)} {e : Exchange} {received : List Batch} :
      Moves ⟨some (piece :: pieces), e, received⟩
        ⟨some pieces, { e with decoder := e.decoder.supply piece .stalled }, received⟩
  | finish {e : Exchange} {received : List Batch} :
      Moves ⟨some [], e, received⟩ ⟨none, { e with decoder := e.decoder.supply [] e.source.ending }, received⟩
  | work {pieces : Option (List (List UInt8))} {e : Exchange} {received : List Batch} :
      Moves ⟨pieces, e, received⟩ ⟨pieces, e.work false, received⟩
  | take {pieces : Option (List (List UInt8))} {e e' : Exchange} {received : List Batch} {batch : Batch}
      (h : e.take? = some (.batch batch, e')) : Moves ⟨pieces, e, received⟩ ⟨pieces, e', received ++ [batch]⟩

/-- Any number of things that happen, in any order. -/
inductive Reaches (d : Draining) : Draining → Prop
  | start : Reaches d d
  | step {e f : Draining} (h : Reaches d e) (hmove : Moves e f) : Reaches d f

/-! ## Beside the decoder of the whole feed -/

/-- A decoder that has got all but these pieces, beside the decoder of the whole feed. -/
def Beside (ending : Ending) (pieces : Option (List (List UInt8))) (d whole : Decoder) : Prop :=
  match pieces with
  | some pieces => Decoder.Sees (Decoder.awaiting pieces.flatten ending) d whole
  | none => d = whole

variable {ending : Ending} {pieces : Option (List (List UInt8))} {d whole : Decoder}

theorem Beside.isBusy_eq (h : Beside ending pieces d whole) : whole.isBusy = d.isBusy := by
  cases pieces with
  | some pieces => exact Decoder.Sees.isBusy_eq h
  | none => rw [show d = whole from h]

theorem Beside.ahead_le (h : Beside ending pieces d whole) : d.ahead ≤ whole.ahead := by
  cases pieces with
  | some pieces => exact (Decoder.Sees.left h).1
  | none => exact Nat.le_of_eq (by rw [show d = whole from h])

theorem Beside.step {fuel : Nat} (size : Nat) (h : Beside ending pieces d whole) (hbusy : d.isBusy = true)
    (hf : Enough d.ahead fuel) :
    d.step fuel size false = d ∨ Beside ending pieces (d.step fuel size false) (whole.step fuel size false) := by
  cases pieces with
  | some pieces => exact (Decoder.Sees.step size h rfl hbusy hf hf).imp_left And.right
  | none =>
    have heq : d = whole := h
    rw [heq]
    exact .inr rfl

theorem Beside.holding {batch : Batch} {next : Decoder} (h : Beside ending pieces (.holding batch next) whole) :
    ∃ next', whole = .holding batch next' ∧ Beside ending pieces next next' := by
  cases pieces with
  | some pieces =>
    cases h with
    | holding batch h => exact ⟨_, rfl, h⟩
  | none => exact ⟨next, h.symm, rfl⟩

theorem Beside.finished {outcome : Outcome} (h : Beside ending pieces (.finished outcome) whole) :
    whole = .finished outcome := by
  cases pieces with
  | some pieces =>
    cases h with
    | finished outcome => rfl
  | none => exact h.symm

/-! ## Every order -/

/-- The decoder of the whole feed goes on beside one that works and hands nothing over. -/
theorem Beside.goes_on {s : Source} {size : Nat} {batches : List Batch} (h : Beside s.ending pieces d whole)
    (hruns : Decoder.Runs s.fuel size (Decoder.start s) batches whole) :
    ∃ whole', Decoder.Runs s.fuel size (Decoder.start s) batches whole' ∧
      Beside s.ending pieces (d.step s.fuel size false) whole' := by
  have hleft := hruns.left (start_enough s)
  have hahead : Enough d.ahead s.fuel := by
    have := h.ahead_le
    have := (start_enough s).1
    exact ⟨by omega, (start_enough s).2⟩
  by_cases hbusy : d.isBusy = true
  · rcases h.step size hbusy hahead with hstep | hnext
    · exact ⟨whole, hruns, by rw [hstep]; exact h⟩
    · exact ⟨_, hruns.on (.step (by rw [h.isBusy_eq, hbusy]) (.stop _)), hnext⟩
  · have hstep : d.step s.fuel size false = d := Decoder.step_of_not_busy hbusy
    exact ⟨whole, hruns, by rw [hstep]; exact h⟩

/-- What the decoder of the whole feed has handed over is what was received and what is on its way. -/
structure Follows (s : Source) (size : Nat) (d : Draining) : Prop where
  source_eq : d.exchange.source = s
  fuel_eq : d.exchange.fuel = s.fuel
  size_eq : d.exchange.size = size
  attended : d.exchange.attended = true
  runs : ∃ whole, Decoder.Runs s.fuel size (Decoder.start s) (d.received ++ d.exchange.queue) whole ∧
    Beside s.ending d.pieces d.exchange.decoder whole

variable {s : Source} {size : Nat}

theorem start_follows (pieces : List (List UInt8)) (ending : Ending) (size : Nat) :
    Follows ⟨pieces.flatten, ending⟩ size (start pieces ending size) :=
  ⟨rfl, rfl, rfl, rfl, _, .stop _, Decoder.start_sees ⟨pieces.flatten, ending⟩⟩

/-- A step of the decoder: a batch goes on its way if there is room, or the decoder works. -/
theorem Follows.work {e : Exchange} {received : List Batch} (h : Follows s size ⟨pieces, e, received⟩) :
    Follows s size ⟨pieces, e.work false, received⟩ := by
  obtain ⟨hsource, hfuel, hsize, hattended, whole, hruns, hbeside⟩ := h
  dsimp only at hsource hfuel hsize hattended hruns hbeside
  by_cases hd : ∃ batch next, e.decoder = .holding batch next
  · obtain ⟨batch, next, hd⟩ := hd
    rw [hd] at hbeside
    obtain ⟨next', rfl, hnext⟩ := hbeside.holding
    rcases Exchange.work_of_holding hd hattended false with hwork | hwork
    · rw [hwork]
      refine ⟨hsource, hfuel, hsize, hattended, next', ?_, hnext⟩
      have hrun := hruns.trans (.hand (.stop next'))
      rwa [List.append_assoc] at hrun
    · rw [hwork]
      exact ⟨hsource, hfuel, hsize, hattended, _, hruns, by rw [hd]; exact hbeside⟩
  · have hno : ∀ batch next, e.decoder ≠ .holding batch next := fun batch next h => hd ⟨batch, next, h⟩
    rw [Exchange.work_of_not_holding hno, hfuel, hsize]
    obtain ⟨whole', hruns', hbeside'⟩ := hbeside.goes_on hruns
    exact ⟨hsource, rfl, rfl, hattended, whole', hruns', hbeside'⟩

/-- **One thing that happens.** Whatever it is, nothing is lost, repeated or out of order. -/
theorem Follows.moves {d e : Draining} (h : Follows s size d) (hmove : Moves d e) : Follows s size e := by
  cases hmove with
  | work => exact h.work
  | arrive =>
    obtain ⟨hsource, hfuel, hsize, hattended, whole, hruns, hsees⟩ := h
    refine ⟨hsource, hfuel, hsize, hattended, whole, hruns, ?_⟩
    exact Decoder.sees_supply hsees
  | finish =>
    obtain ⟨hsource, hfuel, hsize, hattended, whole, hruns, hsees⟩ := h
    refine ⟨hsource, hfuel, hsize, hattended, whole, hruns, ?_⟩
    rw [hsource]
    exact Decoder.supply_eq hsees
  | @take pieces e e' received batch htake =>
    obtain ⟨hsource, hfuel, hsize, hattended, whole, hruns, hsees⟩ := h
    obtain ⟨queue, hqueue, rfl⟩ := Exchange.take_batch htake
    refine ⟨hsource, hfuel, hsize, hattended, whole, ?_, hsees⟩
    dsimp only at hruns
    rw [hqueue] at hruns
    rwa [List.append_assoc]

theorem Follows.reaches {d e : Draining} (h : Follows s size d) (hreach : Reaches d e) : Follows s size e := by
  induction hreach with
  | start => exact h
  | step _ hmove ih => exact ih.moves hmove

/-- **Every order.** When the decoder has ended, what was received and what is on its way is what the feed
delivers. -/
theorem delivered_of_outcome {pieces : List (List UInt8)} {ending : Ending} {d : Draining} {outcome : Outcome}
    (h : Reaches (start pieces ending size) d) (hend : d.exchange.outcome? = some outcome) :
    deliver ⟨pieces.flatten, ending⟩ size false = (d.received ++ d.exchange.queue, some outcome) := by
  obtain ⟨-, -, -, -, whole, hruns, hbeside⟩ := (start_follows pieces ending size).reaches h
  rw [Exchange.decoder_of_outcome hend] at hbeside
  rw [hbeside.finished] at hruns
  exact deliver_of_finished hruns

/-- A receiver that has taken all there is when the decoder has ended has got what the feed delivers. -/
theorem received_all {pieces : List (List UInt8)} {ending : Ending} {d : Draining} {outcome : Outcome}
    (h : Reaches (start pieces ending size) d) (hqueue : d.exchange.queue = []) (hend : d.exchange.outcome? = some outcome) :
    deliver ⟨pieces.flatten, ending⟩ size false = (d.received, some outcome) := by
  have hall := delivered_of_outcome h hend
  rwa [hqueue, List.append_nil] at hall

/-! ## The end can be reached -/

theorem Reaches.trans {d e f : Draining} (h : Reaches d e) (h' : Reaches e f) : Reaches d f := by
  induction h' with
  | start => exact h
  | step _ hmove ih => exact ih.step hmove

/-- All pieces arrive before anything else happens. -/
theorem reaches_arrived (pieces : List (List UInt8)) (e : Exchange) (received : List Batch) :
    ∃ e', Reaches ⟨some pieces, e, received⟩ ⟨none, e', received⟩ := by
  induction pieces generalizing e with
  | nil => exact ⟨_, .step .start .finish⟩
  | cons piece pieces ih =>
    obtain ⟨e', hreach⟩ := ih { e with decoder := e.decoder.supply piece .stalled }
    exact ⟨e', (Reaches.step .start .arrive).trans hreach⟩

/-- What is still to be done once all pieces have arrived. -/
def toDo (e : Exchange) : Nat := e.decoder.stepsLeft + 2 * e.decoder.batchesLeft + e.queue.length

/-- Once all pieces have arrived, either everything is done or one more move leaves less to do. -/
theorem done_or_moves {e : Exchange} {received : List Batch} (hflows : Flows s size)
    (h : Follows s size ⟨none, e, received⟩) :
    (e.queue = [] ∧ ∃ outcome, e.outcome? = some outcome) ∨
      ∃ e' received', Moves ⟨none, e, received⟩ ⟨none, e', received'⟩ ∧ toDo e' < toDo e := by
  cases hqueue : e.queue with
  | cons batch queue =>
    right
    refine ⟨{ e with queue }, received ++ [batch], .take ?_, ?_⟩
    · unfold Exchange.take?
      rw [hqueue]
    · simp only [toDo, hqueue, List.length_cons]
      omega
  | nil =>
    obtain ⟨hsource, hfuel, hsize, hattended, whole, hruns, hwhole⟩ := h
    dsimp only at hsource hfuel hsize hattended hruns hwhole
    obtain rfl : e.decoder = whole := hwhole
    by_cases hbusy : e.decoder.isBusy = true
    · right
      refine ⟨_, received, .work, ?_⟩
      have hno : ∀ batch next, e.decoder ≠ .holding batch next := by
        intro batch next hd
        rw [hd] at hbusy
        nomatch hbusy
      rw [Exchange.work_of_not_holding hno, hfuel, hsize]
      rcases Decoder.step_nears size false (runs_enough hruns) with hstep | hnears
      · exact absurd hstep (hflows _ _ hruns hbusy)
      · have hsteps := hnears.steps
        have hbatches := hnears.batches
        unfold toDo
        dsimp only
        omega
    · cases hd : e.decoder with
      | finished outcome =>
        left
        refine ⟨rfl, outcome, ?_⟩
        unfold Exchange.outcome?
        rw [hd]
      | holding batch next =>
        right
        refine ⟨_, received, .work, ?_⟩
        unfold Exchange.work toDo
        simp only [hd, hattended, hqueue, Bool.not_true, Bool.false_eq_true, if_false]
        rw [if_pos (by decide)]
        simp only [Decoder.stepsLeft, Decoder.batchesLeft, List.nil_append, List.length_singleton, List.length_nil]
        omega
      | opening c => exact absurd (by rw [hd]; rfl) hbusy
      | reading c first batch count => exact absurd (by rw [hd]; rfl) hbusy
      | closing c count => exact absurd (by rw [hd]; rfl) hbusy
      | failing f => exact absurd (by rw [hd]; rfl) hbusy

/-- Once all pieces have arrived, the end can be reached. -/
theorem arrived_can_end {e : Exchange} {received : List Batch} (hflows : Flows s size)
    (h : Follows s size ⟨none, e, received⟩) :
    ∃ f outcome, Reaches ⟨none, e, received⟩ f ∧ f.exchange.queue = [] ∧ f.exchange.outcome? = some outcome := by
  obtain ⟨n, hn⟩ : ∃ n, toDo e = n := ⟨_, rfl⟩
  induction n using Nat.strongRecOn generalizing e received with
  | ind n ih =>
    rcases done_or_moves hflows h with ⟨hqueue, outcome, hend⟩ | ⟨e', received', hmove, hless⟩
    · exact ⟨_, outcome, .start, hqueue, hend⟩
    · obtain ⟨f, outcome, hreach, hqueue, hend⟩ := ih (toDo e') (hn ▸ hless) (h.moves hmove) rfl
      exact ⟨f, outcome, (Reaches.step .start hmove).trans hreach, hqueue, hend⟩

/-- **No deadlock.** From every state that is reached the decoder of a feed that flows can be brought to its end and
all its batches to the receiver. -/
theorem can_end_of_flows {pieces : List (List UInt8)} {d : Draining} (hflows : Flows ⟨pieces.flatten, ending⟩ size)
    (h : Reaches (start pieces ending size) d) :
    ∃ e outcome, Reaches d e ∧ e.exchange.queue = [] ∧ e.exchange.outcome? = some outcome := by
  have hfollows := (start_follows pieces ending size).reaches h
  obtain ⟨left, e, received⟩ := d
  cases left with
  | none => exact arrived_can_end hflows hfollows
  | some left =>
    obtain ⟨e', hreach⟩ := reaches_arrived left e received
    obtain ⟨f, outcome, hend, hqueue, hout⟩ := arrived_can_end hflows (hfollows.reaches hreach)
    exact ⟨f, outcome, hreach.trans hend, hqueue, hout⟩

theorem can_end {pieces : List (List UInt8)} {d : Draining} (h : Reaches (start pieces .closed size) d) :
    ∃ e outcome, Reaches d e ∧ e.exchange.queue = [] ∧ e.exchange.outcome? = some outcome := by
  refine can_end_of_flows (flows_of_ending ?_) h
  exact Ending.noConfusion

end Draining

/-! ## The decoder and the document -/

/-- What comes of bytes in batches of this size: what they are as a document if there is room for a batch, and else
nothing but a fault, which for an array is the lack of room. -/
structure Delivers (bytes : List UInt8) (size : Nat) (batches : List Batch) (outcome : Outcome) : Prop where
  agrees : HasRoom size → Agrees bytes size batches outcome
  overflows : ¬HasRoom size → batches = [] ∧ ∃ fault, outcome = .error fault ∧
    ∀ items, readWithin depthLimit bytes = .ok (.array items) → fault = .overflow

theorem deliver_delivers (bytes : List UInt8) (size : Nat) :
    ∃ outcome, (deliver ⟨bytes, .closed⟩ size false).2 = some outcome ∧
      Delivers bytes size (deliver ⟨bytes, .closed⟩ size false).1 outcome := by
  by_cases hroom : HasRoom size
  · obtain ⟨outcome, hout, hagrees⟩ := deliver_agrees bytes hroom
    exact ⟨outcome, hout, fun _ => hagrees, fun hno => absurd hroom hno⟩
  · obtain ⟨fault, hdeliver, hfault⟩ := deliver_overflows bytes hroom
    rw [hdeliver]
    exact ⟨_, rfl, fun h => absurd h hroom, fun _ => ⟨rfl, fault, rfl, hfault⟩⟩

/-- **The decoder agrees with the reader of whole documents** if there is room for a batch, and else ends with a fault
before the first element. Either way it does not matter where a feed is cut into pieces, nor in which order pieces
arrive, batches are handed over and the receiver takes them: from every state that is reached an end can be reached, and
every end is this one. -/
theorem decoder_agrees (pieces : List (List UInt8)) (size : Nat) :
    ∃ batches outcome, Delivers pieces.flatten size batches outcome ∧
      deliver ⟨pieces.flatten, .closed⟩ size false = (batches, some outcome) ∧
      deliverInPieces pieces .closed size = (batches, some outcome) ∧
      ∀ d, Draining.Reaches (.start pieces .closed size) d →
        (∃ e, Draining.Reaches d e ∧ e.exchange.queue = [] ∧ e.exchange.outcome? = some outcome) ∧
        ∀ found, d.exchange.queue = [] → d.exchange.outcome? = some found → d.received = batches ∧ found = outcome := by
  obtain ⟨outcome, hout, hdelivers⟩ := deliver_delivers pieces.flatten size
  have hdeliver : deliver ⟨pieces.flatten, .closed⟩ size false =
      ((deliver ⟨pieces.flatten, .closed⟩ size false).1, some outcome) := by rw [← hout]
  refine ⟨_, outcome, hdelivers, hdeliver, ?_, ?_⟩
  · rw [deliver_in_pieces]
    exact hdeliver
  · intro d hreach
    constructor
    · obtain ⟨e, found, he, hqueue, hend⟩ := Draining.can_end hreach
      have hall := Draining.received_all (hreach.trans he) hqueue hend
      rw [hall] at hout
      cases hout
      exact ⟨e, he, hqueue, hend⟩
    · intro found hqueue hend
      have hall := Draining.received_all hreach hqueue hend
      rw [hall] at hout ⊢
      cases hout
      exact ⟨rfl, rfl⟩

/-- An empty array in batches of `2 ^ 58`, for which there is no room. -/
theorem empty_array_overflows :
    let size := 288230376151711744
    readWithin depthLimit [91, 93] = .ok (.array []) ∧ ¬HasRoom size ∧
      deliver ⟨[91, 93], .closed⟩ size false = ([], some (.error .overflow)) := by
  intro size
  have hroom : ¬HasRoom size := by decide
  obtain ⟨fault, hdeliver, hfault⟩ := deliver_overflows [91, 93] hroom
  refine ⟨rfl, hroom, ?_⟩
  rw [hdeliver, hfault [] rfl]

end CatalogSync.Feed
