import CatalogSync.Proofs.Feed.Draining

/-!
# When the receiver goes away

A receiver may go away at any time. What is on its way then is lost, and that is no more than the channel holds. A decoder
that comes to hold another batch notices and stops; one that does not ends as if nothing had happened (`Parted`).

Main statements: `departure_is_noticed`, for everything that may happen before and after, and `deliverFirst_eq`, for a
receiver that waits until the channel is full.
-/

namespace CatalogSync.Feed

open CatalogSync.Json CatalogSync.Json.Outlook

namespace Exchange

variable {e : Exchange}

/-- A batch goes on its way only if there is room. -/
theorem work_queue_le (h : e.queue.length ≤ channelDepth) (cancelled : Bool) :
    (e.work cancelled).queue.length ≤ channelDepth := by
  unfold work
  split
  · split
    · exact h
    · split
      · next hroom =>
        rw [List.length_append]
        exact hroom
      · exact h
  · exact h

/-- A batch that nobody waits for stops the decoder. -/
theorem work_of_unattended {batch : Batch} {next : Decoder} (hd : e.decoder = .holding batch next)
    (hattended : e.attended = false) (cancelled : Bool) :
    e.work cancelled = { e with decoder := .failing Decoder.stopped } := by
  unfold work
  simp only [hd, hattended, Bool.not_false, if_true]

end Exchange

namespace Draining

variable {s : Source} {size : Nat} {pieces : List (List UInt8)} {ending : Ending} {received : List Batch} {d e : Draining}

/-! ## Before -/

theorem queue_le (h : Reaches d e) (hd : d.exchange.queue.length ≤ channelDepth) :
    e.exchange.queue.length ≤ channelDepth := by
  induction h with
  | start => exact hd
  | step _ hmove ih =>
    cases hmove with
    | arrive => exact ih
    | finish => exact ih
    | work => exact Exchange.work_queue_le ih false
    | take htake =>
      obtain ⟨queue, hqueue, rfl⟩ := Exchange.take_batch htake
      dsimp only at ih
      rw [hqueue, List.length_cons] at ih
      exact Nat.le_of_succ_le ih

/-! ## After -/

def leave (d : Draining) : Draining := { d with exchange := d.exchange.leave }

/-- A decoder that has noticed that the receiver is away. -/
def Noticed (d : Decoder) : Prop := d = .failing Decoder.stopped ∨ d = .finished (.error .cancelled)

/-- The receiver is away. Either the decoder has noticed, or what it has handed over is what had been received and what was
lost on its way. -/
structure Parted (s : Source) (size : Nat) (received : List Batch) (d : Draining) : Prop where
  received_eq : d.received = received
  source_eq : d.exchange.source = s
  fuel_eq : d.exchange.fuel = s.fuel
  size_eq : d.exchange.size = size
  unattended : d.exchange.attended = false
  nothing : d.exchange.queue = []
  decoder : Noticed d.exchange.decoder ∨
    ∃ lost whole, lost.length ≤ channelDepth ∧
      Decoder.Runs s.fuel size (Decoder.start s) (received ++ lost) whole ∧
      Beside s.ending d.pieces d.exchange.decoder whole

theorem Follows.leave (h : Follows s size d) (hroom : d.exchange.queue.length ≤ channelDepth) :
    Parted s size d.received d.leave := by
  obtain ⟨hsource, hfuel, hsize, -, whole, hruns, hbeside⟩ := h
  exact ⟨rfl, hsource, hfuel, hsize, rfl, rfl, .inr ⟨_, whole, hroom, hruns, hbeside⟩⟩

theorem Noticed.step {d : Decoder} (h : Noticed d) (fuel size : Nat) : Noticed (d.step fuel size false) := by
  rcases h with rfl | rfl
  · exact .inr rfl
  · exact .inr rfl

theorem Noticed.supply {d : Decoder} (h : Noticed d) (more : List UInt8) (ending : Ending) : Noticed (d.supply more ending) := by
  rcases h with rfl | rfl
  · exact .inl rfl
  · exact .inr rfl

theorem Parted.work {left : Option (List (List UInt8))} {e : Exchange} {r : List Batch}
    (h : Parted s size received ⟨left, e, r⟩) : Parted s size received ⟨left, e.work false, r⟩ := by
  obtain ⟨hreceived, hsource, hfuel, hsize, hattended, hqueue, hdecoder⟩ := h
  dsimp only at hreceived hsource hfuel hsize hattended hqueue hdecoder
  by_cases hd : ∃ batch next, e.decoder = .holding batch next
  · obtain ⟨batch, next, hd⟩ := hd
    rw [Exchange.work_of_unattended hd hattended]
    exact ⟨hreceived, hsource, hfuel, hsize, hattended, hqueue, .inl (.inl rfl)⟩
  · have hno : ∀ batch next, e.decoder ≠ .holding batch next := fun batch next h => hd ⟨batch, next, h⟩
    rw [Exchange.work_of_not_holding hno, hfuel, hsize]
    refine ⟨hreceived, hsource, rfl, rfl, hattended, hqueue, ?_⟩
    rcases hdecoder with hnoticed | ⟨lost, whole, hlost, hruns, hbeside⟩
    · exact .inl (hnoticed.step _ _)
    · obtain ⟨whole', hruns', hbeside'⟩ := hbeside.goes_on hruns
      exact .inr ⟨lost, whole', hlost, hruns', hbeside'⟩

/-- **One thing that happens** once the receiver is away. -/
theorem Parted.moves (h : Parted s size received d) (hmove : Moves d e) : Parted s size received e := by
  cases hmove with
  | work => exact h.work
  | arrive =>
    obtain ⟨hreceived, hsource, hfuel, hsize, hattended, hqueue, hdecoder⟩ := h
    refine ⟨hreceived, hsource, hfuel, hsize, hattended, hqueue, ?_⟩
    rcases hdecoder with hnoticed | ⟨lost, whole, hlost, hruns, hsees⟩
    · exact .inl (hnoticed.supply _ _)
    · exact .inr ⟨lost, whole, hlost, hruns, Decoder.sees_supply hsees⟩
  | finish =>
    obtain ⟨hreceived, hsource, hfuel, hsize, hattended, hqueue, hdecoder⟩ := h
    refine ⟨hreceived, hsource, hfuel, hsize, hattended, hqueue, ?_⟩
    rcases hdecoder with hnoticed | ⟨lost, whole, hlost, hruns, hsees⟩
    · exact .inl (hnoticed.supply _ _)
    · rw [hsource]
      exact .inr ⟨lost, whole, hlost, hruns, Decoder.supply_eq hsees⟩
  | take htake =>
    -- nothing is on its way any more
    obtain ⟨queue, hqueue, -⟩ := Exchange.take_batch htake
    have hnone := h.nothing
    dsimp only at hnone
    rw [hqueue] at hnone
    cases hnone

theorem Parted.reaches (h : Parted s size received d) (hreach : Reaches d e) : Parted s size received e := by
  induction hreach with
  | start => exact h
  | step _ hmove ih => exact ih.moves hmove

/-- **How a decoder ends** once the receiver is away. -/
theorem Parted.outcome {found : Outcome} (h : Parted s size received d) (hend : d.exchange.outcome? = some found) :
    found = .error .cancelled ∨
      ∃ lost, lost.length ≤ channelDepth ∧ deliver s size false = (received ++ lost, some found) := by
  have hfinished := Exchange.decoder_of_outcome hend
  rcases h.decoder with hnoticed | ⟨lost, whole, hlost, hruns, hbeside⟩
  · rw [hfinished] at hnoticed
    rcases hnoticed with hno | hcancelled
    · cases hno
    · cases hcancelled
      exact .inl rfl
  · rw [hfinished] at hbeside
    rw [hbeside.finished] at hruns
    exact .inr ⟨lost, hlost, deliver_of_finished hruns⟩

/-! ## The end can be reached -/

theorem noticed_can_end (left : Option (List (List UInt8))) {e : Exchange} (received : List Batch) (h : Noticed e.decoder) :
    ∃ f, Reaches ⟨left, e, received⟩ f ∧ f.exchange.outcome? = some (.error .cancelled) := by
  rcases h with hd | hd
  · refine ⟨⟨left, e.work false, received⟩, .step .start .work, ?_⟩
    have hno : ∀ batch next, e.decoder ≠ .holding batch next := fun batch next h => by rw [hd] at h; cases h
    rw [Exchange.work_of_not_holding hno, hd]
    rfl
  · refine ⟨_, .start, ?_⟩
    unfold Exchange.outcome?
    rw [hd]

/-- Once all pieces have arrived, the decoder comes to an end, or to a batch and notices. -/
theorem arrived_parted_can_end {e : Exchange} {r : List Batch} (hflows : Flows s size)
    (h : Parted s size received ⟨none, e, r⟩) :
    ∃ f found, Reaches ⟨none, e, r⟩ f ∧ f.exchange.outcome? = some found := by
  obtain ⟨n, hn⟩ : ∃ n, e.decoder.stepsLeft = n := ⟨_, rfl⟩
  induction n using Nat.strongRecOn generalizing e with
  | ind n ih =>
    rcases h.decoder with hnoticed | ⟨lost, whole, -, hruns, hwhole⟩
    · obtain ⟨f, hreach, hend⟩ := noticed_can_end none r hnoticed
      exact ⟨f, _, hreach, hend⟩
    obtain rfl : e.decoder = whole := hwhole
    have hon : Reaches ⟨none, e, r⟩ ⟨none, e.work false, r⟩ := .step .start .work
    by_cases hbusy : e.decoder.isBusy = true
    · have hless : (e.work false).decoder.stepsLeft < n := by
        have hno : ∀ batch next, e.decoder ≠ .holding batch next := by
          intro batch next hd
          rw [hd] at hbusy
          cases hbusy
        rw [Exchange.work_of_not_holding hno, h.fuel_eq, h.size_eq, ← hn]
        rcases Decoder.step_nears size false (runs_enough hruns) with hstep | hnears
        · exact absurd hstep (hflows _ _ hruns hbusy)
        · exact hnears.steps
      obtain ⟨f, found, hreach, hend⟩ := ih _ hless h.work rfl
      exact ⟨f, found, hon.trans hreach, hend⟩
    · cases hd : e.decoder with
      | finished outcome =>
        refine ⟨_, outcome, .start, ?_⟩
        unfold Exchange.outcome?
        rw [hd]
      | holding batch next =>
        have hnoticed : Noticed (e.work false).decoder := by
          rw [Exchange.work_of_unattended hd h.unattended]
          exact .inl rfl
        obtain ⟨f, hreach, hend⟩ := noticed_can_end none r hnoticed
        exact ⟨f, _, hon.trans hreach, hend⟩
      | opening c => exact absurd (by rw [hd]; rfl) hbusy
      | reading c first batch count => exact absurd (by rw [hd]; rfl) hbusy
      | closing c count => exact absurd (by rw [hd]; rfl) hbusy
      | failing f => exact absurd (by rw [hd]; rfl) hbusy

/-- **No decoder is left behind.** That of a feed that flows can be brought to an end once the receiver is away. -/
theorem Parted.can_end (hflows : Flows s size) (h : Parted s size received d) :
    ∃ f found, Reaches d f ∧ f.exchange.outcome? = some found := by
  obtain ⟨left, e, r⟩ := d
  cases left with
  | none => exact arrived_parted_can_end hflows h
  | some left =>
    obtain ⟨e', hreach⟩ := reaches_arrived left e r
    obtain ⟨f, found, hreach', hend⟩ := arrived_parted_can_end hflows (h.reaches hreach)
    exact ⟨f, found, hreach.trans hreach', hend⟩

/-! ## Any number of batches -/

theorem Moves.received_le (h : Moves d e) : e.received.length ≤ d.received.length + 1 := by
  cases h with
  | arrive => exact Nat.le_succ _
  | finish => exact Nat.le_succ _
  | work => exact Nat.le_succ _
  | take => exact Nat.le_of_eq List.length_append

/-- On the way the receiver has every number of batches once. -/
theorem reaches_between {n : Nat} (h : Reaches d e) (hd : d.received.length ≤ n) (he : n ≤ e.received.length) :
    ∃ f, Reaches d f ∧ f.received.length = n := by
  induction h with
  | start => exact ⟨d, .start, Nat.le_antisymm hd he⟩
  | @step e f h hmove ih =>
    by_cases hn : n ≤ e.received.length
    · exact ih hn
    · have hone := hmove.received_le
      exact ⟨f, h.step hmove, by omega⟩

end Draining

/-! ## Main statements -/

/-- **Departure is noticed.** Let a feed arrive in any pieces, and let its pieces, the steps of its decoder and those of the
receiver come in any order. If the receiver takes some number of batches and goes away, it has got so many of the first
batches that the feed delivers undisturbed. The decoder is told to have been cancelled, or it ends as it does undisturbed;
and it has been cancelled for certain if there are more than two batches after those. Unless the feed stalls, an end can be
reached, and the receiver can take any number of batches that there is. -/
theorem departure_is_noticed (pieces : List (List UInt8)) (ending : Ending) (size : Nat) :
    ∃ batches result, deliver ⟨pieces.flatten, ending⟩ size false = (batches, result) ∧
      (∀ d n, Draining.Reaches (.start pieces ending size) d → d.received.length = n →
        n ≤ batches.length ∧ d.received = batches.take n ∧
        ∀ e, Draining.Reaches d.leave e →
          e.received = d.received ∧
          (∀ found, e.exchange.outcome? = some found →
            (found = .error .cancelled ∨ result = some found) ∧ (n + 2 < batches.length → found = .error .cancelled)) ∧
          (ending ≠ .stalled → ∃ f found, Draining.Reaches e f ∧ f.exchange.outcome? = some found)) ∧
      (ending ≠ .stalled → ∀ n ≤ batches.length, ∃ d, Draining.Reaches (.start pieces ending size) d ∧ d.received.length = n) := by
  rcases hdeliver : deliver ⟨pieces.flatten, ending⟩ size false with ⟨batches, result⟩
  refine ⟨batches, result, rfl, ?_, ?_⟩
  · rintro d n hreach rfl
    have hfollows := (Draining.start_follows pieces ending size).reaches hreach
    have hfirst : d.received <+: batches := by
      obtain ⟨-, -, -, -, whole, hruns, -⟩ := hfollows
      have hprefix := runs_first hruns
      rw [hdeliver] at hprefix
      exact (List.prefix_append _ _).trans hprefix
    have hroom : d.exchange.queue.length ≤ channelDepth := Draining.queue_le hreach (Nat.zero_le _)
    refine ⟨hfirst.length_le, List.prefix_iff_eq_take.1 hfirst, fun e hleft => ?_⟩
    have hparted := (hfollows.leave hroom).reaches hleft
    refine ⟨hparted.received_eq, fun found hend => ?_, fun hflows => hparted.can_end (flows_of_ending hflows)⟩
    rcases hparted.outcome hend with hcancelled | ⟨lost, hlost, hall⟩
    · exact ⟨.inl hcancelled, fun _ => hcancelled⟩
    · rw [hdeliver] at hall
      cases hall
      refine ⟨.inr rfl, fun hmore => ?_⟩
      rw [List.length_append] at hmore
      unfold channelDepth at hlost
      omega
  · intro hflows n hn
    have hstart : Draining.Reaches (.start pieces ending size) (.start pieces ending size) := .start
    obtain ⟨d, outcome, hreach, hqueue, hend⟩ := Draining.can_end_of_flows (flows_of_ending hflows) hstart
    have hall := Draining.received_all hreach hqueue hend
    rw [hdeliver] at hall
    cases hall
    exact Draining.reaches_between hreach (Nat.zero_le _) hn

section Full

variable {s : Source} {size : Nat} {batches : List Batch} {d : Decoder}

/-- A receiver that goes away without having taken all batches stops the decoder. -/
theorem finish_eq (h : Decoder.Runs s.fuel size (Decoder.start s) batches d) :
    s.finish size false d = if batches.length < (deliver s size false).1.length then some (.error .cancelled)
      else (deliver s size false).2 := by
  have hsteps : d.stepsLeft ≤ s.steps := (h.left (start_enough s)).2.1
  obtain ⟨hruns, hstuck⟩ := Decoder.advance_runs size hsteps (runs_enough h)
  have hall := h.on hruns
  unfold Source.finish Source.advance
  generalize d.advance s.fuel size false s.steps = e at hruns hstuck hall
  by_cases he : ∃ batch next, e = .holding batch next
  · obtain ⟨batch, next, rfl⟩ := he
    have hmore := (runs_first (hall.trans (.hand (.stop next)))).length_le
    rw [List.length_append, List.length_singleton] at hmore
    rw [if_pos (Nat.lt_of_succ_le hmore)]
    rfl
  · have hsettled := Decoder.settled_of_stuck (fun batch next heq => he ⟨batch, next, heq⟩) hstuck
    have hdeliver := deliver_of_runs hall hsettled
    rw [hdeliver, if_neg (Nat.lt_irrefl _)]
    cases e with
    | holding batch next => exact absurd ⟨batch, next, rfl⟩ he
    | opening c => rfl
    | reading c first batch count => rfl
    | closing c count => rfl
    | failing f => rfl
    | finished outcome => rfl

/-- What a run has handed over that came to an end or handed over so many batches. -/
theorem eq_take_of_runs {n : Nat} (h : Decoder.Runs s.fuel size (Decoder.start s) batches d) (hmost : batches.length ≤ n)
    (hend : batches.length = n ∨ Decoder.Settled s.fuel size d) : batches = (deliver s size false).1.take n := by
  rcases hend with rfl | hsettled
  · exact List.prefix_iff_eq_take.1 (runs_first h)
  · rw [deliver_of_runs h hsettled, List.take_of_length_le hmost]

/-- **The channel is full.** The first batches that a receiver takes, and how the decoder ends when the receiver waits until
nothing more goes on its way, and then goes away. -/
theorem deliverFirst_eq (s : Source) (size n : Nat) :
    deliverFirst s size false n = ((deliver s size false).1.take n,
      if n + channelDepth < (deliver s size false).1.length then some (.error .cancelled) else (deliver s size false).2) := by
  have hstart := start_enough s
  obtain ⟨hruns, hmost, hend⟩ := take_most n size (Nat.le_refl _ : (Decoder.start s).stepsLeft ≤ s.steps) hstart
  unfold deliverFirst
  generalize s.take size false n (Decoder.start s) = taken at hruns hmost hend
  obtain ⟨batches, d⟩ := taken
  dsimp only at hruns hmost hend ⊢
  obtain ⟨hruns', hmost', hend'⟩ := take_most channelDepth size (hruns.left hstart).2.1 (runs_enough hruns)
  generalize s.take size false channelDepth d = waiting at hruns' hmost' hend'
  obtain ⟨lost, e⟩ := waiting
  dsimp only at hruns' hmost' hend' ⊢
  have hall := hruns.trans hruns'
  have hmost_all : (batches ++ lost).length ≤ n + channelDepth := by
    rw [List.length_append]
    omega
  have hend_all : (batches ++ lost).length = n + channelDepth ∨ Decoder.Settled s.fuel size e := by
    rcases hend with hn | hsettled
    · refine hend'.imp_left fun hdepth => ?_
      rw [List.length_append, hn, hdepth]
    · obtain ⟨-, rfl⟩ := hruns'.of_settled hsettled
      exact .inr hsettled
  have hsame : (batches ++ lost).length < (deliver s size false).1.length ↔
      n + channelDepth < (deliver s size false).1.length := by
    rw [eq_take_of_runs hall hmost_all hend_all, List.length_take]
    omega
  rw [finish_eq hall, ← eq_take_of_runs hruns hmost hend]
  simp only [hsame]

end Full

end CatalogSync.Feed
