import CatalogSync.Proofs.Feed.Runs

/-!
# Feeds that arrive in pieces

The bytes of a feed come in pieces, as large as each read happens to make them. A decoder that has
used up what has arrived waits for the next piece. `receive_runs` shows that it hands over what the
decoder of the whole feed does, wherever the feed is cut.
-/

namespace CatalogSync.Feed

open CatalogSync.Json CatalogSync.Json.Outlook

/-- More bytes arrive; after them the text ends so. -/
def supply (more : List UInt8) (ending : Ending) (c : Cursor) : Cursor :=
  { c with rest := c.rest ++ more, ending }

namespace Decoder

/-- More bytes arrive for a decoder. -/
def supply (more : List UInt8) (ending : Ending) : Decoder → Decoder
  | .opening c => .opening (Feed.supply more ending c)
  | .reading c first batch count => .reading (Feed.supply more ending c) first batch count
  | .holding batch next => .holding batch (next.supply more ending)
  | .closing c count => .closing (Feed.supply more ending c) count
  | d => d

end Decoder

/-- The batches of a feed that arrives piece by piece. The decoder goes as far as it can with what has
arrived before it asks for the next piece. -/
def Source.receive (s : Source) (size : Nat) : List (List UInt8) → Decoder → List Batch × Decoder
  | [], d => s.take size false (s.bytes.length + 1) (d.supply [] s.ending)
  | piece :: pieces, d =>
    let (batches, d) := s.take size false (s.bytes.length + 1) (d.supply piece .stalled)
    let (later, d) := s.receive size pieces d
    (batches ++ later, d)

/-- All batches of a feed that arrives in pieces, and how its decoder ends. -/
def deliverInPieces (pieces : List (List UInt8)) (ending : Ending) (size : Nat) : List Batch × Option Outcome :=
  let s : Source := ⟨pieces.flatten, ending⟩
  let (batches, d) := s.receive size pieces (Decoder.start ⟨[], .stalled⟩)
  (batches, s.finish size false d)

namespace Decoder

variable {o : Outlook} {d e f : Decoder} {fuel fuel' size : Nat}

/-! ## A decoder that sees further -/

/-- The decoders are at the same work, and the second one sees further. -/
inductive Sees (o : Outlook) : Decoder → Decoder → Prop
  | opening {c c' : Cursor} (h : o.Sees c c') : Sees o (.opening c) (.opening c')
  | reading {c c' : Cursor} (first : Bool) (batch : Batch) (count : Nat) (h : o.Sees c c') :
      Sees o (.reading c first batch count) (.reading c' first batch count)
  | holding {d e : Decoder} (batch : Batch) (h : Sees o d e) : Sees o (.holding batch d) (.holding batch e)
  | closing {c c' : Cursor} (count : Nat) (h : o.Sees c c') : Sees o (.closing c count) (.closing c' count)
  | failing (f : Failure) : Sees o (.failing f) (.failing f)
  | finished (outcome : Outcome) : Sees o (.finished outcome) (.finished outcome)

theorem Sees.isBusy_eq (h : Sees o d e) : e.isBusy = d.isBusy := by
  cases h <;> rfl

theorem cursor_length {c c' : Cursor} (h : o.Sees c c') : c.rest.length ≤ c'.rest.length := by
  rw [h.rest, List.length_append]
  omega

theorem Sees.left (h : Sees o d e) :
    d.ahead ≤ e.ahead ∧ d.stepsLeft ≤ e.stepsLeft ∧ d.batchesLeft ≤ e.batchesLeft := by
  induction h with
  | opening h =>
    have := cursor_length h
    simp only [ahead, stepsLeft, batchesLeft]
    omega
  | reading first batch count h =>
    have := cursor_length h
    simp only [ahead, stepsLeft, batchesLeft]
    omega
  | holding batch h ih =>
    simp only [ahead, stepsLeft, batchesLeft]
    omega
  | closing count h =>
    have := cursor_length h
    simp only [ahead, stepsLeft, batchesLeft]
    omega
  | failing f => simp
  | finished outcome => simp

/-- What comes of a failure: the first decoder waits, or both fail alike. -/
theorem failure_sees {α β : Type} {R : α → β → Prop} {x : Failure} {y : Except Failure β} (he : o.exact = true)
    (h : o.Agree R (.error x : Except Failure α) y) :
    (o.waiting = true ∧ x.cause = .stalled) ∨ (y = .error x ∧ (x.position.isSome = true ∨ o.more = [])) := by
  rcases h with h | ⟨g, hy, hg, hplace, -⟩
  · exact .inl ⟨h.waiting, h.cause⟩
  · rw [hg he] at hy
    exact .inr ⟨hy, hplace⟩

/-- Two decoders after a step, of which the first may be waiting for bytes. -/
def SeesOrWaits (o : Outlook) (fuel fuel' size : Nat) (d e : Decoder) : Prop :=
  (o.waiting = true ∧ d.step fuel size false = d) ∨ Sees o (d.step fuel size false) (e.step fuel' size false)

section Step

variable {c c' : Cursor}

theorem opening_step (h : o.Sees c c') (he : o.exact = true) (fuel fuel' size : Nat) :
    SeesOrWaits o fuel fuel' size (.opening c) (.opening c') := by
  have hopen := agree_openArray h.at
  unfold SeesOrWaits
  simp only [Decoder.step]
  cases hc : openArray c with
  | ok a =>
    rw [hc] at hopen
    obtain ⟨b, hd, -, hat⟩ := hopen
    right
    rw [hd]
    dsimp only
    split
    · exact .reading true [] 0 hat.1
    · exact .finished _
  | error x =>
    rw [hc] at hopen
    rcases failure_sees he hopen with ⟨hw, hx⟩ | ⟨hd, -⟩
    · left
      simp [hw, hx]
    · right
      rw [hd]
      dsimp only
      split
      · exact .opening h
      · exact .failing x

theorem reading_step (h : o.Sees c c') (he : o.exact = true) (hf : Enough c.rest.length fuel)
    (hf' : Enough c.rest.length fuel') (size : Nat) (first : Bool) (batch : Batch) (count : Nat) :
    SeesOrWaits o fuel fuel' size (.reading c first batch count) (.reading c' first batch count) := by
  have hnext := agree_nextElement h.at hf hf' first
  unfold SeesOrWaits
  simp only [Decoder.step, Bool.false_eq_true, if_false]
  cases hc : nextElement fuel c first with
  | ok p =>
    obtain ⟨v, a⟩ := p
    rw [hc] at hnext
    obtain ⟨⟨v', b⟩, hd, -, rfl, hat⟩ := hnext
    right
    rw [hd]
    cases v' with
    | some v =>
      dsimp only
      split
      · exact .holding _ (.reading false [] (count + 1) hat.1)
      · exact .reading false (v :: batch) (count + 1) hat.1
    | none =>
      dsimp only
      split
      · exact .closing count hat.1
      · exact .holding _ (.closing count hat.1)
  | error x =>
    rw [hc] at hnext
    rcases failure_sees he hnext with ⟨hw, hx⟩ | ⟨hd, hplace⟩
    · left
      simp [hw, hx, failed]
    · right
      rw [hd]
      have hend : x.placedAt (endOf c') = x.placedAt (endOf c) := by
        rcases hplace with hsome | hmore
        · rw [placedAt_of_isSome _ hsome, placedAt_of_isSome _ hsome]
        · unfold endOf
          rw [h.rest, h.position, hmore, List.append_nil]
      dsimp only
      unfold failed
      rw [hend]
      split
      · exact .reading first batch count h
      · exact .failing _

theorem closing_step (h : o.Sees c c') (he : o.exact = true) (fuel fuel' size count : Nat) :
    SeesOrWaits o fuel fuel' size (.closing c count) (.closing c' count) := by
  have hread := agree_readEnd h.at
  unfold SeesOrWaits
  simp only [Decoder.step]
  cases hc : readEnd c with
  | ok u =>
    rw [hc] at hread
    obtain ⟨u', hd, -⟩ := hread
    rw [hd]
    exact .inr (.finished _)
  | error x =>
    rw [hc] at hread
    rcases failure_sees he hread with ⟨hw, hx⟩ | ⟨hd, -⟩
    · left
      simp [hw, hx]
    · right
      rw [hd]
      dsimp only
      split
      · exact .closing count h
      · exact .failing x

end Step

/-- **One step with more in sight.** Unless the first decoder waits, both take the same step. -/
theorem Sees.step (size : Nat) (h : Sees o d e) (he : o.exact = true) (hbusy : d.isBusy = true)
    (hf : Enough d.ahead fuel) (hf' : Enough d.ahead fuel') : SeesOrWaits o fuel fuel' size d e := by
  cases h with
  | opening h => exact opening_step h he fuel fuel' size
  | reading first batch count h => exact reading_step h he hf hf' size first batch count
  | holding batch h => cases hbusy
  | closing count h => exact closing_step h he fuel fuel' size count
  | failing f => exact .inr (.finished _)
  | finished outcome => cases hbusy

/-- A run of the first decoder is one of the second, whatever steps are allowed to each. -/
theorem Runs.sees {batches : List Batch} (h : Runs fuel size d batches f) (he : o.exact = true) (hsees : Sees o d e)
    (hf : Enough d.ahead fuel) (hf' : Enough d.ahead fuel') : ∃ g, Runs fuel' size e batches g ∧ Sees o f g := by
  induction h generalizing e with
  | stop d => exact ⟨e, .stop e, hsees⟩
  | @step d f batches hbusy h ih =>
    rcases hsees.step size he hbusy hf hf' with ⟨-, hstep⟩ | hnext
    · rw [hstep] at ih
      exact ih hsees hf hf'
    · have hle := step_ahead_le size false hf
      obtain ⟨g, hruns, hg⟩ := ih hnext ⟨by have := hf.1; omega, hf.2⟩ ⟨by have := hf'.1; omega, hf'.2⟩
      exact ⟨g, .step (by rw [hsees.isBusy_eq, hbusy]) hruns, hg⟩
  | hand h ih =>
    cases hsees with
    | holding batch hsees =>
      obtain ⟨g, hruns, hg⟩ := ih hsees hf hf'
      exact ⟨g, .hand hruns, hg⟩

/-! ## More bytes arrive -/

/-- The outlook of a cursor that waits for `more`. -/
def awaiting (more : List UInt8) (ending : Ending) : Outlook := ⟨true, true, more, ending⟩

theorem sees_supply {piece more : List UInt8} {ending : Ending} (h : Sees (awaiting (piece ++ more) ending) d e) :
    Sees (awaiting more ending) (d.supply piece .stalled) e := by
  have hcursor : ∀ {c c' : Cursor}, (awaiting (piece ++ more) ending).Sees c c' →
      (awaiting more ending).Sees (Feed.supply piece .stalled c) c' := by
    intro c c' h
    exact {
      rest := by
        rw [h.rest]
        exact (List.append_assoc _ _ _).symm
      last := h.last
      room := rfl
      position := h.position
      peeked := h.peeked
      streamed := h.streamed
      seen := fun he hp hnil => h.seen he hp (List.append_eq_nil_iff.mp hnil).1 }
  induction h with
  | opening h => exact .opening (hcursor h)
  | reading first batch count h => exact .reading first batch count (hcursor h)
  | holding batch h ih => exact .holding batch ih
  | closing count h => exact .closing count (hcursor h)
  | failing f => exact .failing f
  | finished outcome => exact .finished outcome

/-- With the last bytes a decoder is the one that it was compared with. -/
theorem supply_eq {more : List UInt8} {ending : Ending} (h : Sees (awaiting more ending) d e) :
    d.supply more ending = e := by
  have hcursor : ∀ {c c' : Cursor}, (awaiting more ending).Sees c c' → Feed.supply more ending c = c' := by
    intro c c' h
    obtain ⟨rest, position, peeked, streamed, last⟩ := c'
    obtain ⟨hrest, hlast, -, hposition, hpeeked, hstreamed, -⟩ := h
    dsimp only at hrest hlast hposition hpeeked hstreamed
    rw [hrest, hlast, hposition, hpeeked, hstreamed rfl]
    rfl
  induction h with
  | opening h => rw [supply, hcursor h]
  | reading first batch count h => rw [supply, hcursor h]
  | holding batch h ih => rw [supply, ih]
  | closing count h => rw [supply, hcursor h]
  | failing f => rfl
  | finished outcome => rfl

/-- A decoder that has got some bytes, beside one that has got more. -/
theorem start_sees_more (bytes more : List UInt8) (ending : Ending) :
    Sees (awaiting more ending) (start ⟨bytes, .stalled⟩) (start ⟨bytes ++ more, ending⟩) :=
  .opening {
    rest := rfl
    last := rfl
    room := rfl
    position := rfl
    peeked := rfl
    streamed := fun _ => rfl
    seen := fun _ hp => nomatch hp }

/-- A decoder that has not got a byte yet, beside one that has the whole feed. -/
theorem start_sees (s : Source) : Sees (awaiting s.bytes s.ending) (start ⟨[], .stalled⟩) (start s) :=
  start_sees_more [] s.bytes s.ending

end Decoder

open Decoder

variable {s : Source} {d e : Decoder}

/-- What a decoder has to do within the steps that a source allows. -/
structure Fits (s : Source) (d : Decoder) : Prop where
  ahead : Enough d.ahead s.fuel
  steps : d.stepsLeft ≤ s.steps
  batches : d.batchesLeft < s.bytes.length + 1

theorem Fits.sees {o : Outlook} (h : Fits s e) (hsees : Sees o d e) : Fits s d where
  ahead := ⟨by have := h.ahead.1; have := hsees.left.1; omega, h.ahead.2⟩
  steps := Nat.le_trans hsees.left.2.1 h.steps
  batches := Nat.lt_of_le_of_lt hsees.left.2.2 h.batches

theorem Fits.runs {size : Nat} {batches : List Batch} (h : Fits s d) (hruns : Runs s.fuel size d batches e) :
    Fits s e := by
  obtain ⟨hahead, hsteps, hbatches⟩ := hruns.left h.ahead
  have := h.ahead
  have := h.steps
  have := h.batches
  exact ⟨⟨by have := h.ahead.1; omega, h.ahead.2⟩, by omega, by omega⟩

theorem start_fits (s : Source) : Fits s (start s) := ⟨start_enough s, Nat.le_refl _, Nat.lt_succ_self _⟩

/-- A decoder to which a feed comes piece by piece does what the decoder of the whole feed does. -/
theorem receive_runs (size : Nat) {pieces : List (List UInt8)} (h : Sees (awaiting pieces.flatten s.ending) d e)
    (he : Fits s e) :
    Runs s.fuel size e (s.receive size pieces d).1 (s.receive size pieces d).2 ∧
      Settled s.fuel size (s.receive size pieces d).2 := by
  induction pieces generalizing d e with
  | nil =>
    rw [List.flatten_nil] at h
    unfold Source.receive
    rw [supply_eq h]
    exact take_runs size he.batches he.steps he.ahead
  | cons piece pieces ih =>
    rw [List.flatten_cons] at h
    have hsees := sees_supply h
    have hfits := he.sees hsees
    obtain ⟨hruns, -⟩ := take_runs size hfits.batches hfits.steps hfits.ahead
    -- the decoder of the whole feed goes on to where this one waits
    obtain ⟨g, hwhole, hg⟩ := hruns.sees rfl hsees hfits.ahead hfits.ahead
    obtain ⟨hlater, hsettled⟩ := ih hg (he.runs hwhole)
    unfold Source.receive
    exact ⟨hwhole.trans hlater, hsettled⟩

/-- **Cutting.** A feed delivers the same wherever it is cut into pieces. -/
theorem deliver_in_pieces (pieces : List (List UInt8)) (ending : Ending) (size : Nat) :
    deliverInPieces pieces ending size = deliver ⟨pieces.flatten, ending⟩ size false := by
  obtain ⟨hruns, hsettled⟩ := receive_runs size (start_sees ⟨pieces.flatten, ending⟩) (start_fits _)
  rw [deliver_of_runs hruns hsettled, ← finish_of_settled hsettled]
  rfl

end CatalogSync.Feed
