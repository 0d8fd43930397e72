import CatalogSync.Feed.Decoder
import CatalogSync.Proofs.Json.Reading

/-!
# Runs of a decoder

`Decoder.Runs` says that a decoder, going on by itself and handing over what it holds, comes to stand
somewhere. `Takes` is what one step may make of a decoder and `step_nears` what it does to the way that
is left; from it `deliver_runs` shows that the steps allowed are enough for a run to its end, and
`deliver_of_runs` that there is only one such run.
-/

namespace CatalogSync.Feed

open CatalogSync.Json CatalogSync.Json.Outlook

namespace Decoder

variable {o : Outlook} {c d : Cursor} {n fuel fuel' size : Nat}

/-! ## The parts of a step -/

/-- A place later than the one before, where at most `n` bytes were ahead. -/
def Later {α : Type} (o : Outlook) (n : Nat) (p q : α × Cursor) : Prop := 1 ≤ n ∧ o.Past (n - 1) p q

theorem placedAt_cause (f : Failure) (p : Position) : (f.placedAt p).cause = f.cause := by
  unfold Failure.placedAt
  split <;> rfl

theorem placedAt_isSome (f : Failure) (p : Position) : (f.placedAt p).position.isSome = true := by
  unfold Failure.placedAt
  split
  · rfl
  · next heq => rw [heq]; rfl

theorem placedAt_of_isSome {f : Failure} (p : Position) (hf : f.position.isSome = true) : f.placedAt p = f := by
  obtain ⟨q, hq⟩ := Option.isSome_iff_exists.mp hf
  unfold Failure.placedAt
  rw [hq]

/-- A failure without a place is told at the end of the bytes. -/
theorem agree_placedAt {α β γ δ : Type} {R : α → β → Prop} {S : γ → δ → Prop} {f g : Failure} (h : o.Sees c d)
    (hfg : o.Agree R (.error f) (.error g)) :
    o.Agree S (.error (f.placedAt (endOf c))) (.error (g.placedAt (endOf d))) := by
  rcases hfg with ⟨hw, hf, hread⟩ | ⟨g', hg, heq, hplace, hend⟩
  · refine .inl ⟨hw, by rw [placedAt_cause]; exact hf, fun reason hmore hbroken => ?_⟩
    obtain ⟨g', hg, hg'⟩ := hread reason hmore hbroken
    cases hg
    exact ⟨_, rfl, by rw [placedAt_cause]; exact hg'⟩
  · injection hg with hg
    subst hg
    refine .inr ⟨_, rfl, fun he => ?_, .inl (placedAt_isSome _ _), by rw [placedAt_cause]; exact hend⟩
    rw [heq he]
    rcases hplace with hsome | hmore
    · rw [placedAt_of_isSome _ hsome, placedAt_of_isSome _ hsome]
    · unfold endOf
      rw [h.rest, h.position, hmore, List.append_nil]

theorem agree_openArray (h : o.At n c d) :
    o.Agree (fun c d => 1 ≤ n ∧ o.At (n - 1) c d) (openArray c) (openArray d) := by
  unfold openArray
  refine agree_bind (agree_skipSpace h) ?_
  rintro ⟨next, c⟩ ⟨next', d⟩ hbefore
  obtain rfl : next' = next := hbefore.1
  dsimp only
  split
  · exact hbefore.failAhead (by simp)
  · exact agree_ok ⟨hbefore.pos, hbefore.skip⟩
  · have hkind := agree_readKind hbefore.2.2.2
    dsimp only at hkind
    cases hc : readKind c with
    | ok p =>
      rw [hc] at hkind
      obtain ⟨q, hd, hv, hat⟩ := hkind
      rw [hd]
      dsimp only
      rw [hv]
      exact agree_fail hat.1 ⟨_, _, rfl⟩
    | error f =>
      rw [hc] at hkind
      cases hd : readKind d with
      | ok q =>
        rw [hd] at hkind
        rcases hkind with ⟨hw, hf, hread⟩ | ⟨g, hg, -⟩
        · refine .inl ⟨hw, by rw [placedAt_cause]; exact hf, fun reason hmore hbroken => ?_⟩
          obtain ⟨g, hg, -⟩ := hread reason hmore hbroken
          nomatch hg
        · nomatch hg
      | error g =>
        rw [hd] at hkind
        exact agree_placedAt hbefore.2.2.2.1 hkind

theorem agree_nextElement (h : o.At n c d) (hf : Enough n fuel) (hf' : Enough n fuel') (first : Bool) :
    o.Agree (Later o n) (nextElement fuel c first) (nextElement fuel' d first) := by
  unfold nextElement
  refine agree_bind (agree_elementAhead h first) ?_
  rintro ⟨more, c⟩ ⟨more', d⟩ hfollows
  obtain rfl : more' = more := hfollows.1
  cases more' with
  | false => exact agree_ok ⟨hfollows.pos, rfl, hfollows.skip⟩
  | true =>
    refine agree_bind (agree_readValue hfollows.2.2 hf hf') ?_
    rintro ⟨v, c⟩ ⟨v', d⟩ ⟨rfl, hat⟩
    exact agree_ok ⟨hfollows.pos, rfl, hat⟩

/-! ## The way that is left -/

/-- The bytes ahead of a decoder. -/
def ahead : Decoder → Nat
  | .opening c => c.rest.length
  | .reading c _ _ _ => c.rest.length
  | .holding _ next => next.ahead
  | .closing c _ => c.rest.length
  | .failing _ => 0
  | .finished _ => 0

/-- A bound on the steps that a decoder still takes. -/
def stepsLeft : Decoder → Nat
  | .opening c => c.rest.length + 4
  | .reading c _ _ _ => c.rest.length + 3
  | .holding _ next => next.stepsLeft
  | .closing _ _ => 2
  | .failing _ => 1
  | .finished _ => 0

/-- A bound on the batches that a decoder still hands over: each of them has an element, and each
element that is not read yet has a byte. -/
def batchesLeft : Decoder → Nat
  | .opening c => c.rest.length
  | .reading c _ batch _ => c.rest.length + min 1 batch.length
  | .holding _ next => next.batchesLeft + 1
  | .closing _ _ => 0
  | .failing _ => 0
  | .finished _ => 0

/-- The second decoder is nearer to its end. -/
structure Nears (d e : Decoder) : Prop where
  ahead : e.ahead ≤ d.ahead
  steps : e.stepsLeft < d.stepsLeft
  batches : e.batchesLeft ≤ d.batchesLeft

/-! ## One step -/

/-- What a step may make of a decoder. -/
inductive Takes (fuel size : Nat) : Decoder → Decoder → Prop
  /-- It has nothing to do, or it waits for bytes. -/
  | stay (d : Decoder) : Takes fuel size d d
  | fail {d : Decoder} (f : Failure) (h : 1 < d.stepsLeft) : Takes fuel size d (.failing f)
  | opened {c c' : Cursor} (h : openArray c = .ok c') (hroom : HasRoom size) :
      Takes fuel size (.opening c) (.reading c' true [] 0)
  | overflow {c c' : Cursor} (h : openArray c = .ok c') (hroom : ¬HasRoom size) :
      Takes fuel size (.opening c) (.finished (.error .overflow))
  | keep {c c' : Cursor} {first : Bool} {batch : Batch} {count : Nat} {v : Json}
      (h : nextElement fuel c first = .ok (some v, c')) :
      Takes fuel size (.reading c first batch count) (.reading c' false (v :: batch) (count + 1))
  | fill {c c' : Cursor} {first : Bool} {batch : Batch} {count : Nat} {v : Json}
      (h : nextElement fuel c first = .ok (some v, c')) :
      Takes fuel size (.reading c first batch count) (.holding (v :: batch).reverse (.reading c' false [] (count + 1)))
  | close {c c' : Cursor} {first : Bool} {count : Nat} (h : nextElement fuel c first = .ok (none, c')) :
      Takes fuel size (.reading c first [] count) (.closing c' count)
  | last {c c' : Cursor} {first : Bool} {batch : Batch} {count : Nat} {v : Json}
      (h : nextElement fuel c first = .ok (none, c')) :
      Takes fuel size (.reading c first (v :: batch) count) (.holding (v :: batch).reverse (.closing c' count))
  | finish {c : Cursor} {count : Nat} (h : readEnd c = .ok ()) : Takes fuel size (.closing c count) (.finished (.ok count))
  | report {f : Failure} (e : DecodeFault) : Takes fuel size (.failing f) (.finished (.error e))

theorem step_takes (fuel size : Nat) (cancelled : Bool) (d : Decoder) : Takes fuel size d (d.step fuel size cancelled) := by
  cases d with
  | opening c =>
    simp only [step]
    cases hc : openArray c with
    | ok c' =>
      dsimp only
      split
      · next hroom => exact .opened hc hroom
      · next hroom => exact .overflow hc hroom
    | error f =>
      dsimp only
      split
      · exact .stay _
      · exact .fail f (by simp only [stepsLeft]; omega)
  | reading c first batch count =>
    simp only [step]
    split
    · exact .fail _ (by simp only [stepsLeft]; omega)
    · cases hc : nextElement fuel c first with
      | error f =>
        dsimp only
        unfold failed
        split
        · exact .stay _
        · exact .fail _ (by simp only [stepsLeft]; omega)
      | ok p =>
        obtain ⟨v, c'⟩ := p
        cases v with
        | some v =>
          dsimp only
          split
          · exact .fill hc
          · exact .keep hc
        | none =>
          cases batch with
          | nil => exact .close hc
          | cons v batch => exact .last hc
  | holding batch next => exact .stay _
  | closing c count =>
    simp only [step]
    cases hc : readEnd c with
    | ok u => exact .finish hc
    | error f =>
      dsimp only
      split
      · exact .stay _
      · exact .fail f (by simp only [stepsLeft]; omega)
  | failing f => exact .report _
  | finished outcome => exact .stay _

/-- Reading goes on later in the text than it was. -/
theorem nextElement_later {c c' : Cursor} {first : Bool} {v : Option Json} (hf : Enough c.rest.length fuel)
    (h : nextElement fuel c first = .ok (v, c')) : c'.rest.length + 1 ≤ c.rest.length := by
  have hnext := agree_nextElement (sees_self c).at hf hf first
  rw [h] at hnext
  obtain ⟨-, -, hpos, -, -, hlen⟩ := hnext
  dsimp only at hlen
  omega

theorem openArray_later {c c' : Cursor} (h : openArray c = .ok c') : c'.rest.length + 1 ≤ c.rest.length := by
  have hopen := agree_openArray (sees_self c).at
  rw [h] at hopen
  obtain ⟨-, -, hpos, -, hlen⟩ := hopen
  omega

theorem Takes.nears {d e : Decoder} (h : Takes fuel size d e) (hf : Enough d.ahead fuel) : e = d ∨ Nears d e := by
  cases h with
  | stay => exact .inl rfl
  | fail f h =>
    right
    constructor <;> simp only [ahead, stepsLeft, batchesLeft] <;> omega
  | opened h =>
    have := openArray_later h
    right
    constructor <;> simp only [ahead, stepsLeft, batchesLeft, List.length_nil] <;> omega
  | overflow h =>
    right
    constructor <;> simp only [ahead, stepsLeft, batchesLeft] <;> omega
  | keep h =>
    have := nextElement_later hf h
    right
    constructor <;> simp only [ahead, stepsLeft, batchesLeft, List.length_cons] <;> omega
  | fill h =>
    have := nextElement_later hf h
    right
    constructor <;> simp only [ahead, stepsLeft, batchesLeft, List.length_nil] <;> omega
  | close h =>
    have := nextElement_later hf h
    right
    constructor <;> simp only [ahead, stepsLeft, batchesLeft, List.length_nil] <;> omega
  | last h =>
    have := nextElement_later hf h
    right
    constructor <;> simp only [ahead, stepsLeft, batchesLeft, List.length_cons] <;> omega
  | finish h =>
    right
    constructor <;> simp only [ahead, stepsLeft, batchesLeft] <;> omega
  | report e =>
    right
    constructor <;> simp only [ahead, stepsLeft, batchesLeft] <;> omega

/-- **One step.** A decoder comes nearer to its end, or it stays as it is. -/
theorem step_nears {d : Decoder} (size : Nat) (cancelled : Bool) (hf : Enough d.ahead fuel) :
    d.step fuel size cancelled = d ∨ Nears d (d.step fuel size cancelled) := (step_takes fuel size cancelled d).nears hf

theorem step_of_not_busy {d : Decoder} {cancelled : Bool} (h : ¬d.isBusy = true) :
    d.step fuel size cancelled = d := by
  cases d with
  | holding batch next => rfl
  | finished outcome => rfl
  | opening c => exact absurd rfl h
  | reading c first batch count => exact absurd rfl h
  | closing c count => exact absurd rfl h
  | failing f => exact absurd rfl h

theorem step_ahead_le {d : Decoder} (size : Nat) (cancelled : Bool) (hf : Enough d.ahead fuel) :
    (d.step fuel size cancelled).ahead ≤ d.ahead := by
  rcases step_nears size cancelled hf with hstep | hnears
  · exact Nat.le_of_eq (by rw [hstep])
  · exact hnears.ahead

/-! ## Runs -/

/-- A decoder that is told to go on hands over some batches and comes to stand somewhere. -/
inductive Runs (fuel size : Nat) : Decoder → List Batch → Decoder → Prop
  | stop (d : Decoder) : Runs fuel size d [] d
  | step {d e : Decoder} {batches : List Batch} (hbusy : d.isBusy = true)
      (h : Runs fuel size (d.step fuel size false) batches e) : Runs fuel size d batches e
  | hand {next e : Decoder} {batch : Batch} {batches : List Batch} (h : Runs fuel size next batches e) :
      Runs fuel size (.holding batch next) (batch :: batches) e

/-- A decoder that has finished, or that waits for bytes. -/
def Settled (fuel size : Nat) : Decoder → Prop
  | .holding _ _ => False
  | d => d.isBusy = true → d.step fuel size false = d

theorem Settled.stuck {d : Decoder} (h : Settled fuel size d) (hbusy : d.isBusy = true) :
    d.step fuel size false = d := by
  cases d with
  | holding batch next => exact h.elim
  | opening c => exact h hbusy
  | reading c first batch count => exact h hbusy
  | closing c count => exact h hbusy
  | failing f => exact h hbusy
  | finished outcome => exact h hbusy

theorem settled_finished (fuel size : Nat) (outcome : Outcome) : Settled fuel size (.finished outcome) := by
  intro hbusy
  cases hbusy

theorem settled_of_stuck {d : Decoder} (hd : ∀ batch next, d ≠ .holding batch next)
    (h : d.isBusy = true → d.step fuel size false = d) : Settled fuel size d := by
  cases d with
  | holding batch next => exact absurd rfl (hd batch next)
  | opening c => exact h
  | reading c first batch count => exact h
  | closing c count => exact h
  | failing f => exact h
  | finished outcome => exact h

/-- How a decoder has ended, if it has. -/
def outcome? : Decoder → Option Outcome
  | .finished outcome => some outcome
  | _ => none

theorem Runs.trans {d e f : Decoder} {batches batches' : List Batch} (h : Runs fuel size d batches e)
    (h' : Runs fuel size e batches' f) : Runs fuel size d (batches ++ batches') f := by
  induction h with
  | stop d => exact h'
  | step hbusy _ ih => exact .step hbusy (ih h')
  | hand _ ih => exact .hand (ih h')

/-- A run that goes on without handing anything over. -/
theorem Runs.on {d e f : Decoder} {batches : List Batch} (h : Runs fuel size d batches e)
    (h' : Runs fuel size e [] f) : Runs fuel size d batches f := by
  have hruns := h.trans h'
  rwa [List.append_nil] at hruns

/-- A run does not lengthen the way that is left. -/
theorem Runs.left {d e : Decoder} {batches : List Batch} (h : Runs fuel size d batches e)
    (hf : Enough d.ahead fuel) :
    e.ahead ≤ d.ahead ∧ e.stepsLeft ≤ d.stepsLeft ∧ batches.length + e.batchesLeft ≤ d.batchesLeft := by
  induction h with
  | stop d => simp
  | @step d e batches hbusy h ih =>
    rcases step_nears size false hf with hstep | hnears
    · rw [hstep] at ih
      exact ih hf
    · obtain ⟨hahead, hsteps, hbatches⟩ := ih ⟨by have := hf.1; have := hnears.ahead; omega, hf.2⟩
      have := hnears.ahead
      have := hnears.steps
      have := hnears.batches
      exact ⟨by omega, by omega, by omega⟩
  | hand h ih =>
    have := ih hf
    simp only [ahead, stepsLeft, batchesLeft, List.length_cons]
    omega

/-- Of two runs of one decoder the one that came to an end goes on where the other one stopped. -/
theorem Runs.continues {d e f : Decoder} {batches batches' : List Batch} (h : Runs fuel size d batches e)
    (h' : Runs fuel size d batches' f) (hf : Settled fuel size f) :
    ∃ later, batches' = batches ++ later ∧ Runs fuel size e later f := by
  induction h generalizing batches' with
  | stop d => exact ⟨batches', rfl, h'⟩
  | @step d e batches hbusy h ih =>
    cases h' with
    | step _ h' => exact ih h'
    | hand h' => nomatch hbusy
    | stop =>
      -- the other run stopped where bytes are waited for, and this one waits with it
      have hstep := hf.stuck hbusy
      rw [hstep] at ih
      exact ih (.stop f)
  | hand h ih =>
    cases h' with
    | stop => exact hf.elim
    | step hbusy h' => nomatch hbusy
    | hand h' =>
      obtain ⟨later, rfl, hlater⟩ := ih h'
      exact ⟨later, rfl, hlater⟩

theorem Runs.of_settled {d e : Decoder} {batches : List Batch} (h : Runs fuel size d batches e)
    (hd : Settled fuel size d) : batches = [] ∧ e = d := by
  induction h with
  | stop d => exact ⟨rfl, rfl⟩
  | step hbusy h ih =>
    have hstep := hd.stuck hbusy
    rw [hstep] at ih
    exact ih hd
  | hand h ih => exact hd.elim

/-- Two runs of one decoder to an end are the same. -/
theorem Runs.unique {d e f : Decoder} {batches batches' : List Batch} (h : Runs fuel size d batches e)
    (h' : Runs fuel size d batches' f) (he : Settled fuel size e) (hf : Settled fuel size f) :
    batches' = batches ∧ f = e := by
  obtain ⟨later, rfl, hlater⟩ := h.continues h' hf
  obtain ⟨rfl, rfl⟩ := hlater.of_settled he
  exact ⟨List.append_nil _, rfl⟩

/-- A decoder that one of its runs brings to an end goes on wherever another one has stopped. -/
theorem Runs.goes_on {d₀ d : Decoder} {batches batches' : List Batch} {outcome : Outcome}
    (hend : Runs fuel size d₀ batches' (.finished outcome)) (h : Runs fuel size d₀ batches d)
    (hbusy : d.isBusy = true) : d.step fuel size false ≠ d := by
  intro hstep
  obtain ⟨later, -, hlater⟩ := h.continues hend (settled_finished fuel size outcome)
  have hsettled : Settled fuel size d :=
    settled_of_stuck (fun batch next hd => by rw [hd] at hbusy; nomatch hbusy) fun _ => hstep
  obtain ⟨-, rfl⟩ := hlater.of_settled hsettled
  nomatch hbusy

/-! ## The steps allowed -/

theorem advance_of_stuck {d : Decoder} (h : d.step fuel size false = d) (steps : Nat) :
    advance fuel size false steps d = d := by
  induction steps with
  | zero => rfl
  | succ steps ih =>
    unfold advance
    rw [h, ih, ite_self]

theorem advance_runs {d : Decoder} {steps : Nat} (size : Nat) (hsteps : d.stepsLeft ≤ steps) (hf : Enough d.ahead fuel) :
    Runs fuel size d [] (advance fuel size false steps d) ∧
      ((advance fuel size false steps d).isBusy = true →
        (advance fuel size false steps d).step fuel size false = advance fuel size false steps d) := by
  induction steps generalizing d with
  | zero =>
    refine ⟨.stop d, fun hbusy => ?_⟩
    cases d <;> simp only [stepsLeft] at hsteps <;> first | omega | exact absurd hbusy (by simp [isBusy, advance])
  | succ steps ih =>
    unfold advance
    by_cases hbusy : d.isBusy = true
    · rw [if_pos hbusy]
      rcases step_nears size false hf with hstep | hnears
      · rw [hstep, advance_of_stuck hstep]
        exact ⟨.stop d, fun _ => hstep⟩
      · have hahead := hnears.ahead
        have hnear := hnears.steps
        obtain ⟨hruns, hrest⟩ := ih (d := d.step fuel size false) (by omega) ⟨by have := hf.1; omega, hf.2⟩
        exact ⟨.step hbusy hruns, hrest⟩
    · rw [if_neg hbusy]
      exact ⟨.stop d, fun h => absurd h hbusy⟩

theorem advance_of_settled {d : Decoder} (h : Settled fuel size d) (steps : Nat) :
    advance fuel size false steps d = d := by
  by_cases hbusy : d.isBusy = true
  · exact advance_of_stuck (h.stuck hbusy) steps
  · cases steps with
    | zero => rfl
    | succ steps =>
      unfold advance
      rw [if_neg hbusy]

end Decoder

open Decoder

variable {s : Source} {size : Nat}

/-- A receiver takes as many batches as it wants, or all there are. -/
theorem take_most (n : Nat) {d : Decoder} (size : Nat) (hsteps : d.stepsLeft ≤ s.steps) (hf : Enough d.ahead s.fuel) :
    Runs s.fuel size d (s.take size false n d).1 (s.take size false n d).2 ∧ (s.take size false n d).1.length ≤ n ∧
      ((s.take size false n d).1.length = n ∨ Settled s.fuel size (s.take size false n d).2) := by
  induction n generalizing d with
  | zero => exact ⟨.stop d, Nat.le_refl 0, .inl rfl⟩
  | succ n ih =>
    obtain ⟨hruns, hrest⟩ := advance_runs size hsteps hf
    have hleft := hruns.left hf
    unfold Source.take Source.advance
    generalize d.advance s.fuel size false s.steps = e at hruns hrest hleft
    split
    · next batch next =>
      simp only [ahead, stepsLeft, batchesLeft] at hleft
      obtain ⟨hlater, hmost, hend⟩ := ih (d := next) (by omega) ⟨by have := hf.1; omega, hf.2⟩
      exact ⟨hruns.trans (.hand hlater), Nat.succ_le_succ hmost, hend.imp_left (congrArg (· + 1))⟩
    · next hd => exact ⟨hruns, Nat.zero_le _, .inr (settled_of_stuck hd hrest)⟩

/-- A receiver that takes more batches than there can be has them all. -/
theorem take_runs {n : Nat} {d : Decoder} (size : Nat) (hn : d.batchesLeft < n) (hsteps : d.stepsLeft ≤ s.steps)
    (hf : Enough d.ahead s.fuel) :
    Runs s.fuel size d (s.take size false n d).1 (s.take size false n d).2 ∧
      Settled s.fuel size (s.take size false n d).2 := by
  obtain ⟨hruns, -, hend⟩ := take_most n size hsteps hf
  have hbatches := (hruns.left hf).2.2
  exact ⟨hruns, hend.resolve_left (by omega)⟩

theorem finish_of_settled {d : Decoder} (h : Settled s.fuel size d) : s.finish size false d = d.outcome? := by
  unfold Source.finish Source.advance
  rw [advance_of_settled h]
  cases d with
  | holding batch next => exact h.elim
  | opening c => rfl
  | reading c first batch count => rfl
  | closing c count => rfl
  | failing f => rfl
  | finished outcome => rfl

theorem start_enough (s : Source) : Enough (start s).ahead s.fuel := by
  unfold Source.fuel enoughSteps
  exact ⟨by simp only [start, ahead, Cursor.stream]; omega, by omega⟩

/-- A feed is delivered by a run of its decoder to the end. -/
theorem deliver_runs (s : Source) (size : Nat) :
    ∃ d, Runs s.fuel size (start s) (deliver s size false).1 d ∧ Settled s.fuel size d ∧
      (deliver s size false).2 = d.outcome? := by
  obtain ⟨hruns, hsettled⟩ := take_runs size (Nat.lt_succ_self _) (Nat.le_refl _) (start_enough s)
  exact ⟨_, hruns, hsettled, finish_of_settled hsettled⟩

/-- **One delivery.** Whatever run of its decoder comes to an end tells what a feed delivers. -/
theorem deliver_of_runs {batches : List Batch} {d : Decoder} (h : Runs s.fuel size (start s) batches d)
    (hd : Settled s.fuel size d) : deliver s size false = (batches, d.outcome?) := by
  obtain ⟨e, hruns, hsettled, hend⟩ := deliver_runs s size
  obtain ⟨hbatches, rfl⟩ := h.unique hruns hd hsettled
  exact Prod.ext hbatches hend

theorem deliver_of_finished {batches : List Batch} {outcome : Outcome}
    (h : Runs s.fuel size (start s) batches (.finished outcome)) : deliver s size false = (batches, some outcome) :=
  deliver_of_runs h (settled_finished s.fuel size outcome)

/-- A feed whose decoder ends is delivered by a run to that end. -/
theorem runs_of_deliver {batches : List Batch} {outcome : Outcome} (h : deliver s size false = (batches, some outcome)) :
    Runs s.fuel size (start s) batches (.finished outcome) := by
  obtain ⟨d, hruns, -, hout⟩ := deliver_runs s size
  rw [h] at hruns hout
  unfold outcome? at hout
  split at hout
  · cases hout
    exact hruns
  · cases hout

/-- A feed whose decoder does not end is delivered by a run to where it waits. -/
theorem runs_of_waiting {batches : List Batch} (h : deliver s size false = (batches, none)) :
    ∃ d, Runs s.fuel size (start s) batches d ∧ d.isBusy = true ∧ d.step s.fuel size false = d := by
  obtain ⟨d, hruns, hsettled, hout⟩ := deliver_runs s size
  rw [h] at hruns hout
  have hbusy : d.isBusy = true := by
    cases d with
    | holding batch next => exact hsettled.elim
    | finished outcome => cases hout
    | opening c => rfl
    | reading c first batch count => rfl
    | closing c count => rfl
    | failing f => rfl
  exact ⟨d, hruns, hbusy, hsettled.stuck hbusy⟩

/-- What a run has handed over at any time comes first in what is delivered. -/
theorem runs_first {batches : List Batch} {d : Decoder} (h : Runs s.fuel size (start s) batches d) :
    batches <+: (deliver s size false).1 := by
  obtain ⟨e, hruns, hsettled, -⟩ := deliver_runs s size
  obtain ⟨later, hlater, -⟩ := h.continues hruns hsettled
  exact ⟨later, hlater.symm⟩

end CatalogSync.Feed
