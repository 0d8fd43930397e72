import CatalogSync.Proofs.Feed.Document

/-!
# Where a decoder fails and where it waits

`Decoder.Fails` says that what comes next at a decoder does not read. It is all that can hold a decoder up
(`fails_or_goes_on`): with an unfinished read it waits, with any other failure it fails (`Fails.step`). A read is
unfinished only where the text stalls, so the decoder of a feed that does not stall never waits (`flows_of_ending`).
-/

namespace CatalogSync.Feed

open CatalogSync.Json CatalogSync.Json.Outlook

namespace Decoder

variable {fuel size : Nat} {ending : Ending} {d : Decoder} {f : Failure}

/-! ## What comes next does not read -/

/-- What comes next at a decoder does not read, for this reason. -/
inductive Fails (fuel : Nat) : Decoder → Failure → Prop
  | opening {c : Cursor} {f : Failure} (h : openArray c = .error f) : Fails fuel (.opening c) f
  | reading {c : Cursor} {f : Failure} (first : Bool) (batch : Batch) (count : Nat)
      (h : nextElement fuel c first = .error f) : Fails fuel (.reading c first batch count) (f.placedAt (endOf c))
  | closing {c : Cursor} {f : Failure} (count : Nat) (h : readEnd c = .error f) : Fails fuel (.closing c count) f

theorem Fails.isBusy (h : Fails fuel d f) : d.isBusy = true := by
  cases h <;> rfl

/-- With an unfinished read a decoder waits, with any other failure it fails. -/
theorem Fails.step (h : Fails fuel d f) (size : Nat) :
    d.step fuel size false = if f.cause = .stalled then d else .failing f := by
  cases h with
  | opening h =>
    simp only [Decoder.step, h]
    split
    · next hf => rw [if_pos hf]
    · next hf => rw [if_neg hf]
  | @reading c f first batch count h =>
    simp only [Decoder.step, h, Bool.false_eq_true, if_false, failed, placedAt_cause]
    split
    · next hf => rw [if_pos hf]
    · next hf => rw [if_neg hf]
  | closing count h =>
    simp only [Decoder.step, h]
    split
    · next hf => rw [if_pos hf]
    · next hf => rw [if_neg hf]

theorem Fails.stuck (h : Fails fuel d f) (hf : f.cause = .stalled) (size : Nat) : d.step fuel size false = d := by
  rw [h.step, if_pos hf]

theorem Fails.failing (h : Fails fuel d f) (hf : f.cause ≠ .stalled) (size : Nat) :
    d.step fuel size false = .failing f := by
  rw [h.step, if_neg hf]

/-- Unless what comes next does not read, a decoder goes on, and it does not fail. -/
theorem fails_or_goes_on (size : Nat) (hbusy : d.isBusy = true) (hf : Enough d.ahead fuel) :
    (∃ f, Fails fuel d f) ∨ (d.step fuel size false ≠ d ∧ ∀ f, d.step fuel size false ≠ .failing f) := by
  cases d with
  | opening c =>
    cases hc : openArray c with
    | error f => exact .inl ⟨f, .opening hc⟩
    | ok c' =>
      right
      simp only [step, hc]
      split
      · exact ⟨Decoder.noConfusion, fun _ => Decoder.noConfusion⟩
      · exact ⟨Decoder.noConfusion, fun _ => Decoder.noConfusion⟩
  | reading c first batch count =>
    cases hc : nextElement fuel c first with
    | error f => exact .inl ⟨_, .reading first batch count hc⟩
    | ok p =>
      obtain ⟨v, c'⟩ := p
      have hlater := nextElement_later hf hc
      right
      simp only [step, hc, Bool.false_eq_true, if_false]
      cases v with
      | none =>
        dsimp only
        split
        · exact ⟨Decoder.noConfusion, fun _ => Decoder.noConfusion⟩
        · exact ⟨Decoder.noConfusion, fun _ => Decoder.noConfusion⟩
      | some v =>
        dsimp only
        split
        · exact ⟨Decoder.noConfusion, fun _ => Decoder.noConfusion⟩
        · -- the cursor has moved on
          refine ⟨fun hsame => ?_, fun _ => Decoder.noConfusion⟩
          injection hsame with hcursor
          rw [hcursor] at hlater
          exact Nat.not_succ_le_self _ hlater
  | holding batch next => cases hbusy
  | closing c count =>
    cases hc : readEnd c with
    | error f => exact .inl ⟨f, .closing count hc⟩
    | ok u =>
      right
      simp only [step, hc]
      exact ⟨Decoder.noConfusion, fun _ => Decoder.noConfusion⟩
  | failing f => exact .inr ⟨Decoder.noConfusion, fun _ => Decoder.noConfusion⟩
  | finished outcome => cases hbusy

/-- A decoder that does not go on waits for what comes next. -/
theorem waits_of_stuck (hbusy : d.isBusy = true) (hf : Enough d.ahead fuel) (hstep : d.step fuel size false = d) :
    ∃ f, Fails fuel d f ∧ f.cause = .stalled := by
  rcases fails_or_goes_on size hbusy hf with ⟨f, h⟩ | ⟨hon, -⟩
  · refine ⟨f, h, Classical.byContradiction fun hcause => ?_⟩
    rw [h.failing hcause] at hstep
    subst hstep
    cases h
  · exact absurd hstep hon

/-- A decoder that comes to fail does so because what came next did not read. -/
theorem fails_of_failing (hbusy : d.isBusy = true) (hf : Enough d.ahead fuel)
    (hstep : d.step fuel size false = .failing f) : Fails fuel d f ∧ f.cause ≠ .stalled := by
  rcases fails_or_goes_on size hbusy hf with ⟨g, h⟩ | ⟨-, hon⟩
  · by_cases hcause : g.cause = .stalled
    · rw [h.stuck hcause] at hstep
      subst hstep
      cases h
    · rw [h.failing hcause] at hstep
      injection hstep with hg
      exact hg ▸ ⟨h, hcause⟩
  · exact absurd hstep (hon f)

/-! ## The end of the text tells -/

theorem tells_of_agree {α β : Type} {R : α → β → Prop} {c : Cursor} {y : Except Failure β}
    (h : Agree ⟨false, false, [], c.ending⟩ R (.error f : Except Failure α) y) : c.ending.Tells f.cause := by
  rcases h with hw | ⟨g, -, -, -, htells⟩
  · cases hw.waiting
  · exact htells

/-- What comes next fails by the bytes or by how the text ends. -/
theorem Fails.tells (h : Fails fuel d f) (hd : d.EndsWith ending) (hf : Enough d.ahead fuel) :
    ending.Tells f.cause := by
  cases h with
  | @opening c f h =>
    have hagree := agree_openArray (sees_self c).at
    rw [h] at hagree
    exact (show c.ending = ending from hd) ▸ tells_of_agree hagree
  | @reading c f first batch count h =>
    have hagree := agree_nextElement (sees_self c).at hf hf first
    rw [h] at hagree
    rw [placedAt_cause]
    exact (show c.ending = ending from hd) ▸ tells_of_agree hagree
  | @closing c f count h =>
    have hagree := agree_readEnd (sees_self c).at
    rw [h] at hagree
    exact (show c.ending = ending from hd) ▸ tells_of_agree hagree

/-- **A decoder waits only where its feed stalls.** -/
theorem step_of_flowing (size : Nat) (h : d.EndsWith ending) (hflows : ending ≠ .stalled)
    (hf : Enough d.ahead fuel) (hbusy : d.isBusy = true) : Nears d (d.step fuel size false) := by
  rcases step_nears size false hf with hstep | hnears
  · obtain ⟨f, hfails, hcause⟩ := waits_of_stuck hbusy hf hstep
    exact absurd ((hfails.tells h hf).eq_stalled hcause) hflows
  · exact hnears

end Decoder

/-! ## Feeds that flow -/

/-- Wherever the decoder of a feed is on its way, it can go on. -/
def Flows (source : Source) (size : Nat) : Prop :=
  ∀ batches d, Decoder.Runs source.fuel size (Decoder.start source) batches d → d.isBusy = true →
    d.step source.fuel size false ≠ d

variable {source : Source} {size : Nat}

theorem runs_enough {batches : List Batch} {d : Decoder}
    (h : Decoder.Runs source.fuel size (Decoder.start source) batches d) : Enough d.ahead source.fuel := by
  have hstart := start_enough source
  have hleft := h.left hstart
  exact ⟨by have := hstart.1; omega, hstart.2⟩

theorem flows_of_ending (h : source.ending ≠ .stalled) : Flows source size := by
  intro batches d hruns hbusy hstep
  have hends : d.EndsWith source.ending := hruns.endsWith rfl (start_enough source)
  have hsteps := (Decoder.step_of_flowing size hends h (runs_enough hruns) hbusy).steps
  rw [hstep] at hsteps
  exact Nat.lt_irrefl _ hsteps

/-- A decoder that comes to an end does not wait before, even if the feed stalls after that. -/
theorem flows_of_deliver {batches : List Batch} {outcome : Outcome}
    (h : deliver source size false = (batches, some outcome)) : Flows source size :=
  fun _ _ hruns hbusy => (runs_of_deliver h).goes_on hruns hbusy

end CatalogSync.Feed
