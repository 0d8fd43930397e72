import CatalogSync.Proofs.Feed.Floor

/-!
# An undisturbed decoder

A decoder that nobody stops is always somewhere on its run through the feed, whenever it works and whenever
its batches are taken. `Undisturbed` says so, and `Undisturbed.deliver_eq` what has been received in the end.
A decoder that never waits (`Flows`) comes to hand over a batch or to finish (`Undisturbed.comes`).
-/

namespace CatalogSync.Feed

open CatalogSync.Json CatalogSync.Json.Outlook

namespace Exchange

/-- An exchange that nobody stops. What its decoder has handed over is what was received and what is on its way. -/
structure Undisturbed (source : Source) (size : Nat) (received : List Batch) (e : Exchange) : Prop where
  source_eq : e.source = source
  fuel_eq : e.fuel = source.fuel
  size_eq : e.size = size
  attended : e.attended = true
  runs : Decoder.Runs source.fuel size (Decoder.start source) (received ++ e.queue) e.decoder

variable {source : Source} {size : Nat} {received : List Batch} {e : Exchange}

theorem start_undisturbed (source : Source) (size : Nat) : Undisturbed source size [] (start source size) :=
  ⟨rfl, rfl, rfl, rfl, .stop _⟩

theorem Undisturbed.work (h : Undisturbed source size received e) : Undisturbed source size received (e.work false) := by
  obtain ⟨hsource, hfuel, hsize, hattended, hruns⟩ := h
  by_cases hd : ∃ batch next, e.decoder = .holding batch next
  · obtain ⟨batch, next, hd⟩ := hd
    rcases work_of_holding hd hattended false with hwork | hwork
    · rw [hwork]
      refine ⟨hsource, hfuel, hsize, hattended, ?_⟩
      rw [hd] at hruns
      have hrun := hruns.trans (.hand (.stop next))
      rwa [List.append_assoc] at hrun
    · rw [hwork]
      exact ⟨hsource, hfuel, hsize, hattended, hruns⟩
  · have hno : ∀ batch next, e.decoder ≠ .holding batch next := fun batch next h => hd ⟨batch, next, h⟩
    rw [work_of_not_holding hno, hfuel, hsize]
    refine ⟨hsource, rfl, rfl, hattended, ?_⟩
    by_cases hbusy : e.decoder.isBusy = true
    · exact hruns.on (.step hbusy (.stop _))
    · rw [Decoder.step_of_not_busy hbusy]
      exact hruns

theorem Undisturbed.take {items : Batch} {e' : Exchange} (h : Undisturbed source size received e)
    (htake : e.take? = some (.batch items, e')) : Undisturbed source size (received ++ [items]) e' := by
  obtain ⟨hsource, hfuel, hsize, hattended, hruns⟩ := h
  obtain ⟨queue, hqueue, rfl⟩ := take_batch htake
  refine ⟨hsource, hfuel, hsize, hattended, ?_⟩
  rw [hqueue] at hruns
  rwa [List.append_assoc]

theorem Undisturbed.received_first (h : Undisturbed source size received e) :
    received <+: (deliver source size false).1 :=
  (List.prefix_append received e.queue).trans (runs_first h.runs)

/-- When the decoder has finished, what has been received and what is on its way is all there is. -/
theorem Undisturbed.deliver_of_outcome {outcome : Outcome} (h : Undisturbed source size received e)
    (hout : e.outcome? = some outcome) : deliver source size false = (received ++ e.queue, some outcome) := by
  have hruns := h.runs
  rw [decoder_of_outcome hout] at hruns
  exact deliver_of_finished hruns

theorem Undisturbed.deliver_eq {outcome : Outcome} (h : Undisturbed source size received e) (hqueue : e.queue = [])
    (hout : e.outcome? = some outcome) : deliver source size false = (received, some outcome) := by
  have hall := h.deliver_of_outcome hout
  rwa [hqueue, List.append_nil] at hall

/-- Nothing is on its way, and nothing more will be. -/
def Spent (e : Exchange) : Prop := e.queue = [] ∧ e.decoder.hungUp = true

theorem Spent.work (h : e.Spent) : (e.work false).Spent := by
  have hno : ∀ batch next, e.decoder ≠ .holding batch next := by
    intro batch next hd
    have hhung := h.2
    rw [hd] at hhung
    cases hhung
  rw [work_of_not_holding hno]
  exact ⟨h.1, Floor.hungUp_step h.2 _ _ _⟩

/-- Some steps of the decoder. -/
def workFor : Nat → Exchange → Exchange
  | 0, e => e
  | n + 1, e => workFor n (e.work false)

/-- **A decoder that never waits** comes to send a batch on its way or to finish. By induction on the steps that it has
left. -/
theorem Undisturbed.comes (h : Undisturbed source size received e) (hflows : Flows source size) :
    ∃ n, (e.workFor n).queue ≠ [] ∨ ∃ outcome, (e.workFor n).outcome? = some outcome := by
  by_cases hqueue : e.queue = []
  · obtain ⟨k, hk⟩ : ∃ k, e.decoder.stepsLeft = k := ⟨_, rfl⟩
    induction k using Nat.strongRecOn generalizing e with
    | ind k ih =>
      by_cases hbusy : e.decoder.isBusy = true
      · have hno : ∀ batch next, e.decoder ≠ .holding batch next := by
          intro batch next hd
          rw [hd] at hbusy
          cases hbusy
        have hnears : Decoder.Nears e.decoder (e.decoder.step source.fuel size false) :=
          (Decoder.step_nears size false (runs_enough h.runs)).resolve_left (hflows _ _ h.runs hbusy)
        have hwork := work_of_not_holding hno false
        rw [h.fuel_eq, h.size_eq] at hwork
        have hsteps : (e.work false).decoder.stepsLeft < k := by
          rw [hwork, ← hk]
          exact hnears.steps
        have hnone : (e.work false).queue = [] := by rw [hwork, hqueue]
        obtain ⟨n, hn⟩ := ih _ hsteps h.work hnone rfl
        exact ⟨n + 1, hn⟩
      · cases hd : e.decoder with
        | finished outcome =>
          refine ⟨0, .inr ⟨outcome, ?_⟩⟩
          show e.outcome? = _
          unfold outcome?
          rw [hd]
        | holding batch next =>
          refine ⟨1, .inl ?_⟩
          show (e.work false).queue ≠ []
          unfold Exchange.work
          simp [hd, h.attended, hqueue, channelDepth]
        | opening c => exact absurd (by rw [hd]; rfl) hbusy
        | reading c first batch count => exact absurd (by rw [hd]; rfl) hbusy
        | closing c count => exact absurd (by rw [hd]; rfl) hbusy
        | failing f => exact absurd (by rw [hd]; rfl) hbusy
  · exact ⟨0, .inl hqueue⟩

end Exchange

end CatalogSync.Feed
