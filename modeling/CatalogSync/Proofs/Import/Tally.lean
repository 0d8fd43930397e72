import CatalogSync.Feed.Decoder
import CatalogSync.Import.Batch
import Mathlib.Data.List.Basic
import Mathlib.Data.List.Induction

/-!
# What progress counts

The failures of a batch are counted in the batch and then in the run, and both keep only the first few
messages. `absorb_tallied` says what it comes to: progress that has absorbed batches tells the number of
batches, the number of records and the first messages, wherever one batch ends and the next begins.
-/

namespace CatalogSync.Import

def records {α : Type} (read : Json → Except String α) (items : List Json) : List α :=
  items.filterMap fun v => (read v).toOption

/-- What is wrong with the other elements. -/
def faults {α : Type} (read : Json → Except String α) (items : List Json) : List String :=
  items.filterMap fun v => match read v with
    | .ok _ => none
    | .error message => some message

/-- What comes of a batch that is written. -/
def batchResult {α : Type} (read : Json → Except String α) (items : List Json) : BatchResult :=
  { BatchResult.empty.recordFailures (faults read items) with succeeded := (records read items).length }

/-- Progress after so many batches with so many records written, and with these failures. -/
def Progress.tallied (p : Progress) (batches written : Nat) (messages : List String) : Progress :=
  { p with
    batches := p.batches + batches
    succeeded := p.succeeded + written
    failed := p.failed + messages.length
    processed := p.processed + (written + messages.length)
    examples := p.examples ++ (messages.map truncate).take (maxExamples - p.examples.length) }

section Reading

variable {α : Type} (read : Json → Except String α)

theorem records_append (items items' : List Json) :
    records read (items ++ items') = records read items ++ records read items' := List.filterMap_append ..

theorem faults_append (items items' : List Json) :
    faults read (items ++ items') = faults read items ++ faults read items' := List.filterMap_append ..

/-- An element is a record or a fault. -/
theorem records_add_faults (items : List Json) :
    (records read items).length + (faults read items).length = items.length := by
  induction items with
  | nil => rfl
  | cons v items ih =>
    have hone : (records read [v]).length + (faults read [v]).length = 1 := by
      cases hv : read v <;> simp [records, faults, hv, Except.toOption]
    have hrecords := records_append read [v] items
    have hfaults := faults_append read [v] items
    rw [List.singleton_append] at hrecords hfaults
    rw [hrecords, hfaults, List.length_append, List.length_append, List.length_cons]
    omega

theorem readAll_eq (items : List Json) :
    readAll read items = (records read items, BatchResult.empty.recordFailures (faults read items)) := by
  induction items using List.reverseRecOn with
  | nil => rfl
  | append_singleton items v ih =>
    have hstep : readAll read (items ++ [v]) = match read v with
        | .ok a => ((readAll read items).1 ++ [a], (readAll read items).2)
        | .error message => ((readAll read items).1, (readAll read items).2.recordFailure message) := by
      unfold readAll
      exact List.foldl_concat ..
    rw [hstep, ih, records_append, faults_append]
    cases hv : read v with
    | ok a =>
      simp [records, faults, hv, Except.toOption]
    | error message =>
      have hlast : BatchResult.empty.recordFailures (faults read items ++ [message]) =
          (BatchResult.empty.recordFailures (faults read items)).recordFailure message := by
        unfold BatchResult.recordFailures
        rw [List.foldl_concat]
      simp [records, faults, hv, Except.toOption]
      exact hlast.symm

end Reading

theorem recordFailures_eq (b : BatchResult) (messages : List String) :
    b.recordFailures messages = ⟨b.succeeded, b.failed + messages.length,
      b.examples ++ (messages.map truncate).take (maxExamples - b.examples.length)⟩ := by
  induction messages generalizing b with
  | nil => simp [BatchResult.recordFailures]
  | cons message messages ih =>
    have hstep : b.recordFailures (message :: messages) = (b.recordFailure message).recordFailures messages := rfl
    rw [hstep, ih]
    unfold BatchResult.recordFailure
    by_cases hroom : b.examples.length < maxExamples
    · have htake : maxExamples - b.examples.length = maxExamples - (b.examples.length + 1) + 1 := by omega
      simp only [if_pos hroom, List.length_append, List.length_cons, List.length_nil, List.map_cons]
      rw [htake, List.take_succ_cons, List.append_assoc]
      simp only [BatchResult.mk.injEq, true_and]
      exact ⟨by omega, rfl⟩
    · have hnone : maxExamples - b.examples.length = 0 := by omega
      simp only [if_neg hroom, hnone, List.take_zero, List.length_cons]
      simp only [BatchResult.mk.injEq, true_and, and_true]
      omega

theorem tallied_zero (p : Progress) : p.tallied 0 0 [] = p := by
  simp [Progress.tallied]

/-- The first messages of all, taken batch by batch. -/
theorem take_messages (xs ys : List String) (before : Nat) :
    xs.take (maxExamples - before) ++
        (ys.take maxExamples).take (maxExamples - (before + (xs.take (maxExamples - before)).length)) =
      (xs ++ ys).take (maxExamples - before) := by
  have hroom : min (maxExamples - (before + min (maxExamples - before) xs.length)) maxExamples =
      maxExamples - before - xs.length := by omega
  rw [List.take_append, List.take_take, List.length_take, hroom]

/-- **One more batch**, of which so many records were written and these failures kept. -/
theorem tallied_absorb (p : Progress) (batches written : Nat) (messages : List String) {b : BatchResult}
    {failures : List String} (hfailed : b.failed = failures.length)
    (hexamples : b.examples = (failures.map truncate).take maxExamples) :
    (p.tallied batches written messages).absorb b =
      p.tallied (batches + 1) (written + b.succeeded) (messages ++ failures) := by
  have htake := take_messages (messages.map truncate) (failures.map truncate) p.examples.length
  unfold Progress.absorb Progress.tallied
  simp only [hfailed, hexamples, List.length_append, List.map_append]
  rw [List.append_assoc, htake]
  simp only [Progress.mk.injEq, true_and, and_true]
  omega

/-- One more batch without failures but those of its elements. -/
theorem absorb_tallied {α : Type} (read : Json → Except String α) (p : Progress) (batches written : Nat)
    (messages : List String) (items : List Json) :
    (p.tallied batches written messages).absorb (batchResult read items) =
      p.tallied (batches + 1) (written + (records read items).length) (messages ++ faults read items) := by
  refine tallied_absorb p batches written messages ?_ ?_
  · unfold batchResult
    rw [recordFailures_eq]
    exact Nat.zero_add _
  · unfold batchResult
    rw [recordFailures_eq]
    rfl

end CatalogSync.Import
