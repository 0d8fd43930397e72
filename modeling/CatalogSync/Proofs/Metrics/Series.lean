import CatalogSync.Metrics.Registry
import CatalogSync.Proofs.Binary64.Counting
import Mathlib.Data.List.Induction
import Mathlib.Data.List.Lex
import Mathlib.Data.String.Basic

/-!
# Counters and gauges

The label values of a series rise, whatever is recorded (`Orderly.record`), so that an update finds the value that it
changes (`Series.find?_update_self`). A counter then holds what was added to it from the beginning, as long as that stays
below `2 ^ 53`, up to where doubles count right.

Main statements: `count_importRuns` and `count_importRecords`, for any sequence of events.
-/

namespace CatalogSync.Metrics

namespace Series

variable {α : Type} {s : Series α} {labels other : List String} {initial : α} {f : α → α}

/-! ## Series -/

theorem find?_cons (key : List String) (value : α) (s : Series α) (labels : List String) :
    find? ((key, value) :: s) labels = if key = labels then some value else s.find? labels := by
  unfold find?
  rw [List.lookup_cons]
  by_cases h : key = labels
  · rw [if_pos h, beq_iff_eq.2 h.symm]
  · rw [if_neg h, beq_eq_false_iff_ne.2 (Ne.symm h)]

/-- The label values of a series rise. -/
def Rising (s : Series α) : Prop := s.Pairwise fun p q => p.1 < q.1

theorem find?_of_forall_lt (h : ∀ p ∈ s, labels < p.1) : s.find? labels = none := by
  induction s with
  | nil => rfl
  | cons p r ih =>
    obtain ⟨hp, hr⟩ := List.forall_mem_cons.1 h
    rw [find?_cons, if_neg (ne_of_gt hp), ih hr]

theorem find?_update_self (h : Rising s) :
    (s.update labels initial f).find? labels = some (f ((s.find? labels).getD initial)) := by
  induction s with
  | nil =>
    unfold update
    rw [find?_cons, if_pos rfl]
    rfl
  | cons p r ih =>
    obtain ⟨key, value⟩ := p
    obtain ⟨hhead, hrest⟩ := List.pairwise_cons.1 h
    unfold update
    rw [find?_cons key value]
    by_cases hkey : key = labels
    · rw [if_pos hkey, if_pos hkey, find?_cons, if_pos hkey, Option.getD_some]
    · rw [if_neg hkey, if_neg hkey]
      by_cases hlt : labels < key
      · -- what comes before the first label values is under none of them
        have hnew : Series.find? r labels = none := find?_of_forall_lt fun p hp => lt_trans hlt (hhead p hp)
        rw [if_pos hlt, find?_cons, if_pos rfl, hnew, Option.getD_none]
      · rw [if_neg hlt, find?_cons, if_neg hkey, ih hrest]

theorem find?_update_of_ne (h : other ≠ labels) : (s.update labels initial f).find? other = s.find? other := by
  induction s with
  | nil =>
    unfold update
    rw [find?_cons, if_neg (Ne.symm h)]
  | cons p r ih =>
    obtain ⟨key, value⟩ := p
    unfold update
    by_cases hkey : key = labels
    · have hne : key ≠ other := fun hother => h (hother.symm.trans hkey)
      rw [if_pos hkey, find?_cons, find?_cons, if_neg hne, if_neg hne]
    · rw [if_neg hkey]
      split
      · rw [find?_cons, if_neg (Ne.symm h)]
      · rw [find?_cons, find?_cons, ih]

theorem mem_update {p : List String × α} (h : p ∈ s.update labels initial f) : p.1 = labels ∨ p ∈ s := by
  induction s with
  | nil =>
    rw [List.mem_singleton.1 h]
    exact .inl rfl
  | cons q r ih =>
    obtain ⟨key, value⟩ := q
    unfold update at h
    split at h
    · next hkey =>
      rcases List.mem_cons.1 h with rfl | hmem
      · exact .inl hkey
      · exact .inr (List.mem_cons_of_mem _ hmem)
    · split at h
      · rcases List.mem_cons.1 h with rfl | hmem
        · exact .inl rfl
        · exact .inr hmem
      · rcases List.mem_cons.1 h with rfl | hmem
        · exact .inr List.mem_cons_self
        · exact (ih hmem).imp_right (List.mem_cons_of_mem _)

theorem Rising.update (h : Rising s) : Rising (s.update labels initial f) := by
  induction s with
  | nil => exact List.pairwise_singleton _ _
  | cons q r ih =>
    obtain ⟨key, value⟩ := q
    obtain ⟨hhead, hrest⟩ := List.pairwise_cons.1 h
    unfold Series.update
    split
    · exact List.pairwise_cons.2 ⟨hhead, hrest⟩
    · next hne =>
      split
      · next hlt =>
        refine List.pairwise_cons.2 ⟨fun p hp => ?_, h⟩
        rcases List.mem_cons.1 hp with rfl | hp
        · exact hlt
        · exact lt_trans hlt (hhead p hp)
      · next hge =>
        have hlt : key < labels := lt_of_le_of_ne (not_lt.1 hge) hne
        refine List.pairwise_cons.2 ⟨fun p hp => ?_, ih hrest⟩
        rcases mem_update hp with hnew | hold
        · exact hnew ▸ hlt
        · exact hhead p hold

/-- What a counter has come to: nothing, before it is first incremented. -/
def count (s : Series Binary64) (labels : List String) : Binary64 := (s.find? labels).getD (Binary64.zero false)

end Series

/-! ## The registry -/

/-- The label values of all counters and gauges of a registry rise. -/
structure Orderly (r : Registry) : Prop where
  taskRunning : r.taskRunning.Rising
  importRecords : r.importRecords.Rising
  importRuns : r.importRuns.Rising
  catalogItems : r.catalogItems.Rising

namespace Orderly

theorem start : Orderly {} := ⟨.nil, .nil, .nil, .nil⟩

variable {r : Registry}

theorem record (h : Orderly r) (e : Event) : Orderly (r.record e) := by
  cases e with
  | taskExecution => exact ⟨h.taskRunning, h.importRecords, h.importRuns, h.catalogItems⟩
  | taskRunning => exact ⟨h.taskRunning.update, h.importRecords, h.importRuns, h.catalogItems⟩
  | importRecords => exact ⟨h.taskRunning, h.importRecords.update.update, h.importRuns, h.catalogItems⟩
  | importRun => exact ⟨h.taskRunning, h.importRecords, h.importRuns.update, h.catalogItems⟩
  | jobsCleaned => exact ⟨h.taskRunning, h.importRecords, h.importRuns, h.catalogItems⟩
  | catalogItems => exact ⟨h.taskRunning, h.importRecords, h.importRuns, h.catalogItems.update⟩

theorem fold (h : Orderly r) (events : List Event) : Orderly (events.foldl Registry.record r) := by
  induction events generalizing r with
  | nil => exact h
  | cons e events ih => exact ih (h.record e)

end Orderly

/-! ## Counters -/

namespace Registry

def after (events : List Event) : Registry := events.foldl record {}

theorem after_concat (events : List Event) (e : Event) : after (events ++ [e]) = (after events).record e :=
  List.foldl_concat ..

theorem after_orderly (events : List Event) : Orderly (after events) := Orderly.start.fold events

theorem count_addTo {s : Series Binary64} (h : s.Rising) (labels other : List String) (n : Nat) :
    (addTo s labels n).count other = if other = labels then (s.count labels).add (Binary64.ofNat n) else s.count other := by
  unfold addTo Series.count
  split
  · next heq => rw [heq, Series.find?_update_self h, Option.getD_some]
  · next hne => rw [Series.find?_update_of_ne hne]

/-- A counter adds up what each event adds to it. -/
theorem count_after {series : Registry → Series Binary64} {labels : List String} {amount : Event → Nat}
    (hzero : (series {}).count labels = Binary64.ofNat 0)
    (hstep : ∀ r e n, Orderly r → n + amount e < 2 ^ 53 → (series r).count labels = Binary64.ofNat n →
      (series (r.record e)).count labels = Binary64.ofNat (n + amount e))
    (events : List Event) (hsmall : (events.map amount).sum < 2 ^ 53) :
    (series (after events)).count labels = Binary64.ofNat (events.map amount).sum := by
  induction events using List.reverseRecOn with
  | nil => exact hzero
  | append_singleton events e ih =>
    rw [List.map_append, List.sum_append, List.map_singleton, List.sum_singleton] at hsmall ⊢
    rw [after_concat]
    exact hstep _ e _ (after_orderly events) hsmall (ih (by omega))

/-- How much an event adds to the counter of runs. -/
def runsIn (dataset status : String) : Event → Nat
  | .importRun d s _ => if d = dataset ∧ s = status then 1 else 0
  | _ => 0

theorem count_importRuns (dataset status : String) (events : List Event)
    (hsmall : (events.map (runsIn dataset status)).sum < 2 ^ 53) :
    (after events).importRuns.count [dataset, status] = Binary64.ofNat (events.map (runsIn dataset status)).sum := by
  refine count_after rfl (fun r e n horder hsum hcount => ?_) events hsmall
  cases e with
  | importRun d s elapsed =>
    show (addTo r.importRuns [d, s] 1).count [dataset, status] = _
    rw [count_addTo horder.importRuns]
    by_cases h : d = dataset ∧ s = status
    · obtain ⟨rfl, rfl⟩ := h
      simp only [runsIn, and_self, if_true] at hsum ⊢
      rw [hcount, Binary64.add_ofNat hsum]
    · have hne : ¬ [dataset, status] = [d, s] := fun heq => h (by simpa [eq_comm] using heq)
      rw [if_neg hne, hcount, runsIn, if_neg h, Nat.add_zero]
  | _ => exact hcount

/-- How much an event adds to the counter of records that succeeded or failed. -/
def recordsIn (dataset : String) (succeeded : Bool) : Event → Nat
  | .importRecords d yes no => if d = dataset then (if succeeded then yes else no) else 0
  | _ => 0

def outcomeOf (succeeded : Bool) : String := if succeeded then "succeeded" else "failed"

theorem count_importRecords (dataset : String) (succeeded : Bool) (events : List Event)
    (hsmall : (events.map (recordsIn dataset succeeded)).sum < 2 ^ 53) :
    (after events).importRecords.count [dataset, outcomeOf succeeded] =
      Binary64.ofNat (events.map (recordsIn dataset succeeded)).sum := by
  refine count_after rfl (fun r e n horder hsum hcount => ?_) events hsmall
  cases e with
  | importRecords d yes no =>
    show (addTo (addTo r.importRecords [d, "succeeded"] yes) [d, "failed"] no).count _ = _
    have hrising : (addTo r.importRecords [d, "succeeded"] yes).Rising := horder.importRecords.update
    rw [count_addTo hrising, count_addTo horder.importRecords, count_addTo horder.importRecords]
    by_cases h : d = dataset
    · subst h
      cases succeeded <;> simp [recordsIn, outcomeOf] at hsum hcount ⊢ <;> rw [hcount, Binary64.add_ofNat hsum]
    · cases succeeded <;> simp [recordsIn, outcomeOf, h, Ne.symm h] at hcount ⊢ <;> exact hcount
  | _ => exact hcount

/-! ## Gauges -/

theorem find?_setTo {s : Series Binary64} (h : s.Rising) (labels other : List String) (n : Nat) :
    (setTo s labels n).find? other = if other = labels then some (Binary64.ofNat n) else s.find? other := by
  unfold setTo
  split
  · next heq => rw [heq, Series.find?_update_self h]
  · next hne => rw [Series.find?_update_of_ne hne]

theorem find?_taskRunning_record {r : Registry} (h : Orderly r) (task : String) (running : Bool) (other : String) :
    (r.record (.taskRunning task running)).taskRunning.find? [other] =
      if other = task then some (Binary64.ofNat (if running then 1 else 0)) else r.taskRunning.find? [other] := by
  show (setTo r.taskRunning [task] _).find? [other] = _
  rw [find?_setTo h.taskRunning]
  simp only [List.cons.injEq, and_true]

theorem find?_catalogItems_record {r : Registry} (h : Orderly r) (dataset : String) (count : Nat) (other : String) :
    (r.record (.catalogItems dataset count)).catalogItems.find? [other] =
      if other = dataset then some (Binary64.ofNat count) else r.catalogItems.find? [other] := by
  show (setTo r.catalogItems [dataset] _).find? [other] = _
  rw [find?_setTo h.catalogItems]
  simp only [List.cons.injEq, and_true]

/-- How many rows a dataset has stays as it is until it is told again. -/
theorem find?_catalogItems_fold {r : Registry} (h : Orderly r) {dataset : String} {events : List Event}
    (hnone : ∀ n, .catalogItems dataset n ∉ events) :
    (events.foldl record r).catalogItems.find? [dataset] = r.catalogItems.find? [dataset] := by
  induction events generalizing r with
  | nil => rfl
  | cons e events ih =>
    rw [List.foldl_cons, ih (h.record e) fun n hn => hnone n (List.mem_cons_of_mem _ hn)]
    cases e with
    | catalogItems d count =>
      have hne : dataset ≠ d := by
        rintro rfl
        exact hnone count List.mem_cons_self
      rw [find?_catalogItems_record h, if_neg hne]
    | _ => rfl

end Registry

end CatalogSync.Metrics
