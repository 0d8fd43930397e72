import CatalogSync.Proofs.Import.Intruders
import CatalogSync.Proofs.Import.Recording
import CatalogSync.Proofs.Metrics.Series
import Mathlib.Algebra.BigOperators.Group.Finset.Piecewise
import Mathlib.Data.Fintype.BigOperators

/-!
# What the metrics account for

Calls that import either dataset are made one after the other or side by side, and end as they may. The events of each are
among those of all, so that a counter comes to the sum of what each call adds to it (`tally_all`). A gauge only shows what
was told last, and a call counts the rows when it has already given back the lock.

Main statement: `metrics_account_for_every_call`.
-/

namespace CatalogSync.Import

open CatalogSync.Metrics (Registry)
open CatalogSync.Program CatalogSync.Server

/-! ## A server whose rows and imports are counted -/

/-- The same metrics of imports. -/
structure SameImports (r r' : Registry) : Prop where
  records : r'.importRecords = r.importRecords
  runs : r'.importRuns = r.importRuns
  items : r'.catalogItems = r.catalogItems

/-- A server on which nobody but the programs records imports, or makes or removes rows. -/
def counting : World Server where
  stirs s s' := SameImports s.registry s'.registry ∧ ∀ dataset, s'.countRows dataset = s.countRows dataset
  answers := alone.answers

/-- Programs that have a server to themselves run on such a one. -/
theorem counting_of_alone {ι : Type} [DecidableEq ι] {ps rs : ι → Program (Except Failure Summary)} {s s' : Server}
    {t : List (ι × Event)} (hrun : Together alone ps s t rs s') : Together counting ps s t rs s' := by
  induction hrun with
  | start ps s => exact .start ps s
  | stir hstir _ ih =>
    refine .stir ?_ ih
    cases hstir <;> exact ⟨⟨rfl, rfl, rfl⟩, fun _ => rfl⟩
  | answer hi hans _ ih => exact .answer hi hans ih

section Registry

variable {r r' r'' : Registry}

theorem SameImports.trans (h : SameImports r r') (h' : SameImports r' r'') : SameImports r r'' :=
  ⟨h'.records.trans h.records, h'.runs.trans h.runs, h'.items.trans h.items⟩

theorem SameImports.record (h : SameImports r r') (e : Metrics.Event) : SameImports (r.record e) (r'.record e) := by
  obtain ⟨hrecords, hruns, hitems⟩ := h
  cases e
  all_goals
    unfold Registry.record
    constructor
    all_goals simp only [hrecords, hruns, hitems]

theorem SameImports.fold (h : SameImports r r') (events : List Metrics.Event) :
    SameImports (events.foldl Registry.record r) (events.foldl Registry.record r') := by
  induction events generalizing r r' with
  | nil => exact h
  | cons e events ih => exact ih (h.record e)

end Registry

section Takes

variable {dataset : Dataset} {job : Int} {s s' : Server} {q : Ask} {a : q.Answer} {t : List Event}

theorem alone_registry (h : alone.answers s q a s') :
    s'.registry = (recordedIn [⟨q, a⟩]).foldl Registry.record s.registry := by
  by_cases hnote : isNote q = true
  · rcases alone_note hnote h with ⟨hrefuses, rfl⟩ | ⟨n, hanswer, rfl, -⟩
    · cases q <;> first | rfl | cases hrefuses
    · cases q <;> cases hanswer <;> rfl
  · have hkept : s'.registry = s.registry :=
      congrArg Notes.registry (alone_withNotes (Bool.eq_false_iff.2 hnote) h s.notes).2
    rw [hkept]
    cases q <;> first | rfl | exact absurd rfl hnote

/-- **The metrics** of imports at the end are made of what the events record. -/
theorem takes_registry (h : counting.Takes s t s') :
    SameImports ((recordedIn t).foldl Registry.record s.registry) s'.registry := by
  induction h with
  | start => exact ⟨rfl, rfl, rfl⟩
  | stir hstir _ ih => exact (hstir.1.fold _).trans ih
  | @answer s m s' q a t hans _ ih =>
    have hsplit : recordedIn (⟨q, a⟩ :: t) = recordedIn [⟨q, a⟩] ++ recordedIn t := recordedIn_append (t := [⟨q, a⟩])
    rwa [hsplit, List.foldl_append, ← alone_registry hans]

/-- How many rows of a dataset there are by deeds. -/
def rowsOf (d : Deeds) : Dataset → Nat
  | .cards => d.catalog.cards.length
  | .sets => d.catalog.sets.length

theorem rowsOf_deeds (job : Int) (s : Server) (dataset : Dataset) : rowsOf (s.deeds job) dataset = s.countRows dataset := by
  cases dataset
  all_goals exact List.length_map ..

theorem rowsOf_changeRow (d : Deeds) (isOwn : Bool) (f : Ledger.Row → Ledger.Row) (dataset : Dataset) :
    rowsOf (d.changeRow isOwn f) dataset = rowsOf d dataset := by
  unfold Deeds.changeRow
  split <;> rfl

/-- Rows come by upserts alone. -/
theorem rowsOf_after (hq : writesTo dataset q = false) (a : q.Answer) (d : Deeds) :
    rowsOf (d.after job ⟨q, a⟩) dataset = rowsOf d dataset := by
  cases q with
  | upsertCards cards =>
    cases dataset with
    | cards => cases hq
    | sets => cases a <;> rfl
  | upsertSets sets =>
    cases dataset with
    | cards => cases a <;> rfl
    | sets => cases hq
  | writeSetting | createFile | appendFile => cases a <;> rfl
  | startJob | completeJob | failJob | publish =>
    cases a with
    | error e => rfl
    | ok _ => exact rowsOf_changeRow ..
  | recordIcon code path =>
    cases a with
    | error e => rfl
    | ok _ =>
      cases dataset with
      | cards => rfl
      | sets => exact List.length_map ..
  | moveFile source target =>
    cases a with
    | error e => rfl
    | ok _ =>
      unfold Deeds.after
      dsimp only
      split <;> rfl
  | _ => rfl

/-- What does not write records of a dataset leaves its rows alone. -/
theorem takes_countRows (h : counting.Takes s t s')
    (ht : ∀ e ∈ t, keepsJobs e.1 = true ∧ writesTo dataset e.1 = false) : s'.countRows dataset = s.countRows dataset := by
  induction h with
  | start => rfl
  | stir hstir _ ih => rw [ih ht, hstir.2]
  | answer hans _ ih =>
    obtain ⟨⟨hjobs, hwrites⟩, hrest⟩ := List.forall_mem_cons.1 ht
    rw [ih hrest, ← rowsOf_deeds 0, alone_deeds hjobs hans, rowsOf_after hwrites, rowsOf_deeds]

theorem alone_counted {n : Nat} (h : alone.answers s (.countRows dataset) (.ok n) s') :
    n = s.countRows dataset ∧ s' = s := by
  rcases h with h | ⟨⟨e, he⟩, -⟩
  · rcases guarded_cases (Option.some.inj h) with ⟨e, he⟩ | ⟨-, hf⟩
    · cases he
    · cases hf
      exact ⟨rfl, rfl⟩
  · cases he

/-- Rows that have been counted and then left alone. -/
theorem takes_counted {n : Nat} (h : counting.Takes s (⟨.countRows dataset, .ok n⟩ :: t) s')
    (ht : ∀ e ∈ t, keepsJobs e.1 = true ∧ writesTo dataset e.1 = false) : n = s'.countRows dataset := by
  generalize hu : (⟨.countRows dataset, .ok n⟩ :: t : List Event) = u at h
  induction h with
  | start => cases hu
  | stir _ _ ih => exact ih hu
  | answer hans hrest =>
    cases hu
    obtain ⟨hn, rfl⟩ := alone_counted hans
    rw [takes_countRows hrest ht, hn]

end Takes

/-! ## The events of one call among those of all -/

section Own

variable {ι : Type} [DecidableEq ι] {i : ι} {t : List (ι × Event)}

def tally (amount : Metrics.Event → Nat) (t : List Event) : Nat := ((recordedIn t).map amount).sum

theorem tally_cons (amount : Metrics.Event → Nat) (e : Event) (t : List Event) :
    tally amount (e :: t) = (recorded? e).elim 0 amount + tally amount t := by
  unfold tally recordedIn
  rw [List.filterMap_cons]
  cases recorded? e with
  | none => exact (Nat.zero_add _).symm
  | some event => exact List.sum_cons

/-- **Every call counts.** A counter comes to what the calls add to it one by one. -/
theorem tally_all [Fintype ι] (amount : Metrics.Event → Nat) (t : List (ι × Event)) :
    tally amount (t.map Prod.snd) = ∑ i, tally amount (own i t) := by
  induction t with
  | nil => exact Finset.sum_const_zero.symm
  | cons e t ih =>
    obtain ⟨j, e⟩ := e
    have hown : ∀ i, tally amount (own i ((j, e) :: t)) =
        (if j = i then (recorded? e).elim 0 amount else 0) + tally amount (own i t) := by
      intro i
      by_cases hij : j = i
      · subst hij
        rw [own_cons_self, tally_cons, if_pos rfl]
      · rw [own_cons_of_ne hij, if_neg hij, Nat.zero_add]
    rw [List.map_cons, tally_cons, ih]
    simp only [hown, Finset.sum_add_distrib, Finset.sum_ite_eq, Finset.mem_univ, if_true]

/-- Where an event of a call stands among all. -/
theorem own_split {a b : List Event} {e : Event} (h : own i t = a ++ e :: b) :
    ∃ u v, t = u ++ (i, e) :: v ∧ own i v = b := by
  obtain ⟨u, w, rfl, -, hw⟩ := List.filterMap_eq_append_iff.1 h
  obtain ⟨x, ⟨j, d⟩, v, rfl, -, hd, hv⟩ := List.filterMap_eq_cons_iff.1 hw
  by_cases hj : j = i
  · subst hj
    obtain rfl : d = e := by simpa using hd
    exact ⟨u ++ x, v, by simp, hv⟩
  · simp [hj] at hd

end Own

/-! ## What one call adds -/

theorem datasetKey_injective {d d' : Dataset} (h : d.key = d'.key) : d = d' := by
  cases d <;> cases d' <;> first | rfl | exact absurd h (by decide)

def runStatuses : List String :=
  [successStatus, "config", "transport", "http_status", "dataset_not_found", "framing", "threshold_exceeded", "cancelled",
    "already_running", "store"]

/-- Every call is counted under one of them. -/
theorem runStatus_once (outcome : Except Failure Summary) :
    (runStatuses.map fun status => if runStatus outcome = status then 1 else 0).sum = 1 := by
  cases outcome with
  | ok summary => simp [runStatuses, runStatus, successStatus]
  | error e => cases e <;> simp [runStatuses, runStatus, successStatus, Failure.kind]

/-- The counter of records that succeeded or failed. -/
def Progress.counter (succeeded : Bool) (p : Progress) : Nat := if succeeded then p.succeeded else p.failed

section One

variable {dataset : Dataset} {job : Int} {outcome : Except Failure Summary} {t : List Event} {final : Option Progress}
  (h : Records dataset job outcome t final)
include h

theorem Records.tally_runs (d : Dataset) (status : String) :
    tally (Registry.runsIn d.key status) t = if dataset = d ∧ runStatus outcome = status then 1 else 0 := by
  obtain ⟨elapsed, rows, hevents, hrows⟩ := h.events
  have hkey : dataset.key = d.key ↔ dataset = d := ⟨datasetKey_injective, congrArg _⟩
  unfold tally
  rw [hevents]
  rcases hrows with rfl | ⟨n, rfl⟩ <;> cases final <;> simp [Registry.runsIn, hkey]

theorem Records.tally_records (d : Dataset) (succeeded : Bool) :
    tally (Registry.recordsIn d.key succeeded) t =
      if dataset = d then final.elim 0 (Progress.counter succeeded) else 0 := by
  obtain ⟨elapsed, rows, hevents, hrows⟩ := h.events
  have hkey : dataset.key = d.key ↔ dataset = d := ⟨datasetKey_injective, congrArg _⟩
  unfold tally
  rw [hevents]
  rcases hrows with rfl | ⟨n, rfl⟩ <;> cases final <;> simp [Registry.recordsIn, Progress.counter, hkey]

theorem Records.not_catalogItems {d : Dataset} (hd : d ≠ dataset) (n : Nat) (a : Unit) :
    ⟨.record (.catalogItems d.key n), a⟩ ∉ t := by
  intro hmem
  obtain ⟨elapsed, rows, hevents, hrows⟩ := h.events
  have hrecorded : Metrics.Event.catalogItems d.key n ∈ recordedIn t := List.mem_filterMap.2 ⟨_, hmem, rfl⟩
  have hkey : d.key ≠ dataset.key := fun hsame => hd (datasetKey_injective hsame)
  rw [hevents] at hrecorded
  rcases hrows with rfl | ⟨m, rfl⟩ <;> cases final <;> simp [hkey] at hrecorded

end One

/-! ## All calls -/

section All

variable {ι : Type} [Fintype ι] [DecidableEq ι]

def imports (setup : Setup) (datasets : ι → Dataset) (jobs : ι → Int) (tokens : ι → Token) :
    ι → Program (Except Failure Summary) :=
  fun i => downloadAndImport setup (datasets i) (jobs i) (tokens i)

/-- The counters of a dataset are those of the calls that import it. -/
structure Balances (datasets : ι → Dataset) (outcomes : ι → Except Failure Summary) (finals : ι → Option Progress)
    (dataset : Dataset) (r : Registry) : Prop where
  runs : ∀ status, r.importRuns.count [dataset.key, status] =
    Binary64.ofNat (Finset.univ.filter fun i => datasets i = dataset ∧ runStatus (outcomes i) = status).card
  total : (runStatuses.map fun status => r.importRuns.count [dataset.key, status]).foldl Binary64.add
    (Binary64.ofNat 0) = Binary64.ofNat (Finset.univ.filter fun i => datasets i = dataset).card
  succeeded : ∑ i with datasets i = dataset, (finals i).elim 0 Progress.succeeded < 2 ^ 53 →
    r.importRecords.count [dataset.key, "succeeded"] =
      Binary64.ofNat (∑ i with datasets i = dataset, (finals i).elim 0 Progress.succeeded)
  failed : ∑ i with datasets i = dataset, (finals i).elim 0 Progress.failed < 2 ^ 53 →
    r.importRecords.count [dataset.key, "failed"] =
      Binary64.ofNat (∑ i with datasets i = dataset, (finals i).elim 0 Progress.failed)

/-- The questions that write records or tell how many rows there are. -/
def bearsOnRows : Ask → Bool
  | .record (.catalogItems _ _) => true
  | q => isUpsert q

variable {setup : Setup} {datasets : ι → Dataset} {jobs : ι → Int} {tokens : ι → Token} {s s' : Server}
  {t u v : List (ι × Event)} {rs : ι → Program (Except Failure Summary)} {outcomes : ι → Except Failure Summary}
  {finals : ι → Option Progress}

omit [DecidableEq ι] in
/-- Summed over the statuses, every call is there once. -/
theorem sum_runStatuses (datasets : ι → Dataset) (outcomes : ι → Except Failure Summary) (dataset : Dataset) :
    (runStatuses.map fun status =>
      (Finset.univ.filter fun i => datasets i = dataset ∧ runStatus (outcomes i) = status).card).sum =
    (Finset.univ.filter fun i => datasets i = dataset).card := by
  have hswap : ∀ statuses : List String,
      (statuses.map fun status => ∑ i, if datasets i = dataset ∧ runStatus (outcomes i) = status then 1 else 0).sum =
        ∑ i, (statuses.map fun status => if datasets i = dataset ∧ runStatus (outcomes i) = status then 1 else 0).sum := by
    intro statuses
    induction statuses with
    | nil => simp
    | cons status statuses ih => simp only [List.map_cons, List.sum_cons, Finset.sum_add_distrib, ih]
  have hone : ∀ i, (runStatuses.map fun status =>
      if datasets i = dataset ∧ runStatus (outcomes i) = status then 1 else 0).sum =
        if datasets i = dataset then 1 else 0 := by
    intro i
    by_cases hi : datasets i = dataset
    · simp only [hi, true_and, if_true]
      exact runStatus_once (outcomes i)
    · simp [hi]
  simp only [Finset.card_filter, hswap, hone]

/-- **The balance.** -/
theorem balances (hfew : Fintype.card ι < 2 ^ 53) (hempty : s.registry = {})
    (hrun : Together counting (imports setup datasets jobs tokens) s t rs s')
    (hrecords : ∀ i, Records (datasets i) (jobs i) (outcomes i) (own i t) (finals i)) (dataset : Dataset) :
    Balances datasets outcomes finals dataset s'.registry := by
  have hregistry : SameImports (Registry.after (recordedIn (t.map Prod.snd))) s'.registry := by
    have htaken := takes_registry hrun.takes
    rwa [hempty] at htaken
  have hruns : ∀ status, s'.registry.importRuns.count [dataset.key, status] =
      Binary64.ofNat (Finset.univ.filter fun i => datasets i = dataset ∧ runStatus (outcomes i) = status).card := by
    intro status
    have htally : tally (Registry.runsIn dataset.key status) (t.map Prod.snd) =
        (Finset.univ.filter fun i => datasets i = dataset ∧ runStatus (outcomes i) = status).card := by
      rw [tally_all, Finset.card_filter]
      exact Finset.sum_congr rfl fun i _ => (hrecords i).tally_runs dataset status
    have hsmall : tally (Registry.runsIn dataset.key status) (t.map Prod.snd) < 2 ^ 53 := by
      rw [htally]
      exact lt_of_le_of_lt (Finset.card_le_univ _) hfew
    rw [hregistry.runs, Registry.count_importRuns dataset.key status _ hsmall]
    exact congrArg Binary64.ofNat htally
  have hrecorded : ∀ succeeded, ∑ i with datasets i = dataset, (finals i).elim 0 (Progress.counter succeeded) < 2 ^ 53 →
      s'.registry.importRecords.count [dataset.key, Registry.outcomeOf succeeded] =
        Binary64.ofNat (∑ i with datasets i = dataset, (finals i).elim 0 (Progress.counter succeeded)) := by
    intro succeeded hsmall
    have htally : tally (Registry.recordsIn dataset.key succeeded) (t.map Prod.snd) =
        ∑ i with datasets i = dataset, (finals i).elim 0 (Progress.counter succeeded) := by
      rw [tally_all, Finset.sum_filter]
      exact Finset.sum_congr rfl fun i _ => (hrecords i).tally_records dataset succeeded
    rw [← htally] at hsmall ⊢
    rw [hregistry.records]
    exact Registry.count_importRecords dataset.key succeeded _ hsmall
  refine ⟨hruns, ?_, hrecorded true, hrecorded false⟩
  have hsum := sum_runStatuses datasets outcomes dataset
  have hfewer := lt_of_le_of_lt (Finset.card_le_univ (Finset.univ.filter fun i => datasets i = dataset)) hfew
  rw [← hsum, ← Nat.zero_add (List.sum _), ← Binary64.foldl_add_ofNat (by omega), List.map_map]
  simp only [hruns]
  rfl

theorem writesTo_of_not_bearsOnRows {q : Ask} (h : bearsOnRows q = false) (dataset : Dataset) :
    writesTo dataset q = false := by
  cases q <;> first | rfl | exact Bool.noConfusion h

section Gauge

variable (hrun : Together counting (imports setup datasets jobs tokens) s t rs s')
  (hrecords : ∀ i, Records (datasets i) (jobs i) (outcomes i) (own i t) (finals i)) {i : ι} {n : Nat}

omit [Fintype ι] in
include hrun hrecords in
/-- Some of the events leave the rows of a dataset alone, if they do so as far as they are of calls of that dataset. -/
theorem rows_left_alone (hpart : v ⊆ t) (hown : ∀ e ∈ own i v, writesTo (datasets i) e.1 = false)
    (hothers : ∀ k e, (k, e) ∈ v → k ≠ i → datasets k = datasets i → bearsOnRows e.1 = false) :
    ∀ e ∈ v.map Prod.snd, keepsJobs e.1 = true ∧ writesTo (datasets i) e.1 = false := by
  intro e he
  obtain ⟨⟨k, e⟩, hmem, rfl⟩ := List.mem_map.1 he
  have hasked : e ∈ own k t := mem_own_iff.2 (hpart hmem)
  have hjobs := ((hrun.path k).all (import_ownJob setup (datasets k) (jobs k) (tokens k))).1 e hasked
  refine ⟨keepsJobs_of_ownJob hjobs, ?_⟩
  by_cases hk : k = i
  · subst hk
    exact hown e (mem_own_iff.2 hmem)
  · by_cases hdataset : datasets k = datasets i
    · exact writesTo_of_not_bearsOnRows (hothers k e hmem hk hdataset) _
    · exact Bool.eq_false_iff.2 fun hwrites => hdataset ((hrecords k).own e hasked _ hwrites).symm

omit [Fintype ι] in
include hrecords in
/-- Nor do they tell how many rows there are. -/
theorem gauge_left_alone (hpart : v ⊆ t) (hown : own i v = [])
    (hothers : ∀ k e, (k, e) ∈ v → k ≠ i → datasets k = datasets i → bearsOnRows e.1 = false) (m : Nat) :
    .catalogItems (datasets i).key m ∉ recordedIn (v.map Prod.snd) := by
  intro hmem
  obtain ⟨e, he, hrecorded⟩ := List.mem_filterMap.1 hmem
  obtain ⟨⟨k, q, a⟩, hke, rfl⟩ := List.mem_map.1 he
  cases q with
  | record event =>
    cases hrecorded
    by_cases hk : k = i
    · subst hk
      have hnothing := mem_own_iff.2 hke
      rw [hown] at hnothing
      cases hnothing
    · by_cases hdataset : datasets k = datasets i
      · exact Bool.noConfusion (hothers k _ hke hk hdataset)
      · exact (hrecords k).not_catalogItems (Ne.symm hdataset) m a (mem_own_iff.2 (hpart hke))
  | _ => cases hrecorded

omit [Fintype ι] in
include hrun hrecords in
/-- **The gauge.** When a call has counted the rows, the gauge shows how many there are, as long as no other call of the
dataset writes records or tells how many rows there are. -/
theorem gauge_of_counted (hempty : s.registry = {}) (ht : t = u ++ (i, ⟨.countRows (datasets i), .ok n⟩) :: v)
    (hown : own i v = [⟨.record (.catalogItems (datasets i).key n), ()⟩])
    (hothers : ∀ k e, (k, e) ∈ v → k ≠ i → datasets k = datasets i → bearsOnRows e.1 = false) :
    s'.registry.catalogItems.find? [(datasets i).key] = some (Binary64.ofNat (s'.countRows (datasets i))) := by
  have hpart : v ⊆ t := by
    rw [ht]
    exact fun e he => List.mem_append_right u (List.mem_cons_of_mem _ he)
  have hrows : n = s'.countRows (datasets i) := by
    have hkept := rows_left_alone hrun hrecords hpart (by simp [hown, writesTo]) hothers
    rw [ht] at hrun
    obtain ⟨qs, m, -, hlast⟩ := hrun.split
    exact takes_counted hlast.takes hkept
  -- The gauge is set once more by this call, and then by none.
  obtain ⟨y, z, rfl, hz⟩ := own_split (a := []) hown
  have hlast : z ⊆ y ++ (i, ⟨.record (.catalogItems (datasets i).key n), ()⟩) :: z :=
    fun e he => List.mem_append_right y (List.mem_cons_of_mem _ he)
  have hnone := gauge_left_alone hrecords (fun e he => hpart (hlast he)) hz fun k e he => hothers k e (hlast he)
  have hsplit : recordedIn (t.map Prod.snd) =
      recordedIn ((u ++ (i, ⟨.countRows (datasets i), .ok n⟩) :: y).map Prod.snd) ++
        .catalogItems (datasets i).key n :: recordedIn (z.map Prod.snd) := by
    rw [ht, ← List.cons_append, ← List.append_assoc, List.map_append, recordedIn_append]
    rfl
  have horderly := Metrics.Orderly.start.fold
    (recordedIn ((u ++ (i, ⟨.countRows (datasets i), .ok n⟩) :: y).map Prod.snd))
  rw [(takes_registry hrun.takes).items, hempty, hsplit, List.foldl_append, List.foldl_cons,
    Registry.find?_catalogItems_fold (horderly.record _) hnone, Registry.find?_catalogItems_record horderly, if_pos rfl,
    hrows]

end Gauge

/-- **The metrics account for every call.** Let any calls be made that import either dataset, one after the other or side
by side, and end as they may. The metrics are empty at first, and nobody else records imports or makes or removes rows. Then
every call has been counted once, under success or the kind of its failure, so that over the statuses of a dataset the
counters add up to its calls. Records have been counted as the final progress tells of just those calls whose job was
started, whatever these came to. And a call that succeeds asks how many rows there are; if it is told, this is what the
gauge shows, as long as after that no other call of the dataset writes records or tells how many rows there are. -/
theorem metrics_account_for_every_call (setup : Setup) (datasets : ι → Dataset) (jobs : ι → Int) (tokens : ι → Token)
    (s s' : Server) (t : List (ι × Event)) (rs : ι → Program (Except Failure Summary))
    (outcomes : ι → Except Failure Summary) (hfew : Fintype.card ι < 2 ^ 53) (hempty : s.registry = {})
    (hrun : Together counting (imports setup datasets jobs tokens) s t rs s') (hended : ∀ i, rs i = .done (outcomes i)) :
    ∃ finals : ι → Option Progress,
      (∀ i, Records (datasets i) (jobs i) (outcomes i) (own i t) (finals i)) ∧
      (∀ dataset, Balances datasets outcomes finals dataset s'.registry) ∧
      ∀ i summary, outcomes i = .ok summary → ∃ u counted v, t = u ++ (i, ⟨.countRows (datasets i), counted⟩) :: v ∧
        ∀ n, counted = .ok n →
          (∀ k e, (k, e) ∈ v → k ≠ i → datasets k = datasets i → bearsOnRows e.1 = false) →
          s'.registry.catalogItems.find? [(datasets i).key] = some (Binary64.ofNat (s'.countRows (datasets i))) := by
  have hrecords : ∀ i, ∃ final, Records (datasets i) (jobs i) (outcomes i) (own i t) final := by
    intro i
    have hpath := hrun.path i
    rw [hended i] at hpath
    exact import_records hpath
  choose finals hrecords using hrecords
  refine ⟨finals, hrecords, balances hfew hempty hrun hrecords, fun i summary hsuccess => ?_⟩
  obtain ⟨w, x, elapsed, hown, -, hrows⟩ := (hrecords i).run
  rw [hsuccess] at hown hrows
  rw [List.append_cons] at hown
  cases hrows with
  | refused summary e =>
    obtain ⟨u, v, rfl, -⟩ := own_split hown
    exact ⟨u, .error e, v, rfl, nofun⟩
  | counted summary n =>
    obtain ⟨u, v, rfl, hv⟩ := own_split hown
    refine ⟨u, .ok n, v, rfl, fun m hm hothers => ?_⟩
    exact gauge_of_counted hrun hrecords hempty rfl hv hothers

end All

/-! ## A success and a refusal -/

/-- How the two end. -/
def intrusionOutcomes : Fin 2 → Except Failure Summary
  | 0 => .ok (.ofProgress mixedProgress)
  | 1 => .error .alreadyRunning

theorem own_intrusion : own 0 intrusion = mixedEvents 1 0 default := rfl

theorem intrusion_counts {counted : Stored Nat} (h : (0, ⟨.countRows .cards, counted⟩) ∈ intrusion) : counted = .ok 1 := by
  have hmem := mem_own_iff.2 h
  rw [own_intrusion] at hmem
  simp only [mixedEvents, successEvents, phaseEvents, foundEvents, openedEvents, appliedEvents, List.mem_append,
    List.mem_cons, List.not_mem_nil, or_false, or_assoc] at hmem
  repeat
    rcases hmem with hother | hmem
    · cases hother
  rcases hmem with hcount | hlast
  · cases hcount
    rfl
  · cases hlast

theorem intrusion_bearsOnRows {k : Fin 2} (hk : k ≠ 0) {e : Event} (h : (k, e) ∈ intrusion) : bearsOnRows e.1 = false := by
  obtain rfl : k = 1 := by omega
  have hown : own 1 intrusion = refusedEvents .cards 2 default := rfl
  have hmem := mem_own_iff.2 h
  rw [hown] at hmem
  simp only [refusedEvents, List.mem_cons, List.not_mem_nil, or_false] at hmem
  rcases hmem with rfl | rfl | rfl | rfl | rfl
  all_goals rfl

/-- The final progress of the first call is what it records. -/
theorem intrusion_final {job : Int} {outcome : Except Failure Summary} {final : Option Progress}
    (h : Records .cards job outcome (own 0 intrusion) final) :
    final.elim 0 Progress.succeeded = 1 ∧ final.elim 0 Progress.failed = 1 := by
  obtain ⟨u, v, elapsed, ht, hbefore, -⟩ := h.run
  have hrecorded : (recordedIn (mixedEvents 1 0 default)).head? = some (.importRecords "card_data" 1 1) := by decide +kernel
  rw [← own_intrusion, ht, recordedIn_append, hbefore] at hrecorded
  cases final with
  | none => cases hrecorded
  | some p =>
    injection Option.some.inj hrecorded with _ hsucceeded hfailed
    exact ⟨hsucceeded, hfailed⟩

/-- A call that writes one record of two and one that is turned away meanwhile are counted once each, the records as they
went, and the gauge shows the rows there are. -/
theorem intrusion_accounted :
    ∃ s', Together counting (imports lenient (fun _ => .cards) jobOf fun _ => ⟨0⟩) twoPending intrusion
        intrusionEnds s' ∧
      s'.registry.importRuns.count ["card_data", "success"] = Binary64.ofNat 1 ∧
      s'.registry.importRuns.count ["card_data", "already_running"] = Binary64.ofNat 1 ∧
      s'.registry.importRecords.count ["card_data", "succeeded"] = Binary64.ofNat 1 ∧
      s'.registry.importRecords.count ["card_data", "failed"] = Binary64.ofNat 1 ∧
      s'.registry.catalogItems.find? ["card_data"] = some (Binary64.ofNat (s'.countRows .cards)) := by
  obtain ⟨s', halone⟩ := intrusion_runs
  have hrun : Together counting (imports lenient (fun _ => .cards) jobOf fun _ => ⟨0⟩) twoPending intrusion
      intrusionEnds s' := counting_of_alone halone
  have hended : ∀ i, intrusionEnds i = .done (intrusionOutcomes i) := Fin.forall_fin_two.2 ⟨rfl, rfl⟩
  obtain ⟨finals, hrecords, hbalances, hgauge⟩ := metrics_account_for_every_call lenient (fun _ => .cards) jobOf
    (fun _ => ⟨0⟩) twoPending s' intrusion intrusionEnds intrusionOutcomes (by decide) rfl hrun hended
  obtain ⟨hsucceeded, hfailed⟩ := intrusion_final (hrecords 0)
  have hnone : finals 1 = none := (hrecords 1).refused rfl
  have hsum : ∀ count : Progress → Nat,
      ∑ i with (fun _ : Fin 2 => Dataset.cards) i = .cards, (finals i).elim 0 count = (finals 0).elim 0 count := by
    intro count
    apply Finset.sum_eq_single
    · intro i _ hi
      obtain rfl : i = 1 := by omega
      rw [hnone]
      rfl
    · intro hmissing
      rw [Finset.mem_filter] at hmissing
      exact absurd ⟨Finset.mem_univ _, rfl⟩ hmissing
  refine ⟨s', hrun, (hbalances .cards).runs "success", (hbalances .cards).runs "already_running", ?_, ?_, ?_⟩
  · have hcount := (hbalances .cards).succeeded
    rw [hsum, hsucceeded] at hcount
    exact hcount (by decide)
  · have hcount := (hbalances .cards).failed
    rw [hsum, hfailed] at hcount
    exact hcount (by decide)
  · obtain ⟨u, counted, v, hsplit, hcounted⟩ := hgauge 0 _ rfl
    have hlater : ∀ e ∈ (0, ⟨.countRows .cards, counted⟩) :: v, e ∈ intrusion := by
      rw [hsplit]
      exact fun e he => List.mem_append_right u he
    exact hcounted 1 (intrusion_counts (hlater _ List.mem_cons_self)) fun k e he hk _ =>
      intrusion_bearsOnRows hk (hlater _ (List.mem_cons_of_mem _ he))

end CatalogSync.Import
