import CatalogSync.Proofs.Import.Absorbing
import CatalogSync.Proofs.Import.Reporting
import Mathlib.Algebra.BigOperators.Group.List.Basic

/-!
# What an import records

An import tells the metrics three things, each in another place: what became of its records when its run has ended, that it
has been made when it is settled, and how many rows there are when they have been counted. Not every way to its end comes
by all three.

Main statement: `import_records`. A call that has ended has recorded once that it was made; the counters of its final
progress if its job was started, and then once; and rows only if it was successful and they could be counted.
-/

namespace CatalogSync.Import

open CatalogSync.Program

/-! ## What events come to -/

def recorded? : Event → Option Metrics.Event
  | ⟨.record event, _⟩ => some event
  | _ => none

def recordedIn (t : List Event) : List Metrics.Event := t.filterMap recorded?

/-- How many records an event writes to the catalog. -/
def rowsWritten : Event → Nat
  | ⟨.upsertCards _, .ok n⟩ => n
  | ⟨.upsertSets _, .ok n⟩ => n
  | _ => 0

/-- How many records events write to the catalog. -/
def committed (t : List Event) : Nat := (t.map rowsWritten).sum

/-- Whether a question is to write records of a dataset. -/
def writesTo (dataset : Dataset) : Ask → Bool
  | .upsertCards _ => dataset = .cards
  | .upsertSets _ => dataset = .sets
  | _ => false

/-- The questions that neither record nor write records. -/
def isIdle : Ask → Bool
  | .record _ => false
  | q => !isUpsert q

section Events

variable {t u : List Event}

theorem recordedIn_append : recordedIn (t ++ u) = recordedIn t ++ recordedIn u := List.filterMap_append ..

theorem committed_append : committed (t ++ u) = committed t + committed u := by
  unfold committed
  rw [List.map_append, List.sum_append]

theorem batchesApplied_append : batchesApplied (t ++ u) = batchesApplied t + batchesApplied u := List.countP_append ..

end Events

/-! ## Counters that cover events -/

/-- Events that record nothing, and counters for them: of batches, and of the records in these that succeeded and failed.
What was written is among both, for a set without its icon fails. -/
structure Covers (dataset : Dataset) (batches good bad : Nat) (t : List Event) : Prop where
  unrecorded : recordedIn t = []
  applied : batchesApplied t = batches
  succeeded : good ≤ committed t
  outcomes : committed t ≤ good + bad
  cards : dataset = .cards → committed t = good
  own : ∀ e ∈ t, ∀ d, writesTo d e.1 = true → d = dataset

section Covers

variable {dataset : Dataset} {m n k m' n' k' : Nat} {t u : List Event}

theorem covers_nil (dataset : Dataset) : Covers dataset 0 0 0 [] :=
  ⟨rfl, rfl, Nat.le_refl 0, Nat.le_refl 0, fun _ => rfl, fun _ he => absurd he List.not_mem_nil⟩

theorem Covers.append (h : Covers dataset m n k t) (h' : Covers dataset m' n' k' u) :
    Covers dataset (m + m') (n + n') (k + k') (t ++ u) := by
  have hlower := h.succeeded
  have hupper := h.outcomes
  have hlower' := h'.succeeded
  have hupper' := h'.outcomes
  constructor
  · rw [recordedIn_append, h.unrecorded, h'.unrecorded, List.append_nil]
  · rw [batchesApplied_append, h.applied, h'.applied]
  · rw [committed_append]
    omega
  · rw [committed_append]
    omega
  · intro hcards
    rw [committed_append, h.cards hcards, h'.cards hcards]
  · intro e he
    rcases List.mem_append.1 he with hmem | hmem
    · exact h.own e hmem
    · exact h'.own e hmem

theorem covers_of_isIdle {q : Ask} (hq : isIdle q = true) (a : q.Answer) : Covers dataset 0 0 0 [⟨q, a⟩] := by
  have hown : ∀ e ∈ [(⟨q, a⟩ : Event)], ∀ d, writesTo d e.1 = true → d = dataset := by
    intro e he d hd
    obtain rfl := List.mem_singleton.1 he
    cases q <;> first | exact Bool.noConfusion hd | exact Bool.noConfusion hq
  have hcounted : recordedIn [⟨q, a⟩] = [] ∧ batchesApplied [⟨q, a⟩] = 0 ∧ committed [⟨q, a⟩] = 0 := by
    cases q <;> first | exact ⟨rfl, rfl, rfl⟩ | exact Bool.noConfusion hq
  obtain ⟨hrecorded, hbatches, hcommitted⟩ := hcounted
  exact ⟨hrecorded, hbatches, Nat.zero_le _, hcommitted.le, fun _ => hcommitted, hown⟩

/-- What is neither recorded nor written needs no counters. -/
theorem covers_idle (h : ∀ e ∈ t, isIdle e.1 = true) : Covers dataset 0 0 0 t := by
  induction t with
  | nil => exact covers_nil dataset
  | cons e t ih =>
    obtain ⟨hfirst, hrest⟩ := List.forall_mem_cons.1 h
    exact (covers_of_isIdle hfirst e.2).append (ih hrest)

theorem covers_of_all {α : Type} {p r : Program α} {gives : α → Prop} (h : Path p t r)
    (hall : p.All (fun q => isIdle q = true) gives) : Covers dataset 0 0 0 t :=
  covers_idle (h.all hall).1

theorem isIdle_of_isForIcon {q : Ask} (hq : isForIcon q = true) : isIdle q = true := by
  cases q <;> first | rfl | exact Bool.noConfusion hq

end Covers

/-! ## A run -/

/-- The counters of a batch cover events, if it was written. -/
def CoversBatch (dataset : Dataset) (t : List Event) : Stored BatchResult → Prop
  | .ok result => Covers dataset 1 result.succeeded result.failed t
  | .error _ => Covers dataset 0 0 0 t

/-- The counters of progress cover events. -/
abbrev Progress.Covers (dataset : Dataset) (t : List Event) (p : Progress) : Prop :=
  Import.Covers dataset p.batches p.succeeded p.failed t

section Run

variable {setup : Setup} {dataset : Dataset} {job : Int} {token : Token} {t u : List Event} {p p' : Progress}

theorem publish_covers (h : Path (publish job p) t (.done ())) : Covers dataset 0 0 0 t :=
  covers_of_all h (publish_all (fun _ => rfl) p)

/-- A batch counts what it has written, apart from the icons that failed. -/
theorem applyBatch_covers {assets : String} {items : List Json} {outcome : Stored BatchResult}
    (h : Path (applyBatch dataset assets items token) t (.done outcome)) : CoversBatch dataset t outcome := by
  have hown : ∀ q a, writesTo dataset q = true → ∀ e ∈ [(⟨q, a⟩ : Event)], ∀ d, writesTo d e.1 = true → d = dataset := by
    intro q a hq e he d hd
    obtain rfl := List.mem_singleton.1 he
    cases q <;> first | exact (of_decide_eq_true hd).trans (of_decide_eq_true hq).symm | exact Bool.noConfusion hd
  cases dataset with
  | cards =>
    obtain ⟨answer, u, rfl, hend⟩ := Path.of_call_done h
    cases answer with
    | error e =>
      obtain ⟨rfl, hdone⟩ := hend.of_done
      cases hdone
      exact ⟨rfl, rfl, Nat.le_refl 0, Nat.le_refl 0, fun _ => rfl, hown _ _ rfl⟩
    | ok written =>
      obtain ⟨rfl, hdone⟩ := hend.of_done
      cases hdone
      exact ⟨rfl, rfl, Nat.le_refl _, Nat.le_add_right _ _, fun _ => rfl, hown _ _ rfl⟩
  | sets =>
    unfold applyBatch at h
    rw [readAll_eq readSet] at h
    obtain ⟨answer, u, rfl, hwrite⟩ := Path.of_call_done h
    cases answer with
    | error e =>
      obtain ⟨rfl, hdone⟩ := hwrite.of_done
      cases hdone
      exact ⟨rfl, rfl, Nat.le_refl 0, Nat.le_refl 0, fun _ => rfl, hown _ _ rfl⟩
    | ok written =>
      obtain ⟨failures, u, v, rfl, hicons, hend⟩ := Path.of_bind_done hwrite
      obtain ⟨rfl, hdone⟩ := hend.of_done
      cases hdone
      rw [List.append_nil, recordFailures_eq, recordFailures_eq]
      have hidle : Covers .sets 0 0 0 u :=
        covers_of_all hicons ((ensureIcons_asks _ token _).mono (fun _ => isIdle_of_isForIcon) fun _ h => h)
      have hwritten : Covers .sets 1 (written - failures.length)
          (BatchResult.empty.failed + (faults readSet items).length + failures.length)
          [⟨.upsertSets (records readSet items), .ok written⟩] := by
        refine ⟨rfl, rfl, Nat.sub_le _ _, ?_, nofun, hown _ _ rfl⟩
        change written ≤ _
        omega
      exact hwritten.append hidle

/-- Batch by batch, by induction on the rounds that are left. -/
theorem consume_covers {decoder rounds : Nat} {outcome : Except Failure Unit} (hp : p.Covers dataset u)
    (h : Path (consume setup dataset job token decoder rounds p) t (.done (outcome, p'))) :
    p'.Covers dataset (u ++ t) := by
  induction rounds generalizing p t u with
  | zero =>
    obtain ⟨rfl, hdone⟩ := h.of_done
    cases hdone
    rwa [List.append_nil]
  | succ rounds ih =>
    obtain ⟨arrival, v, rfl, harrived⟩ := Path.of_call_done h
    have hreceived : p.Covers dataset (u ++ [⟨.receive decoder token, arrival⟩]) := hp.append (covers_of_isIdle rfl _)
    rw [List.append_cons]
    cases arrival with
    | cancelled =>
      obtain ⟨rfl, hdone⟩ := harrived.of_done
      cases hdone
      rwa [List.append_nil]
    | closed =>
      obtain ⟨rfl, hdone⟩ := harrived.of_done
      cases hdone
      rwa [List.append_nil]
    | batch items =>
      obtain ⟨result, v, w, rfl, happlied, hrest⟩ := Path.of_bind_done harrived
      have hbatch := applyBatch_covers happlied
      rw [← List.append_assoc]
      cases result with
      | error e =>
        obtain ⟨rfl, hdone⟩ := hrest.of_done
        cases hdone
        rw [List.append_nil]
        exact hreceived.append hbatch
      | ok result =>
        obtain ⟨_, w, x, rfl, hpublished, hgoes⟩ := Path.of_bind_done hrest
        have habsorbed : (p.absorb result).Covers dataset
            (u ++ [⟨.receive decoder token, .batch items⟩] ++ v ++ w) :=
          (hreceived.append hbatch).append (publish_covers hpublished)
        rw [← List.append_assoc]
        exact ih habsorbed hgoes

theorem applyFeed_covers {source : Feed.Source} {outcome : Except Failure Unit} (hp : p.Covers dataset u)
    (h : Path (applyFeed setup dataset source job token p) t (.done (outcome, p'))) : p'.Covers dataset (u ++ t) := by
  obtain ⟨decoder, v, rfl, hstarted⟩ := Path.of_call_done h
  obtain ⟨⟨outcome, p⟩, v, w, rfl, hconsumed, hend⟩ := Path.of_bind_done hstarted
  have hstart : p.Covers dataset (u ++ [⟨.startDecoder source setup.batchSize token, decoder⟩] ++ v) :=
    consume_covers (hp.append (covers_of_isIdle rfl _)) hconsumed
  rw [List.append_cons, ← List.append_assoc]
  cases outcome with
  | error e =>
    obtain ⟨_, x, rfl, hdone⟩ := Path.of_call_done hend
    obtain ⟨rfl, hdone⟩ := hdone.of_done
    cases hdone
    exact hstart.append (covers_of_isIdle rfl _)
  | ok _ =>
    obtain ⟨joined, x, rfl, hjoined⟩ := Path.of_call_done hend
    cases joined with
    | ok _ =>
      obtain ⟨rfl, hdone⟩ := hjoined.of_done
      cases hdone
      exact hstart.append (covers_of_isIdle rfl _)
    | error fault =>
      obtain ⟨cancelled, y, rfl, hasked⟩ := Path.of_call_done hjoined
      obtain ⟨rfl, hdone⟩ := hasked.of_done
      cases hdone
      rw [List.append_cons]
      exact (hstart.append (covers_of_isIdle rfl _)).append (covers_of_isIdle rfl _)

/-- A run up to its verdict records nothing, and its progress covers what it has written. -/
theorem phases_covers {outcome : Except Failure Summary}
    (h : Path (phases setup dataset job token (Progress.start dataset)) t (.done (outcome, p))) :
    p.Covers dataset t := by
  obtain ⟨_, u, v, rfl, hresolving, hbegun⟩ := Path.of_bind_done h
  obtain ⟨found, v, w, rfl, hresolved, hafter⟩ := Path.of_bind_done hbegun
  have hfound : Covers dataset 0 0 0 (u ++ v) :=
    (publish_covers hresolving).append (covers_of_all hresolved (resolve_all rfl rfl fun _ => rfl))
  rw [← List.append_assoc]
  cases found with
  | error e =>
    obtain ⟨rfl, hdone⟩ := hafter.of_done
    cases hdone
    rw [List.append_nil]
    exact hfound
  | ok entry =>
    obtain ⟨_, w, x, rfl, hdownloading, hasked⟩ := Path.of_bind_done hafter
    obtain ⟨opened, x, y, rfl, hopened, hanswered⟩ := Path.of_bind_done hasked
    have hopen : Covers dataset 0 0 0 (u ++ v ++ (w ++ x)) :=
      hfound.append ((publish_covers hdownloading).append (covers_of_all hopened (openFeed_all rfl)))
    rw [← List.append_assoc w, ← List.append_assoc]
    cases opened with
    | error e =>
      obtain ⟨rfl, hdone⟩ := hanswered.of_done
      cases hdone
      rw [List.append_nil]
      exact hopen
    | ok source =>
      obtain ⟨_, y, z, rfl, himporting, hready⟩ := Path.of_bind_done hanswered
      obtain ⟨⟨outcome, p'⟩, z, rest, rfl, happlied, hend⟩ := Path.of_bind_done hready
      have hbefore : Covers dataset 0 0 0 (u ++ v ++ (w ++ x) ++ y) := hopen.append (publish_covers himporting)
      have hend : p'.Covers dataset (u ++ v ++ (w ++ x) ++ y ++ z) := applyFeed_covers hbefore happlied
      rw [← List.append_assoc y, ← List.append_assoc]
      cases outcome with
      | error e =>
        obtain ⟨rfl, hdone⟩ := hend.of_done
        cases hdone
        rwa [List.append_nil, ← List.append_assoc]
      | ok _ =>
        obtain ⟨rfl, hdone⟩ := hend.of_done
        cases hdone
        rwa [List.append_nil, ← List.append_assoc]

/-- **A run** publishes its final progress, and then records its counters. -/
theorem run_records {outcome : Except Failure Summary} (h : Path (run setup dataset job token) t (.done outcome)) :
    ∃ p u a, t = u ++ [⟨.publish job p.toJson, a⟩, ⟨.record (.importRecords dataset.key p.succeeded p.failed), ()⟩] ∧
      Concludes outcome p ∧ p.Covers dataset u := by
  obtain ⟨⟨outcome, p⟩, u, v, rfl, hphases, hend⟩ := Path.of_bind_done h
  obtain ⟨published, v, rfl, hpublished⟩ := Path.of_call_done hend
  obtain ⟨_, w, rfl, hrecorded⟩ := Path.of_call_done hpublished
  obtain ⟨rfl, hdone⟩ := hrecorded.of_done
  cases hdone
  have hcovers := phases_covers hphases
  have hjudged : Judged dataset (outcome, p) := (hphases.all (phases_asks setup dataset token)).2
  refine ⟨ended p outcome, u, published, rfl, ?_, ?_⟩
  · cases outcome with
    | ok summary => exact ⟨rfl, hjudged.error⟩
    | error e => exact ⟨rfl, rfl⟩
  · cases outcome <;> exact hcovers

end Run

/-! ## A call -/

/-- What a call is counted under that has ended: success, or the kind of its failure. -/
def runStatus : Except Failure Summary → String
  | .ok _ => successStatus
  | .error e => e.kind

/-- How the rows are counted after a call. -/
inductive CountsRows (dataset : Dataset) : Except Failure Summary → List Event → Prop
  | not (e : Failure) : CountsRows dataset (.error e) []
  | refused (summary : Summary) (e : StoreError) : CountsRows dataset (.ok summary) [⟨.countRows dataset, .error e⟩]
  | counted (summary : Summary) (n : Nat) : CountsRows dataset (.ok summary)
      [⟨.countRows dataset, .ok n⟩, ⟨.record (.catalogItems dataset.key n), ()⟩]

/-- Events that record that a call was made, and then perhaps rows; `before` is what they record until then. -/
def RecordsRun (dataset : Dataset) (outcome : Except Failure Summary) (before : List Metrics.Event) (t : List Event) :
    Prop :=
  ∃ u v elapsed, t = u ++ ⟨.record (.importRun dataset.key (runStatus outcome) elapsed), ()⟩ :: v ∧
    recordedIn u = before ∧ CountsRows dataset outcome v

/-- The final progress of a call: it tells how the call ended, nothing is published after it, and its counters cover all
that the call wrote. -/
structure FinalProgress (dataset : Dataset) (job : Int) (outcome : Except Failure Summary) (t : List Event)
    (p : Progress) : Prop where
  concludes : Concludes outcome p
  last : ∃ u a v, t = u ++ ⟨.publish job p.toJson, a⟩ :: v ∧ Unpublished v
  batches : p.batches = batchesApplied t
  succeeded : p.succeeded ≤ committed t
  outcomes : committed t ≤ p.succeeded + p.failed
  cards : dataset = .cards → p.succeeded = committed t

/-- What a call records that has ended, with the final progress of its run if it came to one. -/
structure Records (dataset : Dataset) (job : Int) (outcome : Except Failure Summary) (t : List Event)
    (final : Option Progress) : Prop where
  run : RecordsRun dataset outcome
    (final.map fun p => Metrics.Event.importRecords dataset.key p.succeeded p.failed).toList t
  started : final.isSome = true ↔ ⟨.startJob job, .ok ()⟩ ∈ t
  progress : ∀ p ∈ final, FinalProgress dataset job outcome t p
  refused : outcome = .error .alreadyRunning → final = none
  own : ∀ e ∈ t, ∀ d, writesTo d e.1 = true → d = dataset

/-- The questions of a call when its run is over: none of them starts a job, publishes progress or writes records. -/
def isAfterwards : Ask → Bool
  | .startJob _ => false
  | .publish _ _ => false
  | q => !isUpsert q

/-- The events of a call when its run is over. -/
structure Settles (dataset : Dataset) (outcome : Except Failure Summary) (t : List Event) : Prop where
  run : RecordsRun dataset outcome [] t
  afterwards : ∀ e ∈ t, isAfterwards e.1 = true

section Call

variable {setup : Setup} {dataset : Dataset} {job : Int} {token : Token} {outcome : Except Failure Summary}
  {before : List Metrics.Event} {t u v : List Event}

theorem RecordsRun.after (h : RecordsRun dataset outcome before t) (u : List Event) :
    RecordsRun dataset outcome (recordedIn u ++ before) (u ++ t) := by
  obtain ⟨v, w, elapsed, rfl, hbefore, hrows⟩ := h
  refine ⟨u ++ v, w, elapsed, (List.append_assoc ..).symm, ?_, hrows⟩
  rw [recordedIn_append, hbefore]

/-! ### When the run is over -/

section Afterwards

variable (h : ∀ e ∈ t, isAfterwards e.1 = true)
include h

theorem afterwards_writes_nothing : committed t = 0 ∧ batchesApplied t = 0 := by
  constructor
  · refine List.sum_eq_zero fun n hn => ?_
    obtain ⟨⟨q, a⟩, he, rfl⟩ := List.mem_map.1 hn
    have hq := h _ he
    cases q <;> first | rfl | exact Bool.noConfusion hq
  · refine List.countP_eq_zero.2 ?_
    rintro ⟨q, a⟩ he
    have hq := h _ he
    cases q <;> first | exact Bool.noConfusion | exact Bool.noConfusion hq

theorem afterwards_unpublished : Unpublished t := by
  rintro e he id metadata hq
  have hafter := h e he
  rw [hq] at hafter
  exact Bool.noConfusion hafter

theorem afterwards_unstarted : ⟨.startJob job, .ok ()⟩ ∉ t := fun he => Bool.noConfusion (h _ he)

theorem afterwards_own {e : Event} (he : e ∈ t) {d : Dataset} (hd : writesTo d e.1 = true) : d = dataset := by
  obtain ⟨q, a⟩ := e
  have hq := h _ he
  cases q <;> first | exact Bool.noConfusion hd | exact Bool.noConfusion hq

end Afterwards

theorem Settles.cons (h : Settles dataset outcome t) {e : Event} (hafter : isAfterwards e.1 = true)
    (hidle : isIdle e.1 = true) : Settles dataset outcome (e :: t) := by
  refine ⟨?_, List.forall_mem_cons.2 ⟨hafter, h.afterwards⟩⟩
  have hcovers : Covers dataset 0 0 0 [e] := covers_of_isIdle hidle e.2
  have hrun := h.run.after [e]
  rwa [hcovers.unrecorded] at hrun

theorem setStatus_path {status : String} (h : Path (setStatus dataset status) t (.done ())) :
    ∃ a, t = [⟨.writeSetting (Settings.lastUpdateStatusKey dataset.key) status, a⟩] := by
  obtain ⟨a, u, rfl, hend⟩ := Path.of_call_done h
  obtain ⟨rfl, -⟩ := hend.of_done
  exact ⟨a, rfl⟩

/-- **The settlement** of a call. -/
theorem settle_records {elapsed : Time.Span} (h : Path (settle dataset job outcome elapsed) t (.done ())) :
    Settles dataset outcome t := by
  have hall : (settle dataset job outcome elapsed).All (fun q => isAfterwards q = true) fun _ => True := by
    apply settle_all <;> intros <;> rfl
  refine ⟨?_, (h.all hall).1⟩
  cases outcome with
  | ok summary =>
    obtain ⟨completed, u, rfl, hcompleted⟩ := Path.of_call_done h
    obtain ⟨now, u, rfl, hnow⟩ := Path.of_call_done hcompleted
    obtain ⟨updated, u, rfl, hupdated⟩ := Path.of_call_done hnow
    obtain ⟨_, u, v, rfl, hset, hafter⟩ := Path.of_bind_done hupdated
    obtain ⟨set, rfl⟩ := setStatus_path hset
    obtain ⟨_, v, rfl, hrecorded⟩ := Path.of_call_done hafter
    obtain ⟨answer, v, rfl, hanswered⟩ := Path.of_call_done hrecorded
    refine ⟨[⟨.completeJob job, completed⟩, ⟨.now, now⟩,
      ⟨.writeSetting (Settings.lastUpdateKey dataset.key) now.text, updated⟩,
      ⟨.writeSetting (Settings.lastUpdateStatusKey dataset.key) successStatus, set⟩], ⟨.countRows dataset, answer⟩ :: v, ?_⟩
    cases answer with
    | error e =>
      obtain ⟨rfl, -⟩ := hanswered.of_done
      exact ⟨elapsed, rfl, rfl, .refused summary e⟩
    | ok n =>
      obtain ⟨_, v, rfl, hend⟩ := Path.of_call_done hanswered
      obtain ⟨rfl, -⟩ := hend.of_done
      exact ⟨elapsed, rfl, rfl, .counted summary n⟩
  | error e =>
    obtain ⟨failed, u, rfl, hfailed⟩ := Path.of_call_done h
    have hrest : Path (if e ≠ .alreadyRunning then
        setStatus dataset failedStatus >>= fun _ => Program.call (.record (.importRun dataset.key e.kind elapsed))
      else Program.call (.record (.importRun dataset.key e.kind elapsed))) u (.done ()) := hfailed
    by_cases he : e ≠ .alreadyRunning
    · rw [if_pos he] at hrest
      obtain ⟨_, u, v, rfl, hset, hafter⟩ := Path.of_bind_done hrest
      obtain ⟨set, rfl⟩ := setStatus_path hset
      obtain ⟨_, v, rfl, hend⟩ := Path.of_call_done hafter
      obtain ⟨rfl, -⟩ := hend.of_done
      exact ⟨[⟨.failJob job e.message, failed⟩,
        ⟨.writeSetting (Settings.lastUpdateStatusKey dataset.key) failedStatus, set⟩], [], elapsed, rfl, rfl, .not e⟩
    · rw [if_neg he] at hrest
      obtain ⟨_, v, rfl, hend⟩ := Path.of_call_done hrest
      obtain ⟨rfl, -⟩ := hend.of_done
      exact ⟨[⟨.failJob job e.message, failed⟩], [], elapsed, rfl, rfl, .not e⟩

/-- **Under the lock** of its dataset a call is turned away, its job cannot be started, or it is run. -/
theorem underLock_cases
    (h : Path (underLock dataset (importNow setup dataset job token)) t (.done outcome)) :
    (outcome = .error .alreadyRunning ∧ t = [⟨.lock dataset, false⟩]) ∨
      ∃ a, (∃ e, outcome = .error (.store e) ∧
          t = [⟨.lock dataset, true⟩, ⟨.writeSetting (Settings.lastUpdateStatusKey dataset.key) inProgressStatus, a⟩,
            ⟨.startJob job, .error e⟩, ⟨.unlock dataset, ()⟩]) ∨
        ∃ u, Path (run setup dataset job token) u (.done outcome) ∧
          t = [⟨.lock dataset, true⟩, ⟨.writeSetting (Settings.lastUpdateStatusKey dataset.key) inProgressStatus, a⟩,
            ⟨.startJob job, .ok ()⟩] ++ (u ++ [⟨.unlock dataset, ()⟩]) := by
  obtain ⟨free, u, rfl, hfree⟩ := Path.of_call_done h
  cases free with
  | false =>
    obtain ⟨rfl, hdone⟩ := hfree.of_done
    cases hdone
    exact .inl ⟨rfl, rfl⟩
  | true =>
    obtain ⟨outcome, u, v, rfl, himport, hunlock⟩ := Path.of_bind_done hfree
    obtain ⟨_, v, rfl, hend⟩ := Path.of_call_done hunlock
    obtain ⟨rfl, hdone⟩ := hend.of_done
    cases hdone
    obtain ⟨a, u, rfl, hset⟩ := Path.of_call_done himport
    obtain ⟨started, u, rfl, hstarted⟩ := Path.of_call_done hset
    cases started with
    | error e =>
      obtain ⟨rfl, hdone⟩ := hstarted.of_done
      cases hdone
      exact .inr ⟨a, .inl ⟨e, rfl, rfl⟩⟩
    | ok _ => exact .inr ⟨a, .inr ⟨u, hstarted, rfl⟩⟩

/-- A call whose job was not started. -/
theorem records_unstarted (hidle : ∀ e ∈ t, isIdle e.1 = true) (hnot : ⟨.startJob job, .ok ()⟩ ∉ t)
    (h : Settles dataset outcome u) : Records dataset job outcome (t ++ u) none := by
  have hcovers : Covers dataset 0 0 0 t := covers_idle hidle
  have hrun := h.run.after t
  rw [hcovers.unrecorded] at hrun
  refine ⟨hrun, ⟨nofun, fun hmem => ?_⟩, nofun, fun _ => rfl, fun e he d hd => ?_⟩
  · rcases List.mem_append.1 hmem with hbefore | hafter
    · exact absurd hbefore hnot
    · exact absurd hafter (afterwards_unstarted h.afterwards)
  · rcases List.mem_append.1 he with hbefore | hafter
    · exact hcovers.own e hbefore d hd
    · exact afterwards_own h.afterwards hafter hd

/-- A call that has come to a run. -/
theorem records_run (hidle : ∀ e ∈ t, isIdle e.1 = true) (hstarted : ⟨.startJob job, .ok ()⟩ ∈ t)
    (hrun : Path (run setup dataset job token) u (.done outcome)) (h : Settles dataset outcome v) :
    ∃ p, Records dataset job outcome (t ++ (u ++ v)) (some p) := by
  obtain ⟨p, u, a, rfl, hconcludes, hu⟩ := run_records hrun
  have hadmitted : Admitted outcome := (hrun.all (run_asks setup dataset token)).2
  -- All that is written comes before the last publication, and only records and the settlement come after it.
  let before : List Event := t ++ u ++ [⟨.publish job p.toJson, a⟩]
  let after : List Event := ⟨.record (.importRecords dataset.key p.succeeded p.failed), ()⟩ :: v
  have hparts : t ++ (u ++ [⟨.publish job p.toJson, a⟩,
      ⟨.record (.importRecords dataset.key p.succeeded p.failed), ()⟩] ++ v) = before ++ after := by
    simp [before, after]
  have hbefore : p.Covers dataset before := by
    have hnothing : Covers dataset 0 0 0 t := covers_idle hidle
    have hall := (hnothing.append hu).append (covers_of_isIdle (q := .publish _ _) rfl a)
    simpa only [Nat.zero_add, Nat.add_zero] using hall
  have hafter : ∀ e ∈ after, isAfterwards e.1 = true := List.forall_mem_cons.2 ⟨rfl, h.afterwards⟩
  obtain ⟨hcommitted, happlied⟩ := afterwards_writes_nothing hafter
  have htotal : committed (before ++ after) = committed before := by
    rw [committed_append, hcommitted, Nat.add_zero]
  refine ⟨p, ?_⟩
  rw [hparts]
  refine ⟨?_, ⟨fun _ => by simp [before, hstarted], fun _ => rfl⟩, ?_, fun hrefused => absurd hrefused hadmitted, ?_⟩
  · have hrecorded := (h.run.after [⟨.record (.importRecords dataset.key p.succeeded p.failed), ()⟩]).after before
    rwa [hbefore.unrecorded] at hrecorded
  · rintro q hq
    obtain rfl : p = q := Option.some.inj hq
    constructor
    · exact hconcludes
    · exact ⟨t ++ u, a, after, by simp [before], afterwards_unpublished hafter⟩
    · rw [batchesApplied_append, happlied, hbefore.applied, Nat.add_zero]
    · rw [htotal]
      exact hbefore.succeeded
    · rw [htotal]
      exact hbefore.outcomes
    · intro hcards
      rw [htotal, hbefore.cards hcards]
  · intro e he d hd
    rcases List.mem_append.1 he with hmem | hmem
    · exact hbefore.own e hmem d hd
    · exact afterwards_own hafter hmem hd

/-- **A call that has ended** has recorded once that it was made. If its job was started it has recorded, before that, the
counters of its final progress, and if not, none; and if it succeeded and could count the rows, it has recorded these. -/
theorem import_records (h : Path (downloadAndImport setup dataset job token) t (.done outcome)) :
    ∃ final, Records dataset job outcome t final := by
  obtain ⟨started, u, rfl, hstarted⟩ := Path.of_call_done h
  obtain ⟨outcome, u, v, rfl, hlocked, hafter⟩ := Path.of_bind_done hstarted
  obtain ⟨stopped, v, rfl, hstopped⟩ := Path.of_call_done hafter
  obtain ⟨_, v, w, rfl, hsettled, hend⟩ := Path.of_bind_done hstopped
  obtain ⟨rfl, hdone⟩ := hend.of_done
  cases hdone
  rw [List.append_nil]
  have hsettles : Settles dataset outcome (⟨.now, stopped⟩ :: v) := (settle_records hsettled).cons rfl rfl
  let status := Settings.lastUpdateStatusKey dataset.key
  rcases underLock_cases hlocked with ⟨-, rfl⟩ | ⟨a, ⟨error, -, rfl⟩ | ⟨u, hrun, rfl⟩⟩
  · let before : List Event := [⟨.now, started⟩, ⟨.lock dataset, false⟩]
    have hidle : ∀ e ∈ before, isIdle e.1 = true := by simp [before, isIdle, isUpsert]
    have hnot : ⟨.startJob job, .ok ()⟩ ∉ before := by
      unfold before
      nofun
    exact ⟨none, records_unstarted hidle hnot hsettles⟩
  · let before : List Event := [⟨.now, started⟩, ⟨.lock dataset, true⟩, ⟨.writeSetting status inProgressStatus, a⟩,
      ⟨.startJob job, .error error⟩, ⟨.unlock dataset, ()⟩]
    have hidle : ∀ e ∈ before, isIdle e.1 = true := by simp [before, isIdle, isUpsert]
    have hnot : ⟨.startJob job, .ok ()⟩ ∉ before := by
      unfold before
      nofun
    exact ⟨none, records_unstarted hidle hnot hsettles⟩
  · let before : List Event := [⟨.now, started⟩, ⟨.lock dataset, true⟩, ⟨.writeSetting status inProgressStatus, a⟩,
      ⟨.startJob job, .ok ()⟩]
    have hidle : ∀ e ∈ before, isIdle e.1 = true := by simp [before, isIdle, isUpsert]
    have hunlocked : Settles dataset outcome (⟨.unlock dataset, ()⟩ :: ⟨.now, stopped⟩ :: v) := hsettles.cons rfl rfl
    have hstarted : ⟨.startJob job, .ok ()⟩ ∈ before := by simp [before]
    obtain ⟨p, hp⟩ := records_run hidle hstarted hrun hunlocked
    refine ⟨some p, ?_⟩
    rw [List.append_assoc, List.append_assoc]
    exact hp

/-- All that a call records that has ended. -/
theorem Records.events {final : Option Progress} (h : Records dataset job outcome t final) :
    ∃ elapsed rows,
      recordedIn t = (final.map fun p => Metrics.Event.importRecords dataset.key p.succeeded p.failed).toList ++
        .importRun dataset.key (runStatus outcome) elapsed :: rows ∧
      (rows = [] ∨ ∃ n, rows = [.catalogItems dataset.key n]) := by
  obtain ⟨u, v, elapsed, rfl, hbefore, hrows⟩ := h.run
  refine ⟨elapsed, recordedIn v, ?_, ?_⟩
  · rw [recordedIn_append, hbefore]
    rfl
  · cases hrows with
    | not e => exact .inl rfl
    | refused summary e => exact .inl rfl
    | counted summary n => exact .inr ⟨n, rfl⟩

end Call

end CatalogSync.Import
