import CatalogSync.Proofs.Import.InOrder
import CatalogSync.Proofs.Import.Settling
import Mathlib.Data.List.Chain

/-!
# What an import publishes

While it runs, an import publishes its progress as the metadata of its job, and clients poll them.
`publications` are what it has published, each with the number of batches that were applied by then, and
`Lawful` says how such a sequence goes on.

Main statement: `progress_published_in_order`.
-/

namespace CatalogSync.Import

open CatalogSync.Ledger CatalogSync.Program

/-! ## Sequences of progress -/

/-- The phases that may be published after a phase. -/
def Phase.later : Phase → List Phase
  | .resolving => [.downloading, .failed]
  | .downloading => [.importing, .failed]
  | .importing => [.importing, .completed, .failed]
  | _ => []

/-- What may be published after progress `p`. -/
structure Advances (p p' : Progress) : Prop where
  dataset : p'.dataset = p.dataset
  phase : p'.phase ∈ p.phase.later
  downloadUri : p.downloadUri ≠ none → p'.downloadUri = p.downloadUri
  processed : p.processed ≤ p'.processed
  succeeded : p.succeeded ≤ p'.succeeded
  failed : p.failed ≤ p'.failed
  /-- One batch more for each publication while importing, and else the same. -/
  batches : p'.batches = p.batches + if p.phase = .importing ∧ p'.phase = .importing then 1 else 0
  examples : p.examples <+: p'.examples

/-- A sequence of progress as a run may publish it. -/
structure Lawful (dataset : Dataset) (ps : List Progress) : Prop where
  begins : ∀ p ∈ ps.head?, p = { Progress.start dataset with phase := .resolving }
  advances : ps.IsChain Advances
  error : ∀ p ∈ ps, p.error ≠ none ↔ p.phase = .failed

/-- How often progress was published while importing. -/
def importing (ps : List Progress) : Nat := ps.countP (·.phase = .importing)

section Lawful

variable {dataset : Dataset} {ps : List Progress} {p p' : Progress}

theorem head?_snoc (ps : List Progress) (p p' : Progress) : (ps ++ [p] ++ [p']).head? = (ps ++ [p]).head? := by
  cases ps <;> rfl

theorem Lawful.snoc (h : Lawful dataset (ps ++ [p])) (hp : Advances p p') (herror : p'.error ≠ none ↔ p'.phase = .failed) :
    Lawful dataset (ps ++ [p] ++ [p']) := by
  constructor
  · rw [head?_snoc]
    exact h.begins
  · rw [List.isChain_append]
    refine ⟨h.advances, .singleton _, ?_⟩
    simp [hp]
  · intro q hq
    rw [List.mem_append, List.mem_singleton] at hq
    rcases hq with hq | rfl
    · exact h.error q hq
    · exact herror

end Lawful

/-! ## Publications -/

/-- Whether an event is the upsert of a batch that succeeded. -/
def applies (e : Event) : Bool := (upsert? e).any (·.2)

def batchesApplied (t : List Event) : Nat := t.countP applies

/-- The publications among events, after which `n` batches have been applied: each with its job, the metadata and the
number of batches applied by then. -/
def publications (n : Nat) : List Event → List (Int × Json × Nat)
  | [] => []
  | ⟨.publish id metadata, _⟩ :: t => (id, metadata, n) :: publications n t
  | e :: t => publications (n + if applies e then 1 else 0) t

def Progress.published (job : Int) (p : Progress) : Int × Json × Nat := (job, p.toJson, p.batches)

/-- The questions that neither publish nor write to the catalog. -/
def isSilent : Ask → Bool
  | .publish _ _ => false
  | .upsertCards _ => false
  | .upsertSets _ => false
  | _ => true

section Publications

variable {t u : List Event} {n : Nat}

theorem publications_append :
    publications n (t ++ u) = publications n t ++ publications (n + batchesApplied t) u := by
  induction t generalizing n with
  | nil => rfl
  | cons e t ih =>
    obtain ⟨q, a⟩ := e
    have hcount : batchesApplied (⟨q, a⟩ :: t) = (if applies ⟨q, a⟩ then 1 else 0) + batchesApplied t := by
      unfold batchesApplied
      rw [List.countP_cons, Nat.add_comm]
    cases q with
    | publish id metadata =>
      have hnone : applies ⟨.publish id metadata, a⟩ = false := rfl
      simp [publications, ih, hcount, hnone]
    | _ => simp [publications, ih, hcount, Nat.add_assoc]

theorem batchesApplied_snoc (e : Event) :
    batchesApplied (t ++ [e]) = batchesApplied t + if applies e then 1 else 0 := by
  unfold batchesApplied
  rw [List.countP_append, List.countP_singleton]

theorem applies_of_silent {q : Ask} (hq : isSilent q = true) (a : q.Answer) : applies ⟨q, a⟩ = false := by
  cases q <;> first | rfl | exact Bool.noConfusion hq

theorem publications_of_silent {q : Ask} (hq : isSilent q = true) (a : q.Answer) :
    publications n (t ++ [⟨q, a⟩]) = publications n t := by
  rw [publications_append]
  cases q <;> first | exact List.append_nil _ | exact Bool.noConfusion hq

end Publications

/-! ## What the job shows -/

/-- Books in which nobody else touches a job. The ledger takes what it is told, but a setting may fail to be
written. -/
def Books.ofJob (job : Int) : World Books where
  stirs s s' := s'.ledger.find? job = s.ledger.find? job
  answers s q a s' := s.Answers q a s' ∨ ((∃ key value, q = .writeSetting key value) ∧ s' = s)

/-- The metadata of a job that had some before. -/
def shown (before : String) (ps : List Progress) : String := (ps.getLast?.map fun p => p.toJson.write).getD before

/-- How far a run has come in public: what it has published, how its job stands, and how many batches it has applied. -/
structure Point (dataset : Dataset) (job : Int) (before : String) (ps : List Progress) (status : JobStatus) (n : Nat)
    (t : List Event) (s : Books) : Prop where
  told : publications 0 t = ps.map (Progress.published job)
  lawful : Lawful dataset ps
  row : ∃ r, s.ledger.find? job = some r ∧ r.status = status.name ∧ r.metadata = shown before ps
  batches : batchesApplied t = n

/-- The questions that neither publish nor write to the catalog or the ledger. -/
def isQuiet : Ask → Bool
  | .createJob _ _ => false
  | .startJob _ => false
  | .completeJob _ => false
  | .failJob _ _ => false
  | .cleanJobs _ => false
  | q => isSilent q

section Points

variable {dataset : Dataset} {job : Int} {before : String} {ps : List Progress} {status : JobStatus} {n : Nat}
  {t : List Event} {s s' : Books}

theorem Point.stirs (h : Point dataset job before ps status n t s) (hstir : (Books.ofJob job).stirs s s') :
    Point dataset job before ps status n t s' := by
  obtain ⟨r, hr, hrow⟩ := h.row
  exact { h with row := ⟨r, by rw [hstir, hr], hrow⟩ }

/-- A question that is not about publications or batches, and changes the row of the job to `r'`. -/
theorem Point.silent (h : Point dataset job before ps status n t s) {q : Ask} (hq : isSilent q = true) (a : q.Answer)
    {status' : JobStatus}
    (hrow : ∃ r, s'.ledger.find? job = some r ∧ r.status = status'.name ∧ r.metadata = shown before ps) :
    Point dataset job before ps status' n (t ++ [⟨q, a⟩]) s' := by
  constructor
  · rw [publications_of_silent hq, h.told]
  · exact h.lawful
  · exact hrow
  · rw [batchesApplied_snoc, applies_of_silent hq, h.batches]
    rfl

theorem ledger_of_quiet {q : Ask} (hq : isQuiet q = true) {a : q.Answer} (hans : (Books.ofJob job).answers s q a s') :
    s'.ledger = s.ledger := by
  rcases hans with hans | ⟨-, rfl⟩
  · cases q <;> first | exact Bool.noConfusion hq | exact congrArg _ hans | exact hans.2 ▸ rfl
  · rfl

theorem isSilent_of_isQuiet {q : Ask} (hq : isQuiet q = true) : isSilent q = true := by
  cases q <;> first | rfl | exact Bool.noConfusion hq

theorem Point.quiet (h : Point dataset job before ps status n t s) {q : Ask} (hq : isQuiet q = true) {a : q.Answer}
    (hans : (Books.ofJob job).answers s q a s') : Point dataset job before ps status n (t ++ [⟨q, a⟩]) s' := by
  apply h.silent (isSilent_of_isQuiet hq)
  rw [ledger_of_quiet hq hans]
  exact h.row

/-- The job is started. -/
theorem Point.started (h : Point dataset job before ps .pending n t s) {a : Stored Unit}
    (hans : (Books.ofJob job).answers s (.startJob job) a s') :
    a = .ok () ∧ Point dataset job before ps .inProgress n (t ++ [⟨.startJob job, a⟩]) s' := by
  obtain ⟨rfl, now, rfl⟩ | ⟨⟨_, _, hno⟩, -⟩ := hans
  · obtain ⟨r, hr, hstatus, hmetadata⟩ := h.row
    refine ⟨rfl, h.silent rfl _ ⟨r.start now, ?_, ?_, ?_⟩⟩
    · exact (find?_modify (fun r => (Row.start_becomes now r).id) _ _).trans (by rw [hr, Option.map_some])
    all_goals
      unfold Row.start
      rw [if_pos hstatus]
    exact hmetadata
  · cases hno

/-- The job may be brought to its end. -/
theorem Point.finished (h : Point dataset job before ps status n t s) {q : Ask} (hq : isSilent q = true) (a : q.Answer)
    {now : Time.Instant} (status' : JobStatus) {error : Option String} (hends : status'.isTerminal = true)
    (hs' : s'.ledger = s.ledger.finish now job status' error) :
    ∃ status, Point dataset job before ps status n (t ++ [⟨q, a⟩]) s' := by
  obtain ⟨r, hr, hstatus, hmetadata⟩ := h.row
  have hrow : s'.ledger.find? job = some (r.finish now status' error) := by
    rw [hs']
    exact (find?_modify (fun r => (Row.finish_becomes now hends error r).id) _ _).trans (by rw [hr, Option.map_some])
  unfold Row.finish at hrow
  split at hrow
  · exact ⟨status', h.silent hq a ⟨_, hrow, rfl, hmetadata⟩⟩
  · exact ⟨status, h.silent hq a ⟨_, hrow, hstatus, hmetadata⟩⟩

/-- Progress is published. -/
theorem Point.published (h : Point dataset job before ps .inProgress n t s) {p : Progress}
    (hlawful : Lawful dataset (ps ++ [p])) (hbatches : p.batches = n) {a : Stored Unit}
    (hans : (Books.ofJob job).answers s (.publish job p.toJson) a s') :
    Point dataset job before (ps ++ [p]) .inProgress n (t ++ [⟨.publish job p.toJson, a⟩]) s' := by
  obtain ⟨-, now, rfl⟩ | ⟨⟨_, _, hno⟩, -⟩ := hans
  · obtain ⟨r, hr, hstatus, -⟩ := h.row
    constructor
    · rw [publications_append, h.told, h.batches, List.map_append]
      simp [publications, Progress.published, hbatches]
    · exact hlawful
    · refine ⟨r.publish now p.toJson, ?_, ?_, ?_⟩
      · exact (find?_modify (fun r => (Row.publish_becomes now p.toJson r).id) _ _).trans (by rw [hr, Option.map_some])
      all_goals rw [publish_inProgress hstatus]
      · exact hstatus
      · simp [shown]
    · rw [batchesApplied_snoc, h.batches]
      rfl
  · cases hno

end Points

/-! ## A run in public -/

section Walk

variable {α : Type} {dataset : Dataset} {job : Int} {before : String} {ps : List Progress} {status : JobStatus} {n : Nat}
  {post : α → List Event → Books → Prop} {t : List Event} {s : Books} {p p' : Progress}

/-- However a program goes on from here, what it publishes is lawful and shown by its job, and `post` holds at its
end. -/
abbrev Shows (dataset : Dataset) (job : Int) (before : String) (post : α → List Event → Books → Prop) (p : Program α)
    (t : List Event) (s : Books) : Prop :=
  p.Safe (Books.ofJob job) (fun t s => ∃ ps status n, Point dataset job before ps status n t s) post t s

/-- Progress as it is before the end of a run, and how the run may have come out by then. -/
structure Ready {α : Type} (outcome : Except Failure α) (p : Progress) : Prop where
  phase : p.phase ∈ [.resolving, .downloading, .importing]
  error : p.error = none
  done : outcome.isOk → p.phase = .importing

/-- Progress that tells how a run ended. -/
def Concludes (outcome : Except Failure Summary) (p : Progress) : Prop :=
  match outcome with
  | .ok _ => p.phase = .completed ∧ p.error = none
  | .error e => p.phase = .failed ∧ p.error = some e.message

theorem Ready.advances {outcome : Except Failure Summary} (h : Ready outcome p) : Advances p (ended p outcome) := by
  have hphase := h.phase
  cases outcome with
  | ok summary =>
    have himporting := h.done rfl
    constructor
    all_goals simp [ended, himporting, Phase.later]
  | error e =>
    simp only [List.mem_cons, List.not_mem_nil, or_false] at hphase
    rcases hphase with hp | hp | hp
    all_goals
      constructor
      all_goals simp [ended, hp, Phase.later]

theorem Ready.concludes {outcome : Except Failure Summary} (h : Ready outcome p) : Concludes outcome (ended p outcome) := by
  cases outcome with
  | ok summary => exact ⟨rfl, h.error⟩
  | error e => exact ⟨rfl, rfl⟩

theorem Concludes.error_iff {outcome : Except Failure Summary} (h : Concludes outcome p) :
    p.error ≠ none ↔ p.phase = .failed := by
  cases outcome with
  | ok summary => simp [h.1, h.2]
  | error e => simp [h.1, h.2]

end Walk

end CatalogSync.Import
