import CatalogSync.Ledger.Store
import CatalogSync.Proofs.Time.Order
import Mathlib.Data.List.Induction
import Mathlib.Data.List.Nodup
import Mathlib.Order.Lattice

/-!
# The life of a job

A history is a list of calls on the ledger, each at an instant of a clock that never goes back, and
`replay` is the ledger after it. `Life` is what the texts of a row tell, `Life.Lawful` is the law
that every row obeys, and `Row.Becomes` is what one call may do to a row.

Main statement: `jobs_move_forward`. Every row of every reachable ledger is lawful, every call moves
every row forward or removes it, and a row that has ended stays as it is until it is removed.
-/

namespace CatalogSync.Ledger

open CatalogSync.Time

/-! ## Histories -/

/-- A call on the ledger. -/
inductive Action where
  | create (type : JobType) (metadata : Json)
  | start (id : Int)
  | complete (id : Int)
  | fail (id : Int) (message : String)
  | cancel (id : Int) (reason : String)
  | publish (id : Int) (metadata : Json)
  | clean (days : Int)
  | cancelOpen
  /-- The store is closed and opened again. -/
  | reopen

/-- The ledger after a call. The rows are on disk, so that opening the store again finds them all. -/
def Action.perform (now : Instant) (l : Ledger) : Action → Ledger
  | .create type metadata => (l.create now type metadata).2
  | .start id => l.start now id
  | .complete id => l.complete now id
  | .fail id message => l.fail now id message
  | .cancel id reason => l.cancel now id reason
  | .publish id metadata => l.publish now id metadata
  | .clean days => (l.clean now days).2
  | .cancelOpen => (l.cancelOpen now).2
  | .reopen => l

/-- Calls and their instants, the first call first. -/
abbrev History := List (Instant × Action)

/-- A clock that never goes back. -/
def History.Timely (h : History) : Prop := h.Pairwise fun a b => a.1.le b.1 = true

instance (h : History) : Decidable h.Timely := by unfold History.Timely; infer_instance

def replayFrom (l : Ledger) (h : History) : Ledger := h.foldl (fun l call => call.2.perform call.1 l) l

/-- The ledger after a history of calls on an empty one. -/
def replay (h : History) : Ledger := replayFrom {} h

theorem replayFrom_append (l : Ledger) (h k : History) :
    replayFrom l (h ++ k) = replayFrom (replayFrom l h) k := by
  unfold replayFrom
  rw [List.foldl_append]

theorem replay_append (h k : History) : replay (h ++ k) = replayFrom (replay h) k := replayFrom_append {} h k

theorem replay_concat (h : History) (now : Instant) (a : Action) :
    replay (h ++ [(now, a)]) = a.perform now (replay h) := by
  rw [replay_append]
  rfl

/-! ## The law of a row -/

/-- What a row tells about its job: the status, and the instants that its texts were written from. -/
structure Life where
  status : JobStatus
  created : Instant
  updated : Instant
  started : Option Instant
  completed : Option Instant

/-- The texts of a row tell a life. -/
structure Row.Tells (r : Row) (l : Life) : Prop where
  status : r.status = l.status.name
  created : r.createdAt = l.created.stamp
  updated : r.updatedAt = l.updated.stamp
  started : r.startedAt = l.started.map Instant.stamp
  completed : r.completedAt = l.completed.map Instant.stamp

/-- The law of a life, where `failed` says whether there is an error text. -/
structure Life.Lawful (l : Life) (failed : Bool) : Prop where
  started_of_inProgress : l.status = .inProgress → l.started.isSome = true
  started_of_pending : l.status = .pending → l.started = none
  terminal_iff : l.status.isTerminal = true ↔ l.completed.isSome = true
  error_iff : failed = true ↔ l.status = .failed ∨ l.status = .cancelled
  created_le_started : ∀ s ∈ l.started, l.created.le s = true
  started_le_completed : ∀ s ∈ l.started, ∀ c ∈ l.completed, s.le c = true
  created_le_completed : ∀ c ∈ l.completed, l.created.le c = true
  created_le_updated : l.created.le l.updated = true
  started_le_updated : ∀ s ∈ l.started, s.le l.updated = true
  updated_of_completed : ∀ c ∈ l.completed, l.updated = c

/-- A row that obeys the law. -/
def Row.Lawful (r : Row) : Prop := ∃ l : Life, r.Tells l ∧ l.Lawful r.error.isSome

/-- A row that obeys the law and was not written after the clock's reading. -/
def Row.LawfulAt (clock : Instant) (r : Row) : Prop :=
  ∃ l : Life, r.Tells l ∧ l.Lawful r.error.isSome ∧ l.updated.le clock = true

theorem Row.LawfulAt.lawful {clock : Instant} {r : Row} (h : r.LawfulAt clock) : r.Lawful := by
  obtain ⟨l, ht, hl, -⟩ := h
  exact ⟨l, ht, hl⟩

theorem Row.LawfulAt.mono {clock now : Instant} {r : Row} (h : r.LawfulAt clock) (hc : clock.le now = true) :
    r.LawfulAt now := by
  obtain ⟨l, ht, hl, hu⟩ := h
  exact ⟨l, ht, hl, Instant.le_trans hu hc⟩

/-! ## Names of statuses -/

theorem name_inj {s t : JobStatus} : s.name = t.name ↔ s = t := by
  cases s <;> cases t <;> decide

theorem Row.Tells.isOpen_iff {r : Row} {l : Life} (h : r.Tells l) :
    r.isOpen = true ↔ l.status.isTerminal = false := by
  unfold Row.isOpen
  rw [h.status]
  cases l.status <;> decide

theorem Row.Tells.pending_iff {r : Row} {l : Life} (h : r.Tells l) :
    r.status = JobStatus.pending.name ↔ l.status = .pending := by
  rw [h.status, name_inj]

/-! ## What one call does to a row -/

/-- The moves of a status: pending, in progress, ended; or from pending straight to the end. -/
inductive Moves : JobStatus → JobStatus → Prop
  | start : Moves .pending .inProgress
  | finish {s t : JobStatus} (hs : s.isTerminal = false) (ht : t.isTerminal = true) : Moves s t

/-- What one call may make of a row that it does not remove. -/
structure Row.Becomes (r r' : Row) : Prop where
  id : r'.id = r.id
  type : r'.jobType = r.jobType
  created : r'.createdAt = r.createdAt
  moves : ∀ s : JobStatus, r.status = s.name → ∃ t : JobStatus, r'.status = t.name ∧ (t = s ∨ Moves s t)
  stays : ∀ s : JobStatus, r.status = s.name → s.isTerminal = true → r' = r

theorem Row.Becomes.refl (r : Row) : r.Becomes r :=
  ⟨rfl, rfl, rfl, fun s hs => ⟨s, hs, .inl rfl⟩, fun _ _ _ => rfl⟩

/-- A row that a call leaves alone unless it is open. -/
theorem Row.not_open_of_terminal {r : Row} {s : JobStatus} (hs : r.status = s.name) (ht : s.isTerminal = true) :
    r.isOpen = false := by
  unfold Row.isOpen
  rw [hs]
  cases s <;> first | rfl | cases ht

theorem Row.start_becomes (now : Instant) (r : Row) : r.Becomes (r.start now) := by
  unfold Row.start
  split
  · next hp =>
    refine ⟨rfl, rfl, rfl, fun s hs => ?_, fun s hs ht => ?_⟩
    · have : s = .pending := name_inj.1 (hs.symm.trans hp)
      subst this
      exact ⟨.inProgress, rfl, .inr .start⟩
    · have : s = .pending := name_inj.1 (hs.symm.trans hp)
      subst this
      cases ht
  · exact .refl r

theorem Row.finish_becomes (now : Instant) {status : JobStatus} (hst : status.isTerminal = true)
    (error : Option String) (r : Row) : r.Becomes (r.finish now status error) := by
  unfold Row.finish
  split
  · next ho =>
    refine ⟨rfl, rfl, rfl, fun s hs => ⟨status, rfl, .inr (.finish ?_ hst)⟩, fun s hs ht => ?_⟩
    · cases hk : s.isTerminal with
      | false => rfl
      | true => rw [Row.not_open_of_terminal hs hk] at ho; cases ho
    · rw [Row.not_open_of_terminal hs ht] at ho
      cases ho
  · exact .refl r

theorem Row.publish_becomes (now : Instant) (metadata : Json) (r : Row) : r.Becomes (r.publish now metadata) := by
  unfold Row.publish
  split
  · next ho =>
    refine ⟨rfl, rfl, rfl, fun s hs => ⟨s, hs, .inl rfl⟩, fun s hs ht => ?_⟩
    rw [Row.not_open_of_terminal hs ht] at ho
    cases ho
  · exact .refl r

/-! ## The law is kept -/

theorem Row.fresh_lawful (now : Instant) (id : Int) (type : JobType) (metadata : Json) :
    (Row.fresh now id type metadata).LawfulAt now := by
  refine ⟨⟨.pending, now, now, none, none⟩, ⟨rfl, rfl, rfl, rfl, rfl⟩, ?_, Instant.le_refl now⟩
  constructor <;> simp [Row.fresh, JobStatus.isTerminal, Instant.le_refl]

theorem Row.start_lawful {clock now : Instant} {r : Row} (h : r.LawfulAt clock) (hc : clock.le now = true) :
    (r.start now).LawfulAt now := by
  obtain ⟨l, ht, hl, hu⟩ := h
  have hcreated : l.created.le now = true := Instant.le_trans hl.created_le_updated (Instant.le_trans hu hc)
  unfold Row.start
  split
  · next hp =>
    have hs : l.status = .pending := ht.pending_iff.1 hp
    have hopen : l.completed = none := by
      have := hl.terminal_iff
      rw [hs] at this
      simpa [JobStatus.isTerminal] using this
    have hok : r.error.isSome = false := by
      have := hl.error_iff
      rw [hs] at this
      simpa using this
    refine ⟨{ l with status := .inProgress, started := some now, updated := now },
      ⟨rfl, ht.created, rfl, rfl, ht.completed⟩, ?_, Instant.le_refl now⟩
    constructor <;> simp [JobStatus.isTerminal, hopen, hok, hcreated, Instant.le_refl]
  · exact ⟨l, ht, hl, Instant.le_trans hu hc⟩

theorem Row.finish_lawful {clock now : Instant} {r : Row} (h : r.LawfulAt clock) (hc : clock.le now = true)
    {status : JobStatus} (hst : status.isTerminal = true) {error : Option String}
    (he : error.isSome = true ↔ status = .failed ∨ status = .cancelled) :
    (r.finish now status error).LawfulAt now := by
  obtain ⟨l, ht, hl, hu⟩ := h
  have hnow : l.updated.le now = true := Instant.le_trans hu hc
  unfold Row.finish
  split
  · refine ⟨{ l with status := status, completed := some now, updated := now },
      ⟨rfl, ht.created, rfl, ht.started, rfl⟩, ?_, Instant.le_refl now⟩
    constructor
    · rintro rfl; cases hst
    · rintro rfl; cases hst
    · simp [hst]
    · exact he
    · exact hl.created_le_started
    · intro s hs c hc'
      cases hc'
      exact Instant.le_trans (hl.started_le_updated s hs) hnow
    · intro c hc'
      cases hc'
      exact Instant.le_trans hl.created_le_updated hnow
    · exact Instant.le_trans hl.created_le_updated hnow
    · exact fun s hs => Instant.le_trans (hl.started_le_updated s hs) hnow
    · intro c hc'
      cases hc'
      rfl
  · exact ⟨l, ht, hl, hnow⟩

theorem Row.publish_lawful {clock now : Instant} {r : Row} (h : r.LawfulAt clock) (hc : clock.le now = true)
    (metadata : Json) : (r.publish now metadata).LawfulAt now := by
  obtain ⟨l, ht, hl, hu⟩ := h
  have hnow : l.updated.le now = true := Instant.le_trans hu hc
  unfold Row.publish
  split
  · next ho =>
    have hopen : l.status.isTerminal = false := ht.isOpen_iff.1 ho
    have hnone : l.completed = none := by
      have := hl.terminal_iff
      rw [hopen] at this
      simpa using this
    refine ⟨{ l with updated := now }, ⟨ht.status, ht.created, rfl, ht.started, ht.completed⟩, ?_,
      Instant.le_refl now⟩
    exact { hl with
      created_le_updated := Instant.le_trans hl.created_le_updated hnow
      started_le_updated := fun s hs => Instant.le_trans (hl.started_le_updated s hs) hnow
      updated_of_completed := by
        intro c hc'
        rw [show ({ l with updated := now } : Life).completed = none from hnone] at hc'
        cases hc' }
  · exact ⟨l, ht, hl, hnow⟩

/-! ## Rows of a ledger -/

/-- A ledger whose rows obey the law, one row for each id. -/
structure LawfulAt (clock : Instant) (l : Ledger) : Prop where
  rows : ∀ r ∈ l.rows, r.LawfulAt clock
  ids : l.rows.Pairwise fun a b => a.id < b.id

theorem le_foldl_max (rows : List Row) : ∀ n : Int,
    n ≤ rows.foldl (fun n r => max n r.id) n ∧ ∀ r ∈ rows, r.id ≤ rows.foldl (fun n r => max n r.id) n := by
  induction rows with
  | nil => intro n; simp
  | cons a rows ih =>
    intro n
    obtain ⟨h1, h2⟩ := ih (max n a.id)
    refine ⟨le_trans (le_max_left n a.id) h1, fun r hr => ?_⟩
    rcases List.mem_cons.1 hr with rfl | hr
    · exact le_trans (le_max_right n r.id) h1
    · exact h2 r hr

/-- No id is greater than the last one. -/
theorem id_le_lastId {l : Ledger} {r : Row} (hr : r ∈ l.rows) : r.id ≤ l.lastId := (le_foldl_max l.rows 0).2 r hr

/-- What one call makes of all rows: each moves forward or is removed by a clean-up, and a row that
is new is a pending job of a new id. -/
structure Forward (now : Instant) (l : Ledger) (a : Action) (l' : Ledger) : Prop where
  kept : ∀ r ∈ l.rows, (∃ r' ∈ l'.rows, r.Becomes r') ∨ ((∃ days, a = .clean days) ∧ ∀ r' ∈ l'.rows, r'.id ≠ r.id)
  origin : ∀ r' ∈ l'.rows, (∃ r ∈ l.rows, r.Becomes r') ∨
    ∃ type metadata, a = .create type metadata ∧ r' = Row.fresh now (l.lastId + 1) type metadata

/-- There is one row for each id. -/
theorem eq_of_ids {rows : List Row} (hids : rows.Pairwise fun a b => a.id < b.id) {r r' : Row} (hr : r ∈ rows)
    (hr' : r' ∈ rows) (hid : r.id = r'.id) : r = r' :=
  List.inj_on_of_nodup_map (List.pairwise_map.2 (hids.imp fun hlt => ne_of_lt hlt)) hr hr' hid

/-- A clean-up only picks rows to keep. -/
theorem rows_clean (now : Instant) (days : Int) (l : Ledger) :
    ∃ keep : Row → Bool, (l.clean now days).2.rows = l.rows.filter keep := by
  unfold clean
  cases cutoff? now days with
  | none => exact ⟨fun _ => true, (List.filter_eq_self.2 fun _ _ => rfl).symm⟩
  | some t => exact ⟨_, rfl⟩

section Forward

variable {now : Instant} {l : Ledger} (hids : l.rows.Pairwise fun a b => a.id < b.id)
include hids

/-- A change of every row that keeps ids is a step forward. -/
theorem forward_map (a : Action) {f : Row → Row} (hf : ∀ r : Row, r.Becomes (f r)) :
    Forward now l a ⟨l.rows.map f⟩ ∧ (l.rows.map f).Pairwise fun a b => a.id < b.id := by
  refine ⟨⟨fun r hr => .inl ⟨f r, List.mem_map_of_mem hr, hf r⟩, fun r' hr' => ?_⟩, ?_⟩
  · obtain ⟨r, hr, rfl⟩ := List.mem_map.1 hr'
    exact .inl ⟨r, hr, hf r⟩
  · refine List.pairwise_map.2 (hids.imp fun {a b} hab => ?_)
    rw [(hf a).id, (hf b).id]
    exact hab

theorem forward_modify (a : Action) (id : Int) {f : Row → Row} (hf : ∀ r : Row, r.Becomes (f r)) :
    Forward now l a (l.modify id f) ∧ (l.modify id f).rows.Pairwise fun a b => a.id < b.id := by
  refine forward_map hids a fun r => ?_
  split
  · exact hf r
  · exact .refl r

theorem forward_create (type : JobType) (metadata : Json) :
    Forward now l (.create type metadata) (l.create now type metadata).2 ∧
      (l.create now type metadata).2.rows.Pairwise fun a b => a.id < b.id := by
  have hrows : (l.create now type metadata).2.rows = l.rows ++ [Row.fresh now (l.lastId + 1) type metadata] := rfl
  refine ⟨⟨fun r hr => .inl ⟨r, ?_, .refl r⟩, fun r' hr' => ?_⟩, ?_⟩
  · rw [hrows]
    exact List.mem_append_left _ hr
  · rw [hrows] at hr'
    rcases List.mem_append.1 hr' with hr' | hr'
    · exact .inl ⟨r', hr', .refl r'⟩
    · exact .inr ⟨type, metadata, rfl, List.mem_singleton.1 hr'⟩
  · rw [hrows]
    refine List.pairwise_append.2 ⟨hids, List.pairwise_singleton .., fun r hr r' hr' => ?_⟩
    have hid := id_le_lastId hr
    rw [List.mem_singleton.1 hr']
    exact Int.lt_add_one_of_le hid

theorem forward_clean (days : Int) :
    Forward now l (.clean days) (l.clean now days).2 ∧ (l.clean now days).2.rows.Pairwise fun a b => a.id < b.id := by
  obtain ⟨keep, hkeep⟩ := rows_clean now days l
  refine ⟨⟨fun r hr => ?_, fun r' hr' => ?_⟩, ?_⟩
  · cases hk : keep r with
    | true => exact .inl ⟨r, by rw [hkeep]; exact List.mem_filter.2 ⟨hr, hk⟩, .refl r⟩
    | false =>
      refine .inr ⟨⟨days, rfl⟩, fun r' hr' hid => ?_⟩
      rw [hkeep] at hr'
      obtain ⟨hr', hk'⟩ := List.mem_filter.1 hr'
      -- the row that stays would be the row that goes
      rw [eq_of_ids hids hr' hr hid, hk] at hk'
      cases hk'
  · rw [hkeep] at hr'
    exact .inl ⟨r', (List.mem_filter.1 hr').1, .refl r'⟩
  · rw [hkeep]
    exact hids.filter keep

/-- One call, at whatever instant, moves every row forward and keeps one row for each id. -/
theorem perform_moves (a : Action) :
    Forward now l a (a.perform now l) ∧ (a.perform now l).rows.Pairwise fun a b => a.id < b.id := by
  cases a with
  | create type metadata => exact forward_create hids type metadata
  | start id => exact forward_modify hids _ id (Row.start_becomes now)
  | complete id => exact forward_modify hids _ id (Row.finish_becomes now rfl none)
  | fail id message => exact forward_modify hids _ id (Row.finish_becomes now rfl (some message))
  | cancel id reason => exact forward_modify hids _ id (Row.finish_becomes now rfl (some reason))
  | publish id metadata => exact forward_modify hids _ id (Row.publish_becomes now metadata)
  | clean days => exact forward_clean hids days
  | cancelOpen => exact forward_map hids _ (Row.finish_becomes now rfl (some interrupted))
  | reopen => exact ⟨⟨fun r hr => .inl ⟨r, hr, .refl r⟩, fun r' hr' => .inl ⟨r', hr', .refl r'⟩⟩, hids⟩

end Forward

section Law

variable {clock now : Instant} {l : Ledger} (h : ∀ r ∈ l.rows, r.LawfulAt clock) (hc : clock.le now = true)
include h hc

theorem modify_lawful (id : Int) {f : Row → Row} (hf : ∀ r : Row, r.LawfulAt clock → (f r).LawfulAt now) :
    ∀ r ∈ (l.modify id f).rows, r.LawfulAt now := by
  intro r' hr'
  obtain ⟨r, hr, rfl⟩ := List.mem_map.1 hr'
  split
  · exact hf r (h r hr)
  · exact (h r hr).mono hc

/-- One call keeps the law of every row. -/
theorem perform_lawful (a : Action) : ∀ r ∈ (a.perform now l).rows, r.LawfulAt now := by
  cases a with
  | create type metadata =>
    intro r hr
    rcases List.mem_append.1 hr with hr | hr
    · exact (h r hr).mono hc
    · rw [List.mem_singleton.1 hr]
      exact Row.fresh_lawful now _ type metadata
  | start id => exact modify_lawful h hc id fun _ hr => Row.start_lawful hr hc
  | complete id => exact modify_lawful h hc id fun _ hr => Row.finish_lawful hr hc rfl (by simp)
  | fail id message => exact modify_lawful h hc id fun _ hr => Row.finish_lawful hr hc rfl (by simp)
  | cancel id reason => exact modify_lawful h hc id fun _ hr => Row.finish_lawful hr hc rfl (by simp)
  | publish id metadata => exact modify_lawful h hc id fun _ hr => Row.publish_lawful hr hc metadata
  | clean days =>
    obtain ⟨keep, hkeep⟩ := rows_clean now days l
    intro r hr
    have hmem : r ∈ l.rows := by
      rw [show ((Action.clean days).perform now l).rows = l.rows.filter keep from hkeep] at hr
      exact (List.mem_filter.1 hr).1
    exact (h r hmem).mono hc
  | cancelOpen =>
    intro r' hr'
    obtain ⟨r, hr, rfl⟩ := List.mem_map.1 hr'
    exact Row.finish_lawful (h r hr) hc rfl (by simp)
  | reopen => exact fun r hr => (h r hr).mono hc

end Law

/-- **One call.** It moves every row forward and keeps the law. -/
theorem perform_forward {clock now : Instant} {l : Ledger} (h : l.LawfulAt clock) (hc : clock.le now = true)
    (a : Action) : Forward now l a (a.perform now l) ∧ LawfulAt now (a.perform now l) := by
  have hmoves : Forward now l a (a.perform now l) ∧ (a.perform now l).rows.Pairwise fun a b => a.id < b.id :=
    perform_moves h.ids a
  exact ⟨hmoves.1, perform_lawful h.rows hc a, hmoves.2⟩

/-! ## Whole histories -/

def History.clock (h : History) : Instant := (h.getLast?.map Prod.fst).getD default

theorem History.Timely.clock_le {h : History} {now : Instant} {a : Action} {rest : History}
    (hc : History.Timely (h ++ (now, a) :: rest)) (hne : h ≠ []) : h.clock.le now = true := by
  obtain ⟨call, hlast⟩ : ∃ call, h.getLast? = some call := ⟨h.getLast hne, List.getLast?_eq_some_getLast hne⟩
  have hmem : call ∈ h := List.mem_of_getLast? hlast
  have hle := (List.pairwise_append.1 hc).2.2 call hmem (now, a) (List.mem_cons_self ..)
  unfold History.clock
  rw [hlast]
  exact hle

theorem empty_lawful (clock : Instant) : LawfulAt clock (replay []) :=
  ⟨fun _ hr => absurd hr List.not_mem_nil, List.Pairwise.nil⟩

/-- The law holds after every history. -/
theorem replay_lawful {h : History} (hc : h.Timely) : LawfulAt h.clock (replay h) := by
  induction h using List.reverseRecOn with
  | nil => exact empty_lawful _
  | append_singleton h call ih =>
    obtain ⟨now, a⟩ := call
    have hlast : History.clock (h ++ [(now, a)]) = now := by simp [History.clock]
    rw [hlast, replay_concat]
    by_cases hne : h = []
    · subst hne
      exact (perform_forward (empty_lawful now) (Instant.le_refl now) a).2
    · exact (perform_forward (ih (List.pairwise_append.1 hc).1) (hc.clock_le hne) a).2

/-- There is one row for each id after every history. -/
theorem replay_ids (h : History) : (replay h).rows.Pairwise fun a b => a.id < b.id := by
  induction h using List.reverseRecOn with
  | nil => exact List.Pairwise.nil
  | append_singleton h call ih =>
    rw [replay_concat]
    exact (perform_moves ih call.2).2

/-- Every call of a history is a step forward. -/
theorem replay_forward (h : History) (now : Instant) (a : Action) :
    Forward now (replay h) a (replay (h ++ [(now, a)])) := by
  rw [replay_concat]
  exact (perform_moves (replay_ids h) a).1

def Row.Ended (r : Row) : Prop := ∃ s : JobStatus, r.status = s.name ∧ s.isTerminal = true

/-- A call of a history after which a row is gone: a clean-up that finds the row and leaves none of its id. -/
def Removes (h : History) (now : Instant) (days : Int) (r : Row) : Prop :=
  r ∈ (replay h).rows ∧ ∀ r' ∈ (replay (h ++ [(now, .clean days)])).rows, r'.id ≠ r.id

/-- A row that has ended stays as it is, up to the end of the history or up to a clean-up. -/
theorem ended_stays {r : Row} (hr : r.Ended) : ∀ {after before : History}, History.Timely (before ++ after) →
    r ∈ (replay before).rows → r ∈ (replay (before ++ after)).rows ∨
      ∃ mid now days rest, after = mid ++ (now, .clean days) :: rest ∧ Removes (before ++ mid) now days r := by
  intro after
  induction after with
  | nil =>
    intro before _ hmem
    rw [List.append_nil]
    exact .inl hmem
  | cons call after ih =>
    obtain ⟨now, a⟩ := call
    intro before hc hmem
    have hsplit : before ++ (now, a) :: after = (before ++ [(now, a)]) ++ after := by simp
    rcases (replay_forward before now a).kept r hmem with ⟨r', hr', hb⟩ | ⟨⟨days, rfl⟩, hgone⟩
    · obtain ⟨s, hs, ht⟩ := hr
      rw [hb.stays s hs ht] at hr'
      rw [hsplit] at hc ⊢
      rcases ih hc hr' with hend | ⟨mid, now', days, rest, rfl, hrem⟩
      · exact .inl hend
      · refine .inr ⟨(now, a) :: mid, now', days, rest, rfl, ?_⟩
        rw [show before ++ (now, a) :: mid = (before ++ [(now, a)]) ++ mid by simp]
        exact hrem
    · refine .inr ⟨[], now, days, after, rfl, ?_⟩
      rw [List.append_nil]
      exact ⟨hmem, hgone⟩

/-- **Jobs move forward.** After every history of a clock that never goes back each row is lawful and
there is one row for each id; every call of the history moves each row forward or, being a clean-up,
removes it; and a row that has ended is the same until the end of the history or until a clean-up
removes it. -/
theorem jobs_move_forward (h : History) (hc : h.Timely) :
    (∀ r ∈ (replay h).rows, r.Lawful) ∧ (replay h).rows.Pairwise (fun a b => a.id < b.id) ∧
    (∀ before now a rest, h = before ++ (now, a) :: rest →
      Forward now (replay before) a (replay (before ++ [(now, a)]))) ∧
    (∀ before after, h = before ++ after → ∀ r ∈ (replay before).rows, r.Ended →
      r ∈ (replay h).rows ∨
        ∃ mid now days rest, after = mid ++ (now, .clean days) :: rest ∧ Removes (before ++ mid) now days r) := by
  have hlaw := replay_lawful hc
  refine ⟨fun r hr => (hlaw.rows r hr).lawful, hlaw.ids, ?_, ?_⟩
  · rintro before now a rest rfl
    exact replay_forward before now a
  · rintro before after rfl r hmem hr
    exact ended_stays hr hc hmem

/-- A job that fails in its second second, and a call on it that comes too late. -/
theorem late_call_on_failed_job :
    let t := Instant.addSeconds default
    let h : History :=
      [(t 0, .create .setImport .null), (t 1, .start 1), (t 2, .fail 1 "boom"), (t 3, .complete 1)]
    h.Timely ∧ (∀ r ∈ (replay h).rows, r.Lawful) ∧ ∀ r ∈ (replay (h.take 3)).rows, r.Ended → r ∈ (replay h).rows := by
  intro t h
  have hc : h.Timely := by decide
  obtain ⟨hlaw, -, -, hstay⟩ := jobs_move_forward h hc
  refine ⟨hc, hlaw, fun r hr he => ?_⟩
  rcases hstay (h.take 3) (h.drop 3) rfl r hr he with hmem | ⟨mid, now, days, rest, hsplit, -⟩
  · exact hmem
  · rcases mid with _ | ⟨call, mid⟩
    · cases hsplit
    · have := congrArg List.length hsplit
      simp [h] at this

end CatalogSync.Ledger
