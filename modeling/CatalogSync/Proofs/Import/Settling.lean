import CatalogSync.Import.Tracked
import CatalogSync.Proofs.Import.Asks
import CatalogSync.Proofs.Import.Status
import CatalogSync.Proofs.Import.Success
import CatalogSync.Proofs.Ledger.Lifecycle

/-!
# How an import settles its books

An import leaves traces in the ledger and in the settings. Its `Account` is what they say of it: the row of
its job and the two settings of its dataset. `Leads` follows a program from account to account while
others go about their own business.

Main statement: `import_settles_its_books`.
-/

namespace CatalogSync.Import

open CatalogSync.Time CatalogSync.Ledger

/-! ## Books and accounts -/

/-- The settings and the jobs. -/
structure Books where
  settings : Text.Dict String
  ledger : Ledger

/-- What the books say of an import. -/
structure Account where
  /-- The row of its job. -/
  row : Option Row
  /-- When its dataset was last imported with success. -/
  lastUpdate : Option String
  /-- How the last import of its dataset ended. -/
  status : Option String

namespace Books

/-- What the books say of an import with a job. -/
def account (job : Int) (dataset : Dataset) (s : Books) : Account where
  row := s.ledger.find? job
  lastUpdate := s.settings.find? (Settings.lastUpdateKey dataset.key)
  status := s.settings.find? (Settings.lastUpdateStatusKey dataset.key)

/-- What may answer a question. The ledger and the settings take what they are told, the ledger by a clock of
its own; all other answers are free. -/
def Answers (s : Books) : (q : Ask) → q.Answer → Books → Prop
  | .writeSetting key value, answer, s' => answer = .ok () ∧ s' = { s with settings := s.settings.put key value }
  | .createJob type metadata, answer, s' =>
    ∃ now, answer = (s.ledger.create now type metadata).1 ∧
      s' = { s with ledger := (s.ledger.create now type metadata).2 }
  | .startJob id, answer, s' => answer = .ok () ∧ ∃ now, s' = { s with ledger := s.ledger.start now id }
  | .completeJob id, answer, s' => answer = .ok () ∧ ∃ now, s' = { s with ledger := s.ledger.complete now id }
  | .failJob id message, answer, s' =>
    answer = .ok () ∧ ∃ now, s' = { s with ledger := s.ledger.fail now id message }
  | .publish id metadata, answer, s' =>
    answer = .ok () ∧ ∃ now, s' = { s with ledger := s.ledger.publish now id metadata }
  | .cleanJobs days, answer, s' =>
    ∃ now, answer = .ok (s.ledger.clean now days).1 ∧ s' = { s with ledger := (s.ledger.clean now days).2 }
  | _, _, s' => s' = s

/-- Books in which nobody else touches what is said of an import. -/
def world (job : Int) (dataset : Dataset) : World Books where
  stirs s s' := s'.account job dataset = s.account job dataset
  answers := Answers

variable (job : Int) (dataset : Dataset) (s : Books)

theorem account_modify {f : Row → Row} (hf : ∀ r, (f r).id = r.id) :
    ({ s with ledger := s.ledger.modify job f } : Books).account job dataset =
      { s.account job dataset with row := (s.account job dataset).row.map f } := by
  unfold account
  rw [find?_modify hf]

end Books

/-! ## From account to account -/

/-- However a program runs in the books from here, `post` holds of its result, the events and the account at the
end. -/
def Leads {α : Type} (job : Int) (dataset : Dataset) (post : α → List Event → Account → Prop) (p : Program α)
    (t : List Event) (a : Account) : Prop :=
  ∀ s : Books, s.account job dataset = a →
    p.Safe (Books.world job dataset) (fun _ _ => True) (fun x t s => post x t (s.account job dataset)) t s

/-- The lock on imports of the dataset has been refused. -/
def Refused (dataset : Dataset) (t : List Event) : Prop := ⟨.lock dataset, false⟩ ∈ t

namespace Leads

variable {α β : Type} {job : Int} {dataset : Dataset} {post : α → List Event → Account → Prop} {t : List Event}
  {a : Account}

theorem pure {x : α} (h : post x t a) : Leads job dataset post (pure x) t a := by
  intro s hs
  refine Program.Safe.pure (fun s => s.account job dataset = a) hs (fun s s' hs hstir => hstir.trans hs) ?_
  intro s hs
  rw [hs]
  exact ⟨trivial, h⟩

theorem bind {p : Program β} {f : β → Program α} {post' : β → List Event → Account → Prop}
    (h : Leads job dataset post' p t a) (hf : ∀ x t a, post' x t a → Leads job dataset post (f x) t a) :
    Leads job dataset post (p >>= f) t a :=
  fun s hs => (h s hs).bind fun x t m hx => hf x t _ hx m rfl

theorem call {q : Ask} {f : q.Answer → Program α}
    (h : ∀ (s : Books) x s', s.account job dataset = a → s.Answers q x s' →
      Leads job dataset post (f x) (t ++ [⟨q, x⟩]) (s'.account job dataset)) :
    Leads job dataset post (Program.call q >>= f) t a := by
  intro s hs
  refine Program.Safe.call (fun s => s.account job dataset = a) hs (fun s s' hs hstir => hstir.trans hs)
    (fun _ _ => trivial) ?_
  intro s x s' hs hans
  exact h s x s' hs hans s' rfl

/-- A question that has nothing to do with the books. -/
theorem aside {q : Ask} {f : q.Answer → Program α} (hq : ∀ (s : Books) x s', s.Answers q x s' → s' = s)
    (h : ∀ x, Leads job dataset post (f x) (t ++ [⟨q, x⟩]) a) : Leads job dataset post (Program.call q >>= f) t a := by
  refine call fun s x s' hs hans => ?_
  rw [hq s x s' hans, hs]
  exact h x

/-- A question at the end that has nothing to do with the books. -/
theorem last {q : Ask} {post : q.Answer → List Event → Account → Prop}
    (hq : ∀ (s : Books) x s', s.Answers q x s' → s' = s) (h : ∀ x, post x (t ++ [⟨q, x⟩]) a) :
    Leads job dataset post (Program.call q) t a := aside (f := Pure.pure) hq fun x => pure (h x)

theorem ite {c : Prop} [Decidable c] {p q : Program α} (hp : c → Leads job dataset post p t a)
    (hq : ¬ c → Leads job dataset post q t a) : Leads job dataset post (if c then p else q) t a := by
  split
  · next hc => exact hp hc
  · next hc => exact hq hc

theorem startJob {f : Stored Unit → Program α}
    (h : ∀ now, Leads job dataset post (f (.ok ())) (t ++ [⟨.startJob job, .ok ()⟩])
      { a with row := a.row.map (Row.start now) }) :
    Leads job dataset post (Program.call (.startJob job) >>= f) t a := by
  refine call fun s x s' hs hans => ?_
  obtain ⟨rfl, now, rfl⟩ := hans
  subst hs
  have haccount := Books.account_modify job dataset s fun r => (Row.start_becomes now r).id
  exact haccount ▸ h now

theorem completeJob {f : Stored Unit → Program α}
    (h : ∀ now, Leads job dataset post (f (.ok ())) (t ++ [⟨.completeJob job, .ok ()⟩])
      { a with row := a.row.map (Row.finish now .completed none) }) :
    Leads job dataset post (Program.call (.completeJob job) >>= f) t a := by
  refine call fun s x s' hs hans => ?_
  obtain ⟨rfl, now, rfl⟩ := hans
  subst hs
  have hends : JobStatus.completed.isTerminal = true := rfl
  have haccount := Books.account_modify job dataset s fun r => (Row.finish_becomes now hends none r).id
  exact haccount ▸ h now

theorem failJob {message : String} {f : Stored Unit → Program α}
    (h : ∀ now, Leads job dataset post (f (.ok ())) (t ++ [⟨.failJob job message, .ok ()⟩])
      { a with row := a.row.map (Row.finish now .failed (some message)) }) :
    Leads job dataset post (Program.call (.failJob job message) >>= f) t a := by
  refine call fun s x s' hs hans => ?_
  obtain ⟨rfl, now, rfl⟩ := hans
  subst hs
  have hends : JobStatus.failed.isTerminal = true := rfl
  have haccount := Books.account_modify job dataset s fun r => (Row.finish_becomes now hends (some message) r).id
  exact haccount ▸ h now

end Leads

/-! ## The run -/

/-- The metadata of a job tells how its import ended: it is the progress that the import ended with. -/
def Reports (dataset : Dataset) (outcome : Except Failure Summary) (metadata : String) : Prop :=
  ∃ p : Progress, metadata = p.toJson.write ∧ p.dataset = dataset.key ∧
    match outcome with
    | .ok summary => p.phase = .completed ∧ p.error = none ∧ summary = Summary.ofProgress p
    | .error e => p.phase = .failed ∧ p.error = some e.message

/-- An import has the lock and its job is in progress. -/
structure Underway (dataset : Dataset) (before : Option String) (t : List Event) (a : Account) : Prop where
  granted : ¬ Refused dataset t
  row : ∃ r, a.row = some r ∧ r.status = JobStatus.inProgress.name
  lastUpdate : a.lastUpdate = before

/-- An import has ended and has only its job and the settings left to settle. -/
structure Ended (dataset : Dataset) (before : Option String) (outcome : Except Failure Summary) (t : List Event)
    (a : Account) : Prop where
  granted : ¬ Refused dataset t
  admitted : Admitted outcome
  row : ∃ r, a.row = some r ∧ r.status = JobStatus.inProgress.name ∧ Reports dataset outcome r.metadata
  lastUpdate : a.lastUpdate = before

section Walk

variable {job : Int} {dataset : Dataset} {before : Option String} {t : List Event} {a : Account}

theorem isOpen_of_inProgress {r : Row} (h : r.status = JobStatus.inProgress.name) : r.isOpen = true := by
  unfold Row.isOpen
  rw [h]
  decide

theorem publish_inProgress {r : Row} (h : r.status = JobStatus.inProgress.name) (now : Instant) (metadata : Json) :
    r.publish now metadata = { r with metadata := metadata.write, updatedAt := now.stamp } := by
  unfold Row.publish
  rw [if_pos (isOpen_of_inProgress h)]

theorem Underway.publish (h : Underway dataset before t a) (now : Instant) (metadata : Json) :
    Underway dataset before t { a with row := a.row.map (Row.publish now metadata) } := by
  obtain ⟨hgranted, ⟨r, hr, hstatus⟩, hlast⟩ := h
  refine ⟨hgranted, ⟨r.publish now metadata, ?_, ?_⟩, hlast⟩
  · rw [hr, Option.map_some]
  · rw [publish_inProgress hstatus]
    exact hstatus

/-- The clock was read, and the reading was written at once as the time of the last success. -/
def Stamped (dataset : Dataset) (now : Instant) (t : List Event) : Prop :=
  [⟨.now, now⟩, ⟨.writeSetting (Settings.lastUpdateKey dataset.key) now.text, .ok ()⟩] <:+: t

theorem Stamped.snoc {now : Instant} (h : Stamped dataset now t) (e : Event) : Stamped dataset now (t ++ [e]) :=
  h.trans (List.infix_append [] t [e])

/-- An import counts as done: its job is completed, its metadata have the summary that it returns, and its
settings say when it ended and that it was a success. -/
structure Done (dataset : Dataset) (summary : Summary) (t : List Event) (row : Row) (a : Account) : Prop where
  status : row.status = JobStatus.completed.name
  error : row.error = none
  metadata : Reports dataset (.ok summary) row.metadata
  lastUpdate : ∃ now : Instant, a.lastUpdate = some now.text ∧ Stamped dataset now t
  setting : a.status = some successStatus

/-- An import has failed, not for want of the lock: the error that it returns is that of its job and of its
metadata, and of the settings only the status has changed. -/
structure Failed (dataset : Dataset) (e : Failure) (before : Option String) (row : Row) (a : Account) : Prop where
  admitted : e ≠ .alreadyRunning
  status : row.status = JobStatus.failed.name
  error : row.error = some e.message
  metadata : Reports dataset (.error e) row.metadata
  lastUpdate : a.lastUpdate = before
  setting : a.status = some failedStatus

/-- What an import leaves that was not turned away. -/
def Settled (dataset : Dataset) (before : Option String) (outcome : Except Failure Summary) (t : List Event)
    (row : Row) (a : Account) : Prop :=
  match outcome with
  | .ok summary => Done dataset summary t row a
  | .error e => Failed dataset e before row a

end Walk

end CatalogSync.Import
