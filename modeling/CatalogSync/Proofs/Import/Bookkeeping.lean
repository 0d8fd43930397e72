import CatalogSync.Proofs.Import.Asks
import CatalogSync.Proofs.Import.Success
import CatalogSync.Proofs.Server.Deeds

/-!
# Imports whose bookkeeping fails

An import notes its status, its time of success and its progress on the side. Stores may fail to take any of these notes:
a `Glitch` is an event with such a failure, as against the event without.

Main statement: `failed_notes_change_nothing`. With glitches an import goes the same way, to the same result, catalog and
files, and its job ends with the same status and error.
-/

namespace CatalogSync

/-- How a job stands: its status and its error. -/
def Ledger.Row.standing (r : Ledger.Row) : String × Option String := (r.status, r.error)

namespace Import

open CatalogSync.Ledger CatalogSync.Program CatalogSync.Server

/-! ## Glitches -/

/-- The same event, but that a setting or the metadata of a job may not have been taken. -/
inductive Glitch : Event → Event → Prop
  | same (e : Event) : Glitch e e
  | setting (key value : String) (a : Stored Unit) (e : StoreError) :
      Glitch ⟨.writeSetting key value, a⟩ ⟨.writeSetting key value, .error e⟩
  | metadata (id : Int) (metadata : Json) (a : Stored Unit) (e : StoreError) :
      Glitch ⟨.publish id metadata, a⟩ ⟨.publish id metadata, .error e⟩

/-- The questions by which an import makes notes on the side. -/
def isNoting : Ask → Bool
  | .writeSetting _ _ => true
  | .publish _ _ => true
  | _ => false

/-- An import makes a note. -/
abbrev IsNoting (q : Ask) : Prop := isNoting q = true

/-- The settings in which an import of a dataset makes notes. -/
def IsNoted (dataset : Dataset) (key : String) : Prop :=
  key = Settings.lastUpdateKey dataset.key ∨ key = Settings.lastUpdateStatusKey dataset.key

/-- The questions of an import: it neither makes nor removes jobs, and reads no setting in which it makes notes. -/
def OfImport (dataset : Dataset) : Ask → Prop
  | .createJob _ _ => False
  | .cleanJobs _ => False
  | .readSetting key => ¬ IsNoted dataset key
  | .writeSetting key _ => IsNoted dataset key
  | _ => True

theorem Glitch.alike {e e' : Event} (h : Glitch e e') : Alike IsNoting e e' := by
  cases h with
  | same => exact .inl rfl
  | setting => exact .inr ⟨rfl, rfl⟩
  | metadata => exact .inr ⟨rfl, rfl⟩

/-! ## Imports are heedless of their notes -/

section Heedless

variable {dataset : Dataset} {job : Int} {token : Token}

/-- A program of an import on which the answers to its notes have no influence. -/
abbrev Deaf {α : Type} (dataset : Dataset) (p : Program α) : Prop := p.Heedless (OfImport dataset) IsNoting

theorem deaf_of_forIcon {α : Type} {p : Program α} (h : ForIcon p) : Deaf dataset p := by
  have hall : p.All (fun q => OfImport dataset q ∧ ¬ IsNoting q) fun _ => True := by
    refine h.mono (fun q hq => ?_) fun _ h => h
    cases q <;> first | exact Bool.noConfusion hq | exact ⟨trivial, nofun⟩
  exact hall.heedless

theorem publish_deaf (p : Progress) : Deaf dataset (publish job p) := .tell trivial trivial

theorem setStatus_deaf (value : String) : Deaf dataset (setStatus dataset value) := .tell (.inr rfl) trivial

theorem applyBatch_deaf (assets : String) (items : Feed.Batch) : Deaf dataset (applyBatch dataset assets items token) := by
  cases dataset with
  | cards =>
    refine .call trivial nofun fun answer => ?_
    cases answer <;> trivial
  | sets =>
    refine .call trivial nofun fun answer => ?_
    cases answer with
    | error e => trivial
    | ok written => exact .bind (deaf_of_forIcon (ensureIcons_asks assets token _)) fun _ => trivial

theorem consume_deaf (setup : Setup) (decoder rounds : Nat) (p : Progress) :
    Deaf dataset (consume setup dataset job token decoder rounds p) := by
  induction rounds generalizing p with
  | zero => trivial
  | succ rounds ih =>
    refine .call trivial nofun fun arrival => ?_
    cases arrival with
    | cancelled => trivial
    | closed => trivial
    | batch items =>
      refine .bind (applyBatch_deaf setup.assets items) fun outcome => ?_
      cases outcome with
      | error e => trivial
      | ok result => exact .bind (publish_deaf _) fun _ => ih (p.absorb result)

theorem applyFeed_deaf (setup : Setup) (source : Feed.Source) (p : Progress) :
    Deaf dataset (applyFeed setup dataset source job token p) := by
  refine .call trivial nofun fun decoder => .bind (consume_deaf setup decoder _ p) ?_
  rintro ⟨outcome, p'⟩
  cases outcome with
  | error e => exact .call trivial nofun fun _ => trivial
  | ok u =>
    refine .call trivial nofun fun answer => ?_
    cases answer with
    | ok n => trivial
    | error fault => exact .call trivial nofun fun _ => trivial

theorem url_not_noted (dataset : Dataset) : ¬ IsNoted dataset (Settings.urlKey dataset.key) := by
  cases dataset <;> simp [IsNoted] <;> decide

theorem datasetType_not_noted (dataset : Dataset) : ¬ IsNoted dataset (Settings.datasetTypeKey dataset.key) := by
  cases dataset <;> simp [IsNoted] <;> decide

theorem resolve_deaf : Deaf dataset (resolve dataset) := by
  have hall : (resolve dataset).All (fun q => OfImport dataset q ∧ ¬ IsNoting q) Admitted :=
    resolve_all ⟨url_not_noted dataset, nofun⟩ ⟨datasetType_not_noted dataset, nofun⟩ fun _ => ⟨trivial, nofun⟩
  exact hall.heedless

theorem openFeed_deaf (location : String) : Deaf dataset (openFeed location token) := by
  have hall : (openFeed location token).All (fun q => OfImport dataset q ∧ ¬ IsNoting q) Admitted :=
    openFeed_all ⟨trivial, nofun⟩
  exact hall.heedless

theorem phases_deaf (setup : Setup) (p : Progress) : Deaf dataset (phases setup dataset job token p) := by
  refine .bind (publish_deaf _) fun _ => .bind resolve_deaf fun found => ?_
  cases found with
  | error e => trivial
  | ok entry =>
    refine .bind (publish_deaf _) fun _ => .bind (openFeed_deaf _) fun opened => ?_
    cases opened with
    | error e => trivial
    | ok source =>
      refine .bind (publish_deaf _) fun _ => .bind (applyFeed_deaf setup source _) ?_
      rintro ⟨outcome, p'⟩
      cases outcome <;> trivial

theorem run_deaf (setup : Setup) : Deaf dataset (run setup dataset job token) := by
  refine .bind (phases_deaf setup _) fun _ => .bind (publish_deaf _) fun _ => ?_
  exact .call trivial nofun fun _ => trivial

theorem settle_deaf (outcome : Except Failure Summary) (elapsed : Time.Span) :
    Deaf dataset (settle dataset job outcome elapsed) := by
  cases outcome with
  | ok summary =>
    refine .call trivial nofun fun _ => .call trivial nofun fun now => .tell (.inl rfl) ?_
    refine .bind (setStatus_deaf _) fun _ => .call trivial nofun fun _ => .call trivial nofun fun count => ?_
    cases count with
    | error e => trivial
    | ok n => exact .call trivial nofun fun _ => trivial
  | error e =>
    have hrecord : Deaf dataset (Program.call (.record (.importRun dataset.key e.kind elapsed))) :=
      ⟨trivial, nofun, fun _ => trivial⟩
    refine .call trivial nofun fun _ => .ite (fun _ => ?_) fun _ => hrecord
    exact .bind (setStatus_deaf _) fun _ => hrecord

/-- **Heedlessness.** Whether its notes are taken has no influence on an import. -/
theorem import_deaf (setup : Setup) : Deaf dataset (downloadAndImport setup dataset job token) := by
  refine .call trivial nofun fun started => .bind (.call trivial nofun fun free => ?_) fun outcome => ?_
  · cases free with
    | false => trivial
    | true =>
      refine .bind (.bind (setStatus_deaf _) fun _ => .call trivial nofun fun answer => ?_) fun _ => ?_
      · cases answer with
        | error e => trivial
        | ok u => exact run_deaf setup
      · exact .call trivial nofun fun _ => trivial
  · refine .call trivial nofun fun stopped => .bind (settle_deaf outcome _) fun _ => trivial

end Heedless

/-! ## The server with and without glitches -/

/-- Notes that agree on the settings that an import reads. -/
def Agree (dataset : Dataset) (n m : Notes) : Prop :=
  ∀ key, ¬ IsNoted dataset key → m.settings.find? key = n.settings.find? key

section World

variable {dataset : Dataset} {s s' : Server} {n m : Notes} {q : Ask} {a : q.Answer}

/-- A question of an import is answered alike from notes that agree, and what is noted then agrees again. -/
theorem Agree.answer (h : Agree dataset n m) (hq : OfImport dataset q) {now : Time.Instant} {n' : Notes}
    (hanswer : n.answer now q = some (a, n')) : ∃ m', m.answer now q = some (a, m') ∧ Agree dataset n' m' := by
  cases q with
  | createJob | cleanJobs => cases hq
  | readSetting key =>
    obtain ⟨rfl, hread⟩ := Notes.answer_readSetting (h key hq) hanswer
    exact ⟨m, hread, h⟩
  | writeSetting key value =>
    cases hanswer
    refine ⟨_, rfl, fun other hother => ?_⟩
    have hne : other ≠ key := by
      rintro rfl
      exact hother hq
    show (m.settings.put key value).find? other = (n.settings.put key value).find? other
    rw [Text.Dict.find?_put_of_ne _ _ hne, Text.Dict.find?_put_of_ne _ _ hne, h other hother]
  | startJob | completeJob | failJob | publish | record =>
    cases hanswer
    exact ⟨_, rfl, h⟩
  | _ => cases hanswer

/-- A note that is not taken. -/
theorem Agree.untaken (h : Agree dataset n m) (hq : OfImport dataset q) (hnoting : IsNoting q) {now : Time.Instant}
    {n' : Notes} (hanswer : n.answer now q = some (a, n')) : Agree dataset n' m := by
  cases q with
  | writeSetting key value =>
    cases hanswer
    intro other hother
    have hne : other ≠ key := by
      rintro rfl
      exact hother hq
    show m.settings.find? other = (n.settings.put key value).find? other
    rw [Text.Dict.find?_put_of_ne _ _ hne, h other hother]
  | publish =>
    cases hanswer
    exact h
  | _ => cases hnoting

theorem alone_untaken (hq : OfImport dataset q) (hnoting : IsNoting q) (h : alone.answers s q a s') {b : q.Answer}
    (hrefuses : Refuses q b) (hn : Agree dataset s.notes n) :
    ∃ n', alone.answers (s.withNotes n) q b (s'.withNotes n') ∧ Agree dataset s'.notes n' := by
  have hnote : isNote q = true := by
    cases q <;> first | rfl | exact Bool.noConfusion hnoting
  refine ⟨n, ?_⟩
  rcases alone_note hnote h with ⟨-, rfl⟩ | ⟨k, hanswer, rfl, -⟩
  · exact ⟨.inr ⟨hrefuses, rfl⟩, hn⟩
  · exact ⟨.inr ⟨hrefuses, rfl⟩, hn.untaken hq hnoting hanswer⟩

/-- **One event.** It may happen with a glitch. -/
theorem alone_glitch {e e' : Event} (hq : OfImport dataset e.1) (h : alone.answers s e.1 e.2 s') (hglitch : Glitch e e')
    (hn : Agree dataset s.notes n) :
    ∃ n', alone.answers (s.withNotes n) e'.1 e'.2 (s'.withNotes n') ∧ Agree dataset s'.notes n' := by
  cases hglitch with
  | same => exact alone_again (fun _ _ _ _ hagree => hagree.answer hq) h hn
  | setting key value a e => exact alone_untaken hq rfl h ⟨e, rfl⟩ hn
  | metadata id metadata a e => exact alone_untaken hq rfl h ⟨e, rfl⟩ hn

/-- **All events.** They may happen with glitches, and nothing but the notes is different then. -/
theorem takes_glitches {t u : List Event} (h : alone.Takes s t s') (hu : List.Forall₂ Glitch t u)
    (ht : ∀ e ∈ t, OfImport dataset e.1) (hn : Agree dataset s.notes n) :
    ∃ n', alone.Takes (s.withNotes n) u (s'.withNotes n') := by
  induction h generalizing u n with
  | start s =>
    cases hu
    exact ⟨n, .start _⟩
  | stir hstir _ ih =>
    rw [← Meantime.notes hstir] at hn
    obtain ⟨n', htakes⟩ := ih hu ht hn
    exact ⟨n', .stir (Meantime.withNotes hstir n) htakes⟩
  | answer hans _ ih =>
    cases hu with
    | cons hglitch hrest =>
      obtain ⟨m, hans', hm⟩ := alone_glitch (ht _ List.mem_cons_self) hans hglitch hn
      obtain ⟨n', htakes⟩ := ih hrest (fun e he => ht e (List.mem_cons_of_mem _ he)) hm
      exact ⟨n', .answer hans' htakes⟩

end World

/-! ## What is done with and without glitches -/

/-- The same catalog and files, and a job that stands the same. -/
structure Equivalent (d d' : Deeds) : Prop where
  catalog : d'.catalog = d.catalog
  files : d'.files = d.files
  row : d'.row.map Row.standing = d.row.map Row.standing

namespace Equivalent

variable {d d' : Deeds} {job : Int}

theorem changeRow (h : Equivalent d d') {f : Row → Row}
    (hf : ∀ r r', r'.standing = r.standing → (f r').standing = (f r).standing) (isOwn : Bool) :
    Equivalent (d.changeRow isOwn f) (d'.changeRow isOwn f) := by
  cases isOwn with
  | false => exact h
  | true =>
    refine ⟨h.catalog, h.files, ?_⟩
    have hrow := h.row
    show (d'.row.map fun r => (f r).timeless).map Row.standing = (d.row.map fun r => (f r).timeless).map Row.standing
    cases hd : d.row with
    | none =>
      rw [hd, Option.map_none, Option.map_eq_none_iff] at hrow
      rw [hrow]
    | some r =>
      rw [hd, Option.map_some, Option.map_eq_some_iff] at hrow
      obtain ⟨r', hr', hsame⟩ := hrow
      rw [hr']
      exact congrArg some (hf r r' hsame)

theorem start (h : Equivalent d d') (isOwn : Bool) :
    Equivalent (d.changeRow isOwn (Row.start default)) (d'.changeRow isOwn (Row.start default)) := by
  refine h.changeRow (fun r r' hsame => ?_) isOwn
  obtain ⟨hstatus, herror⟩ := Prod.mk.inj hsame
  unfold Row.start
  rw [hstatus]
  split
  · exact congrArg (Prod.mk _) herror
  · exact hsame

theorem finish (h : Equivalent d d') (isOwn : Bool) (status : JobStatus) (error : Option String) :
    Equivalent (d.changeRow isOwn (Row.finish default status error))
      (d'.changeRow isOwn (Row.finish default status error)) := by
  refine h.changeRow (fun r r' hsame => ?_) isOwn
  have hopen : r'.isOpen = r.isOpen := by
    unfold Row.isOpen
    rw [(Prod.mk.inj hsame).1]
  unfold Row.finish
  rw [hopen]
  split
  · rfl
  · exact hsame

theorem publish (h : Equivalent d d') (isOwn : Bool) (metadata : Json) :
    Equivalent (d.changeRow isOwn (Row.publish default metadata)) d' := by
  cases isOwn with
  | false => exact h
  | true =>
    refine ⟨h.catalog, h.files, h.row.trans ?_⟩
    -- How a job stands does not show its metadata.
    show d.row.map Row.standing = (d.row.map fun r => (r.publish default metadata).timeless).map Row.standing
    rw [Option.map_map]
    congr 1
    funext r
    show r.standing = (r.publish default metadata).standing
    unfold Row.publish
    split <;> rfl

theorem symm (h : Equivalent d d') : Equivalent d' d := ⟨h.catalog.symm, h.files.symm, h.row.symm⟩

/-- The same event. -/
theorem after (h : Equivalent d d') (e : Event) : Equivalent (d.after job e) (d'.after job e) := by
  obtain ⟨q, a⟩ := e
  cases q with
  | startJob id =>
    cases a with
    | ok => exact h.start _
    | error => exact h
  | completeJob id =>
    cases a with
    | ok => exact h.finish _ _ _
    | error => exact h
  | failJob id message =>
    cases a with
    | ok => exact h.finish _ _ _
    | error => exact h
  | publish id metadata =>
    cases a with
    | ok =>
      have hnoted : Equivalent { d with published := metadata :: d.published }
          { d' with published := metadata :: d'.published } := ⟨h.catalog, h.files, h.row⟩
      -- Published to the one row and then to the other, it is the same for both.
      exact ((hnoted.publish _ metadata).symm.publish _ metadata).symm
    | error => exact h
  | writeSetting key value =>
    cases a with
    | ok => exact ⟨h.catalog, h.files, h.row⟩
    | error => exact h
  | upsertCards cards =>
    cases a with
    | ok => exact ⟨congrArg (Catalog.putCards cards) h.catalog, h.files, h.row⟩
    | error => exact h
  | upsertSets sets =>
    cases a with
    | ok => exact ⟨congrArg (Catalog.putSets sets) h.catalog, h.files, h.row⟩
    | error => exact h
  | recordIcon code path =>
    cases a with
    | ok => exact ⟨congrArg (Catalog.recordIcon code path) h.catalog, h.files, h.row⟩
    | error => exact h
  | createFile path =>
    cases a with
    | ok => exact ⟨h.catalog, congrArg (Text.Dict.put · path []) h.files, h.row⟩
    | error => exact h
  | appendFile path bytes =>
    cases a with
    | ok =>
      exact ⟨h.catalog, congrArg (fun files => Text.Dict.put files path ((files.find? path).getD [] ++ bytes)) h.files,
        h.row⟩
    | error => exact h
  | moveFile source target =>
    cases a with
    | ok =>
      unfold Deeds.after
      dsimp only
      rw [h.files]
      split
      · exact ⟨h.catalog, rfl, h.row⟩
      · exact h
    | error => exact h
  | _ => exact h

/-- An event with and without a glitch. -/
theorem glitch (h : Equivalent d d') {e e' : Event} (hglitch : Glitch e e') :
    Equivalent (d.after job e) (d'.after job e') := by
  cases hglitch with
  | same => exact h.after e
  | setting key value a =>
    cases a with
    | ok => exact ⟨h.catalog, h.files, h.row⟩
    | error => exact h
  | metadata id metadata a =>
    cases a with
    | ok =>
      have hnoted : Equivalent { d with published := metadata :: d.published } d' := ⟨h.catalog, h.files, h.row⟩
      exact hnoted.publish _ metadata
    | error => exact h

theorem glitches (h : Equivalent d d') {t u : List Event} (hu : List.Forall₂ Glitch t u) :
    Equivalent (t.foldl (Deeds.after job) d) (u.foldl (Deeds.after job) d') := by
  induction hu generalizing d d' with
  | nil => exact h
  | cons hglitch _ ih => exact ih (h.glitch hglitch)

end Equivalent

/-! ## The two runs -/

theorem deeds_of_import {setup : Setup} {dataset : Dataset} {job : Int} {token : Token} {s s' : Server} {t : List Event}
    {r : Program (Except Failure Summary)} (hrun : Reaches alone (downloadAndImport setup dataset job token) s t r s') :
    s'.deeds job = t.foldl (Deeds.after job) (s.deeds job) := by
  obtain ⟨hpath, htakes⟩ := reaches_iff.1 hrun
  apply takes_deeds htakes
  intro e he
  have hasked := hpath.asked (import_deaf setup) e he
  obtain ⟨q, a⟩ := e
  cases q <;> first | rfl | exact False.elim hasked

/-- **Failing bookkeeping.** Take a run of an import, whatever the feed, the batches and the faults are, and let any of
the settings and any of the metadata that it writes not be taken. Then there is a run that goes on in the same way, on
which nothing but the notes of the server differs. And however such a run goes, it comes to the same result, leaves the
same catalog but for the clock readings and the same files, and its job stands the same. -/
theorem failed_notes_change_nothing {setup : Setup} {dataset : Dataset} {job : Int} {token : Token} {s s' : Server}
    {t u : List Event} {r : Program (Except Failure Summary)}
    (hrun : Reaches alone (downloadAndImport setup dataset job token) s t r s') (hu : List.Forall₂ Glitch t u) :
    (∃ n, Reaches alone (downloadAndImport setup dataset job token) s u r (s'.withNotes n)) ∧
      ∀ r' s'', Reaches alone (downloadAndImport setup dataset job token) s u r' s'' →
        r' = r ∧ s''.catalog.timeless = s'.catalog.timeless ∧ s''.files = s'.files ∧
          (s''.ledger.find? job).map Row.standing = (s'.ledger.find? job).map Row.standing := by
  obtain ⟨hpath, htakes⟩ := reaches_iff.1 hrun
  have hpath' : Path (downloadAndImport setup dataset job token) u r :=
    hpath.alike (import_deaf setup) (hu.imp fun e e' => Glitch.alike)
  constructor
  · have hagree : Agree dataset s.notes s.notes := fun key _ => rfl
    obtain ⟨n, htakes'⟩ := takes_glitches htakes hu (hpath.asked (import_deaf setup)) hagree
    exact ⟨n, reaches_iff.2 ⟨hpath', htakes'⟩⟩
  · intro r' s'' hrun'
    have hsame : Equivalent (s.deeds job) (s.deeds job) := ⟨rfl, rfl, rfl⟩
    have hdeeds : Equivalent (t.foldl (Deeds.after job) (s.deeds job)) (u.foldl (Deeds.after job) (s.deeds job)) :=
      hsame.glitches hu
    rw [← deeds_of_import hrun, ← deeds_of_import hrun'] at hdeeds
    have hrow := hdeeds.row
    unfold deeds at hrow
    dsimp only at hrow
    rw [Option.map_map, Option.map_map] at hrow
    exact ⟨hpath'.unique (reaches_iff.1 hrun').1, hdeeds.catalog, hdeeds.files, hrow⟩

/-- The event, with what is noted not taken. -/
def unnoted : Event → Event
  | ⟨.writeSetting key value, _⟩ => ⟨.writeSetting key value, .error (.of (.refused .writeSetting))⟩
  | ⟨.publish id metadata, _⟩ => ⟨.publish id metadata, .error (.of (.refused .publish))⟩
  | e => e

theorem glitch_unnoted (e : Event) : Glitch e (unnoted e) := by
  obtain ⟨q, a⟩ := e
  cases q with
  | writeSetting key value => exact .setting key value a _
  | publish id metadata => exact .metadata id metadata a _
  | _ => exact .same _

/-- An import of cards succeeds, writes its card and completes its job, although none of its notes is taken. -/
theorem success_without_notes :
    ∃ s', Reaches alone (downloadAndImport lenient .cards 1 ⟨0⟩)
        { busyServer ⟨[Row.fresh default 1 .cardImport (Progress.start .cards).toJson]⟩ {} with locked := [] }
        ((mixedEvents 1 0 default).map unnoted) (.done (.ok (.ofProgress mixedProgress))) s' ∧
      s'.catalog.timeless.cards.map Catalog.CardRow.id = ["a"] ∧ mixedProgress.succeeded = 1 ∧ mixedProgress.failed = 1 ∧
      (s'.ledger.find? 1).map Row.standing = some (JobStatus.completed.name, none) := by
  obtain ⟨s', htakes⟩ := mixedEvents_takes ⟨[Row.fresh default 1 .cardImport (Progress.start .cards).toJson]⟩
  have hrun := reaches_iff.2 ⟨mixedEvents_path 1 0 default, htakes⟩
  have hglitches : List.Forall₂ Glitch (mixedEvents 1 0 default) ((mixedEvents 1 0 default).map unnoted) := by
    rw [List.forall₂_map_right_iff, List.forall₂_same]
    exact fun e _ => glitch_unnoted e
  obtain ⟨⟨n, hrun'⟩, hsame⟩ := failed_notes_change_nothing hrun hglitches
  obtain ⟨-, hcatalog, -, hrow⟩ := hsame _ _ hrun'
  have hdeeds := deeds_of_import hrun
  have hkeys := congrArg (fun d : Deeds => d.catalog.cards.map Catalog.CardRow.id) hdeeds
  have hstanding := congrArg (fun d : Deeds => d.row.map Row.standing) hdeeds
  unfold deeds at hkeys hstanding
  dsimp only at hkeys hstanding
  rw [Option.map_map] at hstanding
  refine ⟨_, hrun', ?_, by decide +kernel, by decide +kernel, hrow.trans hstanding⟩
  rw [hcatalog, hkeys]
  decide +kernel

end Import

end CatalogSync
