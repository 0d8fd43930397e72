import CatalogSync.Proofs.Catalog.Upserts
import CatalogSync.Proofs.Ledger.Lifecycle
import CatalogSync.Proofs.Server.Alone

/-!
# What programs have done to a server

The `Deeds` on a server are what programs leave there: the catalog, the files, the settings, the metadata that was
published and the row of a job, all without the times at which it was done. On a server that programs have to themselves
the questions and answers of a run decide them (`alone_deeds`, `takes_deeds`).
-/

namespace CatalogSync

open CatalogSync.Store CatalogSync.Text CatalogSync.Time

/-! ## Rows without times -/

namespace Catalog

def CardRow.timeless (r : CardRow) : CardRow := { r with firstSeenAt := "", updatedAt := "" }

def SetRow.timeless (r : SetRow) : SetRow := { r with firstSeenAt := "", updatedAt := "" }

/-- A catalog without times. -/
def timeless (c : Catalog) : Catalog := ⟨c.cards.map CardRow.timeless, c.sets.map SetRow.timeless⟩

def putCards (cards : List Card) (c : Catalog) : Catalog := { c with cards := (cardWriter "").writeAll cards c.cards }

def putSets (sets : List CardSet) (c : Catalog) : Catalog := { c with sets := (setWriter "").writeAll sets c.sets }

theorem upsertCards_timeless (now : Instant) (cards : List Card) (c : Catalog) :
    (c.upsertCards now cards).2.timeless = c.timeless.putCards cards := by
  have hput : ∀ card o, ((cardWriter now.stamp).put card o).timeless = (cardWriter "").put card (o.map .timeless) := by
    intro card o
    cases o <;> rfl
  have hrows : ((cardWriter now.stamp).writeAll cards c.cards).map CardRow.timeless =
      (cardWriter "").writeAll cards (c.cards.map CardRow.timeless) := by
    apply Writer.map_writeAll
    · exact fun r => rfl
    · rfl
    · exact hput
  unfold timeless putCards
  rw [upsertCards_cards, hrows]
  rfl

theorem upsertSets_timeless (now : Instant) (sets : List CardSet) (c : Catalog) :
    (c.upsertSets now sets).2.timeless = c.timeless.putSets sets := by
  have hput : ∀ s o, ((setWriter now.stamp).put s o).timeless = (setWriter "").put s (o.map .timeless) := by
    intro s o
    cases o <;> rfl
  have hrows : ((setWriter now.stamp).writeAll sets c.sets).map SetRow.timeless =
      (setWriter "").writeAll sets (c.sets.map SetRow.timeless) := by
    apply Writer.map_writeAll
    · exact fun r => rfl
    · rfl
    · exact hput
  unfold timeless putSets
  rw [upsertSets_sets, hrows]
  rfl

theorem recordIcon_timeless (code path : String) (c : Catalog) :
    (c.recordIcon code path).timeless = c.timeless.recordIcon code path := by
  unfold timeless recordIcon
  dsimp only
  rw [List.map_map, List.map_map]
  congr 1
  apply List.map_congr_left
  intro r _
  dsimp only [Function.comp]
  have hcode : r.timeless.code = r.code := rfl
  rw [hcode]
  split <;> rfl

end Catalog

namespace Ledger

def Row.timeless (r : Row) : Row := { r with createdAt := "", updatedAt := "", startedAt := none, completedAt := none }

theorem Row.start_timeless (now : Instant) (r : Row) : (r.start now).timeless = (r.timeless.start default).timeless := by
  have hstatus : r.timeless.status = r.status := rfl
  unfold Row.start
  rw [hstatus]
  split <;> rfl

theorem Row.finish_timeless (now : Instant) (status : JobStatus) (error : Option String) (r : Row) :
    (r.finish now status error).timeless = (r.timeless.finish default status error).timeless := by
  have hopen : r.timeless.isOpen = r.isOpen := rfl
  unfold Row.finish
  rw [hopen]
  split <;> rfl

theorem Row.publish_timeless (now : Instant) (metadata : Json) (r : Row) :
    (r.publish now metadata).timeless = (r.timeless.publish default metadata).timeless := by
  have hopen : r.timeless.isOpen = r.isOpen := rfl
  unfold Row.publish
  rw [hopen]
  split <;> rfl

end Ledger

/-! ## Deeds -/

/-- What programs have done to a server, without the times. -/
structure Deeds where
  catalog : Catalog
  files : Dict (List UInt8)
  settings : Dict String
  published : List Json
  /-- The row of a job. -/
  row : Option Ledger.Row

/-- What has been done to a server, of all jobs to this one. -/
def Server.deeds (job : Int) (s : Server) : Deeds :=
  ⟨s.catalog.timeless, s.files, s.settings, s.published, (s.ledger.find? job).map Ledger.Row.timeless⟩

namespace Deeds

/-- The row of the job is changed, if the change is of this job. -/
def changeRow (d : Deeds) (isOwn : Bool) (f : Ledger.Row → Ledger.Row) : Deeds :=
  if isOwn then { d with row := d.row.map fun r => (f r).timeless } else d

/-- What a question with its answer adds. -/
def after (job : Int) (d : Deeds) : Event → Deeds
  | ⟨.writeSetting key value, .ok _⟩ => { d with settings := d.settings.put key value }
  | ⟨.startJob id, .ok _⟩ => d.changeRow (id = job) (Ledger.Row.start default)
  | ⟨.completeJob id, .ok _⟩ => d.changeRow (id = job) (Ledger.Row.finish default .completed none)
  | ⟨.failJob id message, .ok _⟩ => d.changeRow (id = job) (Ledger.Row.finish default .failed (some message))
  | ⟨.publish id metadata, .ok _⟩ =>
    { d with published := metadata :: d.published }.changeRow (id = job) (Ledger.Row.publish default metadata)
  | ⟨.upsertCards cards, .ok _⟩ => { d with catalog := d.catalog.putCards cards }
  | ⟨.upsertSets sets, .ok _⟩ => { d with catalog := d.catalog.putSets sets }
  | ⟨.recordIcon code path, .ok _⟩ => { d with catalog := d.catalog.recordIcon code path }
  | ⟨.createFile path, .ok _⟩ => { d with files := d.files.put path [] }
  | ⟨.appendFile path bytes, .ok _⟩ => { d with files := d.files.put path ((d.files.find? path).getD [] ++ bytes) }
  | ⟨.moveFile source target, .ok _⟩ =>
    match d.files.find? source with
    | some bytes => { d with files := Dict.put (d.files.filter fun (p, _) => p ≠ source) target bytes }
    | none => d
  | _ => d

end Deeds

namespace Server

/-- The questions that neither make nor remove jobs. -/
def keepsJobs : Ask → Bool
  | .createJob _ _ => false
  | .cleanJobs _ => false
  | _ => true

variable {job : Int} {s s' : Server} {q : Ask} {a : q.Answer}

theorem deeds_meantime (h : Meantime s s') : s'.deeds job = s.deeds job := by
  cases h <;> rfl

theorem deeds_refused (h : Refuses q a) (d : Deeds) : d.after job ⟨q, a⟩ = d := by
  cases q with
  | now | lock | unlock | isCancelled | request | startDecoder | receive | join | abandon | fileExists | record =>
    cases h
  | _ =>
    obtain ⟨e, rfl⟩ := h
    rfl

/-- A change of one row of the ledger, as far as the deeds tell. -/
theorem deeds_modify {f g : Ledger.Row → Ledger.Row} (hf : ∀ r, (f r).id = r.id)
    (hg : ∀ r, (f r).timeless = (g r.timeless).timeless) (s : Server) (id : Int) :
    ({ s with ledger := s.ledger.modify id f } : Server).deeds job = (s.deeds job).changeRow (id = job) g := by
  unfold deeds Deeds.changeRow
  dsimp only
  by_cases hid : id = job
  · subst hid
    rw [Ledger.find?_modify hf, if_pos (by simp), Option.map_map, Option.map_map]
    have hrow : Ledger.Row.timeless ∘ f = (fun r => (g r).timeless) ∘ Ledger.Row.timeless := funext hg
    rw [hrow]
  · rw [Ledger.find?_modify_of_ne hf s.ledger (Ne.symm hid), if_neg (by simp [hid])]

/-- What is noted. -/
theorem deeds_note {n : Notes} (hq : keepsJobs q = true) (h : s.notes.answer s.clock q = some (a, n)) :
    (s.withNotes n).deeds job = (s.deeds job).after job ⟨q, a⟩ := by
  cases q with
  | createJob | cleanJobs => cases hq
  | readSetting | writeSetting | record =>
    cases h
    rfl
  | startJob id =>
    cases h
    exact deeds_modify (fun r => (Ledger.Row.start_becomes s.clock r).id) (Ledger.Row.start_timeless s.clock) s id
  | completeJob id =>
    cases h
    exact deeds_modify (fun r => (Ledger.Row.finish_becomes s.clock rfl none r).id)
      (Ledger.Row.finish_timeless s.clock .completed none) s id
  | failJob id message =>
    cases h
    exact deeds_modify (fun r => (Ledger.Row.finish_becomes s.clock rfl (some message) r).id)
      (Ledger.Row.finish_timeless s.clock .failed (some message)) s id
  | publish id metadata =>
    cases h
    exact deeds_modify (fun r => (Ledger.Row.publish_becomes s.clock metadata r).id)
      (Ledger.Row.publish_timeless s.clock metadata) { s with published := metadata :: s.published } id
  | _ => cases h

theorem deeds_upsert {f : Instant → Catalog → Nat × Catalog} {g : Catalog → Catalog} {b : Stored Nat}
    (hf : ∀ now c, (f now c).2.timeless = g c.timeless) (h : s.guarded .upsert (upsert f) = (b, s')) :
    (∃ e, b = .error e ∧ s'.deeds job = s.deeds job) ∨
      ∃ n, b = .ok n ∧ s'.deeds job = { s.deeds job with catalog := g (s.deeds job).catalog } := by
  rcases guarded_cases h with ⟨e, he⟩ | ⟨-, hupsert⟩
  · cases he
    exact .inl ⟨e, rfl, rfl⟩
  · unfold upsert at hupsert
    dsimp only at hupsert
    split at hupsert
    · cases hupsert
      exact .inl ⟨_, rfl, rfl⟩
    · have hdeeds : ∀ r : Server, r.catalog = (f s.clock s.catalog).2 → r.files = s.files → r.settings = s.settings →
          r.published = s.published → r.ledger = s.ledger →
          r.deeds job = { s.deeds job with catalog := g (s.deeds job).catalog } := by
        intro r hcatalog hfiles hsettings hpublished hledger
        unfold deeds
        rw [hcatalog, hf, hfiles, hsettings, hpublished, hledger]
      obtain ⟨rfl, rfl⟩ := Prod.mk.inj hupsert
      refine .inr ⟨_, rfl, ?_⟩
      split
      · split <;> exact hdeeds _ rfl rfl rfl rfl rfl
      · exact hdeeds _ rfl rfl rfl rfl rfl

theorem deeds_filed {path : String} {f : Server → Server} {b : Filed Unit} (h : s.filed path f = (b, s')) :
    (∃ e, b = .error e ∧ s' = s) ∨ b = .ok () ∧ s' = f s := by
  unfold filed at h
  split at h
  · cases h
    exact .inl ⟨_, rfl, rfl⟩
  · cases h
    exact .inr ⟨rfl, rfl⟩

/-- What is worked on. -/
theorem deeds_work (hnote : isNote q = false) (h : Answers s q a s') :
    s'.deeds job = (s.deeds job).after job ⟨q, a⟩ := by
  cases q with
  | now | isCancelled | startDecoder | abandon | fileExists | unlock =>
    cases h
    rfl
  | request | receive | join =>
    obtain ⟨decodings, rfl⟩ := answers_exchange rfl h
    rfl
  | upsertCards cards =>
    rcases deeds_upsert (fun now c => Catalog.upsertCards_timeless now cards c) (Option.some.inj h) with
      ⟨e, rfl, hdeeds⟩ | ⟨n, rfl, hdeeds⟩
    · exact hdeeds
    · exact hdeeds
  | upsertSets sets =>
    rcases deeds_upsert (fun now c => Catalog.upsertSets_timeless now sets c) (Option.some.inj h) with
      ⟨e, rfl, hdeeds⟩ | ⟨n, rfl, hdeeds⟩
    · exact hdeeds
    · exact hdeeds
  | countRows | findSet =>
    rcases guarded_cases (Option.some.inj h) with ⟨e, he⟩ | ⟨-, hf⟩
    · cases he
      rfl
    · cases hf
      rfl
  | recordIcon code path =>
    rcases guarded_cases (Option.some.inj h) with ⟨e, he⟩ | ⟨-, hf⟩
    · cases he
      rfl
    · cases hf
      unfold deeds
      dsimp only
      rw [Catalog.recordIcon_timeless]
      rfl
  | makeDirectory path | createFile path | appendFile path bytes | flushFile path =>
    rcases deeds_filed (Option.some.inj h) with ⟨e, rfl, rfl⟩ | ⟨rfl, rfl⟩
    · rfl
    · rfl
  | moveFile source target =>
    have hmove : s.moveFile source target = (a, s') := Option.some.inj h
    unfold moveFile at hmove
    cases hfound : s.files.find? source with
    | none =>
      rw [hfound] at hmove
      cases hmove
      rfl
    | some bytes =>
      rw [hfound] at hmove
      cases hmove
      have hsource : (s.deeds job).files.find? source = some bytes := hfound
      unfold Deeds.after
      dsimp only
      rw [hsource]
      rfl
  | lock dataset =>
    unfold Answers answer at h
    dsimp only at h
    split at h
    · cases h
      rfl
    · cases h
      rfl
  | _ => cases hnote

/-- **One event.** What a question with its answer does to a server that programs have to themselves. -/
theorem alone_deeds (hq : keepsJobs q = true) (h : alone.answers s q a s') :
    s'.deeds job = (s.deeds job).after job ⟨q, a⟩ := by
  by_cases hnote : isNote q = true
  · rcases alone_note hnote h with ⟨hrefuses, rfl⟩ | ⟨n, hanswer, rfl, -⟩
    · exact (deeds_refused hrefuses _).symm
    · exact deeds_note hq hanswer
  · rcases h with hans | ⟨hrefuses, rfl⟩
    · exact deeds_work (Bool.eq_false_iff.2 hnote) hans
    · exact (deeds_refused hrefuses _).symm

/-- **All events.** What has been done by the end is decided by the events. -/
theorem takes_deeds {t : List Event} (h : alone.Takes s t s') (ht : ∀ e ∈ t, keepsJobs e.1 = true) :
    s'.deeds job = t.foldl (Deeds.after job) (s.deeds job) := by
  induction h with
  | start => rfl
  | stir hstir _ ih => rw [ih ht, deeds_meantime hstir]
  | answer hans _ ih =>
    rw [ih fun e he => ht e (List.mem_cons_of_mem _ he), List.foldl_cons, alone_deeds (ht _ List.mem_cons_self) hans]

end Server

end CatalogSync
