import CatalogSync.Import.Tracked
import CatalogSync.Proofs.Program.World

/-!
# What the parts of an import ask

Whatever the answers are, the parts of an import ask only certain questions and come to certain
results. `ensureIcons_asks` says it of the icons. `phases_asks` says it of a run up to its verdict: it
writes no setting and leaves its job alone but for the metadata, and its result is what its progress
says.
-/

namespace CatalogSync.Import

open CatalogSync.Catalog

/-! ## Icons -/

/-- The questions that icons need. -/
def isForIcon : Ask → Bool
  | .isCancelled _ => true
  | .request _ _ _ => true
  | .findSet _ => true
  | .recordIcon _ _ => true
  | .fileExists _ => true
  | .makeDirectory _ => true
  | .createFile _ => true
  | .appendFile _ _ => true
  | .flushFile _ => true
  | .moveFile _ _ => true
  | _ => false

/-- A program that asks only what icons need. -/
abbrev ForIcon {α : Type} (p : Program α) : Prop := p.All (fun q => isForIcon q = true) fun _ => True

section Parts

variable {asks : Ask → Prop}

theorem noteIcon_all {code path : String} (hfind : asks (.findSet code)) (hrecord : asks (.recordIcon code path)) :
    (noteIcon code path).All asks fun _ => True := by
  refine .call hfind fun stored => ?_
  cases stored with
  | error e => trivial
  | ok stored =>
    dsimp only
    split
    · trivial
    · refine .call hrecord fun answer => ?_
      cases answer <;> trivial

theorem makeDirectoryOf_all {path : String}
    (hmake : ∀ directory, Files.directoryOf path = some directory → asks (.makeDirectory directory)) :
    (makeDirectoryOf path).All asks fun _ => True := by
  unfold makeDirectoryOf
  split
  · next directory hdirectory => exact .call (hmake directory hdirectory) fun _ => trivial
  · trivial

theorem store_all {path : String}
    (hmake : ∀ directory, Files.directoryOf path = some directory → asks (.makeDirectory directory))
    (hcreate : asks (.createFile (partialPath path))) (happend : ∀ bytes, asks (.appendFile (partialPath path) bytes))
    (hflush : asks (.flushFile (partialPath path))) (hmove : asks (.moveFile (partialPath path) path))
    (location : String) (body : Feed.Source) : (store location path body).All asks fun _ => True := by
  refine .bind (makeDirectoryOf_all hmake) fun answer _ => ?_
  cases answer with
  | error e => trivial
  | ok u =>
    refine .call hcreate fun answer => ?_
    cases answer with
    | error e => trivial
    | ok u =>
      refine .call (happend body.bytes) fun answer => ?_
      cases answer with
      | error e => trivial
      | ok u =>
        dsimp only
        split
        · refine .call hflush fun answer => ?_
          cases answer with
          | error e => trivial
          | ok u =>
            refine .call hmove fun answer => ?_
            cases answer <;> trivial
        · trivial
        · trivial

end Parts

theorem noteIcon_asks (code path : String) : ForIcon (noteIcon code path) := noteIcon_all rfl rfl

theorem store_asks (location path : String) (body : Feed.Source) : ForIcon (store location path body) := by
  refine store_all (fun directory _ => ?_) ?_ (fun bytes => ?_) ?_ ?_ location body
  all_goals rfl

theorem download_asks (location path : String) : ForIcon (download location path) := by
  refine .call rfl fun reply => ?_
  split
  · trivial
  · trivial
  · trivial
  · split
    · exact store_asks _ _ _
    · trivial

theorem ensureIcon_asks (assets : String) (s : CardSet) : ForIcon (ensureIcon assets s) := by
  unfold ensureIcon
  split
  · trivial
  · refine .call rfl fun there => ?_
    cases there with
    | true => exact noteIcon_asks _ _
    | false =>
      refine .bind (download_asks _ _) fun outcome _ => ?_
      cases outcome with
      | error chain => trivial
      | ok size => exact noteIcon_asks _ _

/-- The icons of sets: for each of them there is one failure at most. -/
theorem ensureIcons_all (assets : String) (token : Token) (sets : List CardSet) :
    (ensureIcons assets token sets).All (fun q => isForIcon q = true) fun failures =>
      failures.length ≤ sets.length := by
  induction sets with
  | nil => exact Nat.le_refl 0
  | cons s rest ih =>
    refine .call rfl fun cancelled => ?_
    cases cancelled with
    | true => exact Nat.zero_le _
    | false =>
      refine .bind (ensureIcon_asks assets s) fun outcome _ => .bind ih fun failures hfailures => ?_
      cases outcome with
      | ok u => exact Nat.le_succ_of_le hfailures
      | error message => exact Nat.succ_le_succ hfailures

theorem ensureIcons_asks (assets : String) (token : Token) (sets : List CardSet) :
    ForIcon (ensureIcons assets token sets) :=
  (ensureIcons_all assets token sets).mono (fun _ hq => hq) fun _ _ => trivial

/-! ## A run up to its verdict -/

/-- The questions of a run up to its verdict: none that takes or gives back a lock or writes a setting, and
of those about jobs only that which publishes the metadata of its own. -/
def isOfRun (job : Int) : Ask → Bool
  | .writeSetting _ _ => false
  | .createJob _ _ => false
  | .startJob _ => false
  | .completeJob _ => false
  | .failJob _ _ => false
  | .cleanJobs _ => false
  | .lock _ => false
  | .unlock _ => false
  | .publish id _ => id = job
  | _ => true

/-- The questions that change files. -/
def changesFiles : Ask → Bool
  | .makeDirectory _ => true
  | .createFile _ => true
  | .appendFile _ _ => true
  | .flushFile _ => true
  | .moveFile _ _ => true
  | _ => false

/-- A program that asks only what a run does, with results that satisfy `gives`. -/
abbrev OfRun {α : Type} (job : Int) (gives : α → Prop) (p : Program α) : Prop :=
  p.All (fun q => isOfRun job q = true) gives

/-- A failure that is not for want of the lock. -/
def Admitted {α : Type} (outcome : Except Failure α) : Prop := outcome ≠ .error .alreadyRunning

section Finding

variable {asks : Ask → Prop}

theorem resolve_all {dataset : Dataset} (hurl : asks (.readSetting (Settings.urlKey dataset.key)))
    (htype : asks (.readSetting (Settings.datasetTypeKey dataset.key)))
    (hrequest : ∀ location, asks (.request location .timed none)) : (resolve dataset).All asks Admitted := by
  refine .call hurl fun answer => ?_
  cases answer with
  | error e => exact .pure nofun
  | ok value =>
    dsimp only
    split
    · exact .pure nofun
    · refine .call htype fun type => .call (hrequest _) fun reply => ?_
      cases reply with
      | failed chain => exact .pure nofun
      | none => exact .pure nofun
      | cancelled => exact .pure nofun
      | answered status body =>
        dsimp only
        split
        · exact .pure nofun
        · split
          · split
            · exact .pure nofun
            · split <;> exact .pure nofun
          · exact .pure nofun

theorem openFeed_all {location : String} {token : Token} (hrequest : asks (.request location .patient (some token))) :
    (openFeed location token).All asks Admitted := by
  refine .call hrequest fun reply => ?_
  cases reply with
  | failed chain => exact .pure nofun
  | none => exact .pure nofun
  | cancelled => exact .pure nofun
  | answered status body =>
    dsimp only
    split <;> exact .pure nofun

end Finding

/-- Progress of the same dataset with the same error. -/
def Continues (p p' : Progress) : Prop := p'.dataset = p.dataset ∧ p'.error = p.error

/-- What a run comes to up to its verdict: it has not failed for want of the lock, no error is noted, and a
run that counts as done is summed up by its progress. -/
structure Judged (dataset : Dataset) (result : Staged Summary) : Prop where
  admitted : Admitted result.1
  dataset : result.2.dataset = dataset.key
  error : result.2.error = none
  summary : ∀ summary, result.1 = .ok summary → summary = Summary.ofProgress result.2

section Run

variable {job : Int} {asks : Ask → Prop}

theorem Continues.refl (p : Progress) : Continues p p := ⟨rfl, rfl⟩

theorem isOfRun_of_isForIcon {q : Ask} (h : isForIcon q = true) : isOfRun job q = true := by
  cases q <;> first | rfl | exact Bool.noConfusion h

theorem publish_all (hpublish : ∀ metadata, asks (.publish job metadata)) (p : Progress) :
    (publish job p).All asks fun _ => True :=
  .call (hpublish _) fun _ => .pure trivial

theorem publish_asks (job : Int) (p : Progress) : OfRun job (fun _ => True) (publish job p) :=
  publish_all (fun _ => by simp [isOfRun]) p

theorem applyBatch_asks (dataset : Dataset) (assets : String) (items : Feed.Batch) (token : Token) :
    OfRun job (fun _ => True) (applyBatch dataset assets items token) := by
  cases dataset with
  | cards =>
    refine .call rfl fun answer => ?_
    cases answer <;> trivial
  | sets =>
    refine .call rfl fun answer => ?_
    cases answer with
    | error e => trivial
    | ok written =>
      have hicons : OfRun job (fun _ => True) (ensureIcons assets token (readAll readSet items).1) :=
        (ensureIcons_asks assets token _).mono (fun q => isOfRun_of_isForIcon) fun _ h => h
      exact .bind hicons fun _ _ => .pure trivial

theorem decoderFailure_admitted (cancelled : Bool) (fault : Feed.DecodeFault) :
    Admitted (.error (decoderFailure cancelled fault) : Except Failure Unit) := by
  cases fault <;> cases cancelled <;> nofun

/-- What a run is allowed to ask: all that its batches do, and of the rest what changes no file. -/
structure Allows (asks : Ask → Prop) (setup : Setup) (dataset : Dataset) (job : Int) (token : Token) : Prop where
  own : ∀ q, isOfRun job q = true → changesFiles q = false → asks q
  batch : ∀ items, (applyBatch dataset setup.assets items token).All asks fun _ => True

theorem Allows.publish {setup : Setup} {dataset : Dataset} {token : Token} (h : Allows asks setup dataset job token)
    (p : Progress) : (publish job p).All asks fun _ => True :=
  publish_all (fun _ => h.own _ (by simp [isOfRun]) rfl) p

theorem allows_isOfRun (setup : Setup) (dataset : Dataset) (job : Int) (token : Token) :
    Allows (fun q => isOfRun job q = true) setup dataset job token :=
  ⟨fun _ hq _ => hq, fun items => applyBatch_asks dataset setup.assets items token⟩

section Allowed

variable {setup : Setup} {dataset : Dataset} {token : Token} (h : Allows asks setup dataset job token)

include h

/-- Taking batches, by induction on the rounds that are left. -/
theorem consume_all (decoder rounds : Nat) (p : Progress) :
    (consume setup dataset job token decoder rounds p).All asks fun result =>
      Admitted result.1 ∧ Continues p result.2 := by
  induction rounds generalizing p with
  | zero => exact .pure ⟨nofun, .refl p⟩
  | succ rounds ih =>
    refine .call (h.own _ rfl rfl) fun arrival => ?_
    cases arrival with
    | cancelled => exact .pure ⟨nofun, .refl p⟩
    | closed => exact .pure ⟨nofun, .refl p⟩
    | batch items =>
      refine .bind (h.batch items) fun outcome _ => ?_
      cases outcome with
      | error e => exact .pure ⟨nofun, .refl p⟩
      | ok result => exact .bind (h.publish _) fun _ _ => ih (p.absorb result)

theorem applyFeed_all (source : Feed.Source) (p : Progress) :
    (applyFeed setup dataset source job token p).All asks fun result => Admitted result.1 ∧ Continues p result.2 := by
  refine .call (h.own _ rfl rfl) fun decoder => .bind (consume_all h decoder _ p) ?_
  rintro ⟨outcome, p'⟩ ⟨hadmitted, hp⟩
  cases outcome with
  | error e => exact .call (h.own _ rfl rfl) fun _ => .pure ⟨hadmitted, hp⟩
  | ok u =>
    refine .call (h.own _ rfl rfl) fun answer => ?_
    cases answer with
    | ok n => exact .pure ⟨hadmitted, hp⟩
    | error fault =>
      exact .call (h.own _ rfl rfl) fun cancelled => .pure ⟨decoderFailure_admitted cancelled fault, hp⟩

end Allowed

/-- A run that has been stopped before its verdict. -/
theorem judged_error {dataset : Dataset} {p : Progress} {e : Failure} (he : Admitted (.error e : Except Failure Summary))
    (hp : Continues (Progress.start dataset) p) : Judged dataset (.error e, p) :=
  ⟨he, hp.1, hp.2, nofun⟩

theorem judged_verdict {dataset : Dataset} {p : Progress} (threshold : Binary64)
    (hp : Continues (Progress.start dataset) p) : Judged dataset (verdict threshold p, p) := by
  unfold verdict
  split
  · exact judged_error nofun hp
  · refine ⟨nofun, hp.1, hp.2, fun summary h => ?_⟩
    cases h
    rfl

/-- A run up to its verdict, whose progress has begun. -/
theorem phases_all {setup : Setup} {dataset : Dataset} {token : Token} (h : Allows asks setup dataset job token) :
    (phases setup dataset job token (Progress.start dataset)).All asks (Judged dataset) := by
  have hresolve : (resolve dataset).All asks Admitted :=
    resolve_all (h.own _ rfl rfl) (h.own _ rfl rfl) fun _ => h.own _ rfl rfl
  refine .bind (h.publish _) fun _ _ => .bind hresolve fun found hfound => ?_
  cases found with
  | error e => exact .pure (judged_error (fun h => hfound (by cases h; rfl)) ⟨rfl, rfl⟩)
  | ok entry =>
    have hopen : (openFeed entry.downloadUri token).All asks Admitted := openFeed_all (h.own _ rfl rfl)
    refine .bind (h.publish _) fun _ _ => .bind hopen fun opened hopened => ?_
    cases opened with
    | error e => exact .pure (judged_error (fun h => hopened (by cases h; rfl)) ⟨rfl, rfl⟩)
    | ok source =>
      refine .bind (h.publish _) fun _ _ => .bind (applyFeed_all h source _) ?_
      rintro ⟨outcome, p⟩ ⟨hadmitted, hp⟩
      cases outcome with
      | error e => exact .pure (judged_error (fun h => hadmitted (by cases h; rfl)) hp)
      | ok u => exact .pure (judged_verdict setup.threshold hp)

theorem phases_asks (setup : Setup) (dataset : Dataset) (token : Token) :
    OfRun job (Judged dataset) (phases setup dataset job token (Progress.start dataset)) :=
  phases_all (allows_isOfRun setup dataset job token)

theorem run_all {setup : Setup} {dataset : Dataset} {token : Token} (h : Allows asks setup dataset job token) :
    (run setup dataset job token).All asks Admitted := by
  refine .bind (phases_all h) fun result hjudged => .bind (h.publish _) fun _ _ => ?_
  exact .call (h.own _ rfl rfl) fun _ => .pure hjudged.admitted

theorem run_asks (setup : Setup) (dataset : Dataset) (token : Token) :
    OfRun job Admitted (run setup dataset job token) :=
  run_all (allows_isOfRun setup dataset job token)

/-- What is asked under the lock. -/
theorem importNow_allowed {setup : Setup} {dataset : Dataset} {token : Token} (h : Allows asks setup dataset job token)
    (hstatus : asks (.writeSetting (Settings.lastUpdateStatusKey dataset.key) inProgressStatus))
    (hstart : asks (.startJob job)) : (importNow setup dataset job token).All asks Admitted := by
  refine .call hstatus fun _ => .call hstart fun started => ?_
  cases started with
  | error e => exact .pure nofun
  | ok u => exact run_all h

theorem importNow_all (hrun : ∀ q, isOfRun job q = true → asks q) {dataset : Dataset}
    (hstatus : asks (.writeSetting (Settings.lastUpdateStatusKey dataset.key) inProgressStatus))
    (hstart : asks (.startJob job)) (setup : Setup) (token : Token) :
    (importNow setup dataset job token).All asks Admitted :=
  importNow_allowed ⟨fun q hq _ => hrun q hq, fun items =>
    (applyBatch_asks dataset setup.assets items token).mono hrun fun _ h => h⟩ hstatus hstart

end Run

/-! ## The settlement -/

theorem settle_all {asks : Ask → Prop} {dataset : Dataset} {job : Int} (hcomplete : asks (.completeJob job))
    (hfail : ∀ message, asks (.failJob job message)) (hnow : asks .now)
    (htime : ∀ value, asks (.writeSetting (Settings.lastUpdateKey dataset.key) value))
    (hstatus : ∀ value, asks (.writeSetting (Settings.lastUpdateStatusKey dataset.key) value))
    (hcount : asks (.countRows dataset)) (hrecord : ∀ event, asks (.record event))
    (outcome : Except Failure Summary) (elapsed : Time.Span) :
    (settle dataset job outcome elapsed).All asks fun _ => True := by
  cases outcome with
  | ok summary =>
    refine .call hcomplete fun _ => .call hnow fun now => .call (htime _) fun _ => .call (hstatus _) fun _ => ?_
    refine .call (hrecord _) fun _ => .call hcount fun count => ?_
    cases count with
    | error e => exact .pure trivial
    | ok n => exact .last (hrecord _) fun _ => trivial
  | error e =>
    refine .call (hfail _) fun _ => .ite (fun _ => ?_) fun _ => ?_
    · exact .call (hstatus _) fun _ => .last (hrecord _) fun _ => trivial
    · exact .last (hrecord _) fun _ => trivial

end CatalogSync.Import
