import CatalogSync.Import.Tracked
import CatalogSync.Proofs.Import.InOrder
import CatalogSync.Proofs.Server.Alone

/-!
# Imports that succeed

The path of an import whose feed is found, opened and applied, put together from the paths of its parts
(`import_path`).
-/

namespace CatalogSync.Import

open CatalogSync.Feed CatalogSync.Program CatalogSync.Server CatalogSync.Time

section Parts

variable {setup : Setup} {dataset : Dataset} {job : Int} {token : Token} {entry : Feed.Entry}

/-- The feed is found in a directory that can be had. -/
theorem resolve_path (url : String) (type : Option String) {status : Nat} {bytes : List UInt8}
    {directory : Feed.Directory} (hblank : Text.isAllBlank url = false) (hstatus : Web.isSuccess status = true)
    (hread : Feed.Directory.read bytes = .ok directory)
    (hfind : directory.find (type.getD dataset.defaultType) = some entry) :
    Path (resolve dataset)
      [⟨.readSetting (Settings.urlKey dataset.key), .ok (some url)⟩,
        ⟨.readSetting (Settings.datasetTypeKey dataset.key), .ok type⟩,
        ⟨.request (Text.trim url) .timed none, .answered status ⟨bytes, .closed⟩⟩] (.done (.ok entry)) := by
  have hsome : (some url).filter (fun url => !Text.isAllBlank url) = some url := by simp [hblank]
  have hfound : directory.find (Settings.Answer.text (.ok type) dataset.defaultType) = some entry := hfind
  refine .step (q := .readSetting _) ?_
  dsimp only [Program.bind]
  rw [hsome]
  refine .step (q := .readSetting _) (.step (q := .request _ _ _) ?_)
  dsimp only [Program.bind]
  rw [if_neg (by simp [hstatus]), hread]
  dsimp only
  rw [hfound]
  exact .here _

theorem openFeed_path (location : String) {status : Nat} (hstatus : Web.isSuccess status = true) (source : Feed.Source) :
    Path (openFeed location token) [⟨.request location .patient (some token), .answered status source⟩]
      (.done (.ok source)) := by
  refine .step (q := .request _ _ _) ?_
  dsimp only [Program.bind]
  rw [if_pos hstatus]
  exact .here _

/-- The events of a run up to its verdict, around those of its parts. -/
def phaseEvents (dataset : Dataset) (job : Int) (uri : String) (found opened applied : List Event) : List Event :=
  let p := Progress.start dataset
  ⟨.publish job { p with phase := .resolving }.toJson, .ok ()⟩ ::
    (found ++ ⟨.publish job { p with phase := .downloading, downloadUri := some uri }.toJson, .ok ()⟩ ::
      (opened ++ ⟨.publish job { p with phase := .importing, downloadUri := some uri }.toJson, .ok ()⟩ ::
        (applied ++ [])))

theorem phases_path {source : Feed.Source} {found opened applied : List Event} {p : Progress} {summary : Summary}
    (hfound : Path (resolve dataset) found (.done (.ok entry)))
    (hopened : Path (openFeed entry.downloadUri token) opened (.done (.ok source)))
    (happlied : Path (applyFeed setup dataset source job token
      { Progress.start dataset with phase := .importing, downloadUri := some entry.downloadUri }) applied
      (.done (.ok (), p)))
    (hverdict : verdict setup.threshold p = .ok summary) :
    Path (phases setup dataset job token (Progress.start dataset))
      (phaseEvents dataset job entry.downloadUri found opened applied) (.done (.ok summary, p)) := by
  refine .step (q := .publish job _) (Path.bind (p := resolve dataset) hfound ?_)
  refine .step (q := .publish job _) (Path.bind (p := openFeed _ token) hopened ?_)
  refine .step (q := .publish job _) (Path.bind (p := applyFeed setup dataset source job token _) happlied ?_)
  rw [← hverdict]
  exact .here _

/-- The events of an import that succeeds at some time, around those of its run up to the verdict. -/
def successEvents (dataset : Dataset) (job : Int) (p : Progress) (time : Instant) (rows : Nat) (judged : List Event) :
    List Event :=
  let q := { p with phase := .completed }
  ⟨.now, time⟩ :: ((⟨.lock dataset, true⟩ ::
    ((⟨.writeSetting (Settings.lastUpdateStatusKey dataset.key) inProgressStatus, .ok ()⟩ :: ⟨.startJob job, .ok ()⟩ ::
      (judged ++ [⟨.publish job q.toJson, .ok ()⟩, ⟨.record (.importRecords dataset.key q.succeeded q.failed), ()⟩])) ++
        [⟨.unlock dataset, ()⟩])) ++
    [⟨.now, time⟩, ⟨.completeJob job, .ok ()⟩, ⟨.now, time⟩,
      ⟨.writeSetting (Settings.lastUpdateKey dataset.key) time.text, .ok ()⟩,
      ⟨.writeSetting (Settings.lastUpdateStatusKey dataset.key) successStatus, .ok ()⟩,
      ⟨.record (.importRun dataset.key successStatus ⟨(time.since time).toNat⟩), ()⟩, ⟨.countRows dataset, .ok rows⟩,
      ⟨.record (.catalogItems dataset.key rows), ()⟩])

theorem import_path {judged : List Event} {p : Progress} {summary : Summary}
    (h : Path (phases setup dataset job token (Progress.start dataset)) judged (.done (.ok summary, p))) (time : Instant)
    (rows : Nat) :
    Path (downloadAndImport setup dataset job token) (successEvents dataset job p time rows judged)
      (.done (.ok summary)) := by
  refine .step (q := .now) (Path.bind (p := underLock dataset (importNow setup dataset job token)) (a := .ok summary) ?_ ?_)
  · refine .step (q := .lock dataset) (Path.bind (p := importNow setup dataset job token) (a := .ok summary) ?_ ?_)
    · refine .step (q := .writeSetting _ _) <| .step (q := .startJob job) <| ?_
      refine Path.bind (p := phases setup dataset job token (Progress.start dataset)) h ?_
      exact .step (q := .publish job _) <| .step (q := .record _) <| .here _
    · exact .step (q := .unlock dataset) <| .here _
  · exact .step (q := .now) <| .step (q := .completeJob job) <| .step (q := .now) <| .step (q := .writeSetting _ _) <|
      .step (q := .writeSetting _ _) <| .step (q := .record _) <| .step (q := .countRows dataset) <|
      .step (q := .record _) <| .here _

end Parts

/-! ## A feed of a card and something else -/

/-- A directory of feeds that lists the feed of cards at `u`. -/
def listing : List UInt8 :=
  [91, 91, 91, 34, 100, 101, 102, 97, 117, 108, 116, 95, 99, 97, 114, 100, 115, 34, 44, 34, 117, 34, 93, 93, 93]

theorem read_listing : Feed.Directory.read listing = .ok ⟨[⟨"default_cards", "u", none, none⟩]⟩ := by
  have hread : (Feed.Directory.read listing).toOption = some ⟨[⟨"default_cards", "u", none, none⟩]⟩ := by decide +kernel
  cases h : Feed.Directory.read listing with
  | error e =>
    rw [h] at hread
    cases hread
  | ok directory =>
    rw [h] at hread
    cases hread
    rfl

/-- Imports in batches of two that put up with one failure in two. -/
def lenient : Setup := { batchSize := 2, threshold := Binary64.ofDecimal false 5 (-1), assets := "" }

def mixedFeed : Feed.Source := feedOf twoElements [93]

/-- The records of its batch. -/
def mixedCards : List Catalog.Card := (readAll readCard twoElements).1

/-- The progress of a run that has opened a feed of cards at `u`. -/
def openedProgress : Progress := { Progress.start .cards with phase := .importing, downloadUri := some "u" }

/-- The progress of a run that has applied the feed. -/
def mixedProgress : Progress :=
  openedProgress.absorb { (readAll readCard twoElements).2 with succeeded := mixedCards.length }

/-- The events by which its entry is found. -/
def foundEvents : List Event :=
  [⟨.readSetting "card_data_url", (.ok (some "v") : Stored (Option String))⟩,
    ⟨.readSetting "card_data_dataset_type", (.ok none : Stored (Option String))⟩,
    ⟨.request "v" .timed none, (.answered 200 ⟨listing, .closed⟩ : Web.Reply)⟩]

def openedEvents : List Event := [⟨.request "u" .patient (some ⟨0⟩), (.answered 200 mixedFeed : Web.Reply)⟩]

/-- The events by which it is applied. -/
def appliedEvents (job : Int) (decoder : Nat) : List Event :=
  [⟨.startDecoder mixedFeed 2 ⟨0⟩, decoder⟩, ⟨.receive decoder ⟨0⟩, (.batch twoElements : Feed.Arrival)⟩,
    ⟨.upsertCards mixedCards, (.ok mixedCards.length : Stored Nat)⟩,
    ⟨.publish job mixedProgress.toJson, (.ok () : Stored Unit)⟩, ⟨.receive decoder ⟨0⟩, (.closed : Feed.Arrival)⟩,
    ⟨.join decoder, (.ok 2 : Feed.Outcome)⟩]

/-- The events of an import of the feed, after which its card is the only one. -/
def mixedEvents (job : Int) (decoder : Nat) (time : Instant) : List Event :=
  successEvents .cards job mixedProgress time 1
    (phaseEvents .cards job "u" foundEvents openedEvents (appliedEvents job decoder))

theorem mixedEvents_path (job : Int) (decoder : Nat) (time : Instant) :
    Path (downloadAndImport lenient .cards job ⟨0⟩) (mixedEvents job decoder time)
      (.done (.ok (.ofProgress mixedProgress))) := by
  have hfound : Path (resolve .cards) foundEvents (.done (.ok ⟨"default_cards", "u", none, none⟩)) :=
    resolve_path "v" none (by decide) (by decide) read_listing rfl
  have hopened : Path (openFeed "u" ⟨0⟩) openedEvents (.done (.ok mixedFeed)) := openFeed_path "u" (by decide) mixedFeed
  have happlied : Path (applyFeed lenient .cards mixedFeed job ⟨0⟩ openedProgress) (appliedEvents job decoder)
      (.done (.ok (), mixedProgress)) :=
    .step (q := .startDecoder _ _ _) <| .step (q := .receive _ _) <| .step (q := .upsertCards _) <|
      .step (q := .publish _ _) <| .step (q := .receive _ _) <| .step (q := .join _) <| .here _
  have hverdict : verdict lenient.threshold mixedProgress = .ok (.ofProgress mixedProgress) := by
    unfold verdict
    rw [if_neg (by decide +kernel)]
  exact import_path (phases_path hfound hopened happlied hverdict) time 1

/-! ## A server for it -/

section Takes

variable {s : Server} {e e' : Exchange} {id : Nat} {d : Decoding}

/-- A server that knows a directory of feeds, and on which an import of cards has begun. -/
def busyServer (l : Ledger) (registry : Metrics.Registry) : Server :=
  { clock := default, settings := [("card_data_url", "v")], ledger := l, registry, locked := [.cards] }

theorem stirs_work (hd : s.decodings = [⟨⟨0⟩, e⟩]) (hattended : e.attended = true) (hcancelled : s.cancelled = [])
    (hwork : e.work false = e') : alone.stirs s { s with decodings := [⟨⟨0⟩, e'⟩] } := by
  have hflag : (s.isCancelled ⟨0⟩ || !e.attended) = false := by
    unfold Server.isCancelled
    rw [hcancelled, hattended]
    rfl
  have hstep : s.workOnce 0 ⟨⟨0⟩, e⟩ = { s with decodings := [⟨⟨0⟩, e'⟩] } := by
    unfold workOnce modifyDecoding
    dsimp only
    rw [hd, hflag, hwork]
    rfl
  rw [← hstep]
  exact .work (by rw [hd]; rfl)

def mixedExchange (queue : List Batch) (d : Decoder) : Exchange := ⟨mixedFeed, mixedFeed.fuel, 2, d, queue, true⟩

/-- The feed is read, and its batch is on the way. -/
theorem passes_mixedFeed (hd : s.decodings = [⟨⟨0⟩, Exchange.start mixedFeed 2⟩]) (hcancelled : s.cancelled = []) :
    alone.Passes s { s with decodings := [⟨⟨0⟩, mixedExchange [twoElements] (.finished (.ok 2))⟩] } := by
  have hdeep : 1 < Decoder.elementDepth := by decide
  obtain ⟨c, e, f, d, hopens, hfirst, hsecond, hcloses, hends⟩ := pair_steps hdeep (plainCard_storable "A") seven_storable
  have hhands : (mixedExchange [] (.holding twoElements (.reading f false [] 2))).work false =
      mixedExchange [twoElements] (.reading f false [] 2) := rfl
  exact .stir (stirs_work hd rfl hcancelled (congrArg (mixedExchange []) hopens)) <|
    .stir (stirs_work rfl rfl hcancelled (congrArg (mixedExchange []) hfirst)) <|
    .stir (stirs_work rfl rfl hcancelled (congrArg (mixedExchange []) hsecond)) <|
    .stir (stirs_work rfl rfl hcancelled hhands) <|
    .stir (stirs_work rfl rfl hcancelled (congrArg (mixedExchange [twoElements]) hcloses)) <|
    .stir (stirs_work rfl rfl hcancelled (congrArg (mixedExchange [twoElements]) hends)) <| .refl _

theorem arrives_closed (h : s.decodings[id]? = some d) (hspent : d.exchange.Spent) (token : Token) :
    alone.answers s (.receive id token) .closed s := by
  refine .inl ⟨fun d' hd' => ?_, rfl⟩
  rw [h] at hd'
  cases hd'
  exact hspent

theorem joins_outcome {outcome : Outcome} (h : s.decodings[id]? = some d) (hout : d.exchange.outcome? = some outcome) :
    alone.answers s (.join id) outcome s := by
  refine .inl ⟨?_, rfl⟩
  unfold Joins
  rw [h]
  exact hout

theorem counts_rows {dataset : Dataset} {n : Nat} (hrefused : s.faults.refused = []) (hrows : s.countRows dataset = n) :
    alone.answers s (.countRows dataset) (.ok n) s := by
  left
  change some (s.guarded .count _) = _
  unfold Server.guarded
  rw [hrefused, ← hrows]
  rfl

theorem length_upsert_mixedCards : (Catalog.upsertCards default mixedCards {}).2.cards.length = 1 := by decide +kernel

/-- On such a server the import goes on in this way. -/
theorem mixedEvents_rest (l : Ledger) (registry : Metrics.Registry) :
    ∃ s', alone.Takes (busyServer l registry) ((mixedEvents 1 0 default).drop 2) s' :=
  ⟨_, .answer (q := .writeSetting _ _) (.inl rfl) <| .answer (q := .startJob _) (.inl rfl) <|
    .answer (q := .publish _ _) (.inl rfl) <| .answer (q := .readSetting _) (.inl rfl) <|
    .answer (q := .readSetting _) (.inl rfl) <| .answer (q := .request _ _ _) (.inl rfl) <|
    .answer (q := .publish _ _) (.inl rfl) <| .answer (q := .request _ _ _) (.inl rfl) <|
    .answer (q := .publish _ _) (.inl rfl) <| .answer (q := .startDecoder _ _ _) (.inl rfl) <|
    .after (passes_mixedFeed rfl rfl) <|
    .answer (q := .receive _ _) (.inl ⟨_, _, rfl, rfl, rfl⟩) <|
    .answer (q := .upsertCards _) (.inl rfl) <| .answer (q := .publish _ _) (.inl rfl) <|
    .answer (q := .receive _ _) (arrives_closed (d := ⟨⟨0⟩, mixedExchange [] (.finished (.ok 2))⟩) rfl ⟨rfl, rfl⟩ _) <|
    .answer (q := .join _) (joins_outcome (d := ⟨⟨0⟩, mixedExchange [] (.finished (.ok 2))⟩) rfl rfl) <|
    .answer (q := .publish _ _) (.inl rfl) <| .answer (q := .record _) (.inl rfl) <|
    .answer (q := .unlock _) (.inl rfl) <| .answer (q := .now) (.inl rfl) <|
    .answer (q := .completeJob _) (.inl rfl) <| .answer (q := .now) (.inl rfl) <|
    .answer (q := .writeSetting _ _) (.inl rfl) <| .answer (q := .writeSetting _ _) (.inl rfl) <|
    .answer (q := .record _) (.inl rfl) <| .answer (q := .countRows _) (counts_rows rfl length_upsert_mixedCards) <|
    .answer (q := .record _) (.inl rfl) <| .start _⟩

theorem mixedEvents_takes (l : Ledger) :
    ∃ s', alone.Takes { busyServer l {} with locked := [] } (mixedEvents 1 0 default) s' := by
  obtain ⟨s', hrest⟩ := mixedEvents_rest l {}
  exact ⟨s', .answer (q := .now) (.inl rfl) <| .answer (q := .lock _) (.inl rfl) hrest⟩

end Takes

/-! ## A refusal -/

/-- The events of a call that is turned away. -/
def refusedEvents (dataset : Dataset) (job : Int) (time : Instant) : List Event :=
  [⟨.now, time⟩, ⟨.lock dataset, false⟩, ⟨.now, time⟩,
    ⟨.failJob job Failure.alreadyRunning.message, (.ok () : Stored Unit)⟩,
    ⟨.record (.importRun dataset.key Failure.alreadyRunning.kind ⟨(time.since time).toNat⟩), ()⟩]

theorem refusedEvents_path (setup : Setup) (dataset : Dataset) (job : Int) (token : Token) (time : Instant) :
    Path (downloadAndImport setup dataset job token) (refusedEvents dataset job time) (.done (.error .alreadyRunning)) :=
  .step (q := .now) <| .step (q := .lock dataset) <| .step (q := .now) <| .step (q := .failJob job _) <|
    .step (q := .record _) <| .here _

end CatalogSync.Import
