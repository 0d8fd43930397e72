import CatalogSync.Proofs.Feed.Breaking
import CatalogSync.Proofs.Import.Again
import CatalogSync.Proofs.Import.Batching

/-!
# Importing a feed that breaks off

What a broken feed hands over before its defect is applied, batch by batch, and counted, and then the import ends with
the defect (`BrokenOff`). So inside the array whole batches are committed and no element of a partly filled one, and
past it every element is.

Main statement: `broken_feed_commits_whole_batches`.
-/

namespace CatalogSync.Import

open CatalogSync.Catalog CatalogSync.Feed CatalogSync.Json CatalogSync.Server CatalogSync.Store CatalogSync.Text

/-! ## What is written and counted -/

/-- The upserts are those of the batches, and progress counts the batches and their elements. -/
structure Counts (dataset : Dataset) (p₀ : Progress) (received : List Batch) (p : Progress) (t : List Event) :
    Prop where
  upserts : upserts t = applied dataset received
  batches : p.batches = p₀.batches + received.length
  processed : p.processed = p₀.processed + received.flatten.length
  outcomes : p.succeeded + p.failed = p₀.succeeded + p₀.failed + received.flatten.length

section Counting

variable {dataset : Dataset} {p₀ p : Progress} {received : List Batch} {items : Batch} {t u : List Event}

theorem counts_nothing (dataset : Dataset) (p : Progress) : Counts dataset p [] p [] := ⟨rfl, rfl, rfl, rfl⟩

theorem Counts.idle (h : Counts dataset p₀ received p t) {e : Event} (he : upsert? e = none) :
    Counts dataset p₀ received p (t ++ [e]) :=
  { h with upserts := by rw [upserts_snoc, he, h.upserts]; exact List.append_nil _ }

/-- **One more batch.** -/
theorem Counts.snoc (h : Counts dataset p₀ received p t)
    (hu : Import.upserts u = Import.upserts t ++ [(upsertOf dataset items, true)]) {result : BatchResult}
    (hresult : result.succeeded + result.failed = items.length) :
    Counts dataset p₀ (received ++ [items]) (p.absorb result) u := by
  obtain ⟨hupserts, hbatches, hprocessed, houtcomes⟩ := h
  have hlength : (received ++ [items]).flatten.length = received.flatten.length + items.length := by
    rw [List.flatten_append, List.flatten_singleton, List.length_append]
  refine ⟨by rw [hu, hupserts, applied_snoc], ?_, ?_, ?_⟩
  · rw [List.length_append, List.length_singleton]
    change p.batches + 1 = _
    omega
  · rw [hlength]
    change p.processed + (result.succeeded + result.failed) = _
    omega
  · rw [hlength]
    change p.succeeded + result.succeeded + (p.failed + result.failed) = _
    omega

end Counting

/-- The icons of a batch write no records, and no more of them fail than there are sets. -/
theorem icons_counted {live : Prop} (assets : String) (token : Token) (sets : List CardSet) {t : List Event}
    {s : Server} {done : List (Ask × Bool)} (h : upserts t = done) :
    (ensureIcons assets token sets).Ends working live
      (fun failures t _ => failures.length ≤ sets.length ∧ upserts t = done) t s := by
  refine (ensureIcons_all assets token sets).ends (fun t _ => upserts t = done) (fun _ _ _ h _ => h) ?_ ?_ h
  · intro q hq s
    refine answered ?_ s
    cases q <;> first | rfl | cases hq
  · intro q hq t s a s' h _
    have haside : bearsOnFeed q = false := by cases q <;> first | rfl | cases hq
    rw [upserts_idle haside, h]

/-- What each batch of either dataset adds to the count. -/
theorem counts_carried (dataset : Dataset) (p₀ : Progress) (assets : String) (token : Token) :
    Carries dataset assets token fun received p t _ _ => Counts dataset p₀ received p t where
  idle q a hq h := by
    refine h.idle ?_
    cases q <;> first | rfl | cases hq
  batch {received p t s} live items hcalm h := by
    cases dataset with
    | cards =>
      unfold applyBatch
      rw [readAll_eq readCard]
      refine Program.Ends.call (Calm token) hcalm (fun _ _ h => h.stirs) (fun _ m _ => ⟨m, _, _, .refl m, rfl⟩) ?_
      intro m answer m' hcalm hans
      have hanswer : some (m.guarded .upsert (upsert fun now => Catalog.upsertCards now (records readCard items))) =
          some (answer, m') := hans
      rw [hcalm.upsert] at hanswer
      cases hanswer
      have hupsert : upserts (t ++ [⟨.upsertCards (records readCard items), .ok (records readCard items).length⟩]) =
          upserts t ++ [(upsertOf .cards items, true)] := by
        unfold upsertOf
        rw [upserts_snoc, readAll_eq readCard]
        rfl
      have hresult : (batchResult readCard items).succeeded + (batchResult readCard items).failed = items.length := by
        rw [← records_add_faults readCard items]
        unfold batchResult
        rw [recordFailures_eq]
        exact congrArg _ (Nat.zero_add _)
      exact Program.Ends.pure (fun _ => True) trivial (fun _ _ _ _ => trivial) fun _ _ =>
        ⟨_, rfl, h.snoc hupsert hresult⟩
    | sets =>
      unfold applyBatch
      rw [readAll_eq readSet]
      refine Program.Ends.call (Calm token) hcalm (fun _ _ h => h.stirs) (fun _ m _ => ⟨m, _, _, .refl m, rfl⟩) ?_
      intro m answer m' hcalm hans
      have hanswer : some (m.guarded .upsert (upsert fun now => Catalog.upsertSets now (records readSet items))) =
          some (answer, m') := hans
      rw [hcalm.upsert] at hanswer
      cases hanswer
      have hupsert : upserts (t ++ [⟨.upsertSets (records readSet items), .ok (records readSet items).length⟩]) =
          upserts t ++ [(upsertOf .sets items, true)] := by
        unfold upsertOf
        rw [upserts_snoc, readAll_eq readSet]
        rfl
      refine (icons_counted assets token (records readSet items) hupsert).bind ?_
      rintro failures u n ⟨hfailures, hsame⟩
      refine Program.Ends.pure (fun _ => True) trivial (fun _ _ _ _ => trivial) fun _ _ => ⟨_, rfl, h.snoc hsame ?_⟩
      -- an icon that failed has been counted as a record before, and is not any more
      rw [← records_add_faults readSet items, recordFailures_eq, recordFailures_eq]
      change (records readSet items).length - failures.length +
        (0 + (faults readSet items).length + failures.length) = _
      omega

/-! ## The whole feed -/

/-- What is known of a feed that is applied: what it has brought, and how it is counted. -/
def Committed (dataset : Dataset) (assets : String) (p : Progress) (c : Catalog) (f : Dict (List UInt8)) : Knowledge :=
  fun received p' t c' f' => FeedApplied dataset assets p c f received p' t c' f' ∧ Counts dataset p received p' t

/-- The records of elements have landed in the catalog, and nothing else has. -/
def RecordsLanded (dataset : Dataset) (items : List Json) (c c' : Catalog) : Prop :=
  match dataset with
  | .cards => Landed cardShape c.cards (records readCard items) c'.cards ∧ c'.sets = c.sets
  | .sets => Landed setShape c.sets (records readSet items) c'.sets ∧ c'.cards = c.cards

theorem Committed.landed {dataset : Dataset} {assets : String} {p p' : Progress} {c c' : Catalog}
    {f f' : Dict (List UInt8)} {received : List Batch} {t : List Event}
    (h : Committed dataset assets p c f received p' t c' f') : RecordsLanded dataset received.flatten c c' := by
  obtain ⟨happlied, -⟩ := h
  cases dataset with
  | cards => exact ⟨happlied.2.1, happlied.2.2⟩
  | sets =>
    have hknown : SetsKnown assets c f (records readSet received.flatten) t c' f' := happlied
    exact ⟨hknown.landed, hknown.cards⟩

/-- What the import of a feed comes to that breaks off after some elements: the batches that it hands over are written
and counted, what of them reads is in the catalog, and the import fails as the feed does. -/
structure BrokenOff (dataset : Dataset) (size : Nat) (items : List Json) (side : Side) (failure : Json.Failure)
    (p : Progress) (c : Catalog) (result : Staged Unit) (t : List Event) (c' : Catalog) : Prop where
  outcome : result.1 = .error (decoderFailure false (DecodeFault.ofFailure false failure))
  committed : ∃ batches, HandedOver size items side batches ∧ Counts dataset p batches result.2 t ∧
    RecordsLanded dataset batches.flatten c c' ∧
    (dataset = .cards → result.2 = p.tallied batches.length (records readCard batches.flatten).length
      (faults readCard batches.flatten))

/-- What the import of a feed comes to that breaks off when there is no room for a batch: it fails, with nothing written and
nothing counted. -/
structure NothingCommitted (dataset : Dataset) (p : Progress) (c : Catalog) (result : Staged Unit) (t : List Event)
    (c' : Catalog) : Prop where
  outcome : ∃ fault, result.1 = .error (decoderFailure false fault)
  counts : Counts dataset p [] result.2 t
  landed : RecordsLanded dataset [] c c'

/-- A feed whose decoder ends with a fault is applied as far as it is delivered, and fails with it. -/
theorem applyFeed_fails {token : Token} {s : Server} {setup : Setup} {source : Source} {batches : List Batch}
    {fault : DecodeFault} (hdeliver : deliver source setup.batchSize false = (batches, some (.error fault)))
    (hcalm : Calm token s) (dataset : Dataset) (job : Int) (p : Progress) :
    (applyFeed setup dataset source job token p).Ends working True
      (fun result t s' => result.1 = .error (decoderFailure false fault) ∧
        Committed dataset setup.assets p s.catalog s.files batches result.2 t s'.catalog s'.files) [] s := by
  have hcarried : Carries dataset setup.assets token (Committed dataset setup.assets p s.catalog s.files) :=
    (feedApplied_carried dataset setup.assets p s.catalog s.files token).and
      (counts_carried dataset p setup.assets token)
  have hstart : Committed dataset setup.assets p s.catalog s.files [] p [] s.catalog s.files :=
    ⟨feedApplied_nothing dataset setup.assets p s.catalog s.files, counts_nothing dataset p⟩
  refine (applyFeed_ends_of_flows hcarried (fun _ => flows_of_deliver hdeliver) hcalm hstart job).mono ?_
  rintro result t s' ⟨batches', outcome, hdeliver', houtcome, hcommitted⟩
  rw [hdeliver] at hdeliver'
  cases hdeliver'
  exact ⟨houtcome, hcommitted⟩

/-- **A broken feed commits its whole batches.** A feed that does not stall and is not one array breaks off after some
elements, on one side of the closing bracket. Its import can be completed wherever it stands, and when it is, it has
failed: if there is room for a batch, with the full batches of those elements written and counted if the defect is inside
the array, and with all of them if it is past it, and else with nothing. -/
theorem broken_feed_commits_whole_batches {token : Token} {s : Server} {setup : Setup} (hcalm : Calm token s)
    (hsize : 1 ≤ setup.batchSize) (dataset : Dataset) (source : Source) (job : Int) (p : Progress) :
    (source.ending ≠ .stalled →
      (∀ items, source.ending = .closed → readWithin depthLimit source.bytes ≠ .ok (.array items)) →
      ∃ items side failure, Breaks source items side failure) ∧
    ∀ items side failure, Breaks source items side failure →
      (applyFeed setup dataset source job token p).Completes working s ∧
      ∀ t result s', Program.Reaches working (applyFeed setup dataset source job token p) s t (.done result) s' →
        (HasRoom setup.batchSize →
          BrokenOff dataset setup.batchSize items side failure p s.catalog result t s'.catalog) ∧
        (¬HasRoom setup.batchSize → NothingCommitted dataset p s.catalog result t s'.catalog) := by
  refine ⟨breaks_of_not_document, fun items side failure hbreaks => ?_⟩
  by_cases hroom : HasRoom setup.batchSize
  · obtain ⟨batches, hdeliver, hover⟩ := deliver_of_breaks hbreaks hsize hroom
    have hends := applyFeed_fails hdeliver hcalm dataset job p
    refine ⟨hends.always trivial, fun t result s' hrun => ⟨fun _ => ?_, fun hno => absurd hroom hno⟩⟩
    obtain ⟨houtcome, hcommitted⟩ := (hends.reaches hrun).done
    refine ⟨houtcome, batches, hover, hcommitted.2, hcommitted.landed, ?_⟩
    rintro rfl
    exact hcommitted.1.1
  · obtain ⟨fault, hdeliver, -⟩ := deliver_of_breaks_without_room hbreaks hroom
    have hends := applyFeed_fails hdeliver hcalm dataset job p
    refine ⟨hends.always trivial, fun t result s' hrun => ⟨fun h => absurd h hroom, fun _ => ?_⟩⟩
    obtain ⟨houtcome, hcommitted⟩ := (hends.reaches hrun).done
    exact ⟨⟨fault, houtcome⟩, hcommitted.2, hcommitted.landed⟩

/-- The feed of three elements, which ends in front of the closing bracket. -/
abbrev cutShort : Source := unclosed threeElements

theorem one_batch_of_three_elements :
    ∃ t result m, Program.Reaches working
        (applyFeed { batchSize := 2, assets := "" } .cards cutShort 1 ⟨1⟩ (.start .cards)) bareServer t
        (.done result) m ∧
      (∃ failure, result.1 = .error failure) ∧ result.2.batches = 1 ∧ result.2.succeeded = 1 ∧
      result.2.failed = 1 ∧ upserts t = applied .cards [[plainCard "A", .int 7]] ∧
      m.catalog.cards.map CardRow.id = ["a"] := by
  have hcalm : Calm ⟨1⟩ bareServer := by decide
  have hsize : 1 ≤ ({ batchSize := 2, assets := "" } : Setup).batchSize := by decide
  have hroom : HasRoom ({ batchSize := 2, assets := "" } : Setup).batchSize := by decide
  obtain ⟨-, hbroken⟩ := broken_feed_commits_whole_batches hcalm hsize .cards cutShort 1 (.start .cards)
  obtain ⟨place, hbreaks⟩ := unclosed_breaks (by decide) threeElements_storable
  obtain ⟨hcompletes, hdone⟩ := hbroken _ _ _ hbreaks
  obtain ⟨t, result, m, hrun⟩ := hcompletes [] _ _ (.start _ _)
  obtain ⟨hroomy, -⟩ := hdone t result m hrun
  obtain ⟨houtcome, batches, hover, hcounts, hlanded, htallied⟩ := hroomy hroom
  obtain ⟨batch, rfl⟩ : ∃ batch, batches = [batch] := by
    cases hover with
    | inside count _ _ => exact List.length_eq_one_iff.1 count
  have helements : batch = [plainCard "A", .int 7] := by
    cases hover with
    | inside _ _ elements => exact (List.flatten_singleton).symm.trans elements
  subst helements
  have hresult := htallied rfl
  have hkeys : m.catalog.cards.map CardRow.id = ["a"] := hlanded.1.keys.trans (by decide +kernel)
  refine ⟨t, result, m, hrun, ⟨_, houtcome⟩, hcounts.batches, ?_, ?_, hcounts.upserts, hkeys⟩
  · rw [hresult]
    decide +kernel
  · rw [hresult]
    decide +kernel

/-- The three elements and an `x` behind their array, in batches for which there is no room: the defect is past the array,
and no element of it is written or counted. -/
theorem three_elements_lost :
    ∃ place t result m, Breaks (followed threeElements [120]) threeElements .past ⟨.trailingCharacters, some place⟩ ∧
      Program.Reaches working
        (applyFeed { batchSize := 2 ^ 58, assets := "" } .cards (followed threeElements [120]) 1 ⟨1⟩ (.start .cards))
        bareServer t (.done result) m ∧
      upserts t = [] ∧ result.2.processed = 0 ∧ m.catalog.cards.map CardRow.id = [] := by
  have hcalm : Calm ⟨1⟩ bareServer := by decide
  have hroom : ¬HasRoom ({ batchSize := 2 ^ 58, assets := "" } : Setup).batchSize := by decide
  obtain ⟨place, hbreaks⟩ := followed_breaks (b := 120) (r := []) (by decide) threeElements_storable rfl
  obtain ⟨fault, hdeliver, -⟩ := deliver_of_breaks_without_room hbreaks hroom
  have hends := applyFeed_fails hdeliver hcalm .cards 1 (.start .cards)
  obtain ⟨t, result, m, hrun⟩ := hends.always trivial [] _ _ (.start _ _)
  obtain ⟨-, hcommitted⟩ := (hends.reaches hrun).done
  have hcounts : Counts .cards (.start .cards) [] result.2 t := hcommitted.2
  have hlanded : RecordsLanded .cards [] bareServer.catalog m.catalog := hcommitted.landed
  exact ⟨place, t, result, m, hbreaks, hrun, hcounts.upserts, hcounts.processed, hlanded.1.keys⟩

end CatalogSync.Import
