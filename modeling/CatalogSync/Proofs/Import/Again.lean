import CatalogSync.Proofs.Feed.Written
import CatalogSync.Proofs.Import.Icons

/-!
# Importing a feed again

A feed that is applied a second time brings the same batches, whether it comes to a good end or not. Its records
find themselves in the catalog, and the icons that were brought find themselves on disk: `importing_again`.
-/

namespace CatalogSync.Import

open CatalogSync.Catalog CatalogSync.Feed CatalogSync.Json CatalogSync.Server CatalogSync.Store CatalogSync.Text

/-- What is known of a feed of either dataset that was applied to a catalog and to files. -/
def FeedApplied (dataset : Dataset) (assets : String) (p : Progress) (c : Catalog) (f : Dict (List UInt8)) : Knowledge :=
  match dataset with
  | .cards => CardsApplied p c
  | .sets => SetsApplied assets c f

theorem feedApplied_carried (dataset : Dataset) (assets : String) (p : Progress) (c : Catalog) (f : Dict (List UInt8))
    (token : Token) : Carries dataset assets token (FeedApplied dataset assets p c f) := by
  cases dataset with
  | cards => exact cards_carried p c assets token
  | sets => exact sets_carried assets c f token

theorem feedApplied_nothing (dataset : Dataset) (assets : String) (p : Progress) (c : Catalog) (f : Dict (List UInt8)) :
    FeedApplied dataset assets p c f [] p [] c f := by
  cases dataset with
  | cards => exact ⟨(tallied_zero p).symm, .refl _ _, rfl⟩
  | sets => exact ⟨.refl _ _, rfl, .refl _ _, fun _ _ h => h, sought_nil _ _ _⟩

/-- The sets that come with the batches of a feed. -/
def deliveredSets (source : Source) (size : Nat) : List CardSet := records readSet (deliver source size false).1.flatten

/-- All that a second import of a feed leaves as the first one left it. -/
structure Repeats (setup : Setup) (dataset : Dataset) (source : Source) (result : Staged Unit) (s : Server)
    (result' : Staged Unit) (t' : List Event) (s' : Server) : Prop where
  /-- The same rows of cards in the same order, with the same records, first seen when they were. -/
  cards : s'.catalog.cards.map (fun r => (r.record, r.firstSeenAt)) =
    s.catalog.cards.map fun r => (r.record, r.firstSeenAt)
  sets : s'.catalog.sets.map (fun r => (r.plain, r.firstSeenAt)) =
    s.catalog.sets.map fun r => (r.plain, r.firstSeenAt)
  /-- No icon that is noted is lost. -/
  paths : PathsKept setup.assets s.catalog s'.catalog
  /-- The outcome, the counts and the messages, so that the verdict is the same. -/
  result : dataset = .cards → result' = result
  files : dataset = .sets → FilesKept setup.assets s.files s'.files
  /-- No icon on disk is requested again. -/
  sought : dataset = .sets → Sought setup.assets (deliveredSets source setup.batchSize) s.files t'

section Again

variable {setup : Setup} {dataset : Dataset} {source : Source} {p : Progress} {result result' : Staged Unit}
  {t t' : List Event} {s m s' m' : Server}

/-- **The second time**, the same batches meet their own records. -/
theorem repeats_of_concluded (hkeyed : s.catalog.Keyed)
    (h : Concluded (FeedApplied dataset setup.assets p s.catalog s.files) source setup.batchSize result t m)
    (h' : Concluded (FeedApplied dataset setup.assets p m.catalog m.files) source setup.batchSize result' t' m') :
    Repeats setup dataset source result m result' t' m' := by
  obtain ⟨batches, outcome, hdeliver, houtcome, happlied⟩ := h
  obtain ⟨batches', outcome', hdeliver', houtcome', happlied'⟩ := h'
  rw [hdeliver] at hdeliver'
  cases hdeliver'
  cases dataset with
  | cards =>
    obtain ⟨hp, hcards, hsets⟩ := happlied
    obtain ⟨hp', hcards', hsets'⟩ := happlied'
    refine ⟨hcards.again hcards' hkeyed.cards, by rw [hsets'], ?_, fun _ => ?_, nofun, nofun⟩
    · intro code r hr
      refine ⟨r, ?_, .inl rfl⟩
      unfold setRow? at hr ⊢
      rw [hsets']
      exact hr
    · exact Prod.ext (houtcome'.trans houtcome.symm) (hp'.trans hp.symm)
  | sets =>
    have hknown : SetsKnown setup.assets s.catalog s.files (records readSet batches.flatten) t m.catalog m.files := happlied
    have hknown' : SetsKnown setup.assets m.catalog m.files (records readSet batches.flatten) t' m'.catalog m'.files :=
      happlied'
    have hsets : deliveredSets source setup.batchSize = records readSet batches.flatten := by
      unfold deliveredSets
      rw [hdeliver]
    refine ⟨by rw [hknown'.cards], hknown.landed.again hknown'.landed hkeyed.sets, hknown'.paths, nofun,
      fun _ => hknown'.files, fun _ => ?_⟩
    rw [hsets]
    exact hknown'.sought

/-- **Importing again.** A feed is applied to a catalog, and then once more to what came of it, with the
catalog and the files left alone in between; it may be judged a failure, or break off. Each import comes to its
end unless the feed stalls, and the second one leaves all as the first one left it. -/
theorem importing_again {token : Token} (hcalm : Calm token s) (hkeyed : s.catalog.Keyed) (setup : Setup)
    (dataset : Dataset) (source : Source) (job job' : Int) (p : Progress) :
    (source.ending ≠ .stalled → (applyFeed setup dataset source job token p).Completes working s) ∧
      ∀ t result m, Program.Reaches working (applyFeed setup dataset source job token p) s t (.done result) m →
        ∀ token' s', Calm token' s' → s'.catalog = m.catalog → s'.files = m.files →
          (source.ending ≠ .stalled → (applyFeed setup dataset source job' token' p).Completes working s') ∧
            ∀ t' result' m',
              Program.Reaches working (applyFeed setup dataset source job' token' p) s' t' (.done result') m' →
              Repeats setup dataset source result m result' t' m' := by
  have hends : ∀ {token : Token} {s : Server} (_ : Calm token s) (job : Int),
      (applyFeed setup dataset source job token p).Ends working (source.ending ≠ .stalled)
        (Concluded (FeedApplied dataset setup.assets p s.catalog s.files) source setup.batchSize) [] s := by
    intro token s hcalm job
    exact applyFeed_ends (feedApplied_carried dataset setup.assets p s.catalog s.files token) id hcalm
      (feedApplied_nothing dataset setup.assets p s.catalog s.files) job
  refine ⟨fun hflows => (hends hcalm job).always hflows, ?_⟩
  intro t result m hrun token' s' hcalm' hcatalog hfiles
  refine ⟨fun hflows => (hends hcalm' job').always hflows, ?_⟩
  intro t' result' m' hrun'
  have hfirst := ((hends hcalm job).reaches hrun).done
  have hsecond := ((hends hcalm' job').reaches hrun').done
  rw [hcatalog, hfiles] at hsecond
  exact repeats_of_concluded hkeyed hfirst hsecond

/-- A server with one set, whose icon is on disk. -/
def oneIcon : Server where
  clock := default
  catalog := { sets := [⟨"x", "X", none, none, .integer 0, none, some "a/sets/x.svg", "", ""⟩] }
  files := [("a/sets/x.svg", [60])]

def plainSet : Json := .object [("code", .text "x"), ("icon_svg_uri", .text "u"), ("name", .text "Y")]

theorem plainSet_storable : Storable 1 plainSet := by
  have hkeys : ["code", "icon_svg_uri", "name"].Pairwise (· < ·) := by decide
  refine .object ((List.pairwise_map (f := Prod.fst)).1 hkeys) ?_
  simp only [List.forall_mem_cons]
  exact ⟨.text _ _, .text _ _, .text _ _, nofun⟩

/-- A feed that breaks off behind the set. -/
abbrev brokenFeed : Source := unclosed [plainSet]

theorem brokenFeed_sets : deliveredSets brokenFeed 1 = [⟨"x", "Y", none, none, 0, some "u"⟩] := by
  have hroom : HasRoom 1 := by decide
  have hitems : ∀ v ∈ [plainSet], Storable 1 v := List.forall_mem_singleton.2 plainSet_storable
  obtain ⟨place, hbreaks⟩ := unclosed_breaks (by decide) hitems
  obtain ⟨batches, hdeliver, hover⟩ := deliver_of_breaks hbreaks (le_refl 1) hroom
  unfold deliveredSets
  rw [hdeliver]
  cases hover with
  | inside _ _ elements =>
    rw [elements]
    decide +kernel

/-- The row of the set is written by both imports. -/
theorem broken_feed_twice :
    ∃ t result m t' result' m',
      Program.Reaches working (applyFeed { batchSize := 1, assets := "a" } .sets brokenFeed 1 ⟨1⟩ (.start .sets))
        oneIcon t (.done result) m ∧
      Program.Reaches working (applyFeed { batchSize := 1, assets := "a" } .sets brokenFeed 2 ⟨2⟩ (.start .sets))
        { oneIcon with catalog := m.catalog, files := m.files } t' (.done result') m' ∧
      Repeats { batchSize := 1, assets := "a" } .sets brokenFeed result m result' t' m' ∧
      (deliveredSets brokenFeed 1).map CardSet.name = ["Y"] := by
  have hcalm : Calm ⟨1⟩ oneIcon := by decide
  have hkeyed : oneIcon.catalog.Keyed := ⟨by decide, by decide⟩
  have hflows : brokenFeed.ending ≠ .stalled := Ending.noConfusion
  obtain ⟨hcompletes, hagain⟩ := importing_again hcalm hkeyed { batchSize := 1, assets := "a" } .sets brokenFeed 1 2
    (.start .sets)
  obtain ⟨t, result, m, hrun⟩ := hcompletes hflows [] _ _ (.start _ _)
  have hcalm' : Calm ⟨2⟩ { oneIcon with catalog := m.catalog, files := m.files } :=
    ⟨List.not_mem_nil, rfl, rfl, List.not_mem_nil⟩
  obtain ⟨hcompletes', hrepeats⟩ := hagain t result m hrun ⟨2⟩ _ hcalm' rfl rfl
  obtain ⟨t', result', m', hrun'⟩ := hcompletes' hflows [] _ _ (.start _ _)
  have hname : (deliveredSets brokenFeed 1).map CardSet.name = ["Y"] := by rw [brokenFeed_sets]; rfl
  exact ⟨t, result, m, t', result', m', hrun, hrun', hrepeats t' result' m' hrun', hname⟩

end Again

end CatalogSync.Import
