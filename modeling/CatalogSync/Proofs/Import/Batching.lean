import CatalogSync.Proofs.Feed.Written
import CatalogSync.Proofs.Import.Applying

/-!
# Batches do not show

A feed of cards is imported batch by batch. What is in the catalog afterwards and what progress tells is what the
feed says as one document (`applyCards_ends`), so that two imports with batches of different sizes differ in
nothing but the number of batches, if there is room for a batch of each: `batches_do_not_show`. Without room
nothing is imported (`applyCards_without_room`).
-/

namespace CatalogSync.Import

open CatalogSync.Catalog CatalogSync.Feed CatalogSync.Json CatalogSync.Server CatalogSync.Store

/-- How many batches of a size hold so many elements. -/
def batchesOf (n size : Nat) : Nat := (n + (max size 1 - 1)) / max size 1

/-- The elements of a document have been imported as cards. -/
structure CardsImported (items : List Json) (size : Nat) (p : Progress) (c : Catalog) (result : Staged Unit)
    (c' : Catalog) : Prop where
  outcome : result.1 = .ok ()
  progress : result.2 = p.tallied (batchesOf items.length size) (records readCard items).length (faults readCard items)
  cards : Landed cardShape c.cards (records readCard items) c'.cards
  sets : c'.sets = c.sets

abbrev cardImport (setup : Setup) (bytes : List UInt8) (job : Int) (token : Token) (p : Progress) :
    Program (Staged Unit) :=
  applyFeed setup .cards ⟨bytes, .closed⟩ job token p

section Document

variable {bytes : List UInt8} {items : List Json} {token : Token} {s : Server}

theorem applyCards_ends (hdoc : readWithin depthLimit bytes = .ok (.array items)) (hcalm : Calm token s)
    {setup : Setup} (hroom : HasRoom setup.batchSize) (job : Int) (p : Progress) :
    (cardImport setup bytes job token p).Ends working True
      (fun result _ s' => CardsImported items setup.batchSize p s.catalog result s'.catalog) [] s := by
  have hstart : CardsApplied p s.catalog [] p [] s.catalog s.files := ⟨(tallied_zero p).symm, .refl _ _, rfl⟩
  have hflows : (⟨bytes, .closed⟩ : Source).ending ≠ .stalled := Ending.noConfusion
  refine (applyFeed_ends (cards_carried p s.catalog setup.assets token) (fun _ => hflows) hcalm hstart job).mono ?_
  rintro ⟨outcome, p'⟩ t s' ⟨batches, ended, hdeliver, houtcome, hp, hcards, hsets⟩
  rw [deliver_document hdoc hroom] at hdeliver
  cases hdeliver
  have hitems : (cut setup.batchSize [] items).flatten = items := cut_flatten _ _ _
  have hlength : (cut setup.batchSize [] items).length = batchesOf items.length setup.batchSize := by
    rw [length_cut _ _ _ (by rw [List.length_nil]; omega), List.length_nil, Nat.zero_add]
    rfl
  rw [hitems, hlength] at hp
  rw [hitems] at hcards
  exact ⟨houtcome, hp, hcards, hsets⟩

/-- The end of an import without room for a batch. -/
def withoutRoom : Failure := decoderFailure false .overflow

theorem applyCards_without_room (hdoc : readWithin depthLimit bytes = .ok (.array items)) (hcalm : Calm token s)
    {setup : Setup} (hroom : ¬HasRoom setup.batchSize) (job : Int) (p : Progress) :
    (cardImport setup bytes job token p).Ends working True
      (fun result _ s' => result.1 = .error withoutRoom ∧ Landed cardShape s.catalog.cards [] s'.catalog.cards) [] s := by
  have hstart : CardsApplied p s.catalog [] p [] s.catalog s.files := ⟨(tallied_zero p).symm, .refl _ _, rfl⟩
  have hflows : (⟨bytes, .closed⟩ : Source).ending ≠ .stalled := Ending.noConfusion
  refine (applyFeed_ends (cards_carried p s.catalog setup.assets token) (fun _ => hflows) hcalm hstart job).mono ?_
  rintro result t s' ⟨batches, ended, hdeliver, houtcome, -, hcards, -⟩
  obtain ⟨fault, hnothing, hfault⟩ := deliver_overflows bytes hroom
  rw [hnothing] at hdeliver
  cases hdeliver
  rw [hfault items hdoc] at houtcome
  exact ⟨houtcome, hcards⟩

end Document

/-! ## Two imports -/

/-- All that two imports of cards into the same rows have in common. -/
structure AlikeButBatches (rows : List CardRow) (result result' : Staged Unit) (c c' : Catalog) : Prop where
  outcome : result.1 = .ok () ∧ result'.1 = .ok ()
  cards : c.cards.map (cardShape.known rows) = c'.cards.map (cardShape.known rows)
  sets : c.sets = c'.sets
  /-- The counts and the messages of failures, and all else but the number of batches. -/
  progress : { result.2 with batches := result'.2.batches } = result'.2
  verdict : ∀ threshold,
    (verdict threshold result.2).map (fun summary => { summary with batches := result'.2.batches }) =
      verdict threshold result'.2

/-- The verdict does not look at the number of batches. -/
theorem verdict_batches (threshold : Binary64) (p : Progress) (batches : Nat) :
    (verdict threshold p).map (fun summary => { summary with batches }) = verdict threshold { p with batches } := by
  have hrate : ({ p with batches } : Progress).failureRate = p.failureRate := rfl
  unfold verdict
  rw [hrate]
  split <;> rfl

theorem CardsImported.alike {items : List Json} {size size' : Nat} {p : Progress} {c c₁ c₂ : Catalog}
    {result result' : Staged Unit} (h : CardsImported items size p c result c₁)
    (h' : CardsImported items size' p c result' c₂) (hkeyed : c.Keyed) :
    AlikeButBatches c.cards result result' c₁ c₂ := by
  have hprogress : { result.2 with batches := result'.2.batches } = result'.2 := by
    rw [h.progress, h'.progress]
    rfl
  refine ⟨⟨h.outcome, h'.outcome⟩, h.cards.same h'.cards hkeyed.cards, h.sets.trans h'.sets.symm, hprogress, ?_⟩
  intro threshold
  rw [verdict_batches, hprogress]

/-- **Batches do not show.** Cards are imported twice from the same feed into the same catalog, with batches of
any two sizes for which there is room. Both imports can be completed wherever they stand, and when they are, they
differ in nothing but the number of batches, which is the number that it takes. The catalog has one row for each key,
as calls make them (`replay_keyed`). -/
theorem batches_do_not_show {bytes : List UInt8} {items : List Json} {token token' : Token} {s s' : Server}
    (hdoc : readWithin depthLimit bytes = .ok (.array items)) (hcalm : Calm token s) (hcalm' : Calm token' s')
    (hkeyed : s.catalog.Keyed) (hsame : s'.catalog = s.catalog) {setup setup' : Setup}
    (hroom : HasRoom setup.batchSize) (hroom' : HasRoom setup'.batchSize) (job job' : Int) (p : Progress) :
    ((cardImport setup bytes job token p).Completes working s ∧
        (cardImport setup' bytes job' token' p).Completes working s') ∧
      ∀ t t' result result' m m',
        Program.Reaches working (cardImport setup bytes job token p) s t (.done result) m →
        Program.Reaches working (cardImport setup' bytes job' token' p) s' t' (.done result') m' →
        AlikeButBatches s.catalog.cards result result' m.catalog m'.catalog ∧
          result.2.batches = p.batches + batchesOf items.length setup.batchSize ∧
          result'.2.batches = p.batches + batchesOf items.length setup'.batchSize := by
  have hends := applyCards_ends hdoc hcalm hroom job p
  have hends' := applyCards_ends hdoc hcalm' hroom' job' p
  rw [hsame] at hends'
  refine ⟨⟨hends.always trivial, hends'.always trivial⟩, ?_⟩
  intro t t' result result' m m' hrun hrun'
  have hdone := (hends.reaches hrun).done
  have hdone' := (hends'.reaches hrun').done
  refine ⟨hdone.alike hdone' hkeyed, ?_, ?_⟩
  · rw [hdone.progress]
    rfl
  · rw [hdone'.progress]
    rfl

/-! ## A feed of three elements -/

/-- A card, something else, and the card again under another name. -/
def threeElements : List Json := [plainCard "A", .int 7, plainCard "B"]

theorem threeElements_storable : ∀ v ∈ threeElements, Storable 1 v := by
  simp only [threeElements, List.forall_mem_cons]
  exact ⟨plainCard_storable _, seven_storable, plainCard_storable _, nofun⟩

theorem threeElements_read : readWithin depthLimit (written threeElements) = .ok (.array threeElements) :=
  written_document (by decide) threeElements_storable

def bareServer : Server := { clock := default }

/-- One by one and in batches of two: there is one row for the card, which was written twice, and one element has
failed. -/
theorem three_elements_twice :
    ∃ t t' result result' m m',
      Program.Reaches working
        (cardImport { batchSize := 1, assets := "" } (written threeElements) 1 ⟨1⟩ (.start .cards)) bareServer t
        (.done result) m ∧
      Program.Reaches working
        (cardImport { batchSize := 2, assets := "" } (written threeElements) 2 ⟨2⟩ (.start .cards)) bareServer t'
        (.done result') m' ∧
      AlikeButBatches [] result result' m.catalog m'.catalog ∧ result.2.batches = 3 ∧ result'.2.batches = 2 ∧
      m.catalog.cards.map CardRow.id = ["a"] ∧ result.2.succeeded = 2 ∧ result.2.failed = 1 := by
  have hcalm : Calm ⟨1⟩ bareServer := by decide
  have hcalm' : Calm ⟨2⟩ bareServer := by decide
  have hroom : HasRoom ({ batchSize := 1, assets := "" } : Setup).batchSize := by decide
  have hroom' : HasRoom ({ batchSize := 2, assets := "" } : Setup).batchSize := by decide
  obtain ⟨⟨hcompletes, hcompletes'⟩, halike⟩ :=
    batches_do_not_show threeElements_read hcalm hcalm' empty_keyed rfl hroom hroom' 1 2 (.start .cards)
  obtain ⟨t, result, m, hrun⟩ := hcompletes [] _ _ (.start _ _)
  obtain ⟨t', result', m', hrun'⟩ := hcompletes' [] _ _ (.start _ _)
  obtain ⟨halike, hbatches, hbatches'⟩ := halike t t' result result' m m' hrun hrun'
  have himported := ((applyCards_ends threeElements_read hcalm hroom 1 (.start .cards)).reaches hrun).done
  have hkeys : m.catalog.cards.map CardRow.id = ["a"] := himported.cards.keys.trans (by decide +kernel)
  refine ⟨t, t', result, result', m, m', hrun, hrun', halike, hbatches, hbatches', hkeys, ?_, ?_⟩
  · rw [himported.progress]
    decide +kernel
  · rw [himported.progress]
    decide +kernel

/-- One by one it is imported, and in batches for which there is no room it is not. -/
theorem three_elements_without_room :
    ∃ t t' result result' m m',
      Program.Reaches working
        (cardImport { batchSize := 1, assets := "" } (written threeElements) 1 ⟨1⟩ (.start .cards)) bareServer t
        (.done result) m ∧
      Program.Reaches working
        (cardImport { batchSize := 2 ^ 58, assets := "" } (written threeElements) 2 ⟨2⟩ (.start .cards)) bareServer t'
        (.done result') m' ∧
      result.1 = .ok () ∧ m.catalog.cards.map CardRow.id = ["a"] ∧
      result'.1 = .error (.framing "decoder task failed: task panicked with message \"capacity overflow\"") ∧
      m'.catalog.cards.map CardRow.id = [] := by
  have hcalm : Calm ⟨1⟩ bareServer := by decide
  have hcalm' : Calm ⟨2⟩ bareServer := by decide
  have hroom : HasRoom ({ batchSize := 1, assets := "" } : Setup).batchSize := by decide
  have hroom' : ¬HasRoom ({ batchSize := 2 ^ 58, assets := "" } : Setup).batchSize := by decide
  have hends := applyCards_ends threeElements_read hcalm hroom 1 (.start .cards)
  have hends' := applyCards_without_room threeElements_read hcalm' hroom' 2 (.start .cards)
  obtain ⟨t, result, m, hrun⟩ := hends.always trivial [] _ _ (.start _ _)
  obtain ⟨t', result', m', hrun'⟩ := hends'.always trivial [] _ _ (.start _ _)
  have himported := (hends.reaches hrun).done
  obtain ⟨houtcome, hcards⟩ := (hends'.reaches hrun').done
  have hkeys : m.catalog.cards.map CardRow.id = ["a"] := himported.cards.keys.trans (by decide +kernel)
  have hreason : withoutRoom = .framing "decoder task failed: task panicked with message \"capacity overflow\"" := by
    decide +kernel
  exact ⟨t, t', result, result', m, m', hrun, hrun', himported.outcome, hkeys, houtcome.trans (congrArg _ hreason),
    hcards.keys⟩

end CatalogSync.Import
