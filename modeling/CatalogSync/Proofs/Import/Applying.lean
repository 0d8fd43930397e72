import CatalogSync.Proofs.Catalog.Landing
import CatalogSync.Proofs.Import.InOrder
import CatalogSync.Proofs.Import.Tally
import CatalogSync.Proofs.Server.Working

/-!
# Applying a feed to its end

On a calm server a feed is applied to its end: all the batches that it delivers, one after the other. `Carries`
says what has to be known of one batch so that something is known of them all. `applyFeed_ends` says it of a
whole feed, with what the decoder's end makes of the result.
-/

namespace CatalogSync.Import

open CatalogSync.Feed CatalogSync.Server CatalogSync.Text

/-- What the end of an undisturbed decoder makes of a run. -/
def concluded : Outcome → Except Failure Unit
  | .ok _ => .ok ()
  | .error fault => .error (decoderFailure false fault)

/-- The questions that the taking of batches needs by itself. -/
def isOfTaking : Ask → Bool
  | .startDecoder _ _ _ => true
  | .receive _ _ => true
  | .join _ => true
  | .isCancelled _ => true
  | .publish _ _ => true
  | _ => false

/-- What is known of the batches so far, the progress, the events, the catalog and the files. -/
abbrev Knowledge := List Batch → Progress → List Event → Catalog → Dict (List UInt8) → Prop

/-- What each batch carries on, and what does not mind the taking of batches. -/
structure Carries (dataset : Dataset) (assets : String) (token : Token) (I : Knowledge) : Prop where
  idle : ∀ {received p t c f} (q : Ask) (a : q.Answer), isOfTaking q = true → I received p t c f →
    I received p (t ++ [⟨q, a⟩]) c f
  batch : ∀ {received p t s} (live : Prop) (items : Batch), Calm token s → I received p t s.catalog s.files →
    (applyBatch dataset assets items token).Ends working live (fun outcome t s =>
      ∃ result, outcome = .ok result ∧ I (received ++ [items]) (p.absorb result) t s.catalog s.files) t s

/-- Two things that each batch carries on it carries on together. -/
theorem Carries.and {dataset : Dataset} {assets : String} {token : Token} {I J : Knowledge}
    (hI : Carries dataset assets token I) (hJ : Carries dataset assets token J) :
    Carries dataset assets token fun received p t c f => I received p t c f ∧ J received p t c f where
  idle q a hq h := ⟨hI.idle q a hq h.1, hJ.idle q a hq h.2⟩
  batch live items hcalm h := by
    refine ((hI.batch live items hcalm h.1).and (hJ.batch live items hcalm h.2)).mono ?_
    rintro outcome t s ⟨⟨result, rfl, hI⟩, result', houtcome, hJ⟩
    cases houtcome
    exact ⟨result, rfl, hI, hJ⟩

theorem stirs_same {s s' : Server} (h : Stirs s s') : s'.catalog = s.catalog ∧ s'.files = s.files := by
  cases h with
  | work | cutOff => exact ⟨rfl, rfl⟩
  | elsewhere helse => exact ⟨helse.catalog, helse.files⟩

/-- What lasts by itself lasts together with what is known of the catalog and the files. -/
theorem stirs_beside {Q : Server → Prop} {R : Catalog → Dict (List UInt8) → Prop}
    (hQ : ∀ s s', Q s → Stirs s s' → Q s') (s s' : Server) (h : Q s ∧ R s.catalog s.files) (hstir : Stirs s s') :
    Q s' ∧ R s'.catalog s'.files := by
  obtain ⟨hcatalog, hfiles⟩ := stirs_same hstir
  rw [hcatalog, hfiles]
  exact ⟨hQ s s' h.1 hstir, h.2⟩

theorem answers_publish {s s' : Server} {job : Int} {metadata : Json} {a : Stored Unit}
    (h : Answers s (.publish job metadata) a s') : s'.catalog = s.catalog ∧ s'.files = s.files := by
  have hans : some (s.guarded .publish fun s => changeLedger (fun now => Ledger.publish now job metadata)
      { s with published := metadata :: s.published }) = some (a, s') := h
  unfold guarded at hans
  split at hans <;> cases hans <;> exact ⟨rfl, rfl⟩

/-- A batch is applied without a question to its decoder. -/
theorem applyBatch_leaves (dataset : Dataset) (assets : String) (items : Batch) (token : Token) :
    (applyBatch dataset assets items token).All (fun q => leavesDecoders q = true) fun _ => True := by
  cases dataset with
  | cards =>
    refine .call rfl fun answer => ?_
    cases answer <;> trivial
  | sets =>
    refine .call rfl fun answer => ?_
    cases answer with
    | error e => trivial
    | ok written =>
      refine .bind ((ensureIcons_asks assets token _).mono (fun q hq => ?_) fun _ h => h) fun _ _ => .pure trivial
      cases q <;> first | rfl | cases hq

section Taking

variable {setup : Setup} {dataset : Dataset} {source : Source} {size id : Nat} {token : Token} {live : Prop}
  {received : List Batch} {p : Progress} {t : List Event} {s : Server} {I : Knowledge}

/-- While batches are taken. -/
def Taking (I : Knowledge) (source : Source) (size : Nat) (token : Token) (id : Nat) (received : List Batch)
    (p : Progress) (t : List Event) (s : Server) : Prop :=
  Feeding source size received token id s ∧ I received p t s.catalog s.files

theorem Taking.stirs {s' : Server} (h : Taking I source size token id received p t s) (hstir : Stirs s s') :
    Taking I source size token id received p t s' :=
  stirs_beside (fun _ _ h => h.stirs fun _ => feeding_works) s s' h hstir

theorem publish_ends (hI : Carries dataset setup.assets token I)
    (h : Taking I source size token id received p t s) (job : Int) (q : Progress) :
    (publish job q).Ends working live (fun _ t s => Taking I source size token id received p t s) t s := by
  refine Program.Ends.call _ h (fun _ _ h => h.stirs) (fun _ m _ => ?_) fun m a m' h hans => ?_
  · obtain ⟨a, m', hans⟩ := answered (q := .publish job q.toJson) rfl m
    exact ⟨m, a, m', .refl m, hans⟩
  · have hanswers : Answers m (.publish job q.toJson) a m' := hans
    obtain ⟨hcatalog, hfiles⟩ := answers_publish hanswers
    have hnext : Taking I source size token id received p (t ++ [⟨.publish job q.toJson, a⟩]) m' := by
      refine ⟨h.1.answers rfl hanswers, ?_⟩
      rw [hcatalog, hfiles]
      exact hI.idle _ _ rfl h.2
    exact Program.Ends.pure _ hnext (fun _ _ h => h.stirs) fun _ h => h

/-- What the taking of batches comes to. -/
def Taken (I : Knowledge) (source : Source) (size : Nat) (token : Token) (id : Nat) (result : Staged Unit)
    (t : List Event) (s : Server) : Prop :=
  result.1 = .ok () ∧
    ∃ received, Drained source size received token id s ∧ I received result.2 t s.catalog s.files

/-- **Taking batches**, by induction on the rounds that are left: each of them takes a batch, so that they
last until there is no more to come. -/
theorem consume_ends (hI : Carries dataset setup.assets token I) (hlive : live → Flows source size)
    {rounds : Nat} (h : Taking I source size token id received p t s)
    (hrounds : (deliver source size false).1.length < received.length + rounds) (job : Int) :
    (consume setup dataset job token id rounds p).Ends working live (Taken I source size token id) t s := by
  induction rounds generalizing received p t s with
  | zero =>
    -- no more has been received than is delivered in all, so there are rounds left
    obtain ⟨e, -, hundisturbed⟩ := h.1.exchange
    have hlen := hundisturbed.received_first.length_le
    omega
  | succ rounds ih =>
    refine Program.Ends.call _ h (fun _ _ h => h.stirs) (fun hl m h => h.1.arrives (hlive hl)) ?_
    intro m arrival m' h hans
    rcases h.1.taken hans with ⟨items, rfl, hfeeding, hcatalog, hfiles⟩ | ⟨rfl, hdrained, rfl⟩
    · have hnext : I received p (t ++ [⟨.receive id token, .batch items⟩]) m'.catalog m'.files := by
        rw [hcatalog, hfiles]
        exact hI.idle _ _ rfl h.2
      -- the batch leaves its decoder alone, which goes on beside it
      have hbatch := (hI.batch live items hfeeding.calm hnext).frame (applyBatch_leaves ..)
        (Feeding source size (received ++ [items]) token id) (fun _ _ h => h.stirs fun _ => feeding_works)
        (fun q hq _ _ _ h hans => h.answers hq hans) hfeeding
      refine hbatch.bind ?_
      rintro outcome u n ⟨⟨result, rfl, happlied⟩, hfeeding⟩
      refine (publish_ends hI ⟨hfeeding, happlied⟩ job _).bind fun _ u n h => ih h ?_
      rw [List.length_append, List.length_singleton]
      omega
    · have hclosed : I received p (t ++ [⟨.receive id token, .closed⟩]) m'.catalog m'.files := hI.idle _ _ rfl h.2
      refine Program.Ends.pure (fun s => Drained source size received token id s ∧
        I received p (t ++ [⟨.receive id token, .closed⟩]) s.catalog s.files) ⟨hdrained, hclosed⟩
        (stirs_beside fun _ _ h => h.stirs fun _ => drained_works) ?_
      rintro n ⟨hdrained, hI⟩
      exact ⟨rfl, received, hdrained, hI⟩

end Taking

/-! ## A whole feed -/

/-- What a whole feed comes to: what is known once all its batches are applied, and the result that its decoder's end makes. -/
def Concluded (I : Knowledge) (source : Source) (size : Nat) (result : Staged Unit) (t : List Event) (s : Server) : Prop :=
  ∃ batches outcome, deliver source size false = (batches, some outcome) ∧ result.1 = concluded outcome ∧
    I batches result.2 t s.catalog s.files

section Whole

variable {setup : Setup} {dataset : Dataset} {source : Source} {token : Token} {live : Prop} {p : Progress}
  {s : Server} {I : Knowledge}

/-- What has come of a feed does not change any more. -/
theorem concluded_ends {size : Nat} {result : Staged Unit} {t : List Event} (h : Concluded I source size result t s) :
    (pure result : Program (Staged Unit)).Ends working live (Concluded I source size) t s := by
  refine Program.Ends.pure (Concluded I source size result t) h (fun m m' h hstir => ?_) fun _ h => h
  obtain ⟨hcatalog, hfiles⟩ := stirs_same hstir
  unfold Concluded
  rw [hcatalog, hfiles]
  exact h

/-- **A whole feed** is applied on a calm server; it comes to its end unless its decoder waits. -/
theorem applyFeed_ends_of_flows (hI : Carries dataset setup.assets token I)
    (hlive : live → Flows source setup.batchSize) (hcalm : Calm token s) (h : I [] p [] s.catalog s.files) (job : Int) :
    (applyFeed setup dataset source job token p).Ends working live (Concluded I source setup.batchSize) [] s := by
  refine Program.Ends.call (fun m => Calm token m ∧ I [] p [] m.catalog m.files) ⟨hcalm, h⟩
    (stirs_beside fun _ _ h => h.stirs) ?_ ?_
  · exact fun _ m _ => ⟨m, _, _, .refl m, rfl⟩
  · rintro m id m' ⟨hcalm, h⟩ hans
    obtain ⟨hfeeding, hcatalog, hfiles⟩ := hcalm.started hans
    have hstart : Taking I source setup.batchSize token id [] p ([] ++ [⟨.startDecoder source setup.batchSize token, id⟩])
        m' := by
      refine ⟨hfeeding, ?_⟩
      rw [hcatalog, hfiles]
      exact hI.idle _ _ rfl h
    have hrounds : (deliver source setup.batchSize false).1.length <
        ([] : List Batch).length + (source.bytes.length + 1) := by
      have hlen := deliver_length source setup.batchSize
      rw [List.length_nil]
      omega
    refine (consume_ends hI hlive hstart hrounds job).bind ?_
    rintro ⟨outcome, p'⟩ t n ⟨hok, received, hdrained, happlied⟩
    dsimp only at hok happlied
    subst hok
    refine Program.Ends.call (fun m => Drained source setup.batchSize received token id m ∧
      I received p' t m.catalog m.files) ⟨hdrained, happlied⟩
      (stirs_beside fun _ _ h => h.stirs fun _ => drained_works) ?_ ?_
    · exact fun hl m h => h.1.joins (hlive hl)
    · rintro n outcome n' ⟨hdrained, happlied⟩ hans
      obtain ⟨hdeliver, rfl⟩ := hdrained.joined hans
      have hjoined : I received p' (t ++ [⟨.join id, outcome⟩]) n'.catalog n'.files := hI.idle _ _ rfl happlied
      cases outcome with
      | ok count => exact concluded_ends ⟨received, _, hdeliver, rfl, hjoined⟩
      | error fault =>
        refine Program.Ends.call (fun m => Calm token m ∧
          I received p' (t ++ [⟨.join id, .error fault⟩]) m.catalog m.files) ⟨hdrained.calm, hjoined⟩
          (stirs_beside fun _ _ h => h.stirs) ?_ ?_
        · exact fun _ m _ => ⟨m, _, _, .refl m, rfl⟩
        · rintro m cancelled m' ⟨hcalm, h⟩ hans
          have hanswer : some (m.isCancelled token, m) = some (cancelled, m') := hans
          rw [hcalm.isCancelled] at hanswer
          cases hanswer
          exact concluded_ends ⟨received, _, hdeliver, rfl, hI.idle _ _ rfl h⟩

/-- A feed that does not stall comes to its end. -/
theorem applyFeed_ends (hI : Carries dataset setup.assets token I) (hlive : live → source.ending ≠ .stalled)
    (hcalm : Calm token s) (h : I [] p [] s.catalog s.files) (job : Int) :
    (applyFeed setup dataset source job token p).Ends working live (Concluded I source setup.batchSize) [] s :=
  applyFeed_ends_of_flows hI (fun hl => flows_of_ending (hlive hl)) hcalm h job

end Whole

/-! ## Cards -/

/-- What is known of a feed of cards, applied to a catalog. -/
def CardsApplied (p₀ : Progress) (c₀ : Catalog) : Knowledge := fun received p _ c _ =>
  p = p₀.tallied received.length (records readCard received.flatten).length (faults readCard received.flatten) ∧
    Store.Landed Catalog.cardShape c₀.cards (records readCard received.flatten) c.cards ∧ c.sets = c₀.sets

theorem cards_carried (p₀ : Progress) (c₀ : Catalog) (assets : String) (token : Token) :
    Carries .cards assets token (CardsApplied p₀ c₀) where
  idle _ _ _ h := h
  batch {received p t s} live items hcalm h := by
    have hread := readAll_eq readCard items
    unfold applyBatch
    rw [hread]
    refine Program.Ends.call (fun m => Calm token m ∧ CardsApplied p₀ c₀ received p t m.catalog m.files) ⟨hcalm, h⟩
      (stirs_beside fun _ _ h => h.stirs) (fun _ m _ => ⟨m, _, _, .refl m, rfl⟩) ?_
    rintro m answer m' ⟨hcalm, hp, hlanded, hsets⟩ hans
    have hanswer : some (m.guarded .upsert (upsert fun now => Catalog.upsertCards now (records readCard items))) =
        some (answer, m') := hans
    rw [hcalm.upsert] at hanswer
    cases hanswer
    have hnext := hlanded.append (Catalog.upsertCards_landed m.clock (records readCard items) m.catalog)
    rw [← records_append] at hnext
    refine Program.Ends.pure (fun s => True ∧ CardsApplied p₀ c₀ (received ++ [items])
      (p.absorb (batchResult readCard items)) t s.catalog s.files) ⟨trivial, ?_, ?_, hsets⟩
      (stirs_beside fun _ _ _ _ => trivial) fun m h => ⟨_, rfl, h.2⟩
    · rw [hp, absorb_tallied, List.length_append, List.length_singleton, List.flatten_append, List.flatten_singleton,
        records_append, faults_append, List.length_append]
    · rw [List.flatten_append, List.flatten_singleton]
      exact hnext

end CatalogSync.Import
