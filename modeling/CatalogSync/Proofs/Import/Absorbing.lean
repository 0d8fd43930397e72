import CatalogSync.Proofs.Import.Asks
import CatalogSync.Proofs.Import.Tally
import CatalogSync.Proofs.Program.Path
import CatalogSync.Server.Basic
import Mathlib.Algebra.GroupWithZero.Nat

/-!
# What absorbed batches come to

A run takes a batch, has its records written, sees to the icons of sets and publishes its progress. `Rounds` are such
rounds one after the other, on the side of the questions and answers. What progress tells after a round depends on
nothing but the elements of the batches so far and what failed in them (`Progress.Tells`).

Main statement: `progress_tells_absorbed_batches`.
-/

namespace CatalogSync.Import

open CatalogSync.Catalog CatalogSync.Program

/-! ## Batches and their failures -/

/-- A batch that has been absorbed: its elements, and what failed after their records were written. -/
structure Absorbed where
  items : List Json
  enrichment : List String

/-- What is wrong with the elements that do not read, in the order of the feed. -/
def conversionFailures : Dataset → List Json → List String
  | .cards => faults readCard
  | .sets => faults readSet

/-- All that failed in a batch: the elements that do not read, and then the icons. -/
def Absorbed.messages (dataset : Dataset) (b : Absorbed) : List String :=
  conversionFailures dataset b.items ++ b.enrichment

/-- A message as it is kept. -/
structure Shortened (message kept : String) : Prop where
  whole : message.length ≤ 100 → kept = message
  cut : 100 < message.length → kept = String.ofList (message.toList.take 100) ++ "..."

/-- Progress tells which batches a run has absorbed. -/
structure Progress.Tells (dataset : Dataset) (absorbed : List Absorbed) (p : Progress) : Prop where
  processed : p.processed = (absorbed.map fun b => b.items.length).sum
  outcomes : p.processed = p.succeeded + p.failed
  failed : p.failed =
    (absorbed.map fun b => (conversionFailures dataset b.items).length + b.enrichment.length).sum
  batches : p.batches = absorbed.length
  examples : List.Forall₂ Shortened ((absorbed.flatMap (Absorbed.messages dataset)).take (min 10 p.failed)) p.examples

theorem shortened_truncate (message : String) : Shortened message (truncate message) := by
  unfold truncate maxMessageLength
  dsimp only
  rw [String.length_toList]
  refine ⟨fun hshort => if_pos hshort, fun hlong => ?_⟩
  rw [if_neg (Nat.not_le.2 hlong), String.ofList_append]

/-! ## What is asked in a round -/

/-- What the icons of sets ask, and what of them fails. -/
inductive Enriched (assets : String) (token : Token) : List CardSet → List Event → List String → Prop
  | finished : Enriched assets token [] [] []
  /-- Once the token is cancelled, the sets that remain are left. -/
  | cancelled (s : CardSet) (rest : List CardSet) : Enriched assets token (s :: rest) [⟨.isCancelled token, true⟩] []
  | there {s : CardSet} {rest : List CardSet} {u v : List Event} {failures : List String}
    (icon : Path (ensureIcon assets s) u (.done (.ok ()))) (others : Enriched assets token rest v failures) :
    Enriched assets token (s :: rest) (⟨.isCancelled token, false⟩ :: (u ++ v)) failures
  | missing {s : CardSet} {rest : List CardSet} {u v : List Event} {message : String} {failures : List String}
    (icon : Path (ensureIcon assets s) u (.done (.error message))) (others : Enriched assets token rest v failures) :
    Enriched assets token (s :: rest) (⟨.isCancelled token, false⟩ :: (u ++ v)) (message :: failures)

/-- What a batch asks that is absorbed. -/
inductive Absorbs (assets : String) (token : Token) : Dataset → Absorbed → List Event → Prop
  | cards (items : List Json) (written : Nat) :
    Absorbs assets token .cards ⟨items, []⟩ [⟨.upsertCards (records readCard items), .ok written⟩]
  | sets {items : List Json} {u : List Event} {failures : List String} (written : Nat)
    (icons : Enriched assets token (records readSet items) u failures) :
    Absorbs assets token .sets ⟨items, failures⟩ (⟨.upsertSets (records readSet items), .ok written⟩ :: u)

/-- The rounds of a run: in each a batch is received and applied, and what is published tells all batches so far. -/
inductive Rounds (dataset : Dataset) (assets : String) (token : Token) (decoder : Nat) (job : Int) :
    List Event → List Absorbed → Prop
  | none : Rounds dataset assets token decoder job [] []
  | round {t u : List Event} {absorbed : List Absorbed} {b : Absorbed} {p : Progress} {published : Stored Unit}
    (before : Rounds dataset assets token decoder job t absorbed) (applied : Absorbs assets token dataset b u)
    (tells : p.Tells dataset (absorbed ++ [b])) :
    Rounds dataset assets token decoder job
      (t ++ ⟨.receive decoder token, .batch b.items⟩ :: (u ++ [⟨.publish job p.toJson, published⟩])) (absorbed ++ [b])

/-! ## The store -/

def isUpsert : Ask → Bool
  | .upsertCards _ => true
  | .upsertSets _ => true
  | _ => false

/-- Records are written as the store of the server writes them. -/
def StoreWrites (t : List Event) : Prop :=
  ∀ e ∈ t, isUpsert e.1 = true → ∃ s s' : Server, Server.answer e.1 s = some (e.2, s')

theorem upsert_written {call : Call} {f : Time.Instant → Catalog → Nat × Catalog} {count written : Nat}
    (hf : ∀ now c, (f now c).1 = count) {s s' : Server}
    (h : s.guarded call (Server.upsert f) = (.ok written, s')) : written = count := by
  unfold Server.guarded at h
  split at h
  · cases h
  · unfold Server.upsert at h
    dsimp only at h
    split at h
    · cases h
    · rw [← hf s.clock s.catalog]
      exact (Except.ok.inj (congrArg Prod.fst h)).symm

section Store

variable {t : List Event} (hstore : StoreWrites t) {written : Nat}
include hstore

theorem StoreWrites.cards {cards : List Catalog.Card}
    (hmem : (⟨.upsertCards cards, .ok written⟩ : Event) ∈ t) : written = cards.length := by
  obtain ⟨s, s', hans⟩ := hstore _ hmem rfl
  exact upsert_written (fun _ _ => rfl) (Option.some.inj hans)

theorem StoreWrites.sets {sets : List CardSet}
    (hmem : (⟨.upsertSets sets, .ok written⟩ : Event) ∈ t) : written = sets.length := by
  obtain ⟨s, s', hans⟩ := hstore _ hmem rfl
  exact upsert_written (fun _ _ => rfl) (Option.some.inj hans)

end Store

/-! ## One batch -/

/-- The result of a batch of some size in which these failed. -/
structure BatchResult.Of (size : Nat) (messages : List String) (b : BatchResult) : Prop where
  outcomes : b.succeeded + b.failed = size
  failed : b.failed = messages.length
  examples : b.examples = (messages.map truncate).take maxExamples

/-- Failures of both kinds are counted in their order. -/
theorem of_recordFailures {size written : Nat} {unread failures : List String}
    (hsize : written + unread.length + failures.length = size) :
    ({ BatchResult.empty.recordFailures unread with succeeded := written }.recordFailures failures).Of size
      (unread ++ failures) := by
  have htake := take_messages (unread.map truncate) (failures.map truncate) 0
  rw [recordFailures_eq, recordFailures_eq]
  unfold BatchResult.empty
  refine ⟨?_, ?_, ?_⟩
  · dsimp only
    omega
  · dsimp only
    rw [List.length_append]
    omega
  · rw [Nat.sub_zero, List.take_take] at htake
    rw [List.map_append, ← htake]
    simp

section Batch

variable {assets : String} {token : Token} {t : List Event}

theorem enriched_of_path {sets : List CardSet} {failures : List String}
    (h : Path (ensureIcons assets token sets) t (.done failures)) : Enriched assets token sets t failures := by
  induction sets generalizing t failures with
  | nil =>
    obtain ⟨rfl, hdone⟩ := h.of_done
    cases hdone
    exact .finished
  | cons s rest ih =>
    obtain ⟨cancelled, u, rfl, hset⟩ := Path.of_call_done h
    cases cancelled with
    | true =>
      obtain ⟨rfl, hdone⟩ := hset.of_done
      cases hdone
      exact .cancelled s rest
    | false =>
      obtain ⟨outcome, v, w, rfl, hicon, hrest⟩ := Path.of_bind_done hset
      obtain ⟨others, w, x, rfl, hothers, hend⟩ := Path.of_bind_done hrest
      cases outcome with
      | ok u =>
        obtain ⟨rfl, hdone⟩ := hend.of_done
        cases hdone
        rw [List.append_nil]
        exact .there hicon (ih hothers)
      | error message =>
        obtain ⟨rfl, hdone⟩ := hend.of_done
        cases hdone
        rw [List.append_nil]
        exact .missing hicon (ih hothers)

/-- A batch that is applied is told by what failed in it. -/
theorem absorbs_of_path {dataset : Dataset} {items : List Json} {result : BatchResult} (hstore : StoreWrites t)
    (h : Path (applyBatch dataset assets items token) t (.done (.ok result))) :
    ∃ b : Absorbed, b.items = items ∧ Absorbs assets token dataset b t ∧
      result.Of items.length (b.messages dataset) := by
  cases dataset with
  | cards =>
    unfold applyBatch at h
    rw [readAll_eq readCard] at h
    obtain ⟨answer, u, rfl, hend⟩ := Path.of_call_done h
    cases answer with
    | error e => cases hend
    | ok written =>
      obtain ⟨rfl, hdone⟩ := hend.of_done
      cases hdone
      have hwritten : written = (records readCard items).length := hstore.cards List.mem_cons_self
      refine ⟨⟨items, []⟩, rfl, .cards items written, of_recordFailures ?_⟩
      rw [hwritten]
      exact records_add_faults readCard items
  | sets =>
    unfold applyBatch at h
    rw [readAll_eq readSet] at h
    obtain ⟨answer, u, rfl, hwrite⟩ := Path.of_call_done h
    cases answer with
    | error e => cases hwrite
    | ok written =>
      obtain ⟨failures, u, v, rfl, hicons, hend⟩ := Path.of_bind_done hwrite
      obtain ⟨rfl, hdone⟩ := hend.of_done
      cases hdone
      have hwritten : written = (records readSet items).length := hstore.sets List.mem_cons_self
      have hfew : failures.length ≤ (records readSet items).length :=
        (hicons.all (ensureIcons_all assets token (records readSet items))).2
      rw [List.append_nil]
      refine ⟨⟨items, failures⟩, rfl, .sets written (enriched_of_path hicons), of_recordFailures ?_⟩
      -- an icon that failed has been counted as a record before, and is not any more
      have hsize := records_add_faults readSet items
      change written - failures.length + (faults readSet items).length + failures.length = items.length
      omega

end Batch

/-! ## Round by round -/

/-- Progress is that of the start with absorbed batches added. -/
def Reckons (dataset : Dataset) (p₀ : Progress) (absorbed : List Absorbed) (p : Progress) : Prop :=
  ∃ written, p = p₀.tallied absorbed.length written (absorbed.flatMap (Absorbed.messages dataset)) ∧
    written + (absorbed.flatMap (Absorbed.messages dataset)).length = (absorbed.map fun b => b.items.length).sum

section Reckoning

variable {dataset : Dataset} {p₀ p : Progress} {absorbed : List Absorbed}

theorem reckons_nothing (dataset : Dataset) (p : Progress) : Reckons dataset p [] p := ⟨0, (tallied_zero p).symm, rfl⟩

/-- **One more batch.** -/
theorem Reckons.absorb (h : Reckons dataset p₀ absorbed p) {b : Absorbed} {result : BatchResult}
    (hresult : result.Of b.items.length (b.messages dataset)) :
    Reckons dataset p₀ (absorbed ++ [b]) (p.absorb result) := by
  obtain ⟨written, rfl, hsum⟩ := h
  have houtcomes := hresult.outcomes
  have hfailed := hresult.failed
  have hmessages : (absorbed ++ [b]).flatMap (Absorbed.messages dataset) =
      absorbed.flatMap (Absorbed.messages dataset) ++ b.messages dataset := by
    rw [List.flatMap_append, List.flatMap_singleton]
  refine ⟨written + result.succeeded, ?_, ?_⟩
  · rw [tallied_absorb p₀ absorbed.length written _ hfailed hresult.examples, hmessages, List.length_append,
      List.length_singleton]
  · rw [hmessages, List.length_append, List.map_append, List.sum_append, ← hsum, List.map_singleton,
      List.sum_singleton]
    omega

/-- From a fresh start, progress tells the batches. -/
theorem Reckons.tells (h : Reckons dataset p₀ absorbed p) {phase : Phase} {uri : Option String}
    (hfresh : p₀ = { Progress.start dataset with phase := phase, downloadUri := uri }) : p.Tells dataset absorbed := by
  obtain ⟨written, rfl, hsum⟩ := h
  subst hfresh
  have hfailed : (absorbed.flatMap (Absorbed.messages dataset)).length =
      (absorbed.map fun b => (conversionFailures dataset b.items).length + b.enrichment.length).sum := by
    rw [List.length_flatMap]
    congr 2
    funext b
    exact List.length_append
  unfold Progress.tallied Progress.start
  refine ⟨(Nat.zero_add _).trans hsum, ?_, ?_, Nat.zero_add _, ?_⟩
  · dsimp only
    omega
  · exact (Nat.zero_add _).trans hfailed
  · dsimp only
    rw [Nat.zero_add, ← List.take_eq_take_min, List.nil_append, ← List.map_take]
    exact List.forall₂_map_right_iff.2 (List.forall₂_same.2 fun message _ => shortened_truncate message)

end Reckoning

/-- Nothing is published. -/
def Unpublished (t : List Event) : Prop := ∀ e ∈ t, ∀ id metadata, e.1 ≠ .publish id metadata

theorem applyBatch_unpublished (dataset : Dataset) (assets : String) (items : List Json) (token : Token) :
    (applyBatch dataset assets items token).All (fun q => ∀ id metadata, q ≠ .publish id metadata) fun _ => True := by
  unfold applyBatch
  cases dataset with
  | cards =>
    refine .call (fun _ _ h => by cases h) fun answer => ?_
    cases answer <;> trivial
  | sets =>
    refine .call (fun _ _ h => by cases h) fun answer => ?_
    cases answer with
    | error e => trivial
    | ok written =>
      refine .bind ((ensureIcons_asks assets token _).mono ?_ fun _ _ => trivial) fun _ _ => trivial
      rintro q hq id metadata rfl
      cases hq

theorem unpublished_nil : Unpublished [] := fun _ he => absurd he List.not_mem_nil

theorem Unpublished.received {v : List Event} (h : Unpublished v) (decoder : Nat) (token : Token) (a : Feed.Arrival) :
    Unpublished (⟨.receive decoder token, a⟩ :: v) := by
  intro e he
  rcases List.mem_cons.1 he with rfl | hlater
  · exact fun _ _ h => by cases h
  · exact h e hlater

section Run

variable (setup : Setup) (dataset : Dataset) (job : Int) (token : Token) (decoder : Nat)

/-- After the rounds of `t₀`, the questions and answers `t` are more rounds, then some that publish nothing; and at
the end progress tells the batches of all rounds. -/
def GoesOn (t₀ t : List Event) (r : Program (Staged Unit)) : Prop :=
  ∃ absorbed u v, t = u ++ v ∧ Rounds dataset setup.assets token decoder job (t₀ ++ u) absorbed ∧ Unpublished v ∧
    ∀ outcome p, r = .done (outcome, p) → p.Tells dataset absorbed

variable {setup dataset job token decoder} {p₀ : Progress} {phase : Phase} {uri : Option String}
  (hfresh : p₀ = { Progress.start dataset with phase := phase, downloadUri := uri })
include hfresh

/-- No further round. -/
theorem goesOn_last {p : Progress} {t₀ t : List Event} {absorbed : List Absorbed} {r : Program (Staged Unit)}
    (hbefore : Rounds dataset setup.assets token decoder job t₀ absorbed) (hp : Reckons dataset p₀ absorbed p)
    (ht : Unpublished t) (hr : ∀ outcome p', r = .done (outcome, p') → p' = p) :
    GoesOn setup dataset job token decoder t₀ t r := by
  refine ⟨absorbed, [], t, rfl, by rwa [List.append_nil], ht, fun outcome p' h => ?_⟩
  rw [hr outcome p' h]
  exact hp.tells hfresh

/-- The loop takes round after round; the induction is on how many it may still take. -/
theorem consume_goesOn {rounds : Nat} {p : Progress} {t₀ t : List Event} {absorbed : List Absorbed}
    {r : Program (Staged Unit)} (hbefore : Rounds dataset setup.assets token decoder job t₀ absorbed)
    (hp : Reckons dataset p₀ absorbed p) (hstore : StoreWrites t)
    (hpath : Path (consume setup dataset job token decoder rounds p) t r) :
    GoesOn setup dataset job token decoder t₀ t r := by
  induction rounds generalizing p t₀ t absorbed with
  | zero =>
    obtain ⟨rfl, rfl⟩ := Path.of_done hpath
    exact goesOn_last hfresh hbefore hp unpublished_nil fun _ _ h => by cases h; rfl
  | succ rounds ih =>
    rcases Path.of_call hpath with ⟨rfl, rfl⟩ | ⟨arrival, v, rfl, harrived⟩
    · exact goesOn_last hfresh hbefore hp unpublished_nil fun _ _ h => by cases h
    cases arrival with
    | cancelled =>
      obtain ⟨rfl, rfl⟩ := Path.of_done harrived
      exact goesOn_last hfresh hbefore hp (unpublished_nil.received _ _ _) fun _ _ h => by cases h; rfl
    | closed =>
      obtain ⟨rfl, rfl⟩ := Path.of_done harrived
      exact goesOn_last hfresh hbefore hp (unpublished_nil.received _ _ _) fun _ _ h => by cases h; rfl
    | batch items =>
      have hunpublished {v : List Event} {r : Program (Stored BatchResult)}
          (h : Path (applyBatch dataset setup.assets items token) v r) :
          Unpublished (⟨.receive decoder token, .batch items⟩ :: v) :=
        Unpublished.received (h.all (applyBatch_unpublished dataset setup.assets items token)).1 _ _ _
      rcases Path.of_bind harrived with ⟨q, next, hwaits, rfl⟩ | ⟨result, u, v, rfl, happlied, hrest⟩
      · exact goesOn_last hfresh hbefore hp (hunpublished hwaits) fun _ _ h => by cases h
      cases result with
      | error e =>
        obtain ⟨rfl, rfl⟩ := Path.of_done hrest
        rw [List.append_nil]
        exact goesOn_last hfresh hbefore hp (hunpublished happlied) fun _ _ h => by cases h; rfl
      | ok result =>
        have hstoreBatch : StoreWrites u := fun e he =>
          hstore e (List.mem_cons_of_mem _ (List.mem_append_left v he))
        obtain ⟨b, rfl, hasked, hresult⟩ := absorbs_of_path hstoreBatch happlied
        have hp' := hp.absorb hresult
        change Path (Program.call (.publish job (p.absorb result).toJson) >>= fun _ =>
          consume setup dataset job token decoder rounds (p.absorb result)) v r at hrest
        rcases Path.of_call hrest with ⟨rfl, rfl⟩ | ⟨published, v, rfl, hgoes⟩
        · rw [List.append_nil]
          exact goesOn_last hfresh hbefore hp (hunpublished happlied) fun _ _ h => by cases h
        have hround := @Rounds.round dataset setup.assets token decoder job _ _ _ _ _ published hbefore hasked
          (hp'.tells hfresh)
        have hstoreRest : StoreWrites v := fun e he =>
          hstore e (List.mem_cons_of_mem _ (List.mem_append_right u (List.mem_cons_of_mem _ he)))
        obtain ⟨absorbed, w, x, rfl, hrounds, hnone, hend⟩ := ih hround hp' hstoreRest hgoes
        refine ⟨absorbed, (⟨.receive decoder token, .batch b.items⟩ :: (u ++ [⟨.publish job (p.absorb result).toJson,
          published⟩])) ++ w, x, ?_, ?_, hnone, hend⟩
        · simp
        · rwa [← List.append_assoc]

end Run

/-- **Progress tells the absorbed batches.** A run that takes batches of either dataset, and whose records are written
as the store of the server writes them, goes on round by round, wherever it stands and whatever else is answered. After
each round it publishes, and at its end it gives back, progress that tells all batches absorbed so far: the elements
are those processed, each of them a success or a failure; the failures are those of reading and of enriching; and the
first ten messages are kept in their order, cut to a hundred characters. -/
theorem progress_tells_absorbed_batches (setup : Setup) (dataset : Dataset) (job : Int) (token : Token)
    (decoder rounds : Nat) (phase : Phase) (uri : Option String) (t : List Event) (r : Program (Staged Unit))
    (hstore : StoreWrites t)
    (hpath : Path (consume setup dataset job token decoder rounds
      { Progress.start dataset with phase := phase, downloadUri := uri }) t r) :
    ∃ absorbed u v, t = u ++ v ∧ Rounds dataset setup.assets token decoder job u absorbed ∧ Unpublished v ∧
      ∀ outcome p, r = .done (outcome, p) → p.Tells dataset absorbed :=
  consume_goesOn rfl .none (reckons_nothing dataset _) hstore hpath

/-- A batch of two elements: one is no set, and of the other it is not known where the icon is. -/
theorem unread_set_and_missing_icon :
    let raw : Json := .ofPairs [("code", .text "lea"), ("name", .text "Alpha"), ("icon_svg_uri", .text "u")]
    let s : CardSet := ⟨"lea", "Alpha", none, none, 0, some "u"⟩
    let refused : StoreError := .of (.refused .findSet)
    let p₀ := { Progress.start .sets with phase := .importing, downloadUri := some "v" }
    ∃ absorbed p, p.Tells .sets absorbed ∧ p.processed = 2 ∧ p.succeeded = 0 ∧ p.failed = 2 ∧ p.examples.length = 2 ∧
      Path (consume { assets := "a" } .sets 1 ⟨0⟩ 0 1 p₀)
        [⟨.receive 0 ⟨0⟩, (.batch [.int 7, raw] : Feed.Arrival)⟩, ⟨.upsertSets [s], (.ok 1 : Stored Nat)⟩,
          ⟨.isCancelled ⟨0⟩, false⟩, ⟨.fileExists "a/sets/lea.svg", true⟩,
          ⟨.findSet "lea", (.error refused : Stored (Option StoredSet))⟩,
          ⟨.publish 1 p.toJson, (.ok () : Stored Unit)⟩] (.done (.ok (), p)) := by
  intro raw s refused p₀
  let unread := BatchResult.empty.recordFailures (faults readSet [.int 7, raw])
  let result := { unread with succeeded := 0 }.recordFailures ["set " ++ "lea" ++ ": " ++ refused.message]
  have hrecords : records readSet [.int 7, raw] = [s] := by decide +kernel
  have hbatch : Path (applyBatch .sets "a" [.int 7, raw] ⟨0⟩)
      [⟨.upsertSets [s], (.ok 1 : Stored Nat)⟩, ⟨.isCancelled ⟨0⟩, false⟩, ⟨.fileExists "a/sets/lea.svg", true⟩,
        ⟨.findSet "lea", (.error refused : Stored (Option StoredSet))⟩] (.done (.ok result)) := by
    unfold applyBatch
    rw [readAll_eq readSet, hrecords]
    exact .step (q := .upsertSets _) <| .step (q := .isCancelled _) <| .step (q := .fileExists _) <|
      .step (q := .findSet _) <| .here _
  let t : List Event :=
    [⟨.receive 0 ⟨0⟩, (.batch [.int 7, raw] : Feed.Arrival)⟩, ⟨.upsertSets [s], (.ok 1 : Stored Nat)⟩,
      ⟨.isCancelled ⟨0⟩, false⟩, ⟨.fileExists "a/sets/lea.svg", true⟩,
      ⟨.findSet "lea", (.error refused : Stored (Option StoredSet))⟩,
      ⟨.publish 1 (p₀.absorb result).toJson, (.ok () : Stored Unit)⟩]
  have hpath : Path (consume { assets := "a" } .sets 1 ⟨0⟩ 0 1 p₀) t (.done (.ok (), p₀.absorb result)) :=
    .step (q := .receive _ _) (Path.bind hbatch (.step (q := .publish _ _) (.here _)))
  have hstore : StoreWrites t := by
    intro e he hupsert
    simp only [t, List.mem_cons, List.not_mem_nil, or_false] at he
    rcases he with rfl | rfl | rfl | rfl | rfl | rfl
    · cases hupsert
    · exact ⟨default, _, rfl⟩
    all_goals cases hupsert
  obtain ⟨absorbed, -, -, -, -, -, hend⟩ := progress_tells_absorbed_batches { assets := "a" } .sets 1 ⟨0⟩ 0 1
    .importing (some "v") _ _ hstore hpath
  exact ⟨absorbed, p₀.absorb result, hend _ _ rfl, by decide +kernel, by decide +kernel, by decide +kernel,
    by decide +kernel, hpath⟩

end CatalogSync.Import
