import CatalogSync.Proofs.Feed.Floor
import CatalogSync.Proofs.Feed.Written
import CatalogSync.Proofs.Import.Asks

/-!
# Batches are applied in order

A run of `applyFeed` asks the catalog to write batches while the decoder works, somebody may cancel and
reads, the text or an upsert may fail. `upserts` are the calls that it has made, and `InOrder` says that
they are for the first batches of the feed, in order and each once, all of which succeeded but the last.

Main statement: `feed_applied_in_order`.
-/

namespace CatalogSync.Import

open CatalogSync.Catalog CatalogSync.Feed CatalogSync.Feed.Floor

/-! ## Upserts -/

def upsertOf (dataset : Dataset) (items : Batch) : Ask :=
  match dataset with
  | .cards => .upsertCards (readAll readCard items).1
  | .sets => .upsertSets (readAll readSet items).1

/-- The upsert that an event is, and whether it succeeded. -/
def upsert? : Event → Option (Ask × Bool)
  | ⟨.upsertCards cards, answer⟩ => some (.upsertCards cards, Except.isOk (answer : Stored Nat))
  | ⟨.upsertSets sets, answer⟩ => some (.upsertSets sets, Except.isOk (answer : Stored Nat))
  | _ => none

def upserts (t : List Event) : List (Ask × Bool) := t.filterMap upsert?

/-- The upserts of batches that all succeed. -/
def applied (dataset : Dataset) (batches : List Batch) : List (Ask × Bool) :=
  batches.map fun items => (upsertOf dataset items, true)

/-- The upserts are those of the first `j` batches, which succeeded, and then perhaps that of the next batch,
which failed. -/
def InOrder (dataset : Dataset) (batches : List Batch) (j : Nat) (t : List Event) : Prop :=
  j ≤ batches.length ∧
    (upserts t = applied dataset (batches.take j) ∨
      ∃ items, batches[j]? = some items ∧
        upserts t = applied dataset (batches.take j) ++ [(upsertOf dataset items, false)])

/-- Questions that bear on a feed or on what is written of it. -/
def bearsOnFeed : Ask → Bool
  | .upsertCards _ => true
  | .upsertSets _ => true
  | .startDecoder _ _ _ => true
  | .receive _ _ => true
  | .join _ => true
  | .abandon _ => true
  | _ => false

/-- A program that has no part in the feed. -/
abbrev Aside {α : Type} (p : Program α) : Prop := p.All (fun q => bearsOnFeed q = false) fun _ => True

theorem upserts_snoc (t : List Event) (e : Event) : upserts (t ++ [e]) = upserts t ++ (upsert? e).toList := by
  unfold upserts
  rw [List.filterMap_append]
  cases h : upsert? e <;> simp [h]

theorem upserts_idle {q : Ask} (h : bearsOnFeed q = false) (t : List Event) (a : q.Answer) :
    upserts (t ++ [⟨q, a⟩]) = upserts t := by
  rw [upserts_snoc]
  cases q <;> simp [bearsOnFeed] at h <;> simp [upsert?]

theorem answers_idle {q : Ask} (h : bearsOnFeed q = false) {s s' : Floor} {a : q.Answer} (hans : Answers s q a s') :
    s' = s := by
  cases q <;> simp [bearsOnFeed] at h <;> first | exact hans | exact hans.2

theorem applied_snoc (dataset : Dataset) (batches : List Batch) (items : Batch) :
    applied dataset (batches ++ [items]) = applied dataset batches ++ [(upsertOf dataset items, true)] := by
  unfold applied
  rw [List.map_append]
  rfl

/-! ## While batches are taken -/

section Taking

variable {dataset : Dataset} {source : Source} {size id : Nat} {received : List Batch} {items : Batch}
  {t : List Event} {s s' : Floor}

/-- At all times the upserts are in order. -/
abbrev Law (dataset : Dataset) (source : Source) (size : Nat) (t : List Event) (_ : Floor) : Prop :=
  ∃ j, InOrder dataset (deliver source size false).1 j t

/-- All that has been received is applied, but for `rest`. -/
def Applied (dataset : Dataset) (source : Source) (size id : Nat) (received rest : List Batch) (t : List Event)
    (s : Floor) : Prop :=
  upserts t = applied dataset received ∧ Tracking source size id (received ++ rest) s

theorem Applied.stirs {rest : List Batch} (h : Applied dataset source size id received rest t s) (hstir : Stirs s s') :
    Applied dataset source size id received rest t s' := ⟨h.1, h.2.stirs hstir⟩

/-- What has been received comes first in what is delivered. -/
theorem Tracking.received_first (h : Tracking source size id received s) :
    received <+: (deliver source size false).1 := by
  obtain ⟨d, -, htracks⟩ := h
  exact htracks.received_first

theorem Applied.received_first {rest : List Batch} (h : Applied dataset source size id received rest t s) :
    received <+: (deliver source size false).1 :=
  (List.prefix_append received rest).trans (Tracking.received_first h.2)

theorem inOrder_of_first {batches : List Batch} (h : upserts t = applied dataset received)
    (hfirst : received <+: batches) : InOrder dataset batches received.length t := by
  refine ⟨hfirst.length_le, .inl ?_⟩
  rw [h, ← List.prefix_iff_eq_take.mp hfirst]

theorem Applied.inOrder {rest : List Batch} (h : Applied dataset source size id received rest t s) :
    InOrder dataset (deliver source size false).1 received.length t :=
  inOrder_of_first h.1 h.received_first

/-- The upsert of the batch that was received last has failed. -/
theorem Applied.inOrder_of_failed (h : Applied dataset source size id received [items] t s) {u : List Event}
    (hu : upserts u = upserts t ++ [(upsertOf dataset items, false)]) :
    InOrder dataset (deliver source size false).1 received.length u := by
  obtain ⟨later, hall⟩ := Tracking.received_first h.2
  rw [← hall, List.append_assoc]
  refine ⟨by simp, .inr ⟨items, by simp, ?_⟩⟩
  rw [List.take_left, hu, h.1]

/-- The upsert of the batch that was received last has succeeded. -/
theorem Applied.snoc (h : Applied dataset source size id received [items] t s) {u : List Event}
    (hu : upserts u = upserts t ++ [(upsertOf dataset items, true)]) :
    Applied dataset source size id (received ++ [items]) [] u s := by
  refine ⟨?_, by rw [List.append_nil]; exact h.2⟩
  rw [hu, h.1, applied_snoc]

theorem Applied.idle {rest : List Batch} (h : Applied dataset source size id received rest t s) {q : Ask}
    (hq : bearsOnFeed q = false) {a : q.Answer} (hans : Answers s q a s') :
    Applied dataset source size id received rest (t ++ [⟨q, a⟩]) s' := by
  rw [answers_idle hq hans]
  exact ⟨by rw [upserts_idle hq]; exact h.1, h.2⟩

/-- A program that has no part in the feed. -/
theorem aside_safe {α : Type} {rest : List Batch} {p : Program α} (hp : Aside p)
    (h : Applied dataset source size id received rest t s) :
    p.Safe world (Law dataset source size)
      (fun _ t s => Applied dataset source size id received rest t s) t s := by
  refine Program.Safe.mono (hp.safe (Applied dataset source size id received rest) ?_ ?_ ?_ h) fun _ _ _ hdone => hdone.2
  · intro t s s' happlied hstir
    exact happlied.stirs hstir
  · intro q hq t s a s' happlied hans
    exact happlied.idle hq hans
  · intro t s happlied
    exact ⟨_, happlied.inOrder⟩

theorem ensureIcons_aside (assets : String) (token : Token) (sets : List CardSet) :
    Aside (ensureIcons assets token sets) :=
  (ensureIcons_asks assets token sets).mono (fun q hq => by cases q <;> first | rfl | exact Bool.noConfusion hq)
    fun _ _ => trivial

/-- What the end of one batch says: whether its upsert, the only one, has succeeded. -/
def BatchEnded (dataset : Dataset) (source : Source) (size id : Nat) (received : List Batch) (items : Batch)
    (outcome : Stored BatchResult) (t : List Event) (s : Floor) : Prop :=
  match outcome with
  | .error _ => InOrder dataset (deliver source size false).1 received.length t
  | .ok _ => Applied dataset source size id (received ++ [items]) [] t s

/-- The end of one batch, where the upsert came out like the batch. -/
theorem batchEnded_safe (h : Applied dataset source size id received [items] t s) {outcome : Stored BatchResult}
    {u : List Event} (hu : upserts u = upserts t ++ [(upsertOf dataset items, outcome.isOk)]) :
    Program.Safe world (Law dataset source size) (BatchEnded dataset source size id received items) (pure outcome) u s := by
  cases outcome with
  | error e =>
    have horder := h.inOrder_of_failed hu
    exact Program.Safe.pure (fun _ => True) trivial (fun _ _ _ _ => trivial) fun _ _ => ⟨⟨_, horder⟩, horder⟩
  | ok result =>
    refine Program.Safe.pure _ (h.snoc hu) (fun _ _ happlied hstir => happlied.stirs hstir) ?_
    intro m happlied
    exact ⟨⟨_, happlied.inOrder⟩, happlied⟩

/-- **One batch.** Its upsert is the only one, and what comes of the batch says whether it succeeded. -/
theorem applyBatch_safe (h : Applied dataset source size id received [items] t s) (assets : String) (token : Token) :
    (applyBatch dataset assets items token).Safe world (Law dataset source size)
      (BatchEnded dataset source size id received items) t s := by
  have hlasts : ∀ s s', Applied dataset source size id received [items] t s → Stirs s s' →
      Applied dataset source size id received [items] t s' := fun _ _ happlied hstir => happlied.stirs hstir
  have hlaw : ∀ s, Applied dataset source size id received [items] t s → Law dataset source size t s :=
    fun _ happlied => ⟨_, happlied.inOrder⟩
  cases dataset with
  | cards =>
    refine Program.Safe.call _ h hlasts hlaw ?_
    intro s answer s' happlied hans
    obtain rfl : s' = s := hans
    have hup : upserts (t ++ [⟨.upsertCards (readAll readCard items).1, answer⟩]) =
        upserts t ++ [(upsertOf .cards items, Except.isOk (answer : Stored Nat))] := upserts_snoc _ _
    cases answer with
    | error e => exact batchEnded_safe happlied hup
    | ok written => exact batchEnded_safe happlied hup
  | sets =>
    refine Program.Safe.call _ h hlasts hlaw ?_
    intro s answer s' happlied hans
    obtain rfl : s' = s := hans
    have hup : upserts (t ++ [⟨.upsertSets (readAll readSet items).1, answer⟩]) =
        upserts t ++ [(upsertOf .sets items, Except.isOk (answer : Stored Nat))] := upserts_snoc _ _
    cases answer with
    | error e => exact batchEnded_safe happlied hup
    | ok written =>
      refine (aside_safe (ensureIcons_aside assets token _) (happlied.snoc hup)).bind ?_
      intro failures u m happlied
      refine Program.Safe.pure _ happlied (fun _ _ happlied hstir => happlied.stirs hstir) ?_
      intro m happlied
      exact ⟨⟨_, happlied.inOrder⟩, happlied⟩

theorem publish_aside (job : Int) (p : Progress) : Aside (publish job p) := .call rfl fun _ => .pure trivial

/-- The end of a program after which nothing more is applied. -/
theorem stop_safe {α : Type} {j : Nat} {post : α → List Event → Floor → Prop} {a : α}
    (h : InOrder dataset (deliver source size false).1 j t) (hpost : ∀ s, post a t s) :
    Program.Safe world (Law dataset source size) post (pure a) t s :=
  Program.Safe.pure (fun _ => True) trivial (fun _ _ _ _ => trivial) fun m _ => ⟨⟨j, h⟩, hpost m⟩

/-- What the end of a part of a run says, where `before` batches had been counted: the upserts are in order
and counted, and a part that is content has applied all that its decoder sent before it hung up. -/
def Counted (dataset : Dataset) (source : Source) (size id before : Nat) (result : Staged Unit) (t : List Event)
    (s : Floor) : Prop :=
  match result.1 with
  | .error _ => ∃ j, InOrder dataset (deliver source size false).1 j t ∧ result.2.batches = before + j
  | .ok () => ∃ received, upserts t = applied dataset received ∧ Drained source size id received s ∧
      result.2.batches = before + received.length

/-- **Taking batches**, by induction on the rounds that are left: each of them takes a batch, so that they
last until the channel closes. -/
theorem consume_safe {rounds before : Nat} {p : Progress} (h : Applied dataset source size id received [] t s)
    (hp : p.batches = before + received.length)
    (hrounds : (deliver source size false).1.length < received.length + rounds) (setup : Setup) (job : Int)
    (token : Token) :
    (consume setup dataset job token id rounds p).Safe world (Law dataset source size)
      (Counted dataset source size id before) t s := by
  induction rounds generalizing received p t s with
  | zero =>
    have hlen := h.inOrder.1
    omega
  | succ rounds ih =>
    refine Program.Safe.call _ h (fun _ _ happlied hstir => happlied.stirs hstir)
      (fun _ happlied => ⟨_, happlied.inOrder⟩) ?_
    intro s arrival s' happlied hans
    have hidle : upserts (t ++ [⟨.receive id token, arrival⟩]) = upserts t := by
      rw [upserts_snoc]
      exact List.append_nil _
    cases arrival with
    | cancelled =>
      obtain rfl : s' = s := hans.2
      have horder := inOrder_of_first (hidle.trans happlied.1) h.received_first
      exact stop_safe horder fun m => ⟨_, horder, hp⟩
    | closed =>
      obtain ⟨d, hd, hqueue, hhung, rfl⟩ := hans
      have hdrained : Drained source size id received s' := by
        obtain ⟨d', hd', htracks⟩ := happlied.2
        rw [hd] at hd'
        cases hd'
        rw [List.append_nil] at htracks
        exact ⟨d, hd, htracks, hqueue, hhung⟩
      refine Program.Safe.pure _ hdrained (fun _ _ hdrained hstir => hdrained.stirs hstir) fun m hdrained => ?_
      have hall : upserts (t ++ [⟨.receive id token, .closed⟩]) = applied dataset received := hidle.trans happlied.1
      exact ⟨⟨_, inOrder_of_first hall h.received_first⟩, received, hall, hdrained, hp⟩
    | batch items =>
      obtain ⟨d, e, hd, htake, rfl⟩ := hans
      have hnext : Applied dataset source size id received [items] (t ++ [⟨.receive id token, .batch items⟩])
          (s.put id { d with exchange := e }) := by
        obtain ⟨d', hd', htracks⟩ := happlied.2
        rw [hd] at hd'
        cases hd'
        rw [List.append_nil] at htracks
        exact ⟨hidle.trans happlied.1, _, put_same _ _ _, htracks.take htake⟩
      refine (applyBatch_safe hnext setup.assets token).bind ?_
      intro outcome u m hdone
      cases outcome with
      | error failure => exact stop_safe hdone fun m => ⟨_, hdone, hp⟩
      | ok result =>
        refine (aside_safe (publish_aside job (p.absorb result)) hdone).bind fun _ u m happlied => ?_
        refine ih happlied ?_ ?_
        · rw [List.length_append, List.length_singleton, ← Nat.add_assoc, ← hp]
          rfl
        · rw [List.length_append, List.length_singleton]
          omega

end Taking

/-! ## The whole feed -/

/-- What a run of `applyFeed` has come to: the upserts are in order and counted, and a run that is content
has applied every batch of a feed that is one array. -/
def Accounted (dataset : Dataset) (source : Source) (size before : Nat) (result : Staged Unit) (t : List Event)
    (_ : Floor) : Prop :=
  ∃ j, InOrder dataset (deliver source size false).1 j t ∧ result.2.batches = before + j ∧
    (result.1 = .ok () → upserts t = applied dataset (deliver source size false).1 ∧ source.ending = .closed ∧
      ∃ items, Json.readWithin Json.depthLimit source.bytes = .ok (.array items) ∧
        (deliver source size false).1.flatten = items)

/-- There are no more batches than bytes. -/
theorem deliver_length (source : Source) (size : Nat) : (deliver source size false).1.length ≤ source.bytes.length := by
  obtain ⟨d, hruns, -, -⟩ := deliver_runs source size
  have hleft := hruns.left (start_enough source)
  have hstart : (Decoder.start source).batchesLeft = source.bytes.length := rfl
  omega

/-- A question after which nothing more is applied. -/
theorem last_call_safe {α : Type} {size j : Nat} {q : Ask} {f : q.Answer → Program α}
    {post : α → List Event → Floor → Prop} {t : List Event} {s : Floor} {dataset : Dataset} {source : Source}
    (h : InOrder dataset (deliver source size false).1 j t)
    (hf : ∀ a s, Program.Safe world (Law dataset source size) post (f a) (t ++ [⟨q, a⟩]) s) :
    Program.Safe world (Law dataset source size) post (Program.call q >>= f) t s :=
  Program.Safe.call (fun _ => True) trivial (fun _ _ _ _ => trivial) (fun _ _ => ⟨j, h⟩) fun _ a m _ _ => hf a m

theorem InOrder.idle {dataset : Dataset} {batches : List Batch} {j : Nat} {t : List Event}
    (h : InOrder dataset batches j t) {e : Event} (he : upsert? e = none) : InOrder dataset batches j (t ++ [e]) := by
  have hsame : upserts (t ++ [e]) = upserts t := by
    rw [upserts_snoc, he]
    exact List.append_nil _
  unfold InOrder at h ⊢
  rwa [hsame]

theorem applyFeed_safe (setup : Setup) (dataset : Dataset) (source : Source) (job : Int) (token : Token) (p : Progress)
    (s : Floor) :
    (applyFeed setup dataset source job token p).Safe world (Law dataset source setup.batchSize)
      (Accounted dataset source setup.batchSize p.batches) [] s := by
  have hnone : InOrder dataset (deliver source setup.batchSize false).1 0 [] := ⟨Nat.zero_le _, .inl rfl⟩
  refine Program.Safe.call (fun _ => True) trivial (fun _ _ _ _ => trivial) (fun _ _ => ⟨0, hnone⟩) ?_
  rintro s id s' - ⟨-, rfl⟩
  have hstart : Applied dataset source setup.batchSize id [] [] ([] ++ [⟨.startDecoder source setup.batchSize token, id⟩])
      (s.put id ⟨token, Exchange.start source setup.batchSize⟩) := ⟨rfl, _, put_same _ _ _, start_tracks _ _⟩
  have hrounds : (deliver source setup.batchSize false).1.length < ([] : List Batch).length + (source.bytes.length + 1) := by
    have := deliver_length source setup.batchSize
    rw [List.length_nil]
    omega
  refine (consume_safe hstart (Nat.add_zero _).symm hrounds setup job token).bind ?_
  rintro ⟨outcome, p'⟩ t m hcounted
  cases outcome with
  | error e =>
    obtain ⟨j, horder, hbatches⟩ := hcounted
    refine last_call_safe horder fun u m => ?_
    have hlast := horder.idle (e := ⟨.abandon id, u⟩) rfl
    exact stop_safe hlast fun m => ⟨j, hlast, hbatches, fun hno => nomatch hno⟩
  | ok u =>
    obtain ⟨received, hall, hdrained, hbatches⟩ := hcounted
    have hfirst : ∀ {m}, Drained source setup.batchSize id received m →
        received <+: (deliver source setup.batchSize false).1 := fun ⟨_, _, htracks, _⟩ => htracks.received_first
    have horder := inOrder_of_first hall (hfirst hdrained)
    refine Program.Safe.call _ hdrained (fun _ _ hdrained hstir => hdrained.stirs hstir) (fun _ _ => ⟨_, horder⟩) ?_
    rintro m answer m' hdrained ⟨⟨d, hd, hjoin⟩, rfl⟩
    have hjoined := horder.idle (e := ⟨.join id, answer⟩) rfl
    cases answer with
    | ok n =>
      have hdeliver := hdrained.received_of_join hd hjoin
      obtain ⟨hclosed, items, hdoc, hflatten⟩ := ok_of_deliver hdeliver
      refine stop_safe hjoined fun m => ⟨received.length, hjoined, hbatches, fun _ => ⟨?_, hclosed, items, hdoc, ?_⟩⟩
      · rw [hdeliver, upserts_snoc, hall]
        exact List.append_nil _
      · rw [hdeliver]
        exact hflatten
    | error fault =>
      refine last_call_safe hjoined fun cancelled m => ?_
      have hlast := hjoined.idle (e := ⟨.isCancelled token, cancelled⟩) rfl
      exact stop_safe hlast fun m => ⟨_, hlast, hbatches, fun hno => nomatch hno⟩

/-- **Batches are applied in order.** Take any run of `applyFeed`, ended or not, beside its decoder and
somebody who may cancel at any time, on any feed. The upserts it has made are for the first batches of
the feed, in order and each once; all of them have succeeded but perhaps the last. A run that has ended
has counted those that succeeded. If it is content, these are all the batches, and they hold the elements
of the array that the feed is, every one of them once and in order. -/
theorem feed_applied_in_order {setup : Setup} {dataset : Dataset} {source : Source} {job : Int} {token : Token}
    {p : Progress} {s s' : Floor} {t : List Event} {r : Program (Staged Unit)}
    (h : Program.Reaches world (applyFeed setup dataset source job token p) s t r s') :
    ∃ j, InOrder dataset (deliver source setup.batchSize false).1 j t ∧
      ∀ outcome p', r = .done (outcome, p') → p'.batches = p.batches + j ∧
        (outcome = .ok () → upserts t = applied dataset (deliver source setup.batchSize false).1 ∧
          source.ending = .closed ∧
          ∃ items, Json.readWithin Json.depthLimit source.bytes = .ok (.array items) ∧
            (deliver source setup.batchSize false).1.flatten = items) := by
  have hsafe := (applyFeed_safe setup dataset source job token p s).reaches h
  rw [List.nil_append] at hsafe
  by_cases hr : ∃ result, r = .done result
  · obtain ⟨⟨outcome, p'⟩, rfl⟩ := hr
    obtain ⟨j, horder, hbatches, hall⟩ := hsafe.done
    refine ⟨j, horder, fun outcome' p'' hdone => ?_⟩
    cases hdone
    exact ⟨hbatches, hall⟩
  · obtain ⟨j, horder⟩ := hsafe.holds
    exact ⟨j, horder, fun outcome p' hdone => absurd ⟨_, hdone⟩ hr⟩

/-! ## A feed of two elements -/

/-- A card with the key `a`. -/
def plainCard (name : String) : Json :=
  .object [("collector_number", .text "1"), ("id", .text "a"), ("name", .text name), ("set", .text "s")]

theorem plainCard_storable (name : String) : Json.Storable 1 (plainCard name) := by
  have hkeys : ["collector_number", "id", "name", "set"].Pairwise (· < ·) := by decide
  refine .object ((List.pairwise_map (f := Prod.fst)).1 hkeys) ?_
  simp only [List.forall_mem_cons]
  exact ⟨.text _ _, .text _ _, .text _ _, .text _ _, nofun⟩

/-- A card and something else. -/
def twoElements : List Json := [plainCard "A", .int 7]

theorem seven_storable : Json.Storable 1 (.int 7) := .int _ (by decide) (by decide)

theorem twoElements_storable : ∀ v ∈ twoElements, Json.Storable 1 v :=
  List.forall_mem_cons.2 ⟨plainCard_storable _, List.forall_mem_singleton.2 seven_storable⟩

/-- A decoder on the floor takes a step. -/
theorem Stirs.works {s : Floor} {id : Nat} {d : Decoding} {e : Exchange} (h : s.decodings id = some d)
    (he : d.exchange.work (s.cancelled d.token || !d.exchange.attended) = e) :
    Floor.Stirs s (s.put id { d with exchange := e }) := by
  rw [← he]
  exact .work h

/-- A run on the feed of the two: the decoder hands its batch over, the batch is applied, the channel closes, and the
decoder ends. The card is written, and the other element is no card. -/
theorem one_batch_applied :
    ∃ t s p' batches, Program.Reaches world
        (applyFeed { batchSize := 2, assets := "" } .cards ⟨written twoElements, .closed⟩ 1 ⟨0⟩
          (Progress.start .cards)) bare t (.done (.ok (), p')) s ∧
      upserts t = applied .cards batches ∧ batches.flatten = twoElements ∧
      (readAll readCard twoElements).1.map Card.id = ["a"] ∧ (readAll readCard twoElements).2.failed = 1 := by
  have hsource : (⟨written twoElements, .closed⟩ : Source) = feedOf twoElements [93] := by
    rw [written_eq]
    rfl
  have hdeep : 1 < Decoder.elementDepth := by decide
  obtain ⟨c, e, f, d, hopens, hfirst, hsecond, hcloses, hends⟩ := pair_steps hdeep (plainCard_storable "A") seven_storable
  obtain ⟨t, s, p', hrun⟩ : ∃ t s p', Program.Reaches world
      (applyFeed { batchSize := 2, assets := "" } .cards (feedOf twoElements [93]) 1 ⟨0⟩ (Progress.start .cards)) bare
      t (.done (.ok (), p')) s :=
    ⟨_, _, _,
      .answer (q := .startDecoder (feedOf twoElements [93]) 2 ⟨0⟩) (a := (0 : Nat)) ⟨rfl, rfl⟩ <|
      .stir (Stirs.works (put_same _ _ _) (congrArg (fun d => Exchange.mk _ _ _ d [] true) hopens)) <|
      .stir (Stirs.works (put_same _ _ _) (congrArg (fun d => Exchange.mk _ _ _ d [] true) hfirst)) <|
      .stir (Stirs.works (put_same _ _ _) (congrArg (fun d => Exchange.mk _ _ _ d [] true) hsecond)) <|
      .stir (Stirs.works (put_same _ _ _) rfl) <|
      .answer (q := .receive 0 ⟨0⟩) (a := Arrival.batch twoElements) ⟨_, _, put_same _ _ _, rfl, rfl⟩ <|
      .answer (q := .upsertCards _) (a := (.ok 1 : Stored Nat)) rfl <|
      .answer (q := .publish 1 _) (a := (.ok () : Stored Unit)) rfl <|
      .stir (Stirs.works (put_same _ _ _) (congrArg (fun d => Exchange.mk _ _ _ d [] true) hcloses)) <|
      .answer (q := .receive 0 ⟨0⟩) (a := Arrival.closed) ⟨_, put_same _ _ _, rfl, rfl, rfl⟩ <|
      .stir (Stirs.works (put_same _ _ _) (congrArg (fun d => Exchange.mk _ _ _ d [] true) hends)) <|
      .answer (q := .join 0) (a := (.ok 2 : Outcome)) ⟨⟨_, put_same _ _ _, rfl⟩, rfl⟩ <|
      .start _ _⟩
  rw [← hsource] at hrun
  obtain ⟨j, -, hdone⟩ := feed_applied_in_order hrun
  obtain ⟨-, hok⟩ := hdone _ _ rfl
  obtain ⟨hall, -, items, hdoc, hflatten⟩ := hok rfl
  rw [written_document hdeep twoElements_storable] at hdoc
  cases hdoc
  exact ⟨t, s, p', _, hrun, hall, hflatten, by decide +kernel, by decide +kernel⟩

end CatalogSync.Import
