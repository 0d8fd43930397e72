import CatalogSync.Catalog.Store
import CatalogSync.Proofs.Store.Keyed

/-!
# The catalog as a map

A catalog is two maps, from ids to rows of cards and from codes to rows of sets. `cardWriter` and
`setWriter` say what an upsert puts into a row: all that the feed tells, the time of writing, and of what
the catalog knows of its own what was there before.

Main statement: `upserts_refine_a_map`. It says what an upsert makes of every reachable catalog, and that
no history of calls loses a row or forgets when it was first seen.
-/

namespace CatalogSync.Catalog

open CatalogSync.Time CatalogSync.Store

/-! ## The two maps -/

def cardRow? (id : String) (c : Catalog) : Option CardRow := row? CardRow.id id c.cards

def setRow? (code : String) (c : Catalog) : Option SetRow := row? SetRow.code code c.sets

/-- One row for each id and for each code. -/
structure Keyed (c : Catalog) : Prop where
  cards : (c.cards.map CardRow.id).Nodup
  sets : (c.sets.map SetRow.code).Nodup

/-- The row of a card that is written, in place of a former row. -/
def CardRow.written (stamp : String) (card : Card) : Option CardRow → CardRow
  | none => .fresh stamp card
  | some r => r.update stamp card

/-- The row of a set that is written, in place of a former row. -/
def SetRow.written (stamp : String) (s : CardSet) : Option SetRow → SetRow
  | none => .fresh stamp s
  | some r => r.update stamp s

/-- How cards become rows. -/
def cardWriter (stamp : String) : Writer CardRow.id Card where
  keyOf := Card.id
  put := CardRow.written stamp
  key_put _ o h := by
    cases o with
    | none => rfl
    | some r => exact h r rfl
  put_put card card' o hid _ := by
    cases o with
    | none =>
      change (CardRow.fresh stamp card').update stamp card = CardRow.fresh stamp card
      unfold CardRow.update CardRow.fresh
      rw [hid]
    | some r => rfl

/-- How sets become rows. -/
def setWriter (stamp : String) : Writer SetRow.code CardSet where
  keyOf := CardSet.code
  put := SetRow.written stamp
  key_put _ o h := by
    cases o with
    | none => rfl
    | some r => exact h r rfl
  put_put s s' o hcode _ := by
    cases o with
    | none =>
      change (SetRow.fresh stamp s').update stamp s = SetRow.fresh stamp s
      unfold SetRow.update SetRow.fresh
      rw [hcode]
    | some r => rfl

theorem upsertCard_eq (stamp : String) (card : Card) (rows : List CardRow) :
    upsertCard stamp card rows = (cardWriter stamp).write card rows := by
  induction rows with
  | nil => rfl
  | cons r rows ih =>
    unfold upsertCard
    rw [ih]
    rfl

theorem upsertSet_eq (stamp : String) (s : CardSet) (rows : List SetRow) :
    upsertSet stamp s rows = (setWriter stamp).write s rows := by
  induction rows with
  | nil => rfl
  | cons r rows ih =>
    unfold upsertSet
    rw [ih]
    rfl

theorem upsertCards_cards (now : Instant) (batch : List Card) (c : Catalog) :
    (c.upsertCards now batch).2.cards = (cardWriter now.stamp).writeAll batch c.cards := by
  unfold upsertCards Writer.writeAll
  simp only [upsertCard_eq]

theorem upsertSets_sets (now : Instant) (batch : List CardSet) (c : Catalog) :
    (c.upsertSets now batch).2.sets = (setWriter now.stamp).writeAll batch c.sets := by
  unfold upsertSets Writer.writeAll
  simp only [upsertSet_eq]

/-! ## What an upsert makes of a catalog -/

/-- The instant that a text of a row tells, or the present. -/
def told (present : Instant) (stamp : String) : Instant := (read? stamp).getD present

/-- What an upsert of cards makes of a catalog. Each id of the batch has the last card of that id, whole; it
keeps when it was first seen, a new one from now on; and it reads back so at any time. -/
structure CardsWritten (now : Instant) (batch : List Card) (c : Catalog) (result : Nat × Catalog) : Prop where
  count : result.1 = batch.length
  written : ∀ id card, lastOf Card.id id batch = some card →
    ∃ r, result.2.cardRow? id = some r ∧ r.record = card ∧
      r.firstSeenAt = ((c.cardRow? id).map CardRow.firstSeenAt).getD now.stamp ∧ r.updatedAt = now.stamp ∧
      ∀ t, result.2.card? t id = some ⟨card, told t r.firstSeenAt, told t r.updatedAt⟩
  kept : ∀ id, id ∉ batch.map Card.id → result.2.cardRow? id = c.cardRow? id
  size : result.2.cards.length =
    c.cards.length + ((batch.map Card.id).toFinset \ (c.cards.map CardRow.id).toFinset).card
  sets : result.2.sets = c.sets

/-- What an upsert of sets makes of a catalog. Each code of the batch has the last set of that code, whole; it
keeps its icon and when it was first seen, a new one has no icon and is seen from now on; and it reads back
so at any time. -/
structure SetsWritten (now : Instant) (batch : List CardSet) (c : Catalog) (result : Nat × Catalog) :
    Prop where
  count : result.1 = batch.length
  written : ∀ code s, lastOf CardSet.code code batch = some s →
    ∃ r, result.2.setRow? code = some r ∧ r.iconPath = (c.setRow? code).bind SetRow.iconPath ∧
      r.firstSeenAt = ((c.setRow? code).map SetRow.firstSeenAt).getD now.stamp ∧ r.updatedAt = now.stamp ∧
      ∀ t, result.2.set? t code = .ok (some ⟨s, r.iconPath, told t r.firstSeenAt, told t r.updatedAt⟩)
  kept : ∀ code, code ∉ batch.map CardSet.code → result.2.setRow? code = c.setRow? code
  size : result.2.sets.length =
    c.sets.length + ((batch.map CardSet.code).toFinset \ (c.sets.map SetRow.code).toFinset).card
  cards : result.2.cards = c.cards

theorem CardRow.record_written {stamp id : String} {card : Card} {o : Option CardRow} (hid : card.id = id)
    (ho : ∀ r ∈ o, r.id = id) : (CardRow.written stamp card o).record = card := by
  cases o with
  | none => rfl
  | some r =>
    change (r.update stamp card).record = card
    unfold CardRow.update CardRow.record
    rw [ho r rfl, ← hid]

theorem SetRow.read_written {stamp code : String} {s : CardSet} {o : Option SetRow} (hcode : s.code = code)
    (ho : ∀ r ∈ o, r.code = code) (t : Instant) :
    (SetRow.written stamp s o).read t =
      .ok ⟨s, o.bind SetRow.iconPath, told t ((o.map SetRow.firstSeenAt).getD stamp), told t stamp⟩ := by
  cases o with
  | none => rfl
  | some r =>
    change (r.update stamp s).read t = _
    unfold SetRow.update
    rw [ho r rfl, ← hcode]
    rfl

section Upserts

variable (now : Instant) (c : Catalog)

theorem cardRow?_upsertCards (batch : List Card) (id : String) :
    (c.upsertCards now batch).2.cardRow? id =
      (lastOf Card.id id batch).elim (c.cardRow? id) fun card =>
        some (CardRow.written now.stamp card (c.cardRow? id)) := by
  unfold cardRow?
  rw [upsertCards_cards]
  exact (cardWriter now.stamp).row?_writeAll id batch c.cards

theorem setRow?_upsertSets (batch : List CardSet) (code : String) :
    (c.upsertSets now batch).2.setRow? code =
      (lastOf CardSet.code code batch).elim (c.setRow? code) fun s =>
        some (SetRow.written now.stamp s (c.setRow? code)) := by
  unfold setRow?
  rw [upsertSets_sets]
  exact (setWriter now.stamp).row?_writeAll code batch c.sets

variable {c}

/-- A row that is there stays, and keeps what the catalog knows of its own. -/
theorem upsertSets_keeps (batch : List CardSet) {code : String} {r : SetRow} (hr : c.setRow? code = some r) :
    ∃ r', (c.upsertSets now batch).2.setRow? code = some r' ∧ r'.firstSeenAt = r.firstSeenAt ∧
      r'.iconPath = r.iconPath := by
  have hrow := setRow?_upsertSets now c batch code
  rw [hr] at hrow
  cases hlast : lastOf CardSet.code code batch with
  | none =>
    rw [hlast] at hrow
    exact ⟨r, hrow, rfl, rfl⟩
  | some s =>
    rw [hlast] at hrow
    exact ⟨_, hrow, rfl, rfl⟩

theorem upsertCards_written (h : c.Keyed) (batch : List Card) :
    CardsWritten now batch c (c.upsertCards now batch) where
  count := rfl
  written id card hlast := by
    have hrow := cardRow?_upsertCards now c batch id
    have hrecord : (CardRow.written now.stamp card (c.cardRow? id)).record = card :=
      CardRow.record_written (key_of_lastOf hlast) fun r hr => key_of_row? hr
    rw [hlast] at hrow
    refine ⟨_, hrow, hrecord, ?_, ?_, fun t => ?_⟩
    · cases c.cardRow? id <;> rfl
    · cases c.cardRow? id <;> rfl
    · change ((c.upsertCards now batch).2.cardRow? id).map (CardRow.read t) = _
      rw [hrow]
      change some (CardRow.read t (CardRow.written now.stamp card (c.cardRow? id))) = _
      unfold CardRow.read told
      rw [hrecord]
  kept id hid := by
    rw [cardRow?_upsertCards, lastOf_eq_none_iff.2 hid, Option.elim_none]
  size := by
    rw [upsertCards_cards]
    exact (cardWriter now.stamp).length_writeAll batch h.cards
  sets := rfl

theorem upsertSets_written (h : c.Keyed) (batch : List CardSet) :
    SetsWritten now batch c (c.upsertSets now batch) where
  count := rfl
  written code s hlast := by
    have hrow := setRow?_upsertSets now c batch code
    have hicon : (SetRow.written now.stamp s (c.setRow? code)).iconPath =
        (c.setRow? code).bind SetRow.iconPath := by
      cases c.setRow? code <;> rfl
    have hfirst : (SetRow.written now.stamp s (c.setRow? code)).firstSeenAt =
        ((c.setRow? code).map SetRow.firstSeenAt).getD now.stamp := by
      cases c.setRow? code <;> rfl
    have hupdated : (SetRow.written now.stamp s (c.setRow? code)).updatedAt = now.stamp := by
      cases c.setRow? code <;> rfl
    rw [hlast] at hrow
    refine ⟨_, hrow, hicon, hfirst, hupdated, fun t => ?_⟩
    have hkey : ∀ r ∈ c.setRow? code, r.code = code := fun r hr => key_of_row? hr
    have hread : (SetRow.written now.stamp s (c.setRow? code)).read t = _ :=
      SetRow.read_written (key_of_lastOf hlast) hkey t
    unfold Catalog.set?
    rw [show (c.upsertSets now batch).2.sets.find? (fun r => r.code == code) = _ from hrow]
    change within _ ((SetRow.read t (SetRow.written now.stamp s (c.setRow? code))).map some) = _
    rw [hicon, hfirst, hupdated, hread]
    rfl
  kept code hcode := by
    rw [setRow?_upsertSets, lastOf_eq_none_iff.2 hcode, Option.elim_none]
  size := by
    rw [upsertSets_sets]
    exact (setWriter now.stamp).length_writeAll batch h.sets
  cards := rfl

end Upserts

/-! ## Histories -/

/-- A call on the catalog. -/
inductive Action where
  | upsertCards (now : Instant) (batch : List Card)
  | upsertSets (now : Instant) (batch : List CardSet)
  | recordIcon (code path : String)
  /-- The store is closed and opened again. -/
  | reopen

/-- The catalog after a call. The rows are on disk, so that opening the store again finds them all. -/
def Action.perform (c : Catalog) : Action → Catalog
  | .upsertCards now batch => (c.upsertCards now batch).2
  | .upsertSets now batch => (c.upsertSets now batch).2
  | .recordIcon code path => c.recordIcon code path
  | .reopen => c

def replayFrom (c : Catalog) (h : List Action) : Catalog := h.foldl Action.perform c

/-- The catalog after a history of calls on an empty one. -/
def replay (h : List Action) : Catalog := replayFrom {} h

/-- Every row is still there, and is known to have been first seen when it was. -/
structure Outlives (c c' : Catalog) : Prop where
  cards : ∀ id r, c.cardRow? id = some r →
    ∃ r', c'.cardRow? id = some r' ∧ r'.firstSeenAt = r.firstSeenAt
  sets : ∀ code r, c.setRow? code = some r →
    ∃ r', c'.setRow? code = some r' ∧ r'.firstSeenAt = r.firstSeenAt

theorem Outlives.refl (c : Catalog) : Outlives c c :=
  ⟨fun _ r hr => ⟨r, hr, rfl⟩, fun _ r hr => ⟨r, hr, rfl⟩⟩

theorem Outlives.trans {c d e : Catalog} (h : Outlives c d) (h' : Outlives d e) : Outlives c e where
  cards id r hr := by
    obtain ⟨r', hr', hfirst⟩ := h.cards id r hr
    obtain ⟨r'', hr'', hfirst'⟩ := h'.cards id r' hr'
    exact ⟨r'', hr'', hfirst'.trans hfirst⟩
  sets code r hr := by
    obtain ⟨r', hr', hfirst⟩ := h.sets code r hr
    obtain ⟨r'', hr'', hfirst'⟩ := h'.sets code r' hr'
    exact ⟨r'', hr'', hfirst'.trans hfirst⟩

/-- The row of a set with its icon noted. -/
def withIcon (code path : String) (r : SetRow) : SetRow :=
  if r.code = code then { r with iconPath := some path } else r

theorem withIcon_code (code path : String) (r : SetRow) : (withIcon code path r).code = r.code := by
  unfold withIcon
  split <;> rfl

theorem setRow?_recordIcon (code path other : String) (c : Catalog) :
    (c.recordIcon code path).setRow? other = (c.setRow? other).map (withIcon code path) := by
  have hsame : (fun r => SetRow.code r == other) ∘ withIcon code path = fun r => SetRow.code r == other := by
    funext r
    exact congrArg (· == other) (withIcon_code code path r)
  change (c.sets.map (withIcon code path)).find? _ = _
  rw [List.find?_map, hsame]
  rfl

theorem perform_outlives (c : Catalog) (a : Action) : Outlives c (a.perform c) := by
  cases a with
  | upsertCards now batch =>
    refine ⟨fun id r hr => ?_, fun code r hr => ⟨r, hr, rfl⟩⟩
    have hrow := cardRow?_upsertCards now c batch id
    rw [hr] at hrow
    cases hlast : lastOf Card.id id batch with
    | none =>
      rw [hlast] at hrow
      exact ⟨r, hrow, rfl⟩
    | some card =>
      rw [hlast] at hrow
      exact ⟨_, hrow, rfl⟩
  | upsertSets now batch =>
    refine ⟨fun id r hr => ⟨r, hr, rfl⟩, fun code r hr => ?_⟩
    obtain ⟨r', hr', hfirst, -⟩ := upsertSets_keeps now batch hr
    exact ⟨r', hr', hfirst⟩
  | recordIcon code path =>
    refine ⟨fun id r hr => ⟨r, hr, rfl⟩, fun other r hr => ⟨withIcon code path r, ?_, ?_⟩⟩
    · change (c.recordIcon code path).setRow? other = _
      rw [setRow?_recordIcon, hr]
      rfl
    · unfold withIcon
      split <;> rfl
  | reopen => exact .refl c

theorem perform_keyed {c : Catalog} (h : c.Keyed) (a : Action) : (a.perform c).Keyed := by
  cases a with
  | upsertCards now batch =>
    refine ⟨?_, h.sets⟩
    change ((c.upsertCards now batch).2.cards.map CardRow.id).Nodup
    rw [upsertCards_cards]
    exact (cardWriter now.stamp).nodup_writeAll batch h.cards
  | upsertSets now batch =>
    refine ⟨h.cards, ?_⟩
    change ((c.upsertSets now batch).2.sets.map SetRow.code).Nodup
    rw [upsertSets_sets]
    exact (setWriter now.stamp).nodup_writeAll batch h.sets
  | recordIcon code path =>
    refine ⟨h.cards, ?_⟩
    have hcodes : SetRow.code ∘ withIcon code path = SetRow.code := funext (withIcon_code code path)
    change ((c.sets.map (withIcon code path)).map SetRow.code).Nodup
    rw [List.map_map, hcodes]
    exact h.sets
  | reopen => exact h

theorem replayFrom_keyed {c : Catalog} (h : c.Keyed) (k : List Action) : (replayFrom c k).Keyed := by
  induction k generalizing c with
  | nil => exact h
  | cons a k ih => exact ih (perform_keyed h a)

theorem replayFrom_outlives (c : Catalog) (k : List Action) : Outlives c (replayFrom c k) := by
  induction k generalizing c with
  | nil => exact .refl c
  | cons a k ih => exact (perform_outlives c a).trans (ih (a.perform c))

theorem empty_keyed : Keyed {} := ⟨List.nodup_nil, List.nodup_nil⟩

theorem replay_keyed (h : List Action) : (replay h).Keyed := replayFrom_keyed empty_keyed h

theorem replay_append (h k : List Action) : replay (h ++ k) = replayFrom (replay h) k := by
  unfold replay replayFrom
  rw [List.foldl_append]

/-- **The catalog is a map.** Every reachable catalog has one row for each id and each code. An upsert writes
the last record of each key of its batch, whole, keeps what the catalog knows of its own, leaves all
other rows as they are, and adds as many rows as the batch has new keys. Whatever calls follow, no row
disappears and none forgets when it was first seen. -/
theorem upserts_refine_a_map (h : List Action) :
    (replay h).Keyed ∧
      (∀ now batch, CardsWritten now batch (replay h) ((replay h).upsertCards now batch)) ∧
      (∀ now batch, SetsWritten now batch (replay h) ((replay h).upsertSets now batch)) ∧
      ∀ k, Outlives (replay h) (replay (h ++ k)) := by
  have hkeyed := replay_keyed h
  refine ⟨hkeyed, fun now batch => upsertCards_written now hkeyed batch,
    fun now batch => upsertSets_written now hkeyed batch, fun k => ?_⟩
  rw [replay_append]
  exact replayFrom_outlives (replay h) k

end CatalogSync.Catalog
