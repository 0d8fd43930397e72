import CatalogSync.Proofs.Catalog.Upserts
import CatalogSync.Proofs.Store.Landing

/-!
# Cards and sets that have landed in the catalog

`cardShape` and `setShape` say what there is to rows of cards and of sets besides the times of writing and,
for sets, where the icon is.
-/

namespace CatalogSync.Catalog

open CatalogSync.Time CatalogSync.Store

/-- Rows of cards: all that the feed tells. -/
def cardShape : Shape CardRow Card Card where
  key := CardRow.id
  keyOf := Card.id
  content := CardRow.record
  contentOf card := card
  first := CardRow.firstSeenAt

/-- A row of a set without what the catalog knows of its own. -/
def SetRow.plain (r : SetRow) : SetRow := { r with iconPath := none, firstSeenAt := "", updatedAt := "" }

/-- Rows of sets: all that the feed tells. -/
def setShape : Shape SetRow CardSet SetRow where
  key := SetRow.code
  keyOf := CardSet.code
  content := SetRow.plain
  contentOf := SetRow.fresh ""
  first := SetRow.firstSeenAt

theorem cardWriter_keeps (stamp : String) : Writer.Keeps (S := cardShape) (cardWriter stamp) where
  keyOf := rfl
  content _ _ ho := CardRow.record_written rfl ho
  first _ _ := rfl

theorem setWriter_keeps (stamp : String) : Writer.Keeps (S := setShape) (setWriter stamp) where
  keyOf := rfl
  content s o ho := by
    cases o with
    | none => rfl
    | some r =>
      have hcode : r.code = s.code := ho r rfl
      show (r.update stamp s).plain = SetRow.fresh "" s
      unfold SetRow.update SetRow.plain SetRow.fresh
      rw [hcode]
  first _ _ := rfl

theorem upsertCards_landed (now : Instant) (cards : List Card) (c : Catalog) :
    Landed cardShape c.cards cards (c.upsertCards now cards).2.cards := by
  rw [upsertCards_cards]
  exact (cardWriter_keeps now.stamp).landed cards c.cards

theorem upsertSets_landed (now : Instant) (sets : List CardSet) (c : Catalog) :
    Landed setShape c.sets sets (c.upsertSets now sets).2.sets := by
  rw [upsertSets_sets]
  exact (setWriter_keeps now.stamp).landed sets c.sets

theorem recordIcon_landed {rows : List SetRow} {sets : List CardSet} {c : Catalog}
    (h : Landed setShape rows sets c.sets) (code path : String) :
    Landed setShape rows sets (c.recordIcon code path).sets := by
  have hplain : ∀ r, (withIcon code path r).plain = r.plain := by
    intro r
    unfold withIcon
    split <;> rfl
  have hfirst : ∀ r, (withIcon code path r).firstSeenAt = r.firstSeenAt := by
    intro r
    unfold withIcon
    split <;> rfl
  exact h.map (withIcon_code code path) hplain hfirst

end CatalogSync.Catalog
