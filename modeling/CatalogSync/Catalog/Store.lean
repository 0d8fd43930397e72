import CatalogSync.Catalog.Record
import CatalogSync.Store.Affinity
import CatalogSync.Store.Error

/-!
# The catalog

The catalog keeps a row for every card id and every set code. An upsert writes the fields of a
record and the time of writing; it keeps the time a row was first seen, and the icon of a set.
`Catalog.card?` and `Catalog.set?` read rows back.
-/

namespace CatalogSync.Catalog

open CatalogSync.Time CatalogSync.Store

/-- A card as it is stored. -/
structure CardRow where
  id : String
  oracleId : Option String
  name : String
  setCode : String
  collectorNumber : String
  lang : String
  rarity : Option String
  typeLine : Option String
  manaCost : Option String
  releasedAt : Option String
  imageUri : Option String
  priceUsd : Option String
  firstSeenAt : String
  updatedAt : String
deriving DecidableEq, Repr, Inhabited

/-- A set as it is stored. -/
structure SetRow where
  code : String
  name : String
  setType : Option String
  releasedAt : Option String
  cardCount : Cell
  iconUri : Option String
  iconPath : Option String
  firstSeenAt : String
  updatedAt : String
deriving DecidableEq, Repr, Inhabited

namespace CardRow

/-- A card that is new to the catalog. -/
def fresh (stamp : String) (c : Card) : CardRow :=
  ⟨c.id, c.oracleId, c.name, c.setCode, c.collectorNumber, c.lang, c.rarity, c.typeLine, c.manaCost, c.releasedAt,
    c.imageUri, c.priceUsd, stamp, stamp⟩

/-- The row with the fields of a record. -/
def update (stamp : String) (c : Card) (r : CardRow) : CardRow :=
  { r with
    oracleId := c.oracleId
    name := c.name
    setCode := c.setCode
    collectorNumber := c.collectorNumber
    lang := c.lang
    rarity := c.rarity
    typeLine := c.typeLine
    manaCost := c.manaCost
    releasedAt := c.releasedAt
    imageUri := c.imageUri
    priceUsd := c.priceUsd
    updatedAt := stamp }

/-- The fields of a card in a row. -/
def record (r : CardRow) : Card :=
  ⟨r.id, r.oracleId, r.name, r.setCode, r.collectorNumber, r.lang, r.rarity, r.typeLine, r.manaCost, r.releasedAt,
    r.imageUri, r.priceUsd⟩

/-- The card in a row; an unreadable time reads as the present. -/
def read (now : Instant) (r : CardRow) : StoredCard :=
  ⟨r.record, (read? r.firstSeenAt).getD now, (read? r.updatedAt).getD now⟩

/-- Overwrites a column by its name; `none` if no such column can hold the value. -/
def overwrite (r : CardRow) (column : String) (value : Option String) : Option CardRow :=
  match column, value with
  | "id", some s => some { r with id := s }
  | "name", some s => some { r with name := s }
  | "set_code", some s => some { r with setCode := s }
  | "collector_number", some s => some { r with collectorNumber := s }
  | "lang", some s => some { r with lang := s }
  | "oracle_id", v => some { r with oracleId := v }
  | "rarity", v => some { r with rarity := v }
  | "type_line", v => some { r with typeLine := v }
  | "mana_cost", v => some { r with manaCost := v }
  | "released_at", v => some { r with releasedAt := v }
  | "image_uri", v => some { r with imageUri := v }
  | "price_usd", v => some { r with priceUsd := v }
  | "first_seen_at", some s => some { r with firstSeenAt := s }
  | "updated_at", some s => some { r with updatedAt := s }
  | _, _ => none

end CardRow

namespace SetRow

/-- A set that is new to the catalog. -/
def fresh (stamp : String) (s : CardSet) : SetRow :=
  ⟨s.code, s.name, s.setType, s.releasedAt, .integer s.cardCount, s.iconUri, none, stamp, stamp⟩

/-- The row with the fields of a record. -/
def update (stamp : String) (s : CardSet) (r : SetRow) : SetRow :=
  { r with
    name := s.name
    setType := s.setType
    releasedAt := s.releasedAt
    cardCount := .integer s.cardCount
    iconUri := s.iconUri
    updatedAt := stamp }

/-- The place of the number of cards among the columns. -/
def cardCountIndex : Nat := 4

/-- The set in a row; an unreadable time reads as the present. -/
def read (now : Instant) (r : SetRow) : Except StoreError StoredSet :=
  match r.cardCount.int with
  | .error kind => .error (.of (.columnType kind cardCountIndex "card_count"))
  | .ok n =>
    .ok ⟨⟨r.code, r.name, r.setType, r.releasedAt, n, r.iconUri⟩, r.iconPath, (read? r.firstSeenAt).getD now,
      (read? r.updatedAt).getD now⟩

/-- Overwrites a column by its name; `none` if no such column can hold the value. -/
def overwrite (r : SetRow) (column : String) (value : Option String) : Option SetRow :=
  match column, value with
  | "code", some s => some { r with code := s }
  | "name", some s => some { r with name := s }
  | "set_type", v => some { r with setType := v }
  | "released_at", v => some { r with releasedAt := v }
  | "card_count", some s => some { r with cardCount := .ofText s }
  | "icon_svg_uri", v => some { r with iconUri := v }
  | "icon_path", v => some { r with iconPath := v }
  | "first_seen_at", some s => some { r with firstSeenAt := s }
  | "updated_at", some s => some { r with updatedAt := s }
  | _, _ => none

end SetRow

end Catalog

open CatalogSync.Time

/-- All cards and sets. -/
structure Catalog where
  cards : List Catalog.CardRow := []
  sets : List Catalog.SetRow := []
deriving DecidableEq, Repr, Inhabited

namespace Catalog

def upsertCard (stamp : String) (c : Card) : List CardRow → List CardRow
  | [] => [CardRow.fresh stamp c]
  | r :: rows => if r.id = c.id then r.update stamp c :: rows else r :: upsertCard stamp c rows

def upsertSet (stamp : String) (s : CardSet) : List SetRow → List SetRow
  | [] => [SetRow.fresh stamp s]
  | r :: rows => if r.code = s.code then r.update stamp s :: rows else r :: upsertSet stamp s rows

def upsertCards (now : Instant) (cards : List Card) (c : Catalog) : Nat × Catalog :=
  (cards.length, { c with cards := cards.foldl (fun rows card => upsertCard now.stamp card rows) c.cards })

def upsertSets (now : Instant) (sets : List CardSet) (c : Catalog) : Nat × Catalog :=
  (sets.length, { c with sets := sets.foldl (fun rows s => upsertSet now.stamp s rows) c.sets })

def card? (now : Instant) (id : String) (c : Catalog) : Option StoredCard :=
  (c.cards.find? (·.id == id)).map (CardRow.read now)

def set? (now : Instant) (code : String) (c : Catalog) : Except StoreError (Option StoredSet) :=
  match c.sets.find? (·.code == code) with
  | none => .ok none
  | some r => within ("Failed to load set " ++ code) ((r.read now).map some)

/-- Notes where the icon of a set is. -/
def recordIcon (code path : String) (c : Catalog) : Catalog :=
  { c with sets := c.sets.map fun r => if r.code = code then { r with iconPath := some path } else r }

end Catalog

end CatalogSync
