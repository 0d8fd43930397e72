import CatalogSync.Json.Record
import CatalogSync.Time.Rfc3339

/-!
# Cards and sets

A card is one printing, known by its id; a set is known by its code. `Card.reader` and
`CardSet.reader` read their JSON form, `toJson` writes it. A stored card or set adds what the
catalog knows of its own: when it was first seen and last written, and where the icon of a set is.
-/

namespace CatalogSync.Catalog

open CatalogSync.Time

/-- A printing of a card. -/
structure Card where
  id : String
  oracleId : Option String
  name : String
  setCode : String
  collectorNumber : String
  lang : String
  rarity : Option String
  typeLine : Option String
  manaCost : Option String
  releasedAt : Option String
  imageUri : Option String
  priceUsd : Option String
deriving DecidableEq, Repr, Inhabited

/-- A set of cards. -/
structure CardSet where
  code : String
  name : String
  setType : Option String
  releasedAt : Option String
  cardCount : Int
  iconUri : Option String
deriving DecidableEq, Repr, Inhabited

/-- A card as the catalog keeps it. -/
structure StoredCard where
  record : Card
  firstSeenAt : Instant
  updatedAt : Instant
deriving DecidableEq, Repr, Inhabited

/-- A set as the catalog keeps it. -/
structure StoredSet where
  record : CardSet
  iconPath : Option String
  firstSeenAt : Instant
  updatedAt : Instant
deriving DecidableEq, Repr, Inhabited

section Slots

open Json

def textSlot (name : String) : Slot String := .required name Reader.text

/-- The slot of a text that may be null or not there. -/
def textSlot? (name : String) : Slot (Option String) := .optional name Reader.text

def cardCountSlot : Slot Int := .required "card_count" Reader.int64

end Slots

namespace Card

/-- The JSON form of a card. -/
def toJson (c : Card) : Json :=
  .ofPairs
    [ ("id", .text c.id),
      ("oracle_id", .ofText? c.oracleId),
      ("name", .text c.name),
      ("set_code", .text c.setCode),
      ("collector_number", .text c.collectorNumber),
      ("lang", .text c.lang),
      ("rarity", .ofText? c.rarity),
      ("type_line", .ofText? c.typeLine),
      ("mana_cost", .ofText? c.manaCost),
      ("released_at", .ofText? c.releasedAt),
      ("image_uri", .ofText? c.imageUri),
      ("price_usd", .ofText? c.priceUsd) ]

/-- Reads a card from its JSON form. -/
def reader : Json.Reader Card :=
  Json.record "CardRecord"
    [ (textSlot "id").probe, (textSlot? "oracle_id").probe, (textSlot "name").probe, (textSlot "set_code").probe,
      (textSlot "collector_number").probe, (textSlot "lang").probe, (textSlot? "rarity").probe,
      (textSlot? "type_line").probe, (textSlot? "mana_cost").probe, (textSlot? "released_at").probe,
      (textSlot? "image_uri").probe, (textSlot? "price_usd").probe ]
    fun f => do
      return {
        id := ← f.get 0 (textSlot "id")
        oracleId := ← f.get 1 (textSlot? "oracle_id")
        name := ← f.get 2 (textSlot "name")
        setCode := ← f.get 3 (textSlot "set_code")
        collectorNumber := ← f.get 4 (textSlot "collector_number")
        lang := ← f.get 5 (textSlot "lang")
        rarity := ← f.get 6 (textSlot? "rarity")
        typeLine := ← f.get 7 (textSlot? "type_line")
        manaCost := ← f.get 8 (textSlot? "mana_cost")
        releasedAt := ← f.get 9 (textSlot? "released_at")
        imageUri := ← f.get 10 (textSlot? "image_uri")
        priceUsd := ← f.get 11 (textSlot? "price_usd") }

end Card

namespace CardSet

/-- The JSON form of a set. -/
def toJson (s : CardSet) : Json :=
  .ofPairs
    [ ("code", .text s.code),
      ("name", .text s.name),
      ("set_type", .ofText? s.setType),
      ("released_at", .ofText? s.releasedAt),
      ("card_count", .int s.cardCount),
      ("icon_svg_uri", .ofText? s.iconUri) ]

/-- Reads a set from its JSON form. -/
def reader : Json.Reader CardSet :=
  Json.record "SetRecord"
    [ (textSlot "code").probe, (textSlot "name").probe, (textSlot? "set_type").probe, (textSlot? "released_at").probe,
      cardCountSlot.probe, (textSlot? "icon_svg_uri").probe ]
    fun f => do
      return {
        code := ← f.get 0 (textSlot "code")
        name := ← f.get 1 (textSlot "name")
        setType := ← f.get 2 (textSlot? "set_type")
        releasedAt := ← f.get 3 (textSlot? "released_at")
        cardCount := ← f.get 4 cardCountSlot
        iconUri := ← f.get 5 (textSlot? "icon_svg_uri") }

end CardSet

end CatalogSync.Catalog
