import CatalogSync.Catalog.Record
import CatalogSync.Text.Blank

/-!
# Cards of a feed

A feed describes a card in more fields than the catalog keeps. `FeedCard.toCard` picks out what is
kept, and `readCard` reads one element of a feed or says what is wrong with it.
-/

namespace CatalogSync.Import

open CatalogSync.Catalog CatalogSync.Text

/-- The front of a card with two faces. -/
structure Face where
  manaCost : Option String
  image : Option (Option String)
deriving DecidableEq, Repr, Inhabited

/-- A card as a feed describes it. -/
structure FeedCard where
  id : String
  oracleId : Option String
  name : String
  setCode : String
  collectorNumber : String
  lang : String
  rarity : Option String
  typeLine : Option String
  manaCost : Option String
  releasedAt : Option String
  image : Option (Option String)
  faces : List Face
  price : Option (Option String)
deriving DecidableEq, Repr, Inhabited

section Slots

open Json

/-- Reads the locations of images, of which the one of normal size is kept. -/
def imageReader : Reader (Option String) :=
  record "ImageUris" [(textSlot? "normal").probe] fun f => f.get 0 (textSlot? "normal")

/-- Reads prices, of which the one in dollars is kept. -/
def priceReader : Reader (Option String) :=
  record "Prices" [(textSlot? "usd").probe] fun f => f.get 0 (textSlot? "usd")

def imageSlot : Slot (Option (Option String)) := .optional "image_uris" imageReader

def priceSlot : Slot (Option (Option String)) := .optional "prices" priceReader

def Face.reader : Reader Face :=
  record "RawCardFace" [(textSlot? "mana_cost").probe, imageSlot.probe] fun f => do
    return { manaCost := ← f.get 0 (textSlot? "mana_cost"), image := ← f.get 1 imageSlot }

def facesSlot : Slot (List Face) := .defaulted "card_faces" (Reader.list Face.reader) []

/-- The slot of the language, English unless told. -/
def langSlot : Slot String := .defaulted "lang" Reader.text "en"

/-- Reads a card of a feed. -/
def FeedCard.reader : Reader FeedCard :=
  record "RawCard"
    [ (textSlot "id").probe, (textSlot? "oracle_id").probe, (textSlot "name").probe, (textSlot "set").probe,
      (textSlot "collector_number").probe, langSlot.probe, (textSlot? "rarity").probe, (textSlot? "type_line").probe,
      (textSlot? "mana_cost").probe, (textSlot? "released_at").probe, imageSlot.probe, facesSlot.probe,
      priceSlot.probe ]
    fun f => do
      return {
        id := ← f.get 0 (textSlot "id")
        oracleId := ← f.get 1 (textSlot? "oracle_id")
        name := ← f.get 2 (textSlot "name")
        setCode := ← f.get 3 (textSlot "set")
        collectorNumber := ← f.get 4 (textSlot "collector_number")
        lang := ← f.get 5 langSlot
        rarity := ← f.get 6 (textSlot? "rarity")
        typeLine := ← f.get 7 (textSlot? "type_line")
        manaCost := ← f.get 8 (textSlot? "mana_cost")
        releasedAt := ← f.get 9 (textSlot? "released_at")
        image := ← f.get 10 imageSlot
        faces := ← f.get 11 facesSlot
        price := ← f.get 12 priceSlot }

end Slots

/-- The card that a feed describes. What a card with faces lacks itself is taken from its first face. -/
def FeedCard.toCard (c : FeedCard) : Except String Card :=
  if isAllBlank c.id then .error "card has an empty id"
  else if isAllBlank c.name then .error ("card " ++ c.id ++ " has an empty name")
  else
    let front := c.faces.head?
    .ok {
      id := c.id
      oracleId := c.oracleId
      name := c.name
      setCode := c.setCode
      collectorNumber := c.collectorNumber
      lang := c.lang
      rarity := c.rarity
      typeLine := c.typeLine
      manaCost := c.manaCost <|> front.bind (·.manaCost)
      releasedAt := c.releasedAt
      imageUri := c.image.join <|> (front.bind (·.image)).join
      priceUsd := c.price.join }

/-- What an element calls itself, or a stand-in. -/
def labelOf (v : Json) (key missing : String) : String := ((v.member? key).bind Json.text?).getD missing

/-- The card that an element of a feed describes. -/
def readCard (v : Json) : Except String Card :=
  match FeedCard.reader v with
  | .ok c => c.toCard
  | .error e => .error ("card " ++ labelOf v "id" "<no id>" ++ ": " ++ e)

end CatalogSync.Import
