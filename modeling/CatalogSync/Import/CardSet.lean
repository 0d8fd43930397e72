import CatalogSync.Files.Tree
import CatalogSync.Import.Card

/-!
# Sets of a feed

Set codes end up in file names, so `isSafeCode` admits only letters, digits, `_` and `-`.
-/

namespace CatalogSync.Import

open CatalogSync.Catalog CatalogSync.Text

/-- The slot of the number of cards in a set of a feed, zero unless told. -/
def feedCountSlot : Json.Slot Int := .defaulted "card_count" Json.Reader.int64 0

/-- Reads a set of a feed. -/
def feedSetReader : Json.Reader CardSet :=
  Json.record "RawSet"
    [ (textSlot "code").probe, (textSlot "name").probe, (textSlot? "set_type").probe, (textSlot? "released_at").probe,
      feedCountSlot.probe, (textSlot? "icon_svg_uri").probe ]
    fun f => do
      return {
        code := ← f.get 0 (textSlot "code")
        name := ← f.get 1 (textSlot "name")
        setType := ← f.get 2 (textSlot? "set_type")
        releasedAt := ← f.get 3 (textSlot? "released_at")
        cardCount := ← f.get 4 feedCountSlot
        iconUri := ← f.get 5 (textSlot? "icon_svg_uri") }

def isAsciiLetter (c : Char) : Bool := ('a' ≤ c && c ≤ 'z') || ('A' ≤ c && c ≤ 'Z')

/-- A character that a set code may hold. -/
def isCodeChar (c : Char) : Bool := isAsciiLetter c || Decimal.isDigit c || c == '_' || c == '-'

/-- Whether a set code may name a file. -/
def isSafeCode (code : String) : Bool := !code.toList.isEmpty && code.toList.all isCodeChar

/-- The set that an element of a feed describes; an empty icon location counts as none. -/
def readSet (v : Json) : Except String CardSet :=
  match feedSetReader v with
  | .ok s =>
    if isSafeCode s.code then .ok { s with iconUri := s.iconUri.filter (· ≠ "") }
    else .error ("set has an unusable code '" ++ s.code ++ "'")
  | .error e => .error ("set " ++ labelOf v "code" "<no code>" ++ ": " ++ e)

/-- Where the icon of a set is kept, under the directory of the assets. -/
def iconPath (assets code : String) : String := Files.join assets "sets" ++ "/" ++ code ++ ".svg"

end CatalogSync.Import
