import CatalogSync.Import.Card
import CatalogSync.Proofs.Json.Records

/-!
# Cards of a feed

Which objects of a feed are cards, and what is kept of them. What a feed holds is `Proper` (`Json.proper_of_readValue`).

Main statement: `cards_read`. An object is a card if and only if its fields are what `Describes` says, and its id and its
name are not blank; members that no field names have no effect; and what is said of an object that is no card names its id.
-/

namespace CatalogSync.Import

open CatalogSync.Catalog CatalogSync.Json CatalogSync.Text

/-! ## Faces -/

/-- The locations of images, with the one of normal size. -/
abbrev IsImages : Json → Option String → Prop := HoldsText "normal"

/-- Prices, with the one in dollars. -/
abbrev IsPrices : Json → Option String → Prop := HoldsText "usd"

/-- A face, as an object or as an array of its two fields. -/
inductive IsFace : Json → Face → Prop
  | object {ms : List (String × Json)} {face : Face} (cost : Optionally IsText (Dict.find? ms "mana_cost") face.manaCost)
    (image : Optionally IsImages (Dict.find? ms "image_uris") face.image) : IsFace (.object ms) face
  | array {v w : Json} {face : Face} (cost : Optionally IsText (some v) face.manaCost)
    (image : Optionally IsImages (some w) face.image) : IsFace (.array [v, w]) face

theorem images_iff {v : Json} {o : Option String} (hv : Proper v) : imageReader v = .ok o ↔ IsImages v o :=
  holdsText_iff "ImageUris" hv

theorem prices_iff {v : Json} {o : Option String} (hv : Proper v) : priceReader v = .ok o ↔ IsPrices v o :=
  holdsText_iff "Prices" hv

theorem not_holdsText_null (key : String) (o : Option String) : ¬ HoldsText key .null o := nofun

section Slots

variable {ms : List (String × Json)} (hms : Proper (.object ms)) {o : Option (Option String)}
include hms

theorem get_images_iff (index : Nat) :
    (Fields.members ms).get index imageSlot = .ok o ↔ Optionally IsImages (Dict.find? ms "image_uris") o := by
  rw [get_members_iff]
  exact optional_gives_iff (fun w hw _ => images_iff (hms.member hw)) (not_holdsText_null "normal")

theorem get_prices_iff (index : Nat) :
    (Fields.members ms).get index priceSlot = .ok o ↔ Optionally IsPrices (Dict.find? ms "prices") o := by
  rw [get_members_iff]
  exact optional_gives_iff (fun w hw _ => prices_iff (hms.member hw)) (not_holdsText_null "usd")

end Slots

/-- The fields of a face. -/
theorem face_gets {f : Fields} {face : Face} :
    (do return { manaCost := ← f.get 0 (textSlot? "mana_cost"), image := ← f.get 1 imageSlot } : Except String Face) =
        .ok face ↔
      f.get 0 (textSlot? "mana_cost") = .ok face.manaCost ∧ f.get 1 imageSlot = .ok face.image := by
  simp only [bind_eq_ok_iff]
  constructor
  · rintro ⟨cost, hcost, image, himage, h⟩
    cases h
    exact ⟨hcost, himage⟩
  · rintro ⟨hcost, himage⟩
    exact ⟨_, hcost, _, himage, rfl⟩

theorem face_iff {v : Json} {face : Face} (hv : Proper v) : Face.reader v = .ok face ↔ IsFace v face := by
  unfold Face.reader
  cases hv with
  | @object ms hkeys hmembers =>
    have hms : Proper (.object ms) := .object hkeys hmembers
    rw [record_object_iff hkeys fun h => ?_, face_gets]
    · constructor
      · rintro ⟨hcost, himage⟩
        exact .object ((get_text?_iff 0).1 hcost) ((get_images_iff hms 1).1 himage)
      · rintro ⟨hcost, himage⟩
        exact ⟨(get_text?_iff 0).2 hcost, (get_images_iff hms 1).2 himage⟩
    · obtain ⟨hcost, himage⟩ := face_gets.1 h
      simp only [List.forall_mem_cons]
      exact ⟨get_probed hcost, get_probed himage, nofun⟩
  | @array items hitems =>
    rw [record_array_iff, face_gets]
    match items with
    | [] => exact ⟨fun h => absurd h.2.1 (get_items_short rfl rfl), nofun⟩
    | [v] => exact ⟨fun h => absurd h.2.2 (get_items_short rfl rfl), nofun⟩
    | [v, w] =>
      have hw : Proper w := hitems w (List.mem_cons_of_mem v List.mem_cons_self)
      have hcost : Reader.optional Reader.text v = .ok face.manaCost ↔ Optionally IsText (some v) face.manaCost :=
        optional_iff (fun _ => text_iff) not_isText_null
      have himage : Reader.optional imageReader w = .ok face.image ↔ Optionally IsImages (some w) face.image :=
        optional_iff (fun _ => images_iff hw) (not_holdsText_null "normal")
      rw [get_items_iff rfl, get_items_iff rfl]
      constructor
      · rintro ⟨-, hv, hw⟩
        exact .array (hcost.1 hv) (himage.1 hw)
      · intro h
        cases h with
        | array hv hw => exact ⟨Nat.le_refl 2, hcost.2 hv, himage.2 hw⟩
    | v :: w :: x :: rest => exact ⟨fun h => absurd h.1 (by simp), nofun⟩
  | _ => exact ⟨nofun, nofun⟩

/-! ## Cards -/

/-- What an object says of a card. -/
structure Describes (ms : List (String × Json)) (c : FeedCard) : Prop where
  id : Dict.find? ms "id" = some (.text c.id)
  oracleId : Optionally IsText (Dict.find? ms "oracle_id") c.oracleId
  name : Dict.find? ms "name" = some (.text c.name)
  setCode : Dict.find? ms "set" = some (.text c.setCode)
  collectorNumber : Dict.find? ms "collector_number" = some (.text c.collectorNumber)
  lang : Dict.find? ms "lang" = none ∧ c.lang = "en" ∨ Dict.find? ms "lang" = some (.text c.lang)
  rarity : Optionally IsText (Dict.find? ms "rarity") c.rarity
  typeLine : Optionally IsText (Dict.find? ms "type_line") c.typeLine
  manaCost : Optionally IsText (Dict.find? ms "mana_cost") c.manaCost
  releasedAt : Optionally IsText (Dict.find? ms "released_at") c.releasedAt
  image : Optionally IsImages (Dict.find? ms "image_uris") c.image
  faces : Dict.find? ms "card_faces" = none ∧ c.faces = [] ∨
    ∃ items, Dict.find? ms "card_faces" = some (.array items) ∧ List.Forall₂ IsFace items c.faces
  price : Optionally IsPrices (Dict.find? ms "prices") c.price

/-- What is kept of a card: it is what its object says, and what it lacks itself is taken from its first face. -/
structure Keeps (c : FeedCard) (card : Card) : Prop where
  id : card.id = c.id
  oracleId : card.oracleId = c.oracleId
  name : card.name = c.name
  setCode : card.setCode = c.setCode
  collectorNumber : card.collectorNumber = c.collectorNumber
  lang : card.lang = c.lang
  rarity : card.rarity = c.rarity
  typeLine : card.typeLine = c.typeLine
  releasedAt : card.releasedAt = c.releasedAt
  price : card.priceUsd = c.price.join
  manaCost : card.manaCost = c.manaCost.or (c.faces.head?.bind Face.manaCost)
  image : card.imageUri = c.image.join.or (c.faces.head?.bind Face.image).join

section Cards

variable {ms : List (String × Json)} {c : FeedCard} {card : Card}

theorem get_text_iff {key s : String} (index : Nat) :
    (Fields.members ms).get index (textSlot key) = .ok s ↔ Dict.find? ms key = some (.text s) := by
  rw [get_members_iff]
  change (textSlot key).Gives (Dict.find? ms key) s ↔ _
  cases Dict.find? ms key with
  | none => exact ⟨nofun, nofun⟩
  | some v => exact text_iff.trans ⟨congrArg some, Option.some.inj⟩

theorem get_lang_iff {s : String} (index : Nat) : (Fields.members ms).get index langSlot = .ok s ↔
    Dict.find? ms "lang" = none ∧ s = "en" ∨ Dict.find? ms "lang" = some (.text s) := by
  rw [get_members_iff]
  refine defaulted_gives_iff.trans (or_congr Iff.rfl ⟨?_, fun h => ⟨_, h, rfl⟩⟩)
  rintro ⟨w, hw, htext⟩
  exact hw.trans (congrArg some (text_iff.1 htext))

theorem get_faces_iff (hms : Proper (.object ms)) {faces : List Face} (index : Nat) :
    (Fields.members ms).get index facesSlot = .ok faces ↔ Dict.find? ms "card_faces" = none ∧ faces = [] ∨
      ∃ items, Dict.find? ms "card_faces" = some (.array items) ∧ List.Forall₂ IsFace items faces := by
  rw [get_members_iff]
  refine defaulted_gives_iff.trans (or_congr Iff.rfl ⟨?_, ?_⟩)
  · rintro ⟨w, hw, hlist⟩
    obtain ⟨items, rfl, hfaces⟩ := (list_iff (hms.member hw) fun v hv a => face_iff hv).1 hlist
    exact ⟨items, hw, hfaces⟩
  · rintro ⟨items, hw, hfaces⟩
    exact ⟨_, hw, (list_iff (hms.member hw) fun v hv a => face_iff hv).2 ⟨items, rfl, hfaces⟩⟩

/-- The fields of a card. -/
structure CardGets (f : Fields) (c : FeedCard) : Prop where
  id : f.get 0 (textSlot "id") = .ok c.id
  oracleId : f.get 1 (textSlot? "oracle_id") = .ok c.oracleId
  name : f.get 2 (textSlot "name") = .ok c.name
  setCode : f.get 3 (textSlot "set") = .ok c.setCode
  collectorNumber : f.get 4 (textSlot "collector_number") = .ok c.collectorNumber
  lang : f.get 5 langSlot = .ok c.lang
  rarity : f.get 6 (textSlot? "rarity") = .ok c.rarity
  typeLine : f.get 7 (textSlot? "type_line") = .ok c.typeLine
  manaCost : f.get 8 (textSlot? "mana_cost") = .ok c.manaCost
  releasedAt : f.get 9 (textSlot? "released_at") = .ok c.releasedAt
  image : f.get 10 imageSlot = .ok c.image
  faces : f.get 11 facesSlot = .ok c.faces
  price : f.get 12 priceSlot = .ok c.price

theorem describes_iff (hms : Proper (.object ms)) : CardGets (.members ms) c ↔ Describes ms c := by
  constructor
  · intro h
    exact ⟨(get_text_iff 0).1 h.id, (get_text?_iff 1).1 h.oracleId, (get_text_iff 2).1 h.name, (get_text_iff 3).1 h.setCode,
      (get_text_iff 4).1 h.collectorNumber, (get_lang_iff 5).1 h.lang, (get_text?_iff 6).1 h.rarity,
      (get_text?_iff 7).1 h.typeLine, (get_text?_iff 8).1 h.manaCost, (get_text?_iff 9).1 h.releasedAt,
      (get_images_iff hms 10).1 h.image, (get_faces_iff hms 11).1 h.faces, (get_prices_iff hms 12).1 h.price⟩
  · intro h
    exact ⟨(get_text_iff 0).2 h.id, (get_text?_iff 1).2 h.oracleId, (get_text_iff 2).2 h.name, (get_text_iff 3).2 h.setCode,
      (get_text_iff 4).2 h.collectorNumber, (get_lang_iff 5).2 h.lang, (get_text?_iff 6).2 h.rarity,
      (get_text?_iff 7).2 h.typeLine, (get_text?_iff 8).2 h.manaCost, (get_text?_iff 9).2 h.releasedAt,
      (get_images_iff hms 10).2 h.image, (get_faces_iff hms 11).2 h.faces, (get_prices_iff hms 12).2 h.price⟩

/-- A card of a feed reads from an object that describes it. -/
theorem feedCard_iff (hms : Proper (.object ms)) : FeedCard.reader (.object ms) = .ok c ↔ Describes ms c := by
  rw [← describes_iff hms]
  cases hms with
  | object hkeys hmembers =>
  unfold FeedCard.reader
  constructor
  · intro h
    obtain ⟨-, -, hbuild⟩ := bind_eq_ok_iff.1 h
    simp only [bind_eq_ok_iff] at hbuild
    obtain ⟨_, hid, _, horacle, _, hname, _, hset, _, hnumber, _, hlang, _, hrarity, _, htype, _, hcost, _, hreleased, _,
      himage, _, hfaces, _, hprice, h⟩ := hbuild
    cases h
    exact ⟨hid, horacle, hname, hset, hnumber, hlang, hrarity, htype, hcost, hreleased, himage, hfaces, hprice⟩
  · intro h
    rw [record_object_iff hkeys fun _ => ?_]
    · simp only [bind_eq_ok_iff]
      exact ⟨_, h.id, _, h.oracleId, _, h.name, _, h.setCode, _, h.collectorNumber, _, h.lang, _, h.rarity, _, h.typeLine, _,
        h.manaCost, _, h.releasedAt, _, h.image, _, h.faces, _, h.price, rfl⟩
    · simp only [List.forall_mem_cons]
      exact ⟨get_probed h.id, get_probed h.oracleId, get_probed h.name, get_probed h.setCode, get_probed h.collectorNumber,
        get_probed h.lang, get_probed h.rarity, get_probed h.typeLine, get_probed h.manaCost, get_probed h.releasedAt,
        get_probed h.image, get_probed h.faces, get_probed h.price, nofun⟩

/-- A card without an id or a name is turned down, and of others it is kept what has to be. -/
theorem toCard_iff : c.toCard = .ok card ↔ isAllBlank c.id = false ∧ isAllBlank c.name = false ∧ Keeps c card := by
  unfold FeedCard.toCard
  cases hid : isAllBlank c.id with
  | true => simp
  | false =>
    cases hname : isAllBlank c.name with
    | true => simp
    | false =>
      simp only [Bool.false_eq_true, if_false, true_and, Except.ok.injEq]
      constructor
      · rintro rfl
        exact ⟨rfl, rfl, rfl, rfl, rfl, rfl, rfl, rfl, rfl, rfl, Option.orElse_eq_or, Option.orElse_eq_or⟩
      · intro h
        obtain ⟨⟩ := card
        rw [Card.mk.injEq]
        exact ⟨h.id.symm, h.oracleId.symm, h.name.symm, h.setCode.symm, h.collectorNumber.symm, h.lang.symm, h.rarity.symm,
          h.typeLine.symm, Option.orElse_eq_or.trans h.manaCost.symm, h.releasedAt.symm,
          Option.orElse_eq_or.trans h.image.symm, h.price.symm⟩

/-! ### Members that no field names -/

/-- The names of the fields of a card. -/
def cardKeys : List String :=
  ["id", "oracle_id", "name", "set", "collector_number", "lang", "rarity", "type_line", "mana_cost", "released_at",
    "image_uris", "card_faces", "prices"]

/-- The members of an object that the fields of a card name. -/
def knownMembers (ms : List (String × Json)) : List (String × Json) := ms.filter fun p => cardKeys.contains p.1

theorem readCard_knownMembers (ms : List (String × Json)) :
    readCard (.object (knownMembers ms)) = readCard (.object ms) := by
  have hlabel : labelOf (.object (knownMembers ms)) "id" "<no id>" = labelOf (.object ms) "id" "<no id>" := by
    unfold labelOf Json.member?
    dsimp only
    rw [knownMembers, find?_filter (by decide)]
  have hreader : FeedCard.reader (.object (knownMembers ms)) = FeedCard.reader (.object ms) := by
    refine record_known (by decide) ?_
    simp (disch := decide) only [get_members_filter]
  unfold readCard
  rw [hreader, hlabel]

/-! ### What is said of the others -/

theorem infix_append (before text after : String) : text.toList <:+: (before ++ text ++ after).toList := by
  rw [String.toList_append, String.toList_append]
  exact ⟨before.toList, after.toList, rfl⟩

/-- What is said of an object that is no card names its id. -/
theorem rejected_names_id (hms : Proper (.object ms)) {id message : String}
    (hid : Dict.find? ms "id" = some (.text id)) (hblank : isAllBlank id = false)
    (h : readCard (.object ms) = .error message) : id.toList <:+: message.toList := by
  unfold readCard at h
  cases hread : FeedCard.reader (.object ms) with
  | error e =>
    have hlabel : labelOf (.object ms) "id" "<no id>" = id := by
      unfold labelOf Json.member?
      dsimp only
      rw [hid]
      rfl
    rw [hread, hlabel] at h
    cases h
    rw [String.append_assoc]
    exact infix_append "card " _ _
  | ok c =>
    have hsame : c.id = id := by
      have hread := ((feedCard_iff hms).1 hread).id
      rw [hid] at hread
      cases hread
      rfl
    have hcard : c.toCard = .error message := by rw [hread] at h; exact h
    unfold FeedCard.toCard at hcard
    rw [hsame, hblank] at hcard
    split at hcard
    · next hno => cases hno
    · split at hcard
      · cases hcard
        exact infix_append "card " _ _
      · cases hcard

end Cards

/-! ## Main theorem -/

/-- **The cards of a feed.** An object is a card if and only if it describes one whose id and name are not blank, and then
this is what is kept of it. Members that no field names have no effect. What is said of an object that is no card names its
id, unless that is blank. -/
theorem cards_read {ms : List (String × Json)} (hms : Proper (.object ms)) :
    (∀ card, readCard (.object ms) = .ok card ↔
      ∃ c, Describes ms c ∧ isAllBlank c.id = false ∧ isAllBlank c.name = false ∧ Keeps c card) ∧
    readCard (.object (knownMembers ms)) = readCard (.object ms) ∧
    ∀ id message, Dict.find? ms "id" = some (.text id) → isAllBlank id = false →
      readCard (.object ms) = .error message → id.toList <:+: message.toList := by
  refine ⟨fun card => ?_, readCard_knownMembers ms, fun id message hid hblank => rejected_names_id hms hid hblank⟩
  have hread : readCard (.object ms) = .ok card ↔ ∃ c, FeedCard.reader (.object ms) = .ok c ∧ c.toCard = .ok card := by
    unfold readCard
    cases FeedCard.reader (.object ms) with
    | error e => exact ⟨nofun, nofun⟩
    | ok c => exact ⟨fun h => ⟨c, rfl, h⟩, fun ⟨_, heq, h⟩ => by cases heq; exact h⟩
  rw [hread]
  exact exists_congr fun c => and_congr (feedCard_iff hms) toCard_iff

/-- A card with two faces: the image is its own, the cost is that of its front. -/
theorem front_gives_what_is_missing :
    let front : Json := .object [("image_uris", .null), ("mana_cost", .text "U")]
    let back : Json := .object [("mana_cost", .text "")]
    let ms : List (String × Json) :=
      [("card_faces", .array [front, back]), ("collector_number", .text "51"), ("id", .text "c2"),
        ("image_uris", .object [("normal", .text "n.jpg")]), ("name", .text "Delver"), ("set", .text "isd")]
    readCard (.object ms) =
      .ok ⟨"c2", none, "Delver", "isd", "51", "en", none, none, some "U", none, some "n.jpg", none⟩ := by
  intro front back ms
  let c : FeedCard :=
    ⟨"c2", none, "Delver", "isd", "51", "en", none, none, none, none, some (some "n.jpg"), [⟨some "U", none⟩, ⟨some "", none⟩],
      none⟩
  have hproper : Proper (.object ms) := by
    refine .object (by decide) ?_
    simp only [ms, front, back, List.forall_mem_cons]
    refine ⟨.array ?_, .text _, .text _, .object (by decide) ?_, .text _, .text _, nofun⟩
    · simp only [List.forall_mem_cons]
      refine ⟨.object (by decide) ?_, .object (by decide) ?_, nofun⟩
      · simp only [List.forall_mem_cons]
        exact ⟨.null, .text _, nofun⟩
      · simp only [List.forall_mem_cons]
        exact ⟨.text _, nofun⟩
    · simp only [List.forall_mem_cons]
      exact ⟨.text _, nofun⟩
  have hfaces : List.Forall₂ IsFace [front, back] c.faces :=
    .cons (.object (.present rfl) .null) (.cons (.object (.present rfl) .absent) .nil)
  have hdescribes : Describes ms c :=
    ⟨rfl, .absent, rfl, rfl, rfl, .inl ⟨rfl, rfl⟩, .absent, .absent, .absent, .absent, .present (.object (.present rfl)),
      .inr ⟨_, rfl, hfaces⟩, .absent⟩
  exact ((cards_read hproper).1 _).2
    ⟨c, hdescribes, by decide, by decide, rfl, rfl, rfl, rfl, rfl, rfl, rfl, rfl, rfl, rfl, rfl, rfl⟩

end CatalogSync.Import
