import CatalogSync.Proofs.Json.Proper
import CatalogSync.Proofs.Store.Outcomes

/-!
# What reads as a record

A record reads from an object that is proper if and only if each of its fields reads what the object has under its name, or
has a value for when there is nothing (`record_object_iff`); it reads from an array that holds all its fields in order
(`record_array_iff`). Members that no field names have no effect, on errors neither (`record_known`).
-/

namespace CatalogSync.Json

open CatalogSync.Text

theorem find?_filter {ms : List (String × Json)} {key : String} {known : String → Bool} (hkey : known key = true) :
    Dict.find? (ms.filter fun p => known p.1) key = Dict.find? ms key := by
  induction ms with
  | nil => rfl
  | cons p r ih =>
    obtain ⟨k, w⟩ := p
    cases hk : known k with
    | true =>
      rw [List.filter_cons_of_pos (by simpa using hk)]
      unfold Dict.find?
      rw [ih]
    | false =>
      have hne : k ≠ key := by
        rintro rfl
        rw [hk] at hkey
        cases hkey
      rw [List.filter_cons_of_neg (by simp [hk]), ih]
      exact (if_neg hne).symm

/-! ## Fields -/

section Fields

variable {α : Type} {s : Slot α} {a : α} {ms : List (String × Json)}

/-- What a field reads of a value, or has if there is none. -/
def Slot.Gives (s : Slot α) (v : Option Json) (a : α) : Prop :=
  match v with
  | some v => s.read v = .ok a
  | none => s.absent = some a

theorem get_members_iff (index : Nat) :
    (Fields.members ms).get index s = .ok a ↔ s.Gives (Dict.find? ms s.name) a := by
  unfold Fields.get Slot.Gives
  dsimp only
  cases Dict.find? ms s.name with
  | some v => rfl
  | none =>
    cases s.absent with
    | none => exact ⟨nofun, nofun⟩
    | some b => simp

/-- A field reads the same of the members among which those are that its name could be. -/
theorem get_members_filter {known : String → Bool} (index : Nat) (hs : known s.name = true) :
    (Fields.members (ms.filter fun p => known p.1)).get index s = (Fields.members ms).get index s := by
  unfold Fields.get
  dsimp only
  rw [find?_filter hs]

theorem probe_iff {v : Json} : s.probe.2 v = .ok () ↔ ∃ a, s.read v = .ok a := by
  unfold Slot.probe
  rw [bind_eq_ok_iff]
  exact ⟨fun ⟨a, h, _⟩ => ⟨a, h⟩, fun ⟨a, h⟩ => ⟨a, h, rfl⟩⟩

/-- A field is read from an array by its place. -/
theorem get_items_iff {record : String} {size index : Nat} {items : List Json} {v : Json}
    (hv : items[index]? = some v) : (Fields.items record size items).get index s = .ok a ↔ s.read v = .ok a := by
  unfold Fields.get
  dsimp only
  rw [hv]

theorem get_items {record : String} {size index : Nat} {items : List Json} {v : Json} {r : Reader α}
    (hv : items[index]? = some v) (h : r v = .ok a) (hr : s.read = r) :
    (Fields.items record size items).get index s = .ok a := by
  rw [get_items_iff hv, hr, h]

theorem get_items_short {record : String} {size index : Nat} {items : List Json} (hshort : s.short = none)
    (hv : items[index]? = none) : (Fields.items record size items).get index s ≠ .ok a := by
  unfold Fields.get
  dsimp only
  rw [hv, hshort]
  nofun

/-- A field that has to be there reads a value. -/
theorem read_of_get {f : Fields} {index : Nat} (habsent : s.absent = none) (hshort : s.short = none)
    (h : f.get index s = .ok a) : ∃ v, s.read v = .ok a := by
  cases f with
  | members ms =>
    rw [get_members_iff] at h
    cases hfind : Dict.find? ms s.name with
    | some v =>
      rw [hfind] at h
      exact ⟨v, h⟩
    | none =>
      rw [hfind] at h
      cases habsent.symm.trans h
  | items record size items =>
    cases hv : items[index]? with
    | some v => exact ⟨v, (get_items_iff hv).1 h⟩
    | none => exact absurd h (get_items_short hshort hv)

/-- A field that may be missing reads a value, or there is none. -/
theorem read_of_get? {r : Reader α} {name : String} {f : Fields} {index : Nat} {o : Option α}
    (h : f.get index (Slot.optional name r) = .ok o) : o = none ∨ ∃ v, r.optional v = .ok o := by
  cases f with
  | members ms =>
    rw [get_members_iff] at h
    cases hfind : Dict.find? ms (Slot.optional name r).name with
    | some v =>
      rw [hfind] at h
      exact .inr ⟨v, h⟩
    | none =>
      rw [hfind] at h
      exact .inl (Option.some.inj h).symm
  | items record size items =>
    cases hv : items[index]? with
    | some v => exact .inr ⟨v, (get_items_iff hv).1 h⟩
    | none => exact absurd h (get_items_short rfl hv)

/-- A field reads what is written in its place and under its name. -/
theorem get_ofList {pairs : List (String × Json)} {keys : List String} {index : Nat} {v : Json} {r : Reader α}
    (hkeys : keys.Nodup) (hpairs : pairs.map Prod.fst = keys) (hat : pairs[index]? = some (s.name, v)) (h : r v = .ok a)
    (hr : s.read = r) : (Fields.members (Dict.ofList pairs)).get index s = .ok a := by
  subst hpairs
  rw [get_members_iff, Dict.find?_ofList_of_mem hkeys (List.mem_of_getElem? hat)]
  show s.read v = .ok a
  rw [hr, h]

end Fields

/-! ## Records -/

section Records

variable {α : Type} {name : String} {probes : List (String × (Json → Except String Unit))} {build : Fields → Except String α}
  {ms : List (String × Json)} {a : α}

/-- What an object has under a name is read there. -/
def Probed (ms : List (String × Json)) (p : String × (Json → Except String Unit)) : Prop :=
  ∀ v, Dict.find? ms p.1 = some v → p.2 v = .ok ()

theorem get_probed {β : Type} {s : Slot β} {b : β} {index : Nat} (h : (Fields.members ms).get index s = .ok b) :
    Probed ms s.probe := by
  intro v hv
  have hname : Dict.find? ms s.name = some v := hv
  have hgives := (get_members_iff index).1 h
  rw [hname] at hgives
  exact probe_iff.2 ⟨b, hgives⟩

theorem checkMembers_known {k : String} {v : Json} {check : Json → Except String Unit} (h : probes.lookup k = some check) :
    checkMembers probes ((k, v) :: ms) = check v >>= fun _ => checkMembers probes ms := by
  conv_lhs => unfold checkMembers
  rw [h]

theorem checkMembers_unknown {k : String} (h : probes.lookup k = none) (v : Json) :
    checkMembers probes ((k, v) :: ms) = checkMembers probes ms := by
  conv_lhs => unfold checkMembers
  rw [h]

theorem checkMembers_iff :
    checkMembers probes ms = .ok () ↔ ∀ p ∈ ms, ∀ check, probes.lookup p.1 = some check → check p.2 = .ok () := by
  induction ms with
  | nil => exact ⟨fun _ p hp => absurd hp List.not_mem_nil, fun _ => rfl⟩
  | cons p r ih =>
    obtain ⟨k, v⟩ := p
    rw [List.forall_mem_cons, ← ih]
    cases hcheck : probes.lookup k with
    | none =>
      rw [checkMembers_unknown hcheck]
      exact ⟨fun h => ⟨nofun, h⟩, fun h => h.2⟩
    | some check =>
      rw [checkMembers_known hcheck, bind_eq_ok_iff]
      constructor
      · rintro ⟨u, hv, hrest⟩
        refine ⟨?_, hrest⟩
        rintro _ ⟨⟩
        exact hv
      · rintro ⟨hv, hrest⟩
        exact ⟨(), hv check rfl, hrest⟩

theorem checkMembers_of_probed (hkeys : (ms.map Prod.fst).Nodup) (h : ∀ p ∈ probes, Probed ms p) :
    checkMembers probes ms = .ok () := by
  rw [checkMembers_iff]
  rintro ⟨k, v⟩ hmem check hcheck
  obtain ⟨before, after, rfl, -⟩ := List.lookup_eq_some_iff.1 hcheck
  exact h (k, check) (List.mem_append_right before List.mem_cons_self) v (Dict.find?_of_mem hkeys hmem)

/-- A record reads from a proper object if its fields do. -/
theorem record_object_iff (hkeys : (ms.map Prod.fst).Nodup)
    (hbuild : build (.members ms) = .ok a → ∀ p ∈ probes, Probed ms p) :
    record name probes build (.object ms) = .ok a ↔ build (.members ms) = .ok a := by
  unfold record
  dsimp only
  rw [bind_eq_ok_iff]
  constructor
  · rintro ⟨u, -, h⟩
    exact h
  · exact fun h => ⟨(), checkMembers_of_probed hkeys (hbuild h), h⟩

/-- A record reads from an array that is not too long if its fields do. -/
theorem record_array_iff {items : List Json} :
    record name probes build (.array items) = .ok a ↔
      items.length ≤ probes.length ∧ build (.items name probes.length items) = .ok a := by
  unfold record
  dsimp only
  rw [bind_eq_ok_iff]
  by_cases hlong : probes.length < items.length
  · refine ⟨?_, fun h => absurd h.1 (Nat.not_le.2 hlong)⟩
    rintro ⟨b, -, h⟩
    rw [if_pos hlong] at h
    cases h
  · simp only [if_neg hlong]
    constructor
    · rintro ⟨b, hb, h⟩
      cases h
      exact ⟨Nat.not_lt.1 hlong, hb⟩
    · exact fun h => ⟨a, h.2, rfl⟩

/-- A record that is read is built of the fields of an object or an array. -/
theorem build_of_record {v : Json} (h : record name probes build v = .ok a) : ∃ f, build f = .ok a := by
  cases v with
  | object ms =>
    obtain ⟨-, -, h⟩ := bind_eq_ok_iff.1 h
    exact ⟨_, h⟩
  | array items => exact ⟨_, (record_array_iff.1 h).2⟩
  | _ => cases h

/-- Members that no field names have no effect. -/
theorem record_known {known : String → Bool} (hprobes : ∀ p ∈ probes, known p.1 = true)
    (hbuild : build (.members (ms.filter fun p => known p.1)) = build (.members ms)) :
    record name probes build (.object (ms.filter fun p => known p.1)) = record name probes build (.object ms) := by
  have hcheck : checkMembers probes (ms.filter fun p => known p.1) = checkMembers probes ms := by
    clear hbuild
    induction ms with
    | nil => rfl
    | cons p r ih =>
      obtain ⟨k, v⟩ := p
      cases hlookup : probes.lookup k with
      | some check =>
        obtain ⟨before, after, rfl, -⟩ := List.lookup_eq_some_iff.1 hlookup
        have hk : known k = true := hprobes (k, check) (List.mem_append_right before List.mem_cons_self)
        rw [List.filter_cons_of_pos (by simpa using hk), checkMembers_known hlookup, checkMembers_known hlookup, ih]
      | none =>
        rw [checkMembers_unknown hlookup, ← ih]
        cases hk : known k with
        | true => rw [List.filter_cons_of_pos (by simpa using hk), checkMembers_unknown hlookup]
        | false => rw [List.filter_cons_of_neg (by simp [hk])]
  unfold record
  dsimp only
  rw [hcheck, hbuild]

end Records

/-! ## What single fields read -/

def IsText (v : Json) (s : String) : Prop := v = .text s

/-- There is no value, or null, or one that is something. -/
inductive Optionally {α : Type} (P : Json → α → Prop) : Option Json → Option α → Prop
  | absent : Optionally P none none
  | null : Optionally P (some .null) none
  | present {v : Json} {a : α} (h : P v a) : Optionally P (some v) (some a)

section Values

variable {α : Type} {P : Json → α → Prop} {r : Reader α} {name : String}

theorem text_iff {v : Json} {s : String} : Reader.text v = .ok s ↔ IsText v s := by
  unfold IsText
  cases v <;> simp [Reader.text]

theorem optional_iff {v : Json} {o : Option α} (hP : ∀ a, r v = .ok a ↔ P v a) (hnull : ∀ a, ¬ P .null a) :
    r.optional v = .ok o ↔ Optionally P (some v) o := by
  cases v with
  | null =>
    constructor
    · intro h
      cases h
      exact .null
    · intro h
      cases h with
      | null => rfl
      | present h => exact absurd h (hnull _)
  | _ =>
    unfold Reader.optional
    dsimp only
    rw [bind_eq_ok_iff]
    constructor
    · rintro ⟨a, ha, h⟩
      cases h
      exact .present ((hP a).1 ha)
    · intro h
      cases h with
      | present h => exact ⟨_, (hP _).2 h, rfl⟩

theorem optional_gives_iff {v : Option Json} {o : Option α} (hP : ∀ w, v = some w → ∀ a, r w = .ok a ↔ P w a)
    (hnull : ∀ a, ¬ P .null a) : (Slot.optional name r).Gives v o ↔ Optionally P v o := by
  cases v with
  | none =>
    constructor
    · intro h
      cases h
      exact .absent
    · intro h
      cases h
      rfl
  | some w => exact optional_iff (hP w rfl) hnull

theorem defaulted_gives_iff {v : Option Json} {a value : α} : (Slot.defaulted name r value).Gives v a ↔
    v = none ∧ a = value ∨ ∃ w, v = some w ∧ r w = .ok a := by
  cases v with
  | none => exact ⟨fun h => .inl ⟨rfl, (Option.some.inj h).symm⟩, fun h => by simp_all [Slot.Gives, Slot.defaulted]⟩
  | some w => simp [Slot.Gives, Slot.defaulted]

/-- A list reads if each of its items does. -/
theorem list_iff {v : Json} {as : List α} (hv : Proper v) (hP : ∀ w, Proper w → ∀ a, r w = .ok a ↔ P w a) :
    Reader.list r v = .ok as ↔ ∃ items, v = .array items ∧ List.Forall₂ P items as := by
  cases v with
  | array items =>
    have hitems : items.mapM r = .ok as ↔ List.Forall₂ P items as := mapM_eq_ok_iff fun w hw => hP w (hv.item hw)
    exact hitems.trans ⟨fun h => ⟨items, rfl, h⟩, fun ⟨_, heq, h⟩ => by cases heq; exact h⟩
  | _ => exact ⟨nofun, fun ⟨_, heq, _⟩ => by cases heq⟩

end Values

theorem not_isText_null (s : String) : ¬ IsText .null s := nofun

/-- A record of one text that may be missing, in an object or alone in an array. -/
inductive HoldsText (key : String) : Json → Option String → Prop
  | object {ms : List (String × Json)} {o : Option String} (text : Optionally IsText (Dict.find? ms key) o) :
    HoldsText key (.object ms) o
  | array {v : Json} {o : Option String} (text : Optionally IsText (some v) o) : HoldsText key (.array [v]) o

section Texts

variable {ms : List (String × Json)} {o : Option String} {key : String}

theorem get_text?_iff (index : Nat) :
    (Fields.members ms).get index (Slot.optional key Reader.text) = .ok o ↔ Optionally IsText (Dict.find? ms key) o := by
  rw [get_members_iff]
  exact optional_gives_iff (fun _ _ _ => text_iff) not_isText_null

theorem holdsText_iff (name : String) {v : Json} (hv : Proper v) :
    record name [(Slot.optional key Reader.text).probe] (fun f => f.get 0 (Slot.optional key Reader.text)) v = .ok o ↔
      HoldsText key v o := by
  cases hv with
  | @object ms hkeys hmembers =>
    have hprobed : (Fields.members ms).get 0 (Slot.optional key Reader.text) = .ok o →
        ∀ p ∈ [(Slot.optional key Reader.text).probe], Probed ms p := by
      rintro h p hp
      obtain rfl := List.mem_singleton.1 hp
      exact get_probed h
    rw [record_object_iff hkeys hprobed, get_text?_iff]
    exact ⟨.object, fun h => by cases h; assumption⟩
  | @array items hitems =>
    rw [record_array_iff]
    match items with
    | [] => exact ⟨fun h => absurd h.2 (get_items_short rfl rfl), nofun⟩
    | [w] =>
      rw [get_items_iff rfl]
      have hone : Reader.optional Reader.text w = .ok o ↔ Optionally IsText (some w) o :=
        optional_iff (fun _ => text_iff) not_isText_null
      exact ⟨fun h => .array (hone.1 h.2), fun h => by cases h with | array text => exact ⟨Nat.le_refl 1, hone.2 text⟩⟩
    | w :: x :: rest => exact ⟨fun h => absurd h.1 (by simp), nofun⟩
  | _ => exact ⟨nofun, nofun⟩

end Texts

end CatalogSync.Json
