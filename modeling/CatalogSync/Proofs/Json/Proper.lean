import CatalogSync.Proofs.Json.Reading
import CatalogSync.Proofs.Text.Dict

/-!
# Objects without double keys

In a `Proper` value no object has a key twice, so that a key is found with the only value it has. Main statement:
`proper_of_readValue`. What is read from a text is proper, since the keys of an object are kept in rising order.
-/

namespace CatalogSync.Json

open CatalogSync.Text

/-- No object in a value has a key twice. -/
inductive Proper : Json → Prop
  | null : Proper .null
  | bool (b : Bool) : Proper (.bool b)
  | int (i : Int) : Proper (.int i)
  | real (x : Binary64) : Proper (.real x)
  | text (s : String) : Proper (.text s)
  | array {items : List Json} (items_proper : ∀ v ∈ items, Proper v) : Proper (.array items)
  | object {ms : List (String × Json)} (keys : (ms.map Prod.fst).Nodup) (members_proper : ∀ p ∈ ms, Proper p.2) :
    Proper (.object ms)

/-! ## Members -/

section Members

variable {ms : List (String × Json)} {key : String} {v : Json}

theorem Proper.member (h : Proper (.object ms)) (hfind : Dict.find? ms key = some v) : Proper v := by
  cases h with
  | object _ hmembers => exact hmembers _ (Dict.mem_of_find? hfind)

theorem Proper.item {items : List Json} (h : Proper (.array items)) (hv : v ∈ items) : Proper v := by
  cases h with
  | array hitems => exact hitems v hv

theorem Proper.of_number (h : IsNumber v) : Proper v := by
  cases v with
  | int i => exact .int i
  | real x => exact .real x
  | _ => cases h

end Members

/-! ## What is read -/

namespace Outlook

/-- Of the items and members of a value it is asked that they are proper. -/
theorem proper_of_parts {fuel depth : Nat} {c c' : Cursor} {v : Json}
    (hitems : ∀ {c items}, readItems fuel (depth - 1) c true [] = .ok (items, c') → ∀ w ∈ items, Proper w)
    (hmembers : ∀ {c ms}, readMembers fuel (depth - 1) c true [] = .ok (ms, c') → Dict.Rising ms ∧ ∀ p ∈ ms, Proper p.2)
    (h : readValue (fuel + 1) depth c = .ok (v, c')) : Proper v := by
  rw [readValue] at h
  obtain ⟨⟨next, b⟩, -, h⟩ := ok_of_bind h
  cases next with
  | none => cases h
  | some a =>
    dsimp only at h
    have hdeep : ∀ {α : Type} {r : α}, (b.failAhead .tooDeep : Except Failure α) ≠ .ok r := by
      intro α r h
      cases h
    have hword : ∀ {w : Json} {word : List UInt8}, Proper w →
        (do return (w, ← readWord b.skip word) : Except Failure (Json × Cursor)) = .ok (v, c') → Proper v := by
      intro w word hw h
      obtain ⟨e, -, h⟩ := ok_of_bind h
      cases h
      exact hw
    split at h
    · exact hword .null h
    split at h
    · exact hword (.bool true) h
    split at h
    · exact hword (.bool false) h
    split at h
    · exact .of_number (isNumber_of_readNumber h)
    split at h
    · exact .of_number (isNumber_of_readNumber h)
    split at h
    · obtain ⟨⟨s, e⟩, -, h⟩ := ok_of_bind h
      cases h
      exact .text s
    split at h
    · obtain ⟨-, h⟩ := ok_of_ite h hdeep
      obtain ⟨⟨items, e⟩, hread, h⟩ := ok_of_bind h
      cases h
      exact .array (hitems hread)
    split at h
    · obtain ⟨-, h⟩ := ok_of_ite h hdeep
      obtain ⟨⟨ms, e⟩, hread, h⟩ := ok_of_bind h
      cases h
      exact .object (hmembers hread).1.nodup (hmembers hread).2
    · cases h

/-- By induction on the steps allowed: the items before stay proper, and so do the members, with their keys in order. -/
theorem proper_steps (fuel : Nat) :
    (∀ {depth c v c'}, readValue fuel depth c = .ok (v, c') → Proper v) ∧
    (∀ {depth c first acc items c'}, (∀ w ∈ acc, Proper w) → readItems fuel depth c first acc = .ok (items, c') →
      ∀ w ∈ items, Proper w) ∧
    ∀ {depth c first acc ms c'}, Dict.Rising acc → (∀ p ∈ acc, Proper p.2) →
      readMembers fuel depth c first acc = .ok (ms, c') → Dict.Rising ms ∧ ∀ p ∈ ms, Proper p.2 := by
  induction fuel with
  | zero =>
    refine ⟨fun h => ?_, fun _ h => ?_, fun _ _ h => ?_⟩
    · rw [readValue] at h; cases h
    · rw [readItems] at h; cases h
    · rw [readMembers] at h; cases h
  | succ fuel ih =>
    obtain ⟨ihvalue, ihitems, ihmembers⟩ := ih
    refine ⟨?_, ?_, ?_⟩
    · exact proper_of_parts (ihitems (List.forall_mem_nil _)) (ihmembers .nil (List.forall_mem_nil _))
    · intro depth c first acc items c' hacc h
      rw [readItems] at h
      obtain ⟨⟨more, b⟩, -, h⟩ := ok_of_bind h
      cases more with
      | false =>
        cases h
        exact fun w hw => hacc w (List.mem_reverse.1 hw)
      | true =>
        obtain ⟨⟨v, e⟩, hread, h⟩ := ok_of_bind h
        exact ihitems (List.forall_mem_cons.2 ⟨ihvalue hread, hacc⟩) h
    · intro depth c first acc ms c' hrising hacc h
      rw [readMembers] at h
      obtain ⟨⟨more, b⟩, -, h⟩ := ok_of_bind h
      cases more with
      | false =>
        cases h
        exact ⟨hrising, hacc⟩
      | true =>
        obtain ⟨⟨key, e⟩, -, h⟩ := ok_of_bind h
        obtain ⟨⟨v, e'⟩, hread, h⟩ := ok_of_bind h
        refine ihmembers hrising.put (fun p hp => ?_) h
        rcases Dict.mem_put hp with rfl | hp
        · exact ihvalue hread
        · exact hacc p hp

end Outlook

/-- What is read from a text is proper. -/
theorem proper_of_readValue {fuel depth : Nat} {c c' : Cursor} {v : Json} (h : readValue fuel depth c = .ok (v, c')) :
    Proper v :=
  (Outlook.proper_steps fuel).1 h

end CatalogSync.Json
