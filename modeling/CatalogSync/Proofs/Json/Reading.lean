import CatalogSync.Proofs.Json.Scanning
import CatalogSync.Proofs.Store.Outcomes

/-!
# Values with more in sight

A value that is read at one cursor is read as well at a cursor that sees further, whatever steps are
allowed, as long as they suffice. `agree_readValue` is the main statement: by turns it says that a
value does not depend on the bytes after it, that it does not depend on the steps allowed, and that
reading it consumes some of the bytes.
-/

namespace CatalogSync.Json

namespace Outlook

variable {o : Outlook} {c d : Cursor} {n : Nat}

/-! ## Between the values -/

/-- Whether another item follows, and the cursors before it. -/
def Follows (o : Outlook) (n : Nat) (p q : Bool × Cursor) : Prop :=
  q.1 = p.1 ∧ p.2.rest ≠ [] ∧ o.At n p.2 q.2

theorem Before.follows {b : UInt8} {next : Option UInt8} (h : o.Before n (some b, c) (next, d)) (more : Bool) :
    o.Follows n (more, c) (more, d) := by
  obtain ⟨r, hr⟩ := h.rest_eq
  refine ⟨rfl, ?_, h.2.2.2⟩
  simp [hr]

theorem agree_elementAhead (h : o.At n c d) (first : Bool) :
    o.Agree (o.Follows n) (elementAhead c first) (elementAhead d first) := by
  unfold elementAhead
  refine agree_bind (agree_skipSpace h) ?_
  rintro ⟨next, c⟩ ⟨next', d⟩ hbefore
  obtain rfl : next' = next := hbefore.1
  cases next' with
  | none => exact hbefore.failAhead (by simp)
  | some b =>
    refine agree_ite (fun _ => agree_ok (hbefore.follows false)) fun _ => ?_
    refine agree_ite (fun _ => agree_ok (hbefore.follows true)) fun _ => ?_
    refine agree_ite (fun _ => ?_) fun _ => hbefore.failAhead (by simp)
    refine agree_bind (agree_skipSpace (hbefore.skip.mono (Nat.sub_le n 1))) ?_
    rintro ⟨after, c⟩ ⟨after', d⟩ hafter
    obtain rfl : after' = after := hafter.1
    dsimp only
    split
    · exact hafter.failAhead (by simp)
    · exact agree_ok (hafter.follows true)
    · exact hafter.failAhead (by simp)

theorem agree_memberAhead (h : o.At n c d) (first : Bool) :
    o.Agree (o.Follows n) (memberAhead c first) (memberAhead d first) := by
  unfold memberAhead
  refine agree_bind (agree_skipSpace h) ?_
  rintro ⟨next, c⟩ ⟨next', d⟩ hbefore
  obtain rfl : next' = next := hbefore.1
  cases next' with
  | none => exact hbefore.failAhead (by simp)
  | some b =>
    refine agree_ite (fun _ => agree_ok (hbefore.follows false)) fun _ => ?_
    refine agree_ite (fun _ => ?_) fun _ => ?_
    · exact agree_ite (fun _ => agree_ok (hbefore.follows true)) fun _ => hbefore.failAhead (by simp)
    refine agree_ite (fun _ => ?_) fun _ => hbefore.failAhead (by simp)
    refine agree_bind (agree_skipSpace (hbefore.skip.mono (Nat.sub_le n 1))) ?_
    rintro ⟨after, c⟩ ⟨after', d⟩ hafter
    obtain rfl : after' = after := hafter.1
    dsimp only
    split
    · exact agree_ok (hafter.follows true)
    · exact hafter.failAhead (by simp)
    · exact hafter.failAhead (by simp)
    · exact hafter.failAhead (by simp)

theorem agree_readColon (h : o.At n c d) : o.Agree (o.At n) (readColon c) (readColon d) := by
  unfold readColon
  refine agree_bind (agree_skipSpace h) ?_
  rintro ⟨next, c⟩ ⟨next', d⟩ hbefore
  obtain rfl : next' = next := hbefore.1
  dsimp only
  split
  · exact agree_ok (hbefore.skip.mono (Nat.sub_le n 1))
  · exact hbefore.failAhead (by simp)
  · exact hbefore.failAhead (by simp)

theorem agree_readKey (h : o.At n c d) (hc : c.rest ≠ []) :
    o.Agree (o.Past (n - 1)) (readKey c) (readKey d) := by
  obtain ⟨b, r, hr⟩ := List.exists_cons_of_ne_nil hc
  unfold readKey
  refine agree_bind (agree_readText (h.skip hr)) ?_
  rintro ⟨key, c⟩ ⟨key', d⟩ ⟨rfl, hat⟩
  refine agree_bind (agree_readColon hat) fun c d hat => ?_
  exact agree_ok ⟨rfl, hat.mono (Nat.sub_le _ _)⟩

/-! ## Values -/

/-- A value, given what comes of the brackets that it opens. -/
theorem agree_value {fuel fuel' depth : Nat} (h : o.At n c d)
    (hitems : 1 ≤ n → ∀ {c d : Cursor}, o.At (n - 1) c d →
      o.Agree (o.Past (n - 1)) (readItems fuel (depth - 1) c true []) (readItems fuel' (depth - 1) d true []))
    (hmembers : 1 ≤ n → ∀ {c d : Cursor}, o.At (n - 1) c d →
      o.Agree (o.Past (n - 1)) (readMembers fuel (depth - 1) c true []) (readMembers fuel' (depth - 1) d true [])) :
    o.Agree (o.Past (n - 1)) (readValue (fuel + 1) depth c) (readValue (fuel' + 1) depth d) := by
  rw [readValue, readValue]
  refine agree_bind (agree_skipSpace h) ?_
  rintro ⟨next, c⟩ ⟨next', d⟩ hbefore
  obtain rfl : next' = next := hbefore.1
  cases next' with
  | none => exact hbefore.failAhead (by simp)
  | some b =>
    have hskip := hbefore.skip
    have hword : ∀ (v : Json) (word : List UInt8),
        o.Agree (o.Past (n - 1)) (do return (v, ← readWord c.skip word)) (do return (v, ← readWord d.skip word)) := by
      intro v word
      refine agree_bind (agree_readWord hskip word) fun c d hat => ?_
      exact agree_ok ⟨rfl, hat⟩
    refine agree_ite (fun _ => hword .null _) fun _ => ?_
    refine agree_ite (fun _ => hword (.bool true) _) fun _ => ?_
    refine agree_ite (fun _ => hword (.bool false) _) fun _ => ?_
    refine agree_ite (fun _ => ?_) fun _ => agree_ite (fun _ => ?_) fun _ => ?_
    · exact agree_mono (agree_readNumber hskip true) fun p q hpq => ⟨hpq.2.1, hpq.2.2.mono (Nat.sub_le _ _)⟩
    · exact agree_mono (agree_readNumber hbefore.2.2.2 false) fun p q hpq => hpq.2
    refine agree_ite (fun _ => ?_) fun _ => agree_ite (fun _ => ?_) fun _ => agree_ite (fun _ => ?_) fun _ => ?_
    · refine agree_bind (agree_readText hskip) ?_
      rintro ⟨s, c⟩ ⟨s', d⟩ ⟨rfl, hat⟩
      exact agree_ok ⟨rfl, hat.mono (Nat.sub_le _ _)⟩
    · refine agree_ite (fun _ => hbefore.failAhead (by simp)) fun _ => agree_bind (hitems hbefore.pos hskip) ?_
      rintro ⟨items, c⟩ ⟨items', d⟩ ⟨rfl, hat⟩
      exact agree_ok ⟨rfl, hat⟩
    · refine agree_ite (fun _ => hbefore.failAhead (by simp)) fun _ => agree_bind (hmembers hbefore.pos hskip) ?_
      rintro ⟨members, c⟩ ⟨members', d⟩ ⟨rfl, hat⟩
      exact agree_ok ⟨rfl, hat⟩
    · exact hbefore.failAhead (by simp)

theorem Follows.pos {p q : Bool × Cursor} (h : o.Follows n p q) : 1 ≤ n := by
  have hlen := List.length_pos_iff.mpr h.2.1
  have hn := h.2.2.2
  omega

theorem Follows.skip {p q : Bool × Cursor} (h : o.Follows n p q) : o.At (n - 1) p.2.skip q.2.skip := by
  obtain ⟨b, r, hr⟩ := List.exists_cons_of_ne_nil h.2.1
  exact h.2.2.skip hr

/-- Items, given what comes of the values and of the items after the first. -/
theorem agree_items {fuel fuel' depth : Nat} {first : Bool} {acc : List Json} (h : o.At n c d)
    (hvalue : 1 ≤ n → ∀ {c d : Cursor}, o.At n c d →
      o.Agree (o.Past (n - 1)) (readValue fuel depth c) (readValue fuel' depth d))
    (hitems : 1 ≤ n → ∀ {c d : Cursor} {v : Json}, o.At (n - 1) c d →
      o.Agree (o.Past (n - 1)) (readItems fuel depth c false (v :: acc)) (readItems fuel' depth d false (v :: acc))) :
    o.Agree (o.Past n) (readItems (fuel + 1) depth c first acc) (readItems (fuel' + 1) depth d first acc) := by
  rw [readItems, readItems]
  refine agree_bind (agree_elementAhead h first) ?_
  rintro ⟨more, c⟩ ⟨more', d⟩ hfollows
  obtain rfl : more' = more := hfollows.1
  cases more' with
  | false => exact agree_ok ⟨rfl, hfollows.skip.mono (Nat.sub_le n 1)⟩
  | true =>
    refine agree_bind (hvalue hfollows.pos hfollows.2.2) ?_
    rintro ⟨v, c⟩ ⟨v', d⟩ ⟨rfl, hat⟩
    exact agree_mono (hitems hfollows.pos hat) fun p q hpq => ⟨hpq.1, hpq.2.mono (Nat.sub_le n 1)⟩

/-- Members, given what comes of the values and of the members after the first. -/
theorem agree_members {fuel fuel' depth : Nat} {first : Bool} {acc : Text.Dict Json} (h : o.At n c d)
    (hvalue : 1 ≤ n → ∀ {c d : Cursor}, o.At (n - 1) c d →
      o.Agree (o.Past (n - 1)) (readValue fuel depth c) (readValue fuel' depth d))
    (hmembers : 1 ≤ n → ∀ {c d : Cursor} {acc : Text.Dict Json}, o.At (n - 1) c d →
      o.Agree (o.Past (n - 1)) (readMembers fuel depth c false acc) (readMembers fuel' depth d false acc)) :
    o.Agree (o.Past n) (readMembers (fuel + 1) depth c first acc) (readMembers (fuel' + 1) depth d first acc) := by
  rw [readMembers, readMembers]
  refine agree_bind (agree_memberAhead h first) ?_
  rintro ⟨more, c⟩ ⟨more', d⟩ hfollows
  obtain rfl : more' = more := hfollows.1
  cases more' with
  | false => exact agree_ok ⟨rfl, hfollows.skip.mono (Nat.sub_le n 1)⟩
  | true =>
    refine agree_bind (agree_readKey hfollows.2.2 hfollows.2.1) ?_
    rintro ⟨key, c⟩ ⟨key', d⟩ ⟨rfl, hat⟩
    refine agree_bind (hvalue hfollows.pos hat) ?_
    rintro ⟨v, c⟩ ⟨v', d⟩ ⟨rfl, hat⟩
    exact agree_mono (hmembers hfollows.pos hat) fun p q hpq => ⟨hpq.1, hpq.2.mono (Nat.sub_le n 1)⟩

/-- Steps that suffice for a value in so many bytes. -/
def Enough (n fuel : Nat) : Prop := 2 * n ≤ fuel ∧ 1 ≤ fuel

/-- By induction on the steps: an item costs one step and what its value costs, and a value consumes a
byte and costs one step more than what is between its brackets. -/
theorem agree_steps (o : Outlook) (fuel : Nat) :
    (∀ {n fuel' depth : Nat} {c d : Cursor}, Enough n fuel → Enough n fuel' → o.At n c d →
      o.Agree (o.Past (n - 1)) (readValue fuel depth c) (readValue fuel' depth d)) ∧
    (∀ {n fuel' depth : Nat} {c d : Cursor} {first : Bool} {acc : List Json}, 2 * n + 1 ≤ fuel → 2 * n + 1 ≤ fuel' →
      o.At n c d → o.Agree (o.Past n) (readItems fuel depth c first acc) (readItems fuel' depth d first acc)) ∧
    (∀ {n fuel' depth : Nat} {c d : Cursor} {first : Bool} {acc : Text.Dict Json}, 2 * n + 1 ≤ fuel →
      2 * n + 1 ≤ fuel' → o.At n c d →
        o.Agree (o.Past n) (readMembers fuel depth c first acc) (readMembers fuel' depth d first acc)) := by
  induction fuel with
  | zero =>
    refine ⟨fun hf => ?_, fun hf => ?_, fun hf => ?_⟩
    · exact absurd hf.2 (by omega)
    · omega
    · omega
  | succ fuel ih =>
    obtain ⟨hvalue, hitems, hmembers⟩ := ih
    refine ⟨?_, ?_, ?_⟩
    · intro n fuel' depth c d hf hf' hat
      obtain ⟨fuel', rfl⟩ : ∃ k, fuel' = k + 1 := ⟨fuel' - 1, by have := hf'.2; omega⟩
      obtain ⟨hf, -⟩ := hf
      obtain ⟨hf', -⟩ := hf'
      refine agree_value hat (fun hn c d hat => ?_) (fun hn c d hat => ?_)
      · exact hitems (by omega) (by omega) hat
      · exact hmembers (by omega) (by omega) hat
    · intro n fuel' depth c d first acc hf hf' hat
      obtain ⟨fuel', rfl⟩ : ∃ k, fuel' = k + 1 := ⟨fuel' - 1, by omega⟩
      refine agree_items hat (fun hn c d hat => hvalue ⟨by omega, by omega⟩ ⟨by omega, by omega⟩ hat) ?_
      intro hn c d v hat
      exact hitems (by omega) (by omega) hat
    · intro n fuel' depth c d first acc hf hf' hat
      obtain ⟨fuel', rfl⟩ : ∃ k, fuel' = k + 1 := ⟨fuel' - 1, by omega⟩
      refine agree_members hat (fun hn c d hat => ?_) ?_
      · exact hvalue ⟨by omega, by omega⟩ ⟨by omega, by omega⟩ (hat.mono (Nat.sub_le n 1))
      intro hn c d acc hat
      exact hmembers (by omega) (by omega) hat

/-- **A value with more in sight.** Both cursors read the same value, and consume some of the bytes of
the first one. -/
theorem agree_readValue {fuel fuel' depth : Nat} (h : o.At n c d) (hf : Enough n fuel) (hf' : Enough n fuel') :
    o.Agree (o.Past (n - 1)) (readValue fuel depth c) (readValue fuel' depth d) := (agree_steps o fuel).1 hf hf' h

/-- What an error text tells of a value, for which a single step has to suffice. -/
theorem agree_readKind (h : o.At n c d) : o.Agree (o.Past n) (readKind c) (readKind d) := by
  unfold readKind
  refine agree_bind (agree_skipSpace h) ?_
  rintro ⟨next, c⟩ ⟨next', d⟩ hbefore
  obtain rfl : next' = next := hbefore.1
  dsimp only
  split
  · exact agree_ok ⟨rfl, hbefore.2.2.2⟩
  · exact agree_ok ⟨rfl, hbefore.2.2.2⟩
  · have hvalue : o.Agree (o.Past (n - 1)) (readValue 1 depthLimit c) (readValue 1 depthLimit d) := by
      refine agree_value hbefore.2.2.2 (fun _ c d hat => ?_) (fun _ c d hat => ?_)
      · rw [readItems, readItems]
        exact agree_fail hat.1 (by simp)
      · rw [readMembers, readMembers]
        exact agree_fail hat.1 (by simp)
    exact agree_mono hvalue fun p q hpq => ⟨hpq.1, hpq.2.mono (Nat.sub_le n 1)⟩

/-- After the value: the end, if the second text ends for good. -/
theorem agree_readEnd (h : o.At n c d) : o.Agree (fun _ _ => o.waiting = false) (readEnd c) (readEnd d) := by
  unfold readEnd
  refine agree_bind (agree_skipSpace h) ?_
  rintro ⟨next, c⟩ ⟨next', d⟩ hbefore
  obtain rfl : next' = next := hbefore.1
  cases next' with
  | none => exact agree_ok (hbefore.2.2.1 rfl)
  | some b => exact hbefore.failAhead (by simp)

/-! ## What was read -/

theorem ok_of_ite {α : Type} {p : Prop} [Decidable p] {x y : Except Failure α} {r : α}
    (h : (if p then x else y) = .ok r) (hx : x ≠ .ok r) : ¬ p ∧ y = .ok r := by
  by_cases hp : p
  · rw [if_pos hp] at h
    exact absurd h hx
  · rw [if_neg hp] at h
    exact ⟨hp, h⟩

theorem isNumber_of_readNumber {negative : Bool} {v : Json} {c' : Cursor} (h : readNumber c negative = .ok (v, c')) :
    IsNumber v := by
  have hagree := agree_readNumber (sees_self c).at negative
  rw [h] at hagree
  obtain ⟨-, -, hnumeral, -⟩ := hagree
  exact hnumeral

theorem readNumber_ne_array {negative : Bool} {items : List Json} {c' : Cursor} :
    readNumber c negative ≠ .ok (.array items, c') := isNumber_of_readNumber

/-- An array is read from its brackets, if one more of them may be opened. -/
theorem readValue_array_iff {fuel depth : Nat} {items : List Json} {c' : Cursor} :
    readValue (fuel + 1) depth c = .ok (.array items, c') ↔
      ∃ b, c.skipSpace = .ok (some 91, b) ∧ 1 < depth ∧
        readItems fuel (depth - 1) b.skip true [] = .ok (items, c') := by
  rw [readValue]
  constructor
  · intro h
    obtain ⟨⟨next, b⟩, hskip, h⟩ := ok_of_bind h
    cases next with
    | none => nomatch h
    | some a =>
      have hword : ∀ (v : Json) (word : List UInt8), v ≠ .array items →
          (do return (v, ← readWord b.skip word) : Except Failure (Json × Cursor)) ≠ .ok (.array items, c') := by
        intro v word hv h
        obtain ⟨e, -, h⟩ := ok_of_bind h
        cases h
        exact hv rfl
      obtain ⟨-, h⟩ := ok_of_ite h (hword .null _ nofun)
      obtain ⟨-, h⟩ := ok_of_ite h (hword (.bool true) _ nofun)
      obtain ⟨-, h⟩ := ok_of_ite h (hword (.bool false) _ nofun)
      obtain ⟨-, h⟩ := ok_of_ite h readNumber_ne_array
      obtain ⟨-, h⟩ := ok_of_ite h readNumber_ne_array
      obtain ⟨-, h⟩ := ok_of_ite h fun h => by obtain ⟨e, -, h⟩ := ok_of_bind h; cases h
      by_cases ha : a = 91
      · rw [if_pos ha] at h
        obtain ⟨hdepth, h⟩ := ok_of_ite h nofun
        obtain ⟨⟨xs, e⟩, hitems, h⟩ := ok_of_bind h
        cases h
        rw [ha] at hskip
        exact ⟨b, hskip, by omega, hitems⟩
      · rw [if_neg ha] at h
        obtain ⟨-, h⟩ := ok_of_ite h fun h => by
          obtain ⟨-, h⟩ := ok_of_ite h nofun
          obtain ⟨e, -, h⟩ := ok_of_bind h
          cases h
        cases h
  · rintro ⟨b, hskip, hdepth, hitems⟩
    have hnot : ¬depth ≤ 1 := by omega
    rw [hskip]
    change (if depth ≤ 1 then b.failAhead .tooDeep else _) = _
    rw [if_neg hnot, hitems]
    rfl

theorem ending_of_peek {p : Option UInt8 × Cursor} (h : c.peek = .ok p) (hp : p.1 = none) : c.ending = .closed := by
  unfold Cursor.peek at h
  split at h
  · injection h with h
    rw [← h] at hp
    nomatch hp
  · split at h
    · next hend => exact hend
    · nomatch h
    · nomatch h

/-- Only a text that ends for good has an end. -/
theorem ending_of_readEnd (h : readEnd c = .ok ()) : c.ending = .closed := by
  unfold readEnd at h
  cases hskip : c.skipSpace with
  | error f =>
    rw [hskip] at h
    nomatch h
  | ok p =>
    obtain ⟨next, c'⟩ := p
    rw [hskip] at h
    cases next with
    | some b => nomatch h
    | none =>
      rw [skipSpace_eq] at hskip
      have hend := ending_of_peek hskip rfl
      exact hend

end Outlook

end CatalogSync.Json
