import CatalogSync.Proofs.Json.Literals
import CatalogSync.Proofs.Text.Dict

/-!
# Values read back

A value without doubles that is not nested too deep (`Storable`) is read back from its text. The text of a value within
another one is followed by a comma or a bracket; by induction on the value, it is read whatever comes after that.

Main statement: `read_write`.
-/

namespace CatalogSync.Json

open CatalogSync.Text

/-- Values that are nested at most so deep, of integers of 64 bits and without doubles. The keys of an object rise. -/
inductive Storable : Nat → Json → Prop
  | null (n : Nat) : Storable n .null
  | bool (n : Nat) (b : Bool) : Storable n (.bool b)
  | int (n : Nat) {i : Int} (least : Decimal.minInt64 ≤ i) (greatest : i ≤ Decimal.maxNat64) : Storable n (.int i)
  | text (n : Nat) (s : String) : Storable n (.text s)
  | array {n : Nat} {items : List Json} (items_storable : ∀ v ∈ items, Storable n v) : Storable (n + 1) (.array items)
  | object {n : Nat} {ms : List (String × Json)} (keys : Dict.Rising ms) (members_storable : ∀ p ∈ ms, Storable n p.2) :
    Storable (n + 1) (.object ms)

/-! ## Bytes of a value -/

/-- The items behind the first one, each after its comma. -/
def laterItems (items : List Json) : List Char := items.flatMap fun v => ',' :: chars v

theorem itemChars_cons (v : Json) (items : List Json) : itemChars (v :: items) = chars v ++ laterItems items := by
  induction items generalizing v with
  | nil => rw [itemChars]; exact (List.append_nil _).symm
  | cons w r ih => rw [itemChars, ih]; rfl

/-- A member: its key, a colon and its value. -/
def memberText (p : String × Json) : List Char := writeText p.1 ++ ':' :: chars p.2

/-- The members behind the first one, each after its comma. -/
def laterMembers (ms : List (String × Json)) : List Char := ms.flatMap fun p => ',' :: memberText p

theorem memberChars_cons (p : String × Json) (ms : List (String × Json)) :
    memberChars (p :: ms) = memberText p ++ laterMembers ms := by
  induction ms generalizing p with
  | nil =>
    obtain ⟨k, v⟩ := p
    rw [memberChars]
    exact (List.append_nil _).symm
  | cons q r ih =>
    obtain ⟨k, v⟩ := p
    rw [memberChars, ih]
    rfl

theorem utf8_array (items : List Json) : utf8 (chars (.array items)) = 91 :: (utf8 (itemChars items) ++ [93]) := by
  rw [chars, List.cons_append, utf8_cons, utf8_append]
  rfl

theorem utf8_object (ms : List (String × Json)) :
    utf8 (chars (.object ms)) = 123 :: (utf8 (memberChars ms) ++ [125]) := by
  rw [chars, List.cons_append, utf8_cons, utf8_append]
  rfl

theorem utf8_writeText (s : String) : utf8 (writeText s) = 34 :: (utf8 (s.toList.flatMap escapeChar) ++ [34]) := by
  rw [writeText, List.cons_append, utf8_cons, utf8_append]
  rfl

theorem utf8_laterItems_cons (v : Json) (items : List Json) :
    utf8 (laterItems (v :: items)) = 44 :: (utf8 (chars v) ++ utf8 (laterItems items)) := by
  unfold laterItems
  rw [List.flatMap_cons, utf8_append, utf8_cons]
  rfl

theorem utf8_laterMembers_cons (p : String × Json) (ms : List (String × Json)) :
    utf8 (laterMembers (p :: ms)) = 44 :: (utf8 (memberText p) ++ utf8 (laterMembers ms)) := by
  unfold laterMembers
  rw [List.flatMap_cons, utf8_append, utf8_cons]
  rfl

theorem utf8_memberText (k : String) (v : Json) :
    utf8 (memberText (k, v)) = 34 :: (utf8 (k.toList.flatMap escapeChar) ++ 34 :: 58 :: utf8 (chars v)) := by
  unfold memberText
  rw [utf8_append, utf8_writeText, utf8_cons, List.cons_append, List.append_assoc]
  rfl

/-- Bytes that begin as those of a value can, neither with a blank nor with the end of an array. -/
def Opens (bytes : List UInt8) : Prop := ∃ b r, bytes = b :: r ∧ Cursor.isSpace b = false ∧ b ≠ 93

theorem Opens.append {bytes : List UInt8} (h : Opens bytes) (more : List UInt8) : Opens (bytes ++ more) := by
  obtain ⟨b, r, rfl, hb⟩ := h
  exact ⟨b, r ++ more, rfl, hb⟩

theorem Opens.length_pos {bytes : List UInt8} (h : Opens bytes) : 1 ≤ bytes.length := by
  obtain ⟨b, r, rfl, -⟩ := h
  exact Nat.le_add_left 1 r.length

/-- An integer is written as its digits, behind a sign if it is negative. -/
theorem utf8_int (i : Int) : utf8 (chars (.int i)) = utf8 (Decimal.digits i.natAbs) ∧ 0 ≤ i ∨
    utf8 (chars (.int i)) = 45 :: utf8 (Decimal.digits i.natAbs) ∧ i < 0 := by
  rw [chars]
  cases i with
  | ofNat n =>
    left
    unfold Decimal.ofInt Decimal.ofNat
    rw [String.toList_ofList]
    exact ⟨rfl, Int.natCast_nonneg n⟩
  | negSucc n =>
    right
    unfold Decimal.ofInt Decimal.ofNat
    have htext : ("-" ++ String.ofList (Decimal.digits (n + 1))).toList = '-' :: Decimal.digits (n + 1) := by
      rw [String.toList_append, String.toList_ofList, String.toList_ofList]
      rfl
    rw [htext]
    exact ⟨rfl, Int.negSucc_lt_zero n⟩

/-- The first byte of a number's digits. -/
theorem utf8_digits_cons (n : Nat) : ∃ b r, utf8 (Decimal.digits n) = b :: r ∧ (digit? b).isSome = true := by
  have hall := Decimal.digits_all n
  have hsome : Decimal.digits n ≠ [] := by simpa [Decimal.padded] using Decimal.padded_ne_nil 0 n
  rw [utf8_digits hall]
  cases hdigits : Decimal.digits n with
  | nil => exact absurd hdigits hsome
  | cons d ds =>
    rw [hdigits, List.all_cons, Bool.and_eq_true] at hall
    exact ⟨_, _, rfl, by rw [digit?_byte hall.1]; rfl⟩

theorem ne_of_digit {b x : UInt8} (hb : (digit? b).isSome = true) (hx : digit? x = none) : b ≠ x := by
  rintro rfl
  rw [hx] at hb
  cases hb

theorem isSpace_of_digit {b : UInt8} (hb : (digit? b).isSome = true) : Cursor.isSpace b = false := by
  have hne : ∀ x, digit? x = none → b ≠ x := fun x => ne_of_digit hb
  simp [Cursor.isSpace, hne 32 rfl, hne 10 rfl, hne 9 rfl, hne 13 rfl]

theorem opens_digits (n : Nat) : Opens (utf8 (Decimal.digits n)) := by
  obtain ⟨b, r, hbytes, hb⟩ := utf8_digits_cons n
  exact ⟨b, r, hbytes, isSpace_of_digit hb, ne_of_digit hb rfl⟩

theorem Storable.opens {n : Nat} {v : Json} (h : Storable n v) : Opens (utf8 (chars v)) := by
  cases h with
  | null => exact ⟨110, _, rfl, rfl, by decide⟩
  | bool _ b =>
    cases b with
    | true => exact ⟨116, _, rfl, rfl, by decide⟩
    | false => exact ⟨102, _, rfl, rfl, by decide⟩
  | @int _ i least greatest =>
    rcases utf8_int i with ⟨hbytes, -⟩ | ⟨hbytes, -⟩
    · rw [hbytes]
      exact opens_digits i.natAbs
    · exact ⟨45, _, hbytes, rfl, by decide⟩
  | text _ s => exact ⟨34, _, by rw [chars, utf8_writeText], rfl, by decide⟩
  | array hitems => exact ⟨91, _, utf8_array _, rfl, by decide⟩
  | object hkeys hmembers => exact ⟨123, _, utf8_object _, rfl, by decide⟩

/-! ## What is ahead -/

section Ahead

variable {c : Cursor} {r : List UInt8}

theorem elementAhead_end (h : c.Stands (93 :: r)) (first : Bool) :
    ∃ c', elementAhead c first = .ok (false, c') ∧ c'.Stands (93 :: r) := by
  obtain ⟨c', hskip, hc'⟩ := h.skipSpace (by rintro _ ⟨⟩; rfl)
  exact ⟨c', bind_eq_ok_iff.2 ⟨_, hskip, if_pos rfl⟩, hc'⟩

theorem elementAhead_first (hr : Opens r) (h : c.Stands r) :
    ∃ c', elementAhead c true = .ok (true, c') ∧ c'.Stands r := by
  obtain ⟨b, r, rfl, hspace, hb⟩ := hr
  obtain ⟨c', hskip, hc'⟩ := h.skipSpace (by rintro _ ⟨⟩; exact hspace)
  exact ⟨c', bind_eq_ok_iff.2 ⟨_, hskip, (if_neg hb).trans (if_pos rfl)⟩, hc'⟩

theorem elementAhead_later (hr : Opens r) (h : c.Stands (44 :: r)) :
    ∃ c', elementAhead c false = .ok (true, c') ∧ c'.Stands r := by
  obtain ⟨b, r, rfl, hspace, hb⟩ := hr
  obtain ⟨c₁, hcomma, hc₁⟩ := h.skipSpace (by rintro _ ⟨⟩; rfl)
  obtain ⟨c₂, hskip, hc₂⟩ := hc₁.skip.skipSpace (by rintro _ ⟨⟩; exact hspace)
  refine ⟨c₂, bind_eq_ok_iff.2 ⟨_, hcomma, ?_⟩, hc₂⟩
  refine (if_neg (by decide)).trans ((if_neg (by decide)).trans ((if_pos rfl).trans (bind_eq_ok_iff.2 ⟨_, hskip, ?_⟩)))
  dsimp only [List.head?_cons]
  split
  · next heq => cases heq; exact absurd rfl hb
  · rfl
  · next heq => cases heq

theorem memberAhead_end (h : c.Stands (125 :: r)) (first : Bool) :
    ∃ c', memberAhead c first = .ok (false, c') ∧ c'.Stands (125 :: r) := by
  obtain ⟨c', hskip, hc'⟩ := h.skipSpace (by rintro _ ⟨⟩; rfl)
  exact ⟨c', bind_eq_ok_iff.2 ⟨_, hskip, if_pos rfl⟩, hc'⟩

theorem memberAhead_first (h : c.Stands (34 :: r)) :
    ∃ c', memberAhead c true = .ok (true, c') ∧ c'.Stands (34 :: r) := by
  obtain ⟨c', hskip, hc'⟩ := h.skipSpace (by rintro _ ⟨⟩; rfl)
  exact ⟨c', bind_eq_ok_iff.2 ⟨_, hskip, (if_neg (by decide)).trans ((if_pos rfl).trans (if_pos rfl))⟩, hc'⟩

theorem memberAhead_later (h : c.Stands (44 :: 34 :: r)) :
    ∃ c', memberAhead c false = .ok (true, c') ∧ c'.Stands (34 :: r) := by
  obtain ⟨c₁, hcomma, hc₁⟩ := h.skipSpace (by rintro _ ⟨⟩; rfl)
  obtain ⟨c₂, hskip, hc₂⟩ := hc₁.skip.skipSpace (by rintro _ ⟨⟩; rfl)
  refine ⟨c₂, bind_eq_ok_iff.2 ⟨_, hcomma, ?_⟩, hc₂⟩
  exact (if_neg (by decide)).trans ((if_neg (by decide)).trans ((if_pos rfl).trans (bind_eq_ok_iff.2 ⟨_, hskip, rfl⟩)))

theorem readKey_written {k : String} (h : c.Stands (34 :: (utf8 (k.toList.flatMap escapeChar) ++ 34 :: 58 :: r))) :
    ∃ c', readKey c = .ok (k, c') ∧ c'.Stands r := by
  obtain ⟨c₁, htext, hc₁⟩ := readText_written h.skip
  obtain ⟨c₂, hskip, hc₂⟩ := hc₁.skipSpace (by rintro _ ⟨⟩; rfl)
  have hcolon : readColon c₁ = .ok c₂.skip := bind_eq_ok_iff.2 ⟨_, hskip, rfl⟩
  exact ⟨c₂.skip, bind_eq_ok_iff.2 ⟨_, htext, bind_eq_ok_iff.2 ⟨_, hcolon, rfl⟩⟩, hc₂.skip⟩

end Ahead

/-! ## Values -/

/-- A value is read from its bytes, as deep as it may be nested and within two steps for each byte, before what may follow
a value. -/
def ReadsBack (n : Nat) (v : Json) : Prop :=
  ∀ (fuel depth : Nat) (c : Cursor) (more : List UInt8), n < depth → 2 * (utf8 (chars v)).length ≤ fuel → Stops more →
    c.Stands (utf8 (chars v) ++ more) → ∃ c', readValue fuel depth c = .ok (v, c') ∧ c'.Stands more

section Items

variable {n depth : Nat} {v : Json} {items : List Json} {more : List UInt8}

theorem stops_laterItems (items : List Json) (more : List UInt8) : Stops (utf8 (laterItems items) ++ 93 :: more) := by
  cases items with
  | nil =>
    rintro _ ⟨⟩
    exact .inr (.inl rfl)
  | cons v r =>
    rw [utf8_laterItems_cons]
    rintro _ ⟨⟩
    exact .inl rfl

/-- Once it is known that an item is ahead, it is read, and the rest after it. -/
theorem readItems_item (hdepth : n < depth) (hv : ReadsBack n v) {fuel : Nat} {c c₁ : Cursor} {first : Bool}
    {acc res : List Json} {bytes : List UInt8} (hbytes : Stops bytes) (hfuel : 2 * (utf8 (chars v)).length ≤ fuel)
    (hahead : elementAhead c first = .ok (true, c₁)) (hc₁ : c₁.Stands (utf8 (chars v) ++ bytes))
    (hrest : ∀ {c₂ : Cursor}, c₂.Stands bytes →
      ∃ c', readItems fuel depth c₂ false (v :: acc) = .ok (res, c') ∧ c'.Stands more) :
    ∃ c', readItems (fuel + 1) depth c first acc = .ok (res, c') ∧ c'.Stands more := by
  obtain ⟨c₂, hread, hc₂⟩ := hv _ _ _ _ hdepth hfuel hbytes hc₁
  obtain ⟨c', hitems, hc'⟩ := hrest hc₂
  refine ⟨c', ?_, hc'⟩
  rw [readItems]
  exact bind_eq_ok_iff.2 ⟨_, hahead, bind_eq_ok_iff.2 ⟨_, hread, hitems⟩⟩

theorem readItems_end {fuel : Nat} {c : Cursor} {first : Bool} {acc : List Json} (h : c.Stands (93 :: more)) :
    ∃ c', readItems (fuel + 1) depth c first acc = .ok (acc.reverse, c') ∧ c'.Stands more := by
  obtain ⟨c₁, hahead, hc₁⟩ := elementAhead_end h first
  refine ⟨c₁.skip, ?_, hc₁.skip⟩
  rw [readItems]
  exact bind_eq_ok_iff.2 ⟨_, hahead, rfl⟩

theorem readItems_later (hdepth : n < depth) (hitems : ∀ v ∈ items, Storable n v ∧ ReadsBack n v) {fuel : Nat} {c : Cursor}
    {acc : List Json} (hfuel : 2 * (utf8 (laterItems items)).length + 1 ≤ fuel)
    (h : c.Stands (utf8 (laterItems items) ++ 93 :: more)) :
    ∃ c', readItems fuel depth c false acc = .ok (acc.reverse ++ items, c') ∧ c'.Stands more := by
  induction items generalizing fuel c acc with
  | nil =>
    obtain ⟨fuel, rfl⟩ : ∃ k, fuel = k + 1 := ⟨fuel - 1, by omega⟩
    rw [List.append_nil]
    exact readItems_end h
  | cons v r ih =>
    obtain ⟨⟨hstorable, hv⟩, hr⟩ := List.forall_mem_cons.1 hitems
    rw [utf8_laterItems_cons, List.length_cons, List.length_append] at hfuel
    rw [utf8_laterItems_cons, List.cons_append, List.append_assoc] at h
    obtain ⟨c₁, hahead, hc₁⟩ := elementAhead_later (hstorable.opens.append _) h
    obtain ⟨fuel, rfl⟩ : ∃ k, fuel = k + 1 := ⟨fuel - 1, by omega⟩
    have hrest : 2 * (utf8 (laterItems r)).length + 1 ≤ fuel := by omega
    have hitems : acc.reverse ++ v :: r = (v :: acc).reverse ++ r := by rw [List.reverse_cons, List.append_assoc]; rfl
    rw [hitems]
    exact readItems_item hdepth hv (stops_laterItems r more) (by omega) hahead hc₁ fun hc₂ => ih hr hrest hc₂

theorem readItems_written (hdepth : n < depth) (hitems : ∀ v ∈ items, Storable n v ∧ ReadsBack n v) {fuel : Nat}
    {c : Cursor} (hfuel : 2 * (utf8 (itemChars items)).length + 1 ≤ fuel)
    (h : c.Stands (utf8 (itemChars items) ++ 93 :: more)) :
    ∃ c', readItems fuel depth c true [] = .ok (items, c') ∧ c'.Stands more := by
  obtain ⟨fuel, rfl⟩ : ∃ k, fuel = k + 1 := ⟨fuel - 1, by omega⟩
  cases items with
  | nil => exact readItems_end h
  | cons v r =>
    obtain ⟨⟨hstorable, hv⟩, hr⟩ := List.forall_mem_cons.1 hitems
    have hlen := hstorable.opens.length_pos
    rw [itemChars_cons, utf8_append, List.length_append] at hfuel
    rw [itemChars_cons, utf8_append, List.append_assoc] at h
    obtain ⟨c₁, hahead, hc₁⟩ := elementAhead_first (hstorable.opens.append _) h
    refine readItems_item hdepth hv (stops_laterItems r more) (by omega) hahead hc₁ fun hc₂ => ?_
    exact readItems_later hdepth hr (by omega) hc₂

end Items

section Members

variable {n depth : Nat} {k : String} {v : Json} {ms : List (String × Json)} {more : List UInt8}

theorem stops_laterMembers (ms : List (String × Json)) (more : List UInt8) :
    Stops (utf8 (laterMembers ms) ++ 125 :: more) := by
  cases ms with
  | nil =>
    rintro _ ⟨⟩
    exact .inr (.inr rfl)
  | cons p r =>
    rw [utf8_laterMembers_cons]
    rintro _ ⟨⟩
    exact .inl rfl

/-- Once it is known that a member is ahead, it is read, and the rest after it. -/
theorem readMembers_member (hdepth : n < depth) (hv : ReadsBack n v) {fuel : Nat} {c c₁ : Cursor} {first : Bool}
    {acc res : Dict Json} {bytes : List UInt8} (hbytes : Stops bytes) (hfuel : 2 * (utf8 (chars v)).length ≤ fuel)
    (hahead : memberAhead c first = .ok (true, c₁)) (hc₁ : c₁.Stands (utf8 (memberText (k, v)) ++ bytes))
    (hrest : ∀ {c₂ : Cursor}, c₂.Stands bytes →
      ∃ c', readMembers fuel depth c₂ false (acc.put k v) = .ok (res, c') ∧ c'.Stands more) :
    ∃ c', readMembers (fuel + 1) depth c first acc = .ok (res, c') ∧ c'.Stands more := by
  rw [utf8_memberText, List.cons_append, List.append_assoc, List.cons_append, List.cons_append] at hc₁
  obtain ⟨c₂, hkey, hc₂⟩ := readKey_written hc₁
  obtain ⟨c₃, hread, hc₃⟩ := hv _ _ _ _ hdepth hfuel hbytes hc₂
  obtain ⟨c', hmembers, hc'⟩ := hrest hc₃
  refine ⟨c', ?_, hc'⟩
  rw [readMembers]
  exact bind_eq_ok_iff.2 ⟨_, hahead, bind_eq_ok_iff.2 ⟨_, hkey, bind_eq_ok_iff.2 ⟨_, hread, hmembers⟩⟩⟩

theorem readMembers_end {fuel : Nat} {c : Cursor} {first : Bool} {acc : Dict Json} (h : c.Stands (125 :: more)) :
    ∃ c', readMembers (fuel + 1) depth c first acc = .ok (acc, c') ∧ c'.Stands more := by
  obtain ⟨c₁, hahead, hc₁⟩ := memberAhead_end h first
  refine ⟨c₁.skip, ?_, hc₁.skip⟩
  rw [readMembers]
  exact bind_eq_ok_iff.2 ⟨_, hahead, rfl⟩

theorem length_memberText (k : String) (v : Json) : (utf8 (chars v)).length + 1 ≤ (utf8 (memberText (k, v))).length := by
  rw [utf8_memberText, List.length_cons, List.length_append, List.length_cons, List.length_cons]
  omega

/-- The members come in the order of their keys, so each one is put behind those before it. -/
theorem readMembers_later (hdepth : n < depth) (hmembers : ∀ p ∈ ms, ReadsBack n p.2) {fuel : Nat} {c : Cursor}
    {acc : Dict Json} (hkeys : Dict.Rising (acc ++ ms)) (hfuel : 2 * (utf8 (laterMembers ms)).length + 1 ≤ fuel)
    (h : c.Stands (utf8 (laterMembers ms) ++ 125 :: more)) :
    ∃ c', readMembers fuel depth c false acc = .ok (acc ++ ms, c') ∧ c'.Stands more := by
  induction ms generalizing fuel c acc with
  | nil =>
    obtain ⟨fuel, rfl⟩ : ∃ k, fuel = k + 1 := ⟨fuel - 1, by omega⟩
    rw [List.append_nil]
    exact readMembers_end h
  | cons p r ih =>
    obtain ⟨k, v⟩ := p
    obtain ⟨hv, hr⟩ := List.forall_mem_cons.1 hmembers
    have hlen := length_memberText k v
    rw [utf8_laterMembers_cons, List.length_cons, List.length_append] at hfuel
    rw [utf8_laterMembers_cons, List.cons_append, List.append_assoc] at h
    obtain ⟨c₁, hahead, hc₁⟩ : ∃ c₁, memberAhead c false = .ok (true, c₁) ∧
        c₁.Stands (utf8 (memberText (k, v)) ++ (utf8 (laterMembers r) ++ 125 :: more)) := by
      rw [utf8_memberText] at h ⊢
      exact memberAhead_later h
    obtain ⟨fuel, rfl⟩ : ∃ k, fuel = k + 1 := ⟨fuel - 1, by omega⟩
    have hvalue : 2 * (utf8 (chars v)).length ≤ fuel := by omega
    have hrest : 2 * (utf8 (laterMembers r)).length + 1 ≤ fuel := by omega
    have hput : acc.put k v = acc ++ [(k, v)] :=
      Dict.put_of_forall_lt fun p hp => (List.pairwise_append.1 hkeys).2.2 p hp (k, v) List.mem_cons_self
    have happend : acc ++ (k, v) :: r = acc.put k v ++ r := by rw [hput, List.append_assoc]; rfl
    rw [happend] at hkeys ⊢
    exact readMembers_member hdepth hv (stops_laterMembers r more) hvalue hahead hc₁ fun hc₂ => ih hr hkeys hrest hc₂

theorem readMembers_written (hdepth : n < depth) (hmembers : ∀ p ∈ ms, ReadsBack n p.2) (hkeys : Dict.Rising ms)
    {fuel : Nat} {c : Cursor} (hfuel : 2 * (utf8 (memberChars ms)).length + 1 ≤ fuel)
    (h : c.Stands (utf8 (memberChars ms) ++ 125 :: more)) :
    ∃ c', readMembers fuel depth c true [] = .ok (ms, c') ∧ c'.Stands more := by
  obtain ⟨fuel, rfl⟩ : ∃ k, fuel = k + 1 := ⟨fuel - 1, by omega⟩
  cases ms with
  | nil => exact readMembers_end h
  | cons p r =>
    obtain ⟨k, v⟩ := p
    obtain ⟨hv, hr⟩ := List.forall_mem_cons.1 hmembers
    have hlen := length_memberText k v
    rw [memberChars_cons, utf8_append, List.length_append] at hfuel
    rw [memberChars_cons, utf8_append, List.append_assoc] at h
    obtain ⟨c₁, hahead, hc₁⟩ : ∃ c₁, memberAhead c true = .ok (true, c₁) ∧
        c₁.Stands (utf8 (memberText (k, v)) ++ (utf8 (laterMembers r) ++ 125 :: more)) := by
      rw [utf8_memberText] at h ⊢
      exact memberAhead_first h
    have hvalue : 2 * (utf8 (chars v)).length ≤ fuel := by omega
    exact readMembers_member hdepth hv (stops_laterMembers r more) hvalue hahead hc₁ fun hc₂ =>
      readMembers_later hdepth hr hkeys (by omega) hc₂

end Members

/-! ## Each kind of value -/

section Kinds

variable {n : Nat}

/-- What is left to show of a value once its first byte is ahead. -/
theorem readsBack_of_first {v : Json} {b : UInt8} {r : List UInt8} (hbytes : utf8 (chars v) = b :: r)
    (hb : Cursor.isSpace b = false)
    (hread : ∀ (fuel depth : Nat) (c c₁ : Cursor) (more : List UInt8), n < depth → 2 * r.length + 1 ≤ fuel → Stops more →
      c.skipSpace = .ok (some b, c₁) → c₁.Stands (b :: (r ++ more)) →
      ∃ c', readValue (fuel + 1) depth c = .ok (v, c') ∧ c'.Stands more) : ReadsBack n v := by
  intro fuel depth c more hdepth hfuel hmore h
  rw [hbytes, List.length_cons] at hfuel
  rw [hbytes, List.cons_append] at h
  obtain ⟨fuel, rfl⟩ : ∃ k, fuel = k + 1 := ⟨fuel - 1, by omega⟩
  obtain ⟨c₁, hskip, hc₁⟩ := h.skipSpace (by rintro _ ⟨⟩; exact hb)
  exact hread _ _ _ _ _ hdepth (by omega) hmore hskip hc₁

theorem readsBack_null : ReadsBack n .null := by
  refine readsBack_of_first (r := [117, 108, 108]) rfl rfl fun fuel depth c c₁ more _ _ _ hskip hc₁ => ?_
  obtain ⟨c', hword, hc'⟩ := readWord_written hc₁.skip
  refine ⟨c', ?_, hc'⟩
  rw [readValue]
  exact bind_eq_ok_iff.2 ⟨_, hskip, (if_pos rfl).trans (bind_eq_ok_iff.2 ⟨_, hword, rfl⟩)⟩

theorem readsBack_bool (b : Bool) : ReadsBack n (.bool b) := by
  cases b with
  | true =>
    refine readsBack_of_first (r := [114, 117, 101]) rfl rfl fun fuel depth c c₁ more _ _ _ hskip hc₁ => ?_
    obtain ⟨c', hword, hc'⟩ := readWord_written hc₁.skip
    refine ⟨c', ?_, hc'⟩
    rw [readValue]
    exact bind_eq_ok_iff.2 ⟨_, hskip,
      (if_neg (by decide)).trans ((if_pos rfl).trans (bind_eq_ok_iff.2 ⟨_, hword, rfl⟩))⟩
  | false =>
    refine readsBack_of_first (r := [97, 108, 115, 101]) rfl rfl fun fuel depth c c₁ more _ _ _ hskip hc₁ => ?_
    obtain ⟨c', hword, hc'⟩ := readWord_written hc₁.skip
    refine ⟨c', ?_, hc'⟩
    rw [readValue]
    exact bind_eq_ok_iff.2 ⟨_, hskip, (if_neg (by decide)).trans ((if_neg (by decide)).trans ((if_pos rfl).trans
      (bind_eq_ok_iff.2 ⟨_, hword, rfl⟩)))⟩

theorem readsBack_int {i : Int} (hleast : Decimal.minInt64 ≤ i) (hgreatest : i ≤ Decimal.maxNat64) :
    ReadsBack n (.int i) := by
  unfold Decimal.minInt64 at hleast
  have hfits : i.natAbs ≤ Decimal.maxNat64 := by
    unfold Decimal.maxNat64 at hgreatest ⊢
    omega
  rcases utf8_int i with ⟨hbytes, hi⟩ | ⟨hbytes, hi⟩
  · obtain ⟨b, r, hdigits, hb⟩ := utf8_digits_cons i.natAbs
    have hne : ∀ x, digit? x = none → b ≠ x := fun x => ne_of_digit hb
    refine readsBack_of_first (hbytes.trans hdigits) (isSpace_of_digit hb) fun fuel depth c c₁ more _ _ hmore hskip hc₁ => ?_
    rw [← List.cons_append, ← hdigits] at hc₁
    obtain ⟨c', hread, hc'⟩ := readNumber_digits hfits false hmore hc₁
    have hvalue : integerOf false i.natAbs = .int i := congrArg Json.int (Int.natAbs_of_nonneg hi)
    rw [hvalue] at hread
    refine ⟨c', ?_, hc'⟩
    rw [readValue]
    exact bind_eq_ok_iff.2 ⟨_, hskip, (if_neg (hne 110 rfl)).trans ((if_neg (hne 116 rfl)).trans
      ((if_neg (hne 102 rfl)).trans ((if_neg (hne 45 rfl)).trans ((if_pos hb).trans hread))))⟩
  · refine readsBack_of_first hbytes rfl fun fuel depth c c₁ more _ _ hmore hskip hc₁ => ?_
    obtain ⟨c', hread, hc'⟩ := readNumber_digits hfits true hmore hc₁.skip
    have hvalue : integerOf true i.natAbs = .int i := by
      have hneg : -(i.natAbs : Int) = i := by omega
      have hsome : i.natAbs ≠ 0 := by omega
      have hle : i.natAbs ≤ 9223372036854775808 := by omega
      unfold integerOf
      rw [if_neg (by decide), if_neg hsome, if_pos hle, hneg]
    rw [hvalue] at hread
    refine ⟨c', ?_, hc'⟩
    rw [readValue]
    exact bind_eq_ok_iff.2 ⟨_, hskip, (if_neg (by decide)).trans ((if_neg (by decide)).trans
      ((if_neg (by decide)).trans ((if_pos rfl).trans hread)))⟩

theorem readsBack_text (s : String) : ReadsBack n (.text s) := by
  have hbytes : utf8 (chars (.text s)) = 34 :: (utf8 (s.toList.flatMap escapeChar) ++ [34]) := by
    rw [chars, utf8_writeText]
  refine readsBack_of_first hbytes rfl fun fuel depth c c₁ more _ _ _ hskip hc₁ => ?_
  rw [List.append_assoc] at hc₁
  obtain ⟨c', htext, hc'⟩ := readText_written hc₁.skip
  refine ⟨c', ?_, hc'⟩
  rw [readValue]
  refine bind_eq_ok_iff.2 ⟨_, hskip, ?_⟩
  iterate 5 refine (if_neg (by decide)).trans ?_
  exact (if_pos rfl).trans (bind_eq_ok_iff.2 ⟨_, htext, rfl⟩)

theorem readsBack_array {items : List Json} (hitems : ∀ v ∈ items, Storable n v ∧ ReadsBack n v) :
    ReadsBack (n + 1) (.array items) := by
  refine readsBack_of_first (utf8_array items) rfl fun fuel depth c c₁ more hdepth hfuel _ hskip hc₁ => ?_
  rw [List.append_assoc] at hc₁
  rw [List.length_append] at hfuel
  have hinner : n < depth - 1 := by omega
  have henough : 2 * (utf8 (itemChars items)).length + 1 ≤ fuel := by omega
  obtain ⟨c', hread, hc'⟩ := readItems_written hinner hitems henough hc₁.skip
  refine ⟨c', ?_, hc'⟩
  rw [readValue]
  refine bind_eq_ok_iff.2 ⟨_, hskip, ?_⟩
  iterate 6 refine (if_neg (by decide)).trans ?_
  exact (if_pos rfl).trans ((if_neg (by omega)).trans (bind_eq_ok_iff.2 ⟨_, hread, rfl⟩))

theorem readsBack_object {ms : List (String × Json)} (hkeys : Dict.Rising ms) (hmembers : ∀ p ∈ ms, ReadsBack n p.2) :
    ReadsBack (n + 1) (.object ms) := by
  refine readsBack_of_first (utf8_object ms) rfl fun fuel depth c c₁ more hdepth hfuel _ hskip hc₁ => ?_
  rw [List.append_assoc] at hc₁
  rw [List.length_append] at hfuel
  have hinner : n < depth - 1 := by omega
  have henough : 2 * (utf8 (memberChars ms)).length + 1 ≤ fuel := by omega
  obtain ⟨c', hread, hc'⟩ := readMembers_written hinner hmembers hkeys henough hc₁.skip
  refine ⟨c', ?_, hc'⟩
  rw [readValue]
  refine bind_eq_ok_iff.2 ⟨_, hskip, ?_⟩
  iterate 7 refine (if_neg (by decide)).trans ?_
  exact (if_pos rfl).trans ((if_neg (by omega)).trans (bind_eq_ok_iff.2 ⟨_, hread, rfl⟩))

end Kinds

/-! ## Whole texts -/

/-- By induction on the value. -/
theorem Storable.readsBack {n : Nat} {v : Json} (h : Storable n v) : ReadsBack n v := by
  induction h with
  | null => exact readsBack_null
  | bool _ b => exact readsBack_bool b
  | int _ hleast hgreatest => exact readsBack_int hleast hgreatest
  | text _ s => exact readsBack_text s
  | array hitems ih => exact readsBack_array fun v hv => ⟨hitems v hv, ih v hv⟩
  | object hkeys _ ih => exact readsBack_object hkeys ih

/-- **Reading back a value.** A value that is nested less deep than values may be is read from its text. -/
theorem read_write {n : Nat} {v : Json} (hn : n < depthLimit) (h : Storable n v) : Json.read v.write = .ok v := by
  have hwhole : (Cursor.whole (utf8 (chars v))).Stands (utf8 (chars v) ++ []) := ⟨(List.append_nil _).symm, rfl⟩
  have hstops : Stops [] := nofun
  have hfuel : 2 * (utf8 (chars v)).length ≤ enoughSteps (utf8 (chars v)).length := Nat.le_add_right _ 2
  obtain ⟨c₁, hread, hc₁⟩ := h.readsBack _ depthLimit _ [] hn hfuel hstops hwhole
  obtain ⟨c₂, hskip, hc₂⟩ := hc₁.skipSpace nofun
  have hend : readEnd c₁ = .ok () := bind_eq_ok_iff.2 ⟨_, hskip, rfl⟩
  unfold Json.read write readWithin
  rw [toList_toUTF8, String.toList_ofList]
  exact bind_eq_ok_iff.2 ⟨_, hread, bind_eq_ok_iff.2 ⟨_, hend, rfl⟩⟩

end CatalogSync.Json
