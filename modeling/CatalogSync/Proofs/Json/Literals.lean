import CatalogSync.Json.Reader
import CatalogSync.Json.Writer
import CatalogSync.Proofs.Store.Outcomes
import CatalogSync.Proofs.Text.Bytes
import CatalogSync.Proofs.Text.Padding

/-!
# Words, strings and numbers read back

A cursor in a text that is held whole stands before the bytes that are left of it (`Cursor.Stands`). Before a word, a string
or an integer as it is written, the reader takes it for what was written and stands behind it.

Main statements: `readText_written`, `readNumber_digits`.
-/

namespace CatalogSync.Json

open CatalogSync.Text

/-- A cursor in a text held whole, before the bytes that are left of it. -/
structure Cursor.Stands (c : Cursor) (bytes : List UInt8) : Prop where
  rest : c.rest = bytes
  ending : c.ending = .closed

namespace Cursor.Stands

variable {c : Cursor} {b : UInt8} {r bytes : List UInt8}

theorem moveTo (h : c.Stands bytes) (p : Position) (r : List UInt8) : (c.moveTo p r).Stands r := ⟨rfl, h.ending⟩

theorem skip (h : c.Stands (b :: r)) : c.skip.Stands r := by
  unfold Cursor.skip
  rw [h.rest]
  exact ⟨rfl, h.ending⟩

theorem peek (h : c.Stands bytes) : ∃ c', c.peek = .ok (bytes.head?, c') ∧ c'.Stands bytes := by
  unfold Cursor.peek
  rw [h.rest]
  cases bytes with
  | nil =>
    rw [h.ending]
    exact ⟨c, rfl, h⟩
  | cons b r => exact ⟨_, rfl, rfl, h.ending⟩

/-- There are no blanks to skip before anything else. -/
theorem skipSpace (h : c.Stands bytes) (hb : ∀ b ∈ bytes.head?, isSpace b = false) :
    ∃ c', c.skipSpace = .ok (bytes.head?, c') ∧ c'.Stands bytes := by
  have hpast : pastSpace c.position bytes = (c.position, bytes) := by
    cases bytes with
    | nil => rfl
    | cons b r => exact if_neg (by rw [hb b rfl]; decide)
  unfold Cursor.skipSpace
  rw [h.rest, hpast]
  exact (h.moveTo _ _).peek

end Cursor.Stands

/-! ## Words -/

theorem readWord_written {c : Cursor} {word more : List UInt8} (h : c.Stands (word ++ more)) :
    ∃ c', readWord c word = .ok c' ∧ c'.Stands more := by
  induction word generalizing c with
  | nil => exact ⟨c, rfl, h⟩
  | cons w ws ih =>
    obtain ⟨c', hread, hc'⟩ := ih h.skip
    refine ⟨c', ?_, hc'⟩
    unfold readWord
    rw [h.rest]
    exact (if_pos rfl).trans hread

/-! ## Strings -/

/-- A byte that stands in a string for itself. -/
def IsPlain (b : UInt8) : Prop := b ≠ 34 ∧ b ≠ 92 ∧ ¬ b < 32

section Scanning

variable (p : Position) (acc r : List UInt8)

theorem scanText_quote : scanText p acc (34 :: r) = .closed acc.reverse (p.along 1) r := by
  rw [scanText.eq_def]
  exact if_pos rfl

theorem scanText_cons {b : UInt8} (hb : IsPlain b) : scanText p acc (b :: r) = scanText (p.along 1) (b :: acc) r := by
  rw [scanText.eq_def]
  dsimp only
  rw [if_neg hb.1, if_neg hb.2.1, if_neg hb.2.2]

theorem scanText_short {e x : UInt8} (he : shortEscape? e = some x) :
    scanText p acc (92 :: e :: r) = scanText (p.along 2) (x :: acc) r := by
  rw [scanText.eq_def]
  dsimp only
  rw [if_neg (by decide), if_pos rfl, he]

theorem scanText_number {h₁ h₂ h₃ h₄ : UInt8} {n : Nat} (hn : hex4? h₁ h₂ h₃ h₄ = some n) (hlow : n < 0x20) :
    scanText p acc (92 :: 117 :: h₁ :: h₂ :: h₃ :: h₄ :: r) = scanText (p.along 6) (reversedUtf8 n ++ acc) r := by
  have hnoLow : isLowSurrogate n = false := by simp [isLowSurrogate]; omega
  have hnoHigh : isHighSurrogate n = false := by simp [isHighSurrogate]; omega
  rw [scanText.eq_def]
  dsimp only
  rw [if_neg (by decide), if_pos rfl, show shortEscape? 117 = none from rfl]
  dsimp only
  rw [if_neg (by decide), hn]
  dsimp only
  rw [if_neg (by rw [hnoLow]; decide), if_pos (by rw [hnoHigh]; rfl)]

end Scanning

theorem scanText_plain {bs : List UInt8} (h : ∀ b ∈ bs, IsPlain b) (p : Position) (acc l : List UInt8) :
    ∃ p', scanText p acc (bs ++ l) = scanText p' (bs.reverse ++ acc) l := by
  induction bs generalizing p acc with
  | nil => exact ⟨p, rfl⟩
  | cons b bs ih =>
    obtain ⟨hb, hbs⟩ := List.forall_mem_cons.1 h
    obtain ⟨p', hscan⟩ := ih hbs (p.along 1) (b :: acc)
    refine ⟨p', ?_⟩
    rw [List.cons_append, scanText_cons _ _ _ hb, hscan, List.reverse_cons, List.append_assoc]
    rfl

/-- A character that is not escaped has bytes that stand for themselves. -/
theorem isPlain_utf8 {c : Char} (hquote : c ≠ '"') (hslash : c ≠ '\\') (hcontrol : ¬ c.toNat < 0x20) :
    ∀ b ∈ String.utf8EncodeChar c, IsPlain b := by
  have hval : c.val.toNat ≠ 34 ∧ c.val.toNat ≠ 92 ∧ ¬ c.val.toNat < 32 :=
    ⟨fun h => hquote (Char.toNat_inj.1 h), fun h => hslash (Char.toNat_inj.1 h), hcontrol⟩
  have hplain : ∀ x : Nat, x < 256 → x ≠ 34 → x ≠ 92 → ¬ x < 32 → IsPlain (UInt8.ofNat x) := by
    intro x hlt h h' h''
    unfold IsPlain
    rw [UInt8.lt_iff_toNat_lt, ne_eq, ne_eq, ← UInt8.toNat_inj, ← UInt8.toNat_inj, UInt8.toNat_ofNat_of_lt' hlt]
    exact ⟨h, h', h''⟩
  have hhigh : ∀ x : Nat, 128 ≤ x → x < 256 → IsPlain (UInt8.ofNat x) := fun x hle hlt =>
    hplain x hlt (by omega) (by omega) (by omega)
  have hlater : ∀ x : Nat, IsPlain (UInt8.ofNat (x % 64 + 128)) := fun x => hhigh _ (by omega) (by omega)
  unfold String.utf8EncodeChar
  generalize c.val.toNat = n at hval
  dsimp only
  split_ifs
  all_goals simp only [List.forall_mem_cons]
  · exact ⟨hplain n (by omega) hval.1 hval.2.1 hval.2.2, nofun⟩
  · exact ⟨hhigh _ (by omega) (by omega), hlater _, nofun⟩
  · exact ⟨hhigh _ (by omega) (by omega), hlater _, hlater _, nofun⟩
  · exact ⟨hhigh _ (by omega) (by omega), hlater _, hlater _, hlater _, nofun⟩

/-- A control character is read from its number. -/
theorem scanText_controlEscape {c : Char} (h : c.toNat < 0x20) (p : Position) (acc l : List UInt8) :
    scanText p acc (utf8 (controlEscape c) ++ l) = scanText (p.along 6) ((String.utf8EncodeChar c).reverse ++ acc) l := by
  have hdigits : ∀ n < 16, (hexDigit n).toNat ≤ 127 := by decide
  have hnumbers : ∀ n < 0x20,
      hex4? 48 48 (UInt8.ofNat (hexDigit (n / 16)).toNat) (UInt8.ofNat (hexDigit (n % 16)).toNat) = some n := by decide
  have hbytes : utf8 (controlEscape c) = [92, 117, 48, 48, UInt8.ofNat (hexDigit (c.toNat / 16)).toNat,
      UInt8.ofNat (hexDigit (c.toNat % 16)).toNat] := by
    have hhigh := utf8EncodeChar_of_le (hdigits (c.toNat / 16) (by omega))
    have hlow := utf8EncodeChar_of_le (hdigits (c.toNat % 16) (by omega))
    unfold controlEscape
    simp only [utf8_cons, utf8_nil, hhigh, hlow]
    rfl
  have hsame : reversedUtf8 c.toNat = (String.utf8EncodeChar c).reverse := by
    unfold reversedUtf8
    rw [Char.ofNat_toNat]
  rw [hbytes, ← hsame]
  exact scanText_number p acc l (hnumbers c.toNat h) h

/-- A character is read from the way it stands in a string. -/
theorem scanText_escapeChar (c : Char) (p : Position) (acc l : List UInt8) :
    ∃ p', scanText p acc (utf8 (escapeChar c) ++ l) = scanText p' ((String.utf8EncodeChar c).reverse ++ acc) l := by
  unfold escapeChar
  split_ifs with hquote hslash hline hreturn htab hback hfeed hcontrol
  rotate_left 7
  · exact ⟨_, scanText_controlEscape hcontrol p acc l⟩
  · rw [utf8_cons, utf8_nil, List.append_nil]
    exact scanText_plain (isPlain_utf8 hquote hslash hcontrol) p acc l
  -- the other seven have short escapes
  all_goals
    subst_vars
    exact ⟨_, scanText_short p acc l rfl⟩

theorem scanText_written (cs : List Char) (p : Position) (acc more : List UInt8) :
    ∃ p', scanText p acc (utf8 (cs.flatMap escapeChar) ++ 34 :: more) = .closed (acc.reverse ++ utf8 cs) p' more := by
  induction cs generalizing p acc with
  | nil =>
    refine ⟨p.along 1, ?_⟩
    rw [utf8_nil, List.append_nil]
    exact scanText_quote p acc more
  | cons c cs ih =>
    obtain ⟨p₁, hchar⟩ := scanText_escapeChar c p acc (utf8 (cs.flatMap escapeChar) ++ 34 :: more)
    obtain ⟨p₂, hrest⟩ := ih p₁ ((String.utf8EncodeChar c).reverse ++ acc)
    refine ⟨p₂, ?_⟩
    rw [List.flatMap_cons, utf8_append, List.append_assoc, hchar, hrest, utf8_cons, List.reverse_append,
      List.reverse_reverse, List.append_assoc]

/-- **Strings.** A string is read from what stands behind its opening quote. -/
theorem readText_written {s : String} {c : Cursor} {more : List UInt8}
    (h : c.Stands (utf8 (s.toList.flatMap escapeChar) ++ 34 :: more)) :
    ∃ c', readText c = .ok (s, c') ∧ c'.Stands more := by
  obtain ⟨p, hscan⟩ := scanText_written s.toList c.position [] more
  refine ⟨c.moveTo p more, ?_, h.moveTo p more⟩
  unfold readText
  rw [h.rest, hscan]
  dsimp only
  rw [List.reverse_nil, List.nil_append, fromUTF8?_utf8, String.ofList_toList]

/-! ## Integers -/

/-- What follows a number that is written in an array, in an object or alone. -/
def Stops (more : List UInt8) : Prop := ∀ b ∈ more.head?, b = 44 ∨ b = 93 ∨ b = 125

/-- The byte of a digit tells what the digit counts. -/
theorem digit?_byte {d : Char} (hd : Decimal.isDigit d = true) :
    digit? (UInt8.ofNat d.toNat) = some (Decimal.digitValue d) := by
  have hbounds := Decimal.isDigit_iff.1 hd
  have hbyte : (UInt8.ofNat d.toNat).toNat = d.toNat := UInt8.toNat_ofNat_of_lt' (by show d.toNat < 256; omega)
  have hwithin : (48 ≤ UInt8.ofNat d.toNat && UInt8.ofNat d.toNat ≤ 57) = true := by
    rw [Bool.and_eq_true, decide_eq_true_eq, decide_eq_true_eq, UInt8.le_iff_toNat_le, UInt8.le_iff_toNat_le, hbyte]
    exact hbounds
  unfold digit?
  rw [if_pos hwithin, hbyte]
  rfl

theorem utf8_digits {ds : List Char} (hds : ds.all Decimal.isDigit = true) :
    utf8 ds = ds.map fun d => UInt8.ofNat d.toNat := by
  induction ds with
  | nil => rfl
  | cons d ds ih =>
    rw [List.all_cons, Bool.and_eq_true] at hds
    have hle : d.toNat ≤ 127 := by
      have hbounds := Decimal.isDigit_iff.1 hds.1
      omega
    rw [utf8_cons, utf8EncodeChar_of_le hle, ih hds.2]
    rfl

theorem Stops.digit? {b : UInt8} {r : List UInt8} (h : Stops (b :: r)) : Json.digit? b = none := by
  rcases h b rfl with rfl | rfl | rfl <;> rfl

theorem takeDigits_written {ds : List Char} (hds : ds.all Decimal.isDigit = true) {more : List UInt8} (h : Stops more) :
    takeDigits (utf8 ds ++ more) = (ds.map Decimal.digitValue, more) := by
  rw [utf8_digits hds]
  induction ds with
  | nil =>
    cases more with
    | nil => rfl
    | cons b r =>
      rw [List.map_nil, List.nil_append, takeDigits, h.digit?]
      rfl
  | cons d ds ih =>
    rw [List.all_cons, Bool.and_eq_true] at hds
    rw [List.map_cons, List.cons_append, takeDigits, digit?_byte hds.1, ih hds.2]
    rfl

theorem appendDigits_written {ds : List Char} {n : Nat}
    (h : ds.foldl (fun n d => 10 * n + Decimal.digitValue d) n ≤ Decimal.maxNat64) :
    appendDigits n (ds.map Decimal.digitValue) = (ds.foldl (fun n d => 10 * n + Decimal.digitValue d) n, []) := by
  have hgrows : ∀ (ds : List Char) (n : Nat), n ≤ ds.foldl (fun n d => 10 * n + Decimal.digitValue d) n := by
    intro ds
    induction ds with
    | nil => exact fun n => Nat.le_refl n
    | cons d ds ih => exact fun n => Nat.le_trans (by omega) (ih (10 * n + Decimal.digitValue d))
  induction ds generalizing n with
  | nil => rfl
  | cons d ds ih =>
    rw [List.foldl_cons] at h ⊢
    have hfits : n * 10 + Decimal.digitValue d ≤ Decimal.maxNat64 := by
      rw [Nat.mul_comm]
      exact Nat.le_trans (hgrows ds _) h
    rw [List.map_cons, appendDigits, if_pos hfits, Nat.mul_comm, ih h]

/-- Only zero is written with a zero in front. -/
theorem digits_eq_cons {n : Nat} (h : 0 < n) : ∃ d ds, Decimal.digits n = d :: ds ∧ Decimal.digitValue d ≠ 0 := by
  induction n using Decimal.digits.induct with
  | case1 n hlt =>
    rw [Decimal.digits, if_pos hlt]
    exact ⟨_, [], rfl, by rw [Decimal.digitValue_digit hlt]; omega⟩
  | case2 n hge ih =>
    obtain ⟨d, ds, hdigits, hd⟩ := ih (by omega)
    rw [Decimal.digits, if_neg hge, hdigits]
    exact ⟨d, ds ++ [Decimal.digit (n % 10)], rfl, hd⟩

theorem numberTail_of_stops {more : List UInt8} (h : Stops more) (c : Cursor) (negative : Bool) (n : Nat) :
    readNumber.numberTail negative c more.head? n 0 = .ok (integerOf negative n, c) := by
  have hne : ∀ b : UInt8, b ≠ 44 → b ≠ 93 → b ≠ 125 → more.head? ≠ some b := by
    intro b hcomma hbracket hbrace hb
    rcases h b hb with heq | heq | heq
    · exact hcomma heq
    · exact hbracket heq
    · exact hbrace heq
  have hexponent : (decide (more.head? = some 101) || decide (more.head? = some 69)) = false := by
    rw [decide_eq_false (hne 101 (by decide) (by decide) (by decide)),
      decide_eq_false (hne 69 (by decide) (by decide) (by decide))]
    rfl
  unfold readNumber.numberTail
  rw [if_neg (hne 46 (by decide) (by decide) (by decide)), hexponent, if_neg (by decide), if_pos rfl]

theorem readDigits_written {ds : List Char} (hds : ds.all Decimal.isDigit = true) {c : Cursor} {more : List UInt8}
    (hmore : Stops more) (h : c.Stands (utf8 ds ++ more)) :
    ∃ c', readDigits c = .ok (ds.map Decimal.digitValue, more.head?, c') ∧ c'.Stands more := by
  obtain ⟨c', hpeek, hc'⟩ := (h.moveTo (c.position.along (ds.map Decimal.digitValue).length) more).peek
  refine ⟨c', ?_, hc'⟩
  unfold readDigits
  rw [h.rest, takeDigits_written hds hmore]
  exact bind_eq_ok_iff.2 ⟨_, hpeek, rfl⟩

/-- Nothing but the end of the number may follow a zero in front. -/
theorem readNumber_zero (negative : Bool) {c : Cursor} {more : List UInt8} (hmore : Stops more) (h : c.Stands (48 :: more)) :
    ∃ c', readNumber c negative = .ok (integerOf negative 0, c') ∧ c'.Stands more := by
  obtain ⟨c', hpeek, hc'⟩ := h.skip.peek
  refine ⟨c', ?_, hc'⟩
  have htail := numberTail_of_stops hmore c' negative 0
  unfold readNumber
  rw [h.rest]
  show c.skip.peek >>= _ = _
  rw [hpeek]
  cases more with
  | nil => rfl
  | cons b r =>
    show (if (digit? b).isSome = true then _ else _) = _
    rw [hmore.digit?]
    exact htail

/-- **Integers.** A number that fits into 64 bits is read as an integer from its digits. -/
theorem readNumber_digits {n : Nat} (hn : n ≤ Decimal.maxNat64) (negative : Bool) {c : Cursor} {more : List UInt8}
    (hmore : Stops more) (h : c.Stands (utf8 (Decimal.digits n) ++ more)) :
    ∃ c', readNumber c negative = .ok (integerOf negative n, c') ∧ c'.Stands more := by
  rcases Nat.eq_zero_or_pos n with rfl | hpos
  · have hzero : utf8 (Decimal.digits 0) = [48] := by
      rw [Decimal.digits]
      rfl
    rw [hzero] at h
    exact readNumber_zero negative hmore h
  · obtain ⟨d, ds, hdigits, hd⟩ := digits_eq_cons hpos
    have hall := Decimal.digits_all n
    have hvalue : appendDigits 0 ((Decimal.digits n).map Decimal.digitValue) = (n, []) := by
      have hfold : (Decimal.digits n).foldl (fun n d => 10 * n + Decimal.digitValue d) 0 = n := Decimal.value_digits n
      rw [appendDigits_written (by rw [hfold]; exact hn), hfold]
    obtain ⟨c', hread, hc'⟩ := readDigits_written hall hmore h
    obtain ⟨r, hrest⟩ : ∃ r, c.rest = UInt8.ofNat d.toNat :: r := by
      rw [h.rest, utf8_digits hall, hdigits]
      exact ⟨_, rfl⟩
    have hdigit : digit? (UInt8.ofNat d.toNat) = some (Decimal.digitValue d) := by
      rw [hdigits, List.all_cons, Bool.and_eq_true] at hall
      exact digit?_byte hall.1
    refine ⟨c', ?_, hc'⟩
    unfold readNumber
    rw [hrest]
    dsimp only
    rw [hdigit]
    dsimp only
    rw [if_neg hd, hread]
    show readNumber.numberTail negative c' more.head? (appendDigits 0 _).1 (appendDigits 0 _).2.length = _
    rw [hvalue]
    exact numberTail_of_stops hmore c' negative n

end CatalogSync.Json
