import Mathlib.Data.List.Basic
import Mathlib.Data.String.Basic

/-!
# Texts as bytes

`utf8` gives the bytes of a row of characters. A text is read back from its bytes (`fromUTF8?_utf8`), and the order of
texts by their bytes is that by their characters (`utf8_lt_iff`).
-/

namespace CatalogSync.Text

def utf8 (cs : List Char) : List UInt8 := cs.flatMap String.utf8EncodeChar

@[simp] theorem utf8_nil : utf8 [] = [] := rfl

theorem utf8_cons (c : Char) (cs : List Char) : utf8 (c :: cs) = String.utf8EncodeChar c ++ utf8 cs := rfl

@[simp] theorem utf8_append (cs ds : List Char) : utf8 (cs ++ ds) = utf8 cs ++ utf8 ds := List.flatMap_append

theorem utf8EncodeChar_of_le {c : Char} (h : c.toNat ≤ 127) : String.utf8EncodeChar c = [UInt8.ofNat c.toNat] := if_pos h

/-! ## Bytes of whole texts -/

theorem toList_loop (bs : ByteArray) (i : Nat) (r : List UInt8) :
    ByteArray.toList.loop bs i r = r.reverse ++ bs.data.toList.drop i := by
  fun_induction ByteArray.toList.loop bs i r with
  | case1 i r hlt ih =>
    have hlen : i < bs.data.toList.length := by simpa using hlt
    have hget : bs.get! i = bs.data.toList[i] := getElem!_pos bs.data i hlt
    rw [ih, List.drop_eq_getElem_cons hlen, hget]
    simp
  | case2 i r hge =>
    rw [List.drop_eq_nil_of_le (by simpa using Nat.le_of_not_lt hge), List.append_nil]

theorem toList_toUTF8 (s : String) : s.toUTF8.toList = utf8 s.toList := by
  have hbytes : s.toUTF8 = s.toList.utf8Encode := by
    conv_lhs => rw [← String.ofList_toList (s := s)]
    exact String.toByteArray_ofList
  rw [hbytes, ByteArray.toList, toList_loop]
  simp [List.utf8Encode, utf8]

theorem fromUTF8?_utf8 (cs : List Char) : String.fromUTF8? ⟨(utf8 cs).toArray⟩ = some (String.ofList cs) := by
  have hbytes : (⟨(utf8 cs).toArray⟩ : ByteArray) = cs.utf8Encode := by
    apply ByteArray.ext
    simp [List.utf8Encode, utf8]
  have hvalid : (⟨(utf8 cs).toArray⟩ : ByteArray).IsValidUTF8 := .intro cs hbytes
  unfold String.fromUTF8?
  rw [dif_pos hvalid, Option.some.injEq, ← String.toByteArray_inj, String.toByteArray_ofList]
  exact hbytes

theorem utf8_inj {cs ds : List Char} : utf8 cs = utf8 ds ↔ cs = ds := by
  refine ⟨fun h => ?_, fun h => by rw [h]⟩
  have hread := fromUTF8?_utf8 cs
  rw [h, fromUTF8?_utf8, Option.some.injEq, String.ofList_inj] at hread
  exact hread.symm

/-! ## Order -/

/-- Of two characters the lesser has the lesser bytes, whatever follows. -/
theorem utf8EncodeChar_lt {c d : Char} (h : c < d) (u v : List UInt8) :
    String.utf8EncodeChar c ++ u < String.utf8EncodeChar d ++ v := by
  have hval : c.val.toNat < d.val.toNat := h
  have hmax : d.val.toNat < 1114112 := by
    have := d.valid
    unfold UInt32.isValidChar Nat.isValidChar at this
    omega
  -- the bytes after the first hold six bits each
  have hbyte : ∀ x : Nat, (x % 64 + 128) % 256 = x % 64 + 128 := by omega
  unfold String.utf8EncodeChar
  generalize c.val.toNat = m at hval ⊢
  generalize d.val.toNat = n at hval hmax ⊢
  have hthird : ∀ x : Nat, x / 4096 = x / 64 / 64 := fun x => (Nat.div_div_eq_div_mul x 64 64).symm
  have hfourth : ∀ x : Nat, x / 262144 = x / 64 / 64 / 64 := by omega
  dsimp only
  split_ifs
  all_goals
    simp only [List.cons_append, List.nil_append, List.cons_lt_cons_iff, UInt8.lt_iff_toNat_lt, ← UInt8.toNat_inj,
      UInt8.toNat_ofNat', hbyte, hthird, hfourth]
    omega

theorem utf8EncodeChar_append_lt_iff (c d : Char) (u v : List UInt8) :
    String.utf8EncodeChar c ++ u < String.utf8EncodeChar d ++ v ↔ c < d ∨ (c = d ∧ u < v) := by
  rcases lt_trichotomy c d with hlt | rfl | hgt
  · exact ⟨fun _ => .inl hlt, fun _ => utf8EncodeChar_lt hlt u v⟩
  · have hcommon : ∀ bs : List UInt8, bs ++ u < bs ++ v ↔ u < v := by
      intro bs
      induction bs with
      | nil => rfl
      | cons b bs ih => rw [List.cons_append, List.cons_append, List.cons_lt_cons_iff, ih]; simp
    rw [hcommon]
    simp
  · have hafter := utf8EncodeChar_lt hgt v u
    refine ⟨fun h => absurd h (List.lt_asymm hafter), ?_⟩
    rintro (h | ⟨rfl, -⟩)
    · exact absurd h (lt_asymm hgt)
    · exact absurd hgt (lt_irrefl c)

/-- **Order.** Texts are in the order of their bytes. -/
theorem utf8_lt_iff (cs ds : List Char) : utf8 cs < utf8 ds ↔ cs < ds := by
  have hpos : ∀ (c : Char) (cs : List Char), [] < utf8 (c :: cs) := by
    intro c cs
    rw [utf8_cons]
    cases hbytes : String.utf8EncodeChar c with
    | nil => exact absurd (congrArg List.length hbytes) (by simp [c.utf8Size_pos.ne'])
    | cons b bs => exact List.nil_lt_cons b _
  induction cs generalizing ds with
  | nil =>
    cases ds with
    | nil => simp
    | cons d ds => exact ⟨fun _ => List.nil_lt_cons d ds, fun _ => hpos d ds⟩
  | cons c cs ih =>
    cases ds with
    | nil => exact ⟨fun h => absurd h (List.not_lt_nil _), fun h => absurd h (List.not_lt_nil _)⟩
    | cons d ds =>
      have hrest := ih ds
      calc
        utf8 (c :: cs) < utf8 (d :: ds) ↔ c < d ∨ (c = d ∧ utf8 cs < utf8 ds) := utf8EncodeChar_append_lt_iff c d _ _
        _ ↔ c < d ∨ (c = d ∧ cs < ds) := by simp only [hrest]
        _ ↔ c :: cs < d :: ds := List.cons_lt_cons_iff.symm

end CatalogSync.Text
