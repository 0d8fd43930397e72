import CatalogSync.Text.Decimal
import Mathlib.Data.List.Basic
import Mathlib.Data.List.Induction
import Mathlib.Data.Nat.Basic
import Mathlib.Tactic.Ring

/-!
# Padded numbers

Numbers padded to one width are rows of digits of one length. Such rows count what they were written from
(`value_padded`), and their order as texts is the order of what they count (`lt_iff_value_lt`).
-/

namespace CatalogSync.Text.Decimal

/-! ## Rows of digits -/

theorem isDigit_digit {n : Nat} (h : n < 10) : isDigit (digit n) = true := by
  have hall : ∀ n < 10, isDigit (digit n) = true := by decide
  exact hall n h

theorem digitValue_digit {n : Nat} (h : n < 10) : digitValue (digit n) = n := by
  have hall : ∀ n < 10, digitValue (digit n) = n := by decide
  exact hall n h

theorem isDigit_iff {c : Char} : isDigit c = true ↔ 48 ≤ c.toNat ∧ c.toNat ≤ 57 := by
  simp only [isDigit, Bool.and_eq_true, decide_eq_true_eq, Char.le_def, UInt32.le_iff_toNat_le]
  exact Iff.rfl

theorem value_concat (ds : List Char) (c : Char) : value (ds ++ [c]) = 10 * value ds + digitValue c := by
  unfold value
  rw [List.foldl_concat]

theorem value_append (ds es : List Char) : value (ds ++ es) = value ds * 10 ^ es.length + value es := by
  induction es using List.reverseRecOn with
  | nil => simp [value]
  | append_singleton es c ih =>
    rw [← List.append_assoc, value_concat, ih, value_concat, List.length_append, List.length_singleton, pow_succ]
    ring

theorem value_cons (c : Char) (ds : List Char) : value (c :: ds) = digitValue c * 10 ^ ds.length + value ds := by
  have h := value_append [c] ds
  simpa [value] using h

theorem value_lt {ds : List Char} (h : ds.all isDigit = true) : value ds < 10 ^ ds.length := by
  induction ds with
  | nil => simp [value]
  | cons c ds ih =>
    simp only [List.all_cons, Bool.and_eq_true] at h
    have hc := isDigit_iff.1 h.1
    have hds := ih h.2
    rw [value_cons, List.length_cons, pow_succ]
    have hdigit : digitValue c ≤ 9 := by unfold digitValue; omega
    have hle : digitValue c * 10 ^ ds.length ≤ 9 * 10 ^ ds.length := Nat.mul_le_mul_right _ hdigit
    omega

/-- **Order.** Rows of digits of one length are in the order of what they count. -/
theorem lt_iff_value_lt {ds es : List Char} (hlen : ds.length = es.length) (hds : ds.all isDigit = true)
    (hes : es.all isDigit = true) : ds < es ↔ value ds < value es := by
  induction ds generalizing es with
  | nil =>
    cases es with
    | nil => simp [value]
    | cons e es => simp at hlen
  | cons d ds ih =>
    cases es with
    | nil => simp at hlen
    | cons e es =>
      simp only [List.all_cons, Bool.and_eq_true] at hds hes
      have hlen' : ds.length = es.length := by simpa using hlen
      have hd := isDigit_iff.1 hds.1
      have he := isDigit_iff.1 hes.1
      have hvd := value_lt hds.2
      have hve := value_lt hes.2
      rw [List.cons_lt_cons_iff, ih hlen' hds.2 hes.2, value_cons, value_cons]
      rw [hlen'] at hvd ⊢
      have hchar : d < e ↔ digitValue d < digitValue e := by
        rw [Char.lt_def, UInt32.lt_iff_toNat_lt]
        show d.toNat < e.toNat ↔ _
        unfold digitValue
        omega
      have heq : d = e ↔ digitValue d = digitValue e := by
        constructor
        · rintro rfl
          rfl
        · intro h
          apply Char.toNat_inj.1
          unfold digitValue at h
          omega
      rw [hchar, heq]
      generalize digitValue d = x
      generalize digitValue e = y
      constructor
      · rintro (hlt | ⟨rfl, hlt⟩)
        · -- the leading digit outweighs all that follow
          have hle : (x + 1) * 10 ^ es.length ≤ y * 10 ^ es.length := Nat.mul_le_mul_right _ hlt
          rw [Nat.add_mul, Nat.one_mul] at hle
          omega
        · omega
      · intro hlt
        rcases Nat.lt_trichotomy x y with hxy | rfl | hxy
        · exact .inl hxy
        · exact .inr ⟨rfl, by omega⟩
        · have hle : (y + 1) * 10 ^ es.length ≤ x * 10 ^ es.length := Nat.mul_le_mul_right _ hxy
          rw [Nat.add_mul, Nat.one_mul] at hle
          omega

/-- Texts whose first parts have one length are in the order of these parts, and then of what follows. -/
theorem append_lt_append_iff {ds es cs bs : List Char} (hlen : ds.length = es.length) :
    ds ++ cs < es ++ bs ↔ ds < es ∨ (ds = es ∧ cs < bs) := by
  induction ds generalizing es with
  | nil =>
    have hnil : es = [] := List.length_eq_zero_iff.1 hlen.symm
    subst hnil
    simp
  | cons d ds ih =>
    cases es with
    | nil => simp at hlen
    | cons e es =>
      have hlen' : ds.length = es.length := by simpa using hlen
      rw [List.cons_append, List.cons_append, List.cons_lt_cons_iff, List.cons_lt_cons_iff, ih hlen', List.cons.injEq]
      constructor
      · rintro (hlt | ⟨rfl, hlt | ⟨rfl, hlt⟩⟩)
        · exact .inl (.inl hlt)
        · exact .inl (.inr ⟨rfl, hlt⟩)
        · exact .inr ⟨⟨rfl, rfl⟩, hlt⟩
      · rintro ((hlt | ⟨rfl, hlt⟩) | ⟨⟨rfl, rfl⟩, hlt⟩)
        · exact .inl hlt
        · exact .inr ⟨rfl, .inl hlt⟩
        · exact .inr ⟨rfl, .inr ⟨rfl, hlt⟩⟩

/-! ## Writing -/

theorem digits_all (n : Nat) : (digits n).all isDigit = true := by
  induction n using digits.induct with
  | case1 n h =>
    rw [digits, if_pos h]
    simp [isDigit_digit h]
  | case2 n h ih =>
    rw [digits, if_neg h, List.all_append, ih]
    simp [isDigit_digit (Nat.mod_lt n (by decide))]

theorem value_digits (n : Nat) : value (digits n) = n := by
  induction n using digits.induct with
  | case1 n h =>
    rw [digits, if_pos h]
    simp [value, digitValue_digit h]
  | case2 n h ih =>
    rw [digits, if_neg h, value_concat, ih, digitValue_digit (Nat.mod_lt n (by decide))]
    omega

theorem length_digits_le {n w : Nat} (hw : 1 ≤ w) (h : n < 10 ^ w) : (digits n).length ≤ w := by
  induction n using digits.induct generalizing w with
  | case1 n hn =>
    rw [digits, if_pos hn]
    exact hw
  | case2 n hn ih =>
    obtain ⟨v, rfl⟩ : ∃ v, w = v + 1 := ⟨w - 1, by omega⟩
    rw [pow_succ] at h
    have hv : 1 ≤ v := by
      by_contra hzero
      have : v = 0 := by omega
      subst this
      omega
    have hlen := ih hv (by omega)
    rw [digits, if_neg hn, List.length_append, List.length_singleton]
    omega

section Padded

variable {w n m : Nat}

theorem length_padded (hw : 1 ≤ w) (h : n < 10 ^ w) : (padded w n).length = w := by
  have hlen := length_digits_le hw h
  simp only [padded, List.length_append, List.length_replicate]
  omega

theorem padded_ne_nil (w n : Nat) : padded w n ≠ [] := by
  intro h
  have hlen := congrArg List.length h
  unfold padded at hlen
  rw [digits] at hlen
  split at hlen <;> simp at hlen

theorem all_padded (w n : Nat) : (padded w n).all isDigit = true := by
  unfold padded
  rw [List.all_append, digits_all, Bool.and_true, List.all_eq_true]
  intro c hc
  rw [List.eq_of_mem_replicate hc]
  decide

theorem value_padded (w n : Nat) : value (padded w n) = n := by
  have hzeros : ∀ k, value (List.replicate k '0') = 0 := by
    intro k
    induction k with
    | zero => rfl
    | succ k ih =>
      rw [List.replicate_succ, value_cons, ih]
      simp [digitValue]
  unfold padded
  rw [value_append, hzeros, value_digits]
  omega

theorem padded_lt_iff (hw : 1 ≤ w) (hn : n < 10 ^ w) (hm : m < 10 ^ w) : padded w n < padded w m ↔ n < m := by
  have hlen : (padded w n).length = (padded w m).length := by rw [length_padded hw hn, length_padded hw hm]
  rw [lt_iff_value_lt hlen (all_padded w n) (all_padded w m), value_padded, value_padded]

theorem padded_inj (h : padded w n = padded w m) : n = m := by
  rw [← value_padded w n, h, value_padded]

/-- The order of a padded number with a mark after it, and of what follows the mark. -/
theorem padded_append_lt_iff (hw : 1 ≤ w) (hn : n < 10 ^ w) (hm : m < 10 ^ w) (c : Char) (cs bs : List Char) :
    padded w n ++ c :: cs < padded w m ++ c :: bs ↔ n < m ∨ (n = m ∧ cs < bs) := by
  have hlen : (padded w n).length = (padded w m).length := by rw [length_padded hw hn, length_padded hw hm]
  have heq : padded w n = padded w m ↔ n = m := ⟨padded_inj, fun h => by rw [h]⟩
  have hmark : c :: cs < c :: bs ↔ cs < bs := by
    rw [List.cons_lt_cons_iff]
    simp
  rw [append_lt_append_iff hlen, padded_lt_iff hw hn hm, heq, hmark]

end Padded

end CatalogSync.Text.Decimal
