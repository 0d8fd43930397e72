import CatalogSync.Proofs.Time.Order
import CatalogSync.Proofs.Time.Reading
import Mathlib.Data.String.Basic

/-!
# The order of stamps

The order of the stamps of civil instants as texts is the order in time (`stamp_lt_iff`). It stays so where the later of
the two lies before the year 0 (`stamp_lt_iff_of_year_le`).
-/

namespace CatalogSync.Time

open CatalogSync.Text

/-- The characters of a stamp, part by part. -/
theorem toList_stamp {t : Instant} (h : t.Civil) :
    t.stamp.toList = Decimal.padded 4 (Date.ofNumber t.day).year.toNat ++ '-' ::
      (Decimal.padded 2 (Date.ofNumber t.day).month ++ '-' :: (Decimal.padded 2 (Date.ofNumber t.day).day ++ 'T' ::
        (Decimal.padded 2 t.time.hour ++ ':' :: (Decimal.padded 2 t.time.minute ++ ':' ::
          (Decimal.padded 2 t.time.clockSecond ++ '.' :: (Decimal.padded 3 (t.time.fraction / 1000000) ++ ['Z'])))))) := by
  have hyear : yearChars (Date.ofNumber t.day).year = Decimal.padded 4 (Date.ofNumber t.day).year.toNat :=
    if_pos ⟨h.from_zero, h.to_9999⟩
  unfold Instant.stamp Instant.secondChars Date.chars OfDay.chars
  rw [String.toList_ofList, hyear]
  simp only [List.append_assoc, List.cons_append]

/-- A clock reading comes earlier, part by part, when it is of an earlier time. -/
theorem OfDay.clock_lt_iff {s t : OfDay} (hs : perSecond ≤ s.nano → s.second % 60 = 59)
    (ht : perSecond ≤ t.nano → t.second % 60 = 59) :
    (s.hour < t.hour ∨ (s.hour = t.hour ∧ (s.minute < t.minute ∨ (s.minute = t.minute ∧
      (s.clockSecond < t.clockSecond ∨ (s.clockSecond = t.clockSecond ∧
        s.fraction / 1000000 < t.fraction / 1000000)))))) ↔
    s.second < t.second ∨ (s.second = t.second ∧ s.nano / 1000000 < t.nano / 1000000) := by
  have hns := s.nano_lt
  have hnt := t.nano_lt
  unfold hour minute clockSecond fraction perSecond at *
  omega

/-- A day comes earlier, part by part, when its number is less. -/
theorem Instant.Civil.date_lt_iff {a b : Instant} (ha : a.Civil) (hb : b.Civil) (later : Prop) :
    ((Date.ofNumber a.day).year.toNat < (Date.ofNumber b.day).year.toNat ∨
      ((Date.ofNumber a.day).year.toNat = (Date.ofNumber b.day).year.toNat ∧
        ((Date.ofNumber a.day).month < (Date.ofNumber b.day).month ∨
          ((Date.ofNumber a.day).month = (Date.ofNumber b.day).month ∧
            ((Date.ofNumber a.day).day < (Date.ofNumber b.day).day ∨
              ((Date.ofNumber a.day).day = (Date.ofNumber b.day).day ∧ later)))))) ↔
    a.day < b.day ∨ (a.day = b.day ∧ later) := by
  have hnumber := number_lt_iff (ofNumber_isValid a.day) (ofNumber_isValid b.day)
  rw [number_ofNumber, number_ofNumber] at hnumber
  have hsame : a.day = b.day ↔ Date.ofNumber a.day = Date.ofNumber b.day :=
    ⟨fun h => by rw [h], ofNumber_injective⟩
  have hza := ha.from_zero
  have hzb := hb.from_zero
  rw [hnumber, hsame]
  generalize Date.ofNumber a.day = d at hza ⊢
  generalize Date.ofNumber b.day = e at hzb ⊢
  obtain ⟨dy, dm, dd⟩ := d
  obtain ⟨ey, em, ed⟩ := e
  unfold Date.Before
  simp only [Date.mk.injEq] at hza hzb ⊢
  by_cases hlater : later
  · simp only [hlater, and_true]
    omega
  · simp only [hlater, and_false, or_false]
    omega

/-- **Order.** Civil stamps are in the order in time, to the millisecond. -/
theorem Instant.stamp_lt_iff {a b : Instant} (ha : a.Civil) (hb : b.Civil) :
    a.stamp < b.stamp ↔ b.toMillis.le a.toMillis = false := by
  have hyear : (Date.ofNumber a.day).year.toNat < 10 ^ 4 ∧ (Date.ofNumber b.day).year.toNat < 10 ^ 4 := by
    have h := ha.to_9999
    have h' := hb.to_9999
    omega
  have hdateA := ofNumber_bounds a.day
  have hdateB := ofNumber_bounds b.day
  rw [String.lt_iff, toList_stamp ha, toList_stamp hb]
  rw [Decimal.padded_append_lt_iff (by decide) hyear.1 hyear.2,
    Decimal.padded_append_lt_iff (by decide) hdateA.1 hdateB.1,
    Decimal.padded_append_lt_iff (by decide) hdateA.2 hdateB.2,
    Decimal.padded_append_lt_iff (by decide) (Nat.lt_trans a.time.hour_lt (by decide))
      (Nat.lt_trans b.time.hour_lt (by decide)),
    Decimal.padded_append_lt_iff (by decide) (Nat.lt_trans a.time.minute_lt (by decide))
      (Nat.lt_trans b.time.minute_lt (by decide)),
    Decimal.padded_append_lt_iff (by decide) a.time.clockSecond_lt b.time.clockSecond_lt,
    Decimal.padded_append_lt_iff (by decide) a.time.fraction_lt b.time.fraction_lt]
  have hend : ¬ ([] : List Char) < [] := List.not_lt_nil []
  simp only [hend, and_false, or_false]
  rw [ha.date_lt_iff hb, OfDay.clock_lt_iff ha.leap hb.leap, ← Bool.not_eq_true, le_iff]
  unfold toMillis OfDay.toMillis
  dsimp only
  omega

/-! ## Before the year 0 -/

theorem year_le_of_le {m n : Int} (h : m ≤ n) : (Date.ofNumber m).year ≤ (Date.ofNumber n).year := by
  rcases Int.lt_or_eq_of_le h with hlt | rfl
  · have hbefore := number_lt_iff (ofNumber_isValid m) (ofNumber_isValid n)
    rw [number_ofNumber, number_ofNumber] at hbefore
    rcases hbefore.1 hlt with hyear | ⟨hyear, -⟩
    · exact Int.le_of_lt hyear
    · exact Int.le_of_eq hyear
  · exact Int.le_refl _

/-- The sign in front of a year before 0 comes before all digits. -/
theorem Instant.stamp_lt_of_year_neg {a b : Instant} (ha : (Date.ofNumber a.day).year < 0) (hb : b.Civil) :
    a.stamp < b.stamp := by
  have hyear : yearChars (Date.ofNumber a.day).year = '-' :: Decimal.padded 4 (Date.ofNumber a.day).year.natAbs := by
    unfold yearChars
    rw [if_neg fun h => Int.not_le.2 ha h.1, if_pos ha]
  have hwidth : (Decimal.padded 4 (Date.ofNumber b.day).year.toNat).length = 4 := by
    have hlast := hb.to_9999
    exact Decimal.length_padded (by decide) (by omega)
  rw [String.lt_iff, toList_stamp hb]
  unfold stamp secondChars Date.chars
  rw [String.toList_ofList, hyear]
  cases hdigits : Decimal.padded 4 (Date.ofNumber b.day).year.toNat with
  | nil => rw [hdigits] at hwidth; cases hwidth
  | cons d ds =>
    have hall := Decimal.all_padded 4 (Date.ofNumber b.day).year.toNat
    rw [hdigits, List.all_cons, Bool.and_eq_true] at hall
    have hd := (Decimal.isDigit_iff.1 hall.1).1
    have hsign : '-' < d := by
      rw [Char.lt_def, UInt32.lt_iff_toNat_lt]
      exact Nat.lt_of_lt_of_le (by decide) hd
    exact List.cons_lt_cons_iff.2 (.inl hsign)

/-- A civil stamp is less than that of an instant up to the year 9999 exactly if it is of an earlier millisecond. -/
theorem Instant.stamp_lt_iff_of_year_le {t cutoff : Instant} (ht : t.Civil)
    (hyear : (Date.ofNumber cutoff.day).year ≤ 9999)
    (hleap : perSecond ≤ cutoff.time.nano → cutoff.time.second % 60 = 59) :
    t.stamp < cutoff.stamp ↔ cutoff.toMillis.le t.toMillis = false := by
  by_cases hfrom : 0 ≤ (Date.ofNumber cutoff.day).year
  · exact stamp_lt_iff ht ⟨hfrom, hyear, hleap⟩
  · have hstamp := stamp_lt_of_year_neg (Int.not_le.1 hfrom) ht
    have hday : cutoff.day < t.day := by
      by_contra hle
      have hyears := year_le_of_le (Int.not_lt.1 hle)
      have hzero := ht.from_zero
      omega
    have hle : cutoff.toMillis.le t.toMillis = true := le_iff.2 (.inl hday)
    rw [hle]
    exact ⟨fun hlt => absurd hlt (lt_asymm hstamp), fun h => by cases h⟩

end CatalogSync.Time
