import CatalogSync.Time.Calendar
import Mathlib.Tactic.ByContra
import Mathlib.Tactic.SplitIfs

/-!
# Dates and their numbers

`ofNumber_isValid` and `number_ofNumber` say that every number is that of a date of the calendar, and
`number_lt_iff` that dates come in the order of year, month and day.
-/

namespace CatalogSync.Time

/-! ## Years -/

/-- The day that a leap year has more. -/
def leapDay (year : Int) : Nat := if isLeap year then 1 else 0

theorem daysBeforeYear_succ (year : Int) : daysBeforeYear (year + 1) = daysBeforeYear year + 365 + leapDay year := by
  unfold daysBeforeYear leapDay isLeap
  by_cases h4 : year % 4 = 0
  · by_cases h100 : year % 100 = 0
    · by_cases h400 : year % 400 = 0
      · simp [h4, h100, h400]
        omega
      · simp [h4, h100, h400]
        omega
    · simp [h4, h100]
      omega
  · simp [h4]
    omega

theorem daysBeforeYear_le {y z : Int} (h : y ≤ z) : daysBeforeYear y ≤ daysBeforeYear z := by
  unfold daysBeforeYear
  omega

/-- A day is in the year that `yearAt` tells. -/
theorem yearAt_spec (n : Int) : daysBeforeYear (yearAt n) ≤ n ∧ n < daysBeforeYear (yearAt n + 1) := by
  have hguess : daysBeforeYear (n * 400 / 146097 - 1) ≤ n ∧ n < daysBeforeYear (n * 400 / 146097 + 2) := by
    unfold daysBeforeYear
    omega
  unfold yearAt
  dsimp only
  split
  · next hbefore =>
    rw [Int.sub_add_cancel]
    exact ⟨hguess.1, hbefore⟩
  · next hnotBefore =>
    split
    · next hafter =>
      refine ⟨hafter, ?_⟩
      rw [Int.add_assoc]
      exact hguess.2
    · next hnotAfter => exact ⟨Int.not_lt.1 hnotBefore, Int.not_le.1 hnotAfter⟩

/-! ## Months -/

theorem daysBeforeMonth_add_daysInMonth (year : Int) {m : Nat} (h₁ : 1 ≤ m) (h₂ : m ≤ 11) :
    daysBeforeMonth year m + daysInMonth year m = daysBeforeMonth year (m + 1) := by
  unfold daysBeforeMonth daysInMonth
  obtain rfl | rfl | rfl | rfl | rfl | rfl | rfl | rfl | rfl | rfl | rfl :
      m = 1 ∨ m = 2 ∨ m = 3 ∨ m = 4 ∨ m = 5 ∨ m = 6 ∨ m = 7 ∨ m = 8 ∨ m = 9 ∨ m = 10 ∨ m = 11 := by omega
  all_goals cases isLeap year <;> rfl

theorem daysBeforeDecember (year : Int) : daysBeforeMonth year 12 + daysInMonth year 12 = 365 + leapDay year := by
  unfold daysBeforeMonth daysInMonth leapDay
  cases isLeap year <;> rfl

theorem daysBeforeMonth_le (year : Int) {m k : Nat} (hm : 1 ≤ m) (h : m ≤ k) (hk : k ≤ 12) :
    daysBeforeMonth year m ≤ daysBeforeMonth year k := by
  induction k with
  | zero => omega
  | succ k ih =>
    by_cases heq : m = k + 1
    · exact Nat.le_of_eq (by rw [heq])
    · have hstep := daysBeforeMonth_add_daysInMonth year (m := k) (by omega) (by omega)
      have hbefore := ih (by omega) (by omega)
      omega

/-- No month goes beyond the year. -/
theorem daysBeforeMonth_add_le (year : Int) {m : Nat} (h₁ : 1 ≤ m) (h₂ : m ≤ 12) :
    daysBeforeMonth year m + daysInMonth year m ≤ 365 + leapDay year := by
  by_cases hlast : m = 12
  · rw [hlast]
    exact Nat.le_of_eq (daysBeforeDecember year)
  · have hstep := daysBeforeMonth_add_daysInMonth year h₁ (by omega)
    have hle := daysBeforeMonth_le year (m := m + 1) (k := 12) (by omega) (by omega) (by omega)
    have hdecember := daysBeforeDecember year
    omega

/-- A month of a year that the day `n` of the year is in. -/
def InMonth (year : Int) (n m : Nat) : Prop :=
  1 ≤ m ∧ m ≤ 12 ∧ daysBeforeMonth year m ≤ n ∧ n < daysBeforeMonth year m + daysInMonth year m

/-- One comparison: the day is in this month, or one of the later months has it. -/
theorem inMonth_ite {year : Int} {n k later : Nat} (h₁ : 1 ≤ k) (h₂ : k ≤ 11) (hfrom : daysBeforeMonth year k ≤ n)
    (hlater : daysBeforeMonth year (k + 1) ≤ n → InMonth year n later) :
    InMonth year n (if n < daysBeforeMonth year (k + 1) then k else later) := by
  split
  · next hlt =>
    rw [← daysBeforeMonth_add_daysInMonth year h₁ h₂] at hlt
    exact ⟨h₁, Nat.le_succ_of_le h₂, hfrom, hlt⟩
  · next hge => exact hlater (Nat.not_lt.1 hge)

/-- A day of a year is in the month that `monthAt` tells. -/
theorem monthAt_spec (year : Int) {n : Nat} (h : n < 365 + leapDay year) : InMonth year n (monthAt year n) := by
  have hjanuary : daysBeforeMonth year 1 ≤ n := Nat.zero_le n
  unfold monthAt
  refine inMonth_ite (by decide) (by decide) hjanuary fun hfrom => ?_
  refine inMonth_ite (by decide) (by decide) hfrom fun hfrom => ?_
  refine inMonth_ite (by decide) (by decide) hfrom fun hfrom => ?_
  refine inMonth_ite (by decide) (by decide) hfrom fun hfrom => ?_
  refine inMonth_ite (by decide) (by decide) hfrom fun hfrom => ?_
  refine inMonth_ite (by decide) (by decide) hfrom fun hfrom => ?_
  refine inMonth_ite (by decide) (by decide) hfrom fun hfrom => ?_
  refine inMonth_ite (by decide) (by decide) hfrom fun hfrom => ?_
  refine inMonth_ite (by decide) (by decide) hfrom fun hfrom => ?_
  refine inMonth_ite (by decide) (by decide) hfrom fun hfrom => ?_
  refine inMonth_ite (by decide) (by decide) hfrom fun hdecember => ?_
  refine ⟨by decide, by decide, hdecember, ?_⟩
  rw [daysBeforeDecember]
  exact h

/-! ## Dates -/

theorem isValid_iff {d : Date} :
    d.isValid = true ↔ 1 ≤ d.month ∧ d.month ≤ 12 ∧ 1 ≤ d.day ∧ d.day ≤ daysInMonth d.year d.month := by
  unfold Date.isValid
  simp [and_assoc]

/-- The day of the year of a number. -/
theorem dayOfYear_spec (number : Int) :
    (daysBeforeYear (yearAt (number + epoch)) + (number + epoch - daysBeforeYear (yearAt (number + epoch))).toNat : Int) =
        number + epoch ∧
      (number + epoch - daysBeforeYear (yearAt (number + epoch))).toNat < 365 + leapDay (yearAt (number + epoch)) := by
  have hyear := yearAt_spec (number + epoch)
  have hnext := daysBeforeYear_succ (yearAt (number + epoch))
  omega

theorem ofNumber_isValid (number : Int) : (Date.ofNumber number).isValid = true := by
  have hday := (dayOfYear_spec number).2
  have hmonth := monthAt_spec _ hday
  unfold InMonth at hmonth
  rw [isValid_iff]
  unfold Date.ofNumber
  dsimp only
  omega

theorem number_ofNumber (number : Int) : (Date.ofNumber number).number = number := by
  have hday := dayOfYear_spec number
  have hmonth := monthAt_spec _ hday.2
  unfold InMonth at hmonth
  unfold Date.number Date.ofNumber
  dsimp only
  omega

theorem ofNumber_injective {a b : Int} (h : Date.ofNumber a = Date.ofNumber b) : a = b := by
  rw [← number_ofNumber a, h, number_ofNumber]

/-- A date of the calendar lies within its year. -/
theorem number_bounds {d : Date} (h : d.isValid = true) :
    daysBeforeYear d.year ≤ d.number + epoch ∧ d.number + epoch < daysBeforeYear (d.year + 1) := by
  rw [isValid_iff] at h
  have hle := daysBeforeMonth_add_le d.year h.1 h.2.1
  have hnext := daysBeforeYear_succ d.year
  unfold Date.number
  omega

def Date.Before (d e : Date) : Prop :=
  d.year < e.year ∨ (d.year = e.year ∧ (d.month < e.month ∨ (d.month = e.month ∧ d.day < e.day)))

theorem number_lt_of_before {d e : Date} (hd : d.isValid = true) (he : e.isValid = true) (h : d.Before e) :
    d.number < e.number := by
  obtain hyear | ⟨hyear, hmonth | ⟨hmonth, hday⟩⟩ := h
  · have hlt := (number_bounds hd).2
    have hge := (number_bounds he).1
    have hle := daysBeforeYear_le (y := d.year + 1) (z := e.year) (by omega)
    omega
  · rw [isValid_iff] at hd he
    have hwithin := daysBeforeMonth_add_daysInMonth d.year (m := d.month) hd.1 (by omega)
    have hle := daysBeforeMonth_le d.year (m := d.month + 1) (k := e.month) (by omega) hmonth he.2.1
    unfold Date.number
    rw [← hyear]
    omega
  · unfold Date.number
    rw [← hyear, ← hmonth]
    omega

/-- **Order.** Dates of the calendar come in the order of year, month and day. -/
theorem number_lt_iff {d e : Date} (hd : d.isValid = true) (he : e.isValid = true) :
    d.number < e.number ↔ d.Before e := by
  refine ⟨fun hlt => ?_, number_lt_of_before hd he⟩
  by_contra hnot
  have hcases : e.Before d ∨ d = e := by
    obtain ⟨dy, dm, dd⟩ := d
    obtain ⟨ey, em, ed⟩ := e
    unfold Date.Before at hnot ⊢
    simp only [Date.mk.injEq] at hnot ⊢
    omega
  obtain hafter | rfl := hcases
  · have hgt := number_lt_of_before he hd hafter
    omega
  · omega

end CatalogSync.Time
