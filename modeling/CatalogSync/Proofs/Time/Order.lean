import CatalogSync.Time.Instant

/-!
# The order in time

`Instant.le` is a linear order: it compares days, then seconds, then nanoseconds. Outside leap seconds, the time since an
instant is the less the later the instant is (`since_le_since`).
-/

namespace CatalogSync.Time

/-- The nanoseconds of a day before a time of day. -/
def OfDay.nanos (t : OfDay) : Nat := t.second * perSecond + t.nano

/-- Outside leap seconds, the time between two times of day is the difference of what they count. -/
theorem OfDay.since_eq {a b : OfDay} (ha : a.nano < perSecond) (hb : b.nano < perSecond) :
    a.since b = (a.nanos : Int) - b.nanos := by
  have hafter : (decide (b.second < a.second) && decide (perSecond ≤ b.nano)) = false := by
    rw [decide_eq_false (Nat.not_le.2 hb), Bool.and_false]
  have hbefore : (decide (a.second < b.second) && decide (perSecond ≤ a.nano)) = false := by
    rw [decide_eq_false (Nat.not_le.2 ha), Bool.and_false]
  unfold since nanos perSecond at *
  rw [hafter, hbefore]
  simp only [Bool.false_eq_true, if_false]
  omega

namespace Instant

/-- The order in time, on the three numbers of an instant. -/
theorem le_iff {a b : Instant} :
    a.le b = true ↔ a.day < b.day ∨ (a.day = b.day ∧
      (a.time.second < b.time.second ∨ (a.time.second = b.time.second ∧ a.time.nano ≤ b.time.nano))) := by
  simp [le]

theorem le_refl (a : Instant) : a.le a = true := by
  rw [le_iff]; omega

theorem le_trans {a b c : Instant} (h : a.le b = true) (k : b.le c = true) : a.le c = true := by
  rw [le_iff] at h k ⊢
  omega

theorem eq_of_parts {a b : Instant} (hday : a.day = b.day) (hsecond : a.time.second = b.time.second)
    (hnano : a.time.nano = b.time.nano) : a = b := by
  obtain ⟨d, s, n, hs, hn⟩ := a
  obtain ⟨e, t, m, ht, hm⟩ := b
  dsimp only at hday hsecond hnano
  subst hday hsecond hnano
  rfl

/-! ## Time passed -/

/-- An instant outside leap seconds. -/
def IsPlain (t : Instant) : Prop := t.time.nano < perSecond

theorem since_eq {a b : Instant} (ha : a.IsPlain) (hb : b.IsPlain) :
    a.since b = (a.day - b.day) * 86400000000000 + (((a.time.second : Int) - b.time.second) * 1000000000 +
      ((a.time.nano : Int) - b.time.nano)) := by
  unfold since
  rw [OfDay.since_eq ha hb]
  unfold OfDay.nanos secondsPerDay perSecond
  omega

theorem since_le_since {a b now : Instant} (ha : a.IsPlain) (hb : b.IsPlain) (hnow : now.IsPlain)
    (h : a.le b = true) : now.since b ≤ now.since a := by
  have hnanoA := a.time.nano_lt
  have hsecondA := a.time.second_lt
  have hsecondB := b.time.second_lt
  rw [le_iff] at h
  rw [since_eq hnow ha, since_eq hnow hb]
  unfold IsPlain perSecond at ha hb
  omega

end Instant

end CatalogSync.Time
