import CatalogSync.Time.Window
import CatalogSync.Proofs.Time.Loosely

/-!
# When a window is open

A text names a time of day (`Window.Names`), and the window it opens contains five minutes around the clock
(`Window.Contains`). `Window.isOpen` counts in whole seconds, and cuts a negative number of them toward zero: on the
broken second before the start, and on the last broken second of a window that has passed midnight, it answers the
wrong way (`Window.Misplaced`).

Main statement: `isOpen_iff_contains`.
-/

namespace CatalogSync.Time

open CatalogSync.Text

namespace Window

/-! ## What a text names -/

/-- **Times of day as texts**: the hour, a colon and the minute, each of one digit or two, with blanks around the whole
and before the minute. -/
def Names (opening : String) (start : OfDay) : Prop :=
  ∃ hour gap minute, trimmed opening.toList = hour ++ ':' :: (gap ++ minute) ∧ gap.all isBlank = true ∧
    Loose.Part 24 hour ∧ Loose.Part 60 minute ∧
    start.second = Decimal.value hour * 3600 + Decimal.value minute * 60 ∧ start.nano = 0

theorem clock_iff {hour minute : Nat} (hhour : hour < 24) (hminute : minute < 60) {start : OfDay} :
    OfDay.ofClock? hour minute 0 0 = some start ↔ start.second = hour * 3600 + minute * 60 ∧ start.nano = 0 := by
  obtain ⟨second, nano, hsecond, hnano⟩ := start
  unfold OfDay.ofClock? OfDay.of?
  rw [if_pos ⟨hhour, hminute, by decide, by decide⟩, if_neg (by decide), dif_pos ⟨by omega, by decide⟩,
    Option.some.injEq, OfDay.mk.injEq, Nat.add_zero, eq_comm, eq_comm (a := 0)]

/-- A trimmed text has no blank in front. -/
theorem gap_of_trimmed {cs gap rest : List Char} (h : trimmed cs = gap ++ rest) (hgap : gap.all isBlank = true) :
    gap = [] := by
  cases gap with
  | nil => rfl
  | cons c gap =>
    have hpre : trimEnd (trimStart cs) <+: trimStart cs := by
      unfold trimEnd
      rw [← List.reverse_suffix, List.reverse_reverse]
      exact List.dropWhile_suffix isBlank
    obtain ⟨tail, htail⟩ := hpre
    have hhead : (cs.dropWhile isBlank).head? = some c := by
      change (trimStart cs).head? = some c
      rw [← htail]
      change (trimmed cs ++ tail).head? = some c
      rw [h]
      rfl
    have hblank : isBlank c = true := List.all_eq_true.1 hgap c List.mem_cons_self
    have hnot := List.head?_dropWhile_not isBlank cs
    rw [hhead] at hnot
    exact absurd hblank (Bool.eq_false_iff.1 hnot)

theorem start?_sound {opening : String} {start : OfDay} (h : start? opening = some start) : Names opening start := by
  unfold start? at h
  dsimp only at h
  split at h
  · next hour minute hread =>
    obtain ⟨⟨n, cs⟩, hhour, hread⟩ := ok_of_bind hread
    obtain ⟨gap, ds, hchars, hgap, hds, rfl⟩ := Loose.part_sound hhour
    dsimp only at hread
    split at hread
    · next rest =>
      rw [pure_bind] at hread
      obtain ⟨⟨m, rest'⟩, hminute, hread⟩ := ok_of_bind hread
      obtain ⟨gap', es, rfl, hgap', hes, rfl⟩ := Loose.part_sound hminute
      dsimp only at hread
      split at hread
      · next hend =>
        cases hread
        obtain rfl : rest' = [] := List.isEmpty_iff.1 hend
        rw [List.append_assoc] at hchars
        obtain rfl := gap_of_trimmed hchars hgap
        rw [List.append_nil] at hchars
        exact ⟨ds, gap', es, hchars, hgap', hds, hes, (clock_iff hds.lt hes.lt).1 h⟩
      · cases hread
    · cases hread
    · cases hread
  · cases h

theorem start?_complete {opening : String} {start : OfDay} (h : Names opening start) : start? opening = some start := by
  obtain ⟨hour, gap, minute, hchars, hgap, hhour, hminute, hsecond, hnano⟩ := h
  have hfirst : Loose.part 2 0 23 (trimmed opening.toList) = .ok (Decimal.value hour, ':' :: (gap ++ minute)) := by
    have hgap' : ([] : List Char).all isBlank = true := rfl
    have hpart := Loose.part_complete hgap' hhour (Nat.zero_le _) (r := ':' :: (gap ++ minute))
      (fun _ => by simp; decide)
    rwa [List.nil_append, ← hchars] at hpart
  have hsecond' : Loose.part 2 0 59 (gap ++ minute) = .ok (Decimal.value minute, []) := by
    have hpart := Loose.part_complete hgap hminute (Nat.zero_le _) (r := []) (fun _ => by simp)
    rwa [List.append_nil] at hpart
  have hclock := (clock_iff hhour.lt hminute.lt).2 ⟨hsecond, hnano⟩
  unfold start?
  simp only [hfirst, hsecond', bind, Except.bind, pure, Except.pure, List.isEmpty_nil, if_true, hclock]

theorem start?_iff {opening : String} {start : OfDay} : start? opening = some start ↔ Names opening start :=
  ⟨start?_sound, start?_complete⟩

/-- A text names one time of day at most. -/
theorem Names.unique {opening : String} {start other : OfDay} (h : Names opening start) (h' : Names opening other) :
    start = other := Option.some.inj ((start?_iff.2 h).symm.trans (start?_iff.2 h'))

/-! ## Around the clock -/

/-- The nanoseconds from a time of day on to another, past midnight if need be. -/
def elapsed (start now : OfDay) : Int := ((now.nanos : Int) - start.nanos) % 86400000000000

/-- **The window** that opens at a time of day: half open, and as long as `Window.length` around the clock. -/
def Contains (start now : OfDay) : Prop := elapsed start now < length * perSecond

/-- The times that come before the start by the clock, and either less than a second before it or within the last second
of the window that opened the day before. -/
def Misplaced (start now : OfDay) : Prop :=
  now.nanos < start.nanos ∧ (86399 * perSecond < elapsed start now ∨
    (length - 1 : Nat) * perSecond < elapsed start now ∧ elapsed start now < length * perSecond)

instance (start now : OfDay) : Decidable (Contains start now) := by unfold Contains; infer_instance

instance (start now : OfDay) : Decidable (Misplaced start now) := by unfold Misplaced; infer_instance

/-- On whole seconds nothing is misplaced. -/
theorem not_misplaced_of_whole {start now : OfDay} (hstart : start.nano = 0) (hnow : now.nano = 0) :
    ¬ Misplaced start now := by
  unfold Misplaced elapsed OfDay.nanos length perSecond
  omega

/-- Seconds cut toward zero, taken around the clock, against the nanoseconds themselves. -/
theorem tdiv_emod_lt {d : Int} (hlow : -86400000000000 < d) (hhigh : d < 86400000000000) :
    d.tdiv 1000000000 % 86400 < 300 ↔
      (d % 86400000000000 < 300000000000 ↔ ¬ (d < 0 ∧ (86399000000000 < d % 86400000000000 ∨
        299000000000 < d % 86400000000000 ∧ d % 86400000000000 < 300000000000))) := by
  by_cases hd : 0 ≤ d
  · rw [Int.tdiv_eq_ediv_of_nonneg hd]
    omega
  · have hcut : d.tdiv 1000000000 = -(-d / 1000000000) := by
      rw [← Int.tdiv_eq_ediv_of_nonneg (by omega), Int.neg_tdiv, Int.neg_neg]
    rw [hcut]
    omega

theorem isOpen_of_names {opening : String} {start now : OfDay} (hnames : Names opening start)
    (hplain : now.nano < perSecond) :
    isOpen opening now = true ↔ (Contains start now ↔ ¬ Misplaced start now) := by
  obtain ⟨-, -, -, -, -, -, -, -, hwhole⟩ := id hnames
  have hstart : start.nano < perSecond := by rw [hwhole]; decide
  have hsecond := start.second_lt
  have hsecond' := now.second_lt
  have hcut := tdiv_emod_lt (d := (now.nanos : Int) - start.nanos)
    (by unfold OfDay.nanos perSecond at *; omega) (by unfold OfDay.nanos perSecond at *; omega)
  have hbefore : now.nanos < start.nanos ↔ (now.nanos : Int) - start.nanos < 0 := by omega
  unfold isOpen
  rw [start?_complete hnames]
  simp only [OfDay.since_eq hplain hstart, decide_eq_true_eq]
  unfold Contains Misplaced elapsed
  rw [hbefore]
  exact hcut

theorem isOpen_iff {opening : String} {now : OfDay} (hplain : now.nano < perSecond) :
    isOpen opening now = true ↔ ∃ start, Names opening start ∧ (Contains start now ↔ ¬ Misplaced start now) := by
  constructor
  · intro h
    cases hstart : start? opening with
    | none =>
      unfold isOpen at h
      rw [hstart] at h
      cases h
    | some start =>
      have hnames := start?_sound hstart
      exact ⟨start, hnames, (isOpen_of_names hnames hplain).1 h⟩
  · rintro ⟨start, hnames, h⟩
    exact (isOpen_of_names hnames hplain).2 h

/-- **When a window is open.** Outside leap seconds, a text opens its window just at the times that the window contains,
at full precision and around the clock, but for the misplaced ones, where it is the other way round. These have a
fraction of a second. -/
theorem isOpen_iff_contains (opening : String) (now : OfDay) (hplain : now.nano < perSecond) :
    (isOpen opening now = true ↔
      ∃ start, Names opening start ∧ (Contains start now ↔ ¬ Misplaced start now)) ∧
    ((∀ start, Names opening start → ¬ Misplaced start now) →
      (isOpen opening now = true ↔ ∃ start, Names opening start ∧ Contains start now)) ∧
    (now.nano = 0 → ∀ start, Names opening start → ¬ Misplaced start now) := by
  refine ⟨isOpen_iff hplain, fun hplaced => (isOpen_iff hplain).trans (exists_congr fun start => ?_),
    fun hnow start hnames => ?_⟩
  · refine and_congr_right fun hnames => ?_
    have hnot := hplaced start hnames
    exact ⟨fun h => h.2 hnot, fun h => ⟨fun _ => hnot, fun _ => h⟩⟩
  · obtain ⟨-, -, -, -, -, -, -, -, hwhole⟩ := hnames
    exact not_misplaced_of_whole hwhole hnow

theorem open_at_quarter_second_past_midnight :
    let now : OfDay := ⟨0, 250000000, by decide, by decide⟩
    now.nano < perSecond ∧ isOpen " 23:58\t" now = true ∧
      ∃ start, Names " 23:58\t" start ∧ ¬ Misplaced start now ∧ Contains start now := by
  intro now
  have hplain : now.nano < perSecond := by decide
  have hopen : isOpen " 23:58\t" now = true := by decide
  obtain ⟨start, hnames, hright⟩ := (isOpen_iff_contains " 23:58\t" now hplain).1.1 hopen
  have hstart : start? " 23:58\t" = some ⟨86280, 0, by decide, by decide⟩ := by decide
  obtain rfl := Names.unique hnames (start?_sound hstart)
  have hplaced : ¬ Misplaced ⟨86280, 0, by decide, by decide⟩ now := by decide
  exact ⟨hplain, hopen, _, hnames, hplaced, hright.2 hplaced⟩

/-- Half a second before its start a window is open already, and in the last half second of one that has passed
midnight it is closed. -/
theorem open_half_a_second_early :
    let early : OfDay := ⟨50399, 500000000, by decide, by decide⟩
    let late : OfDay := ⟨179, 500000000, by decide, by decide⟩
    (isOpen "14:00" early = true ∧ ¬ ∃ start, Names "14:00" start ∧ Contains start early) ∧
      isOpen "23:58" late = false ∧ ∃ start, Names "23:58" start ∧ Contains start late := by
  intro early late
  have hafternoon : Names "14:00" ⟨50400, 0, by decide, by decide⟩ := start?_sound (by decide)
  have hevening : Names "23:58" ⟨86280, 0, by decide, by decide⟩ := start?_sound (by decide)
  refine ⟨⟨by decide, ?_⟩, by decide, _, hevening, by decide⟩
  rintro ⟨start, hnames, hcontains⟩
  obtain rfl := Names.unique hnames hafternoon
  exact absurd hcontains (by decide)

end Window

end CatalogSync.Time
