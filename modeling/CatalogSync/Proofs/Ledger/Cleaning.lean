import CatalogSync.Proofs.Ledger.Paging

/-!
# Cleaning up

Old jobs are removed by the texts of their times of creation. A cutoff may lie before the year 0, where texts begin
with a sign, or so far back that no instant is kept for it.

Main statement: `clean_removes_old_jobs`. Exactly the jobs made before the cutoff go, by the order in time and to the
millisecond.
-/

namespace CatalogSync.Ledger

open CatalogSync.Time

/-- The instant some days before now, in whatever year that is. Fewer days than none count as none. -/
def cutoff (now : Instant) (days : Int) : Instant := ⟨now.day - max days 0, now.time⟩

/-- A job was made before the cutoff, to the millisecond. -/
def isOld (now : Instant) (days : Int) (j : Job) : Bool := !(cutoff now days).toMillis.le j.createdAt

/-- No length of time or no instant is kept for the cutoff. -/
def OutOfReach (now : Instant) (days : Int) : Prop := maxDays < days ∨ (cutoff now days).inRange = false

/-! ## The cutoff -/

theorem cutoff?_eq_some {now t : Instant} {days : Int} (h : cutoff? now days = some t) : t = cutoff now days := by
  have hdays : ((max days 0).toNat : Int) = max days 0 := Int.toNat_of_nonneg (le_max_right _ _)
  unfold cutoff? Instant.minusDays? at h
  dsimp only at h
  rw [hdays] at h
  split at h
  · cases h
  · split at h
    · exact (Option.some.inj h).symm
    · cases h

theorem cutoff?_eq_none_iff {now : Instant} {days : Int} : cutoff? now days = none ↔ OutOfReach now days := by
  have hdays : ((max days 0).toNat : Int) = max days 0 := Int.toNat_of_nonneg (le_max_right _ _)
  have hmax : maxDays < max days 0 ↔ maxDays < days := by
    unfold maxDays
    omega
  unfold cutoff? Instant.minusDays? OutOfReach
  dsimp only
  rw [hdays, ← hmax]
  by_cases hlong : maxDays < max days 0
  · simp [hlong]
  · simp [hlong, cutoff]

section Cutoff

variable {now : Instant} (hnow : now.Civil) (days : Int)
include hnow

theorem cutoff_year_le : (Date.ofNumber (cutoff now days).day).year ≤ 9999 := by
  have hday : (cutoff now days).day ≤ now.day := by
    have hdays := le_max_right days 0
    unfold cutoff
    dsimp only
    omega
  exact (year_le_of_le hday).trans hnow.to_9999

/-- A cutoff that is out of reach lies before the year 0. -/
theorem OutOfReach.year_neg {days : Int} (hfar : OutOfReach now days) :
    (Date.ofNumber (cutoff now days).day).year < 0 := by
  have hlate := cutoff_year_le hnow days
  rcases hfar with hlong | hrange
  · by_contra hyear
    have hfrom := (number_bounds (ofNumber_isValid (cutoff now days).day)).1
    have hto := (number_bounds (ofNumber_isValid now.day)).2
    have hzero := daysBeforeYear_le (Int.not_lt.1 hyear)
    have hlast := daysBeforeYear_le (y := (Date.ofNumber now.day).year + 1) (z := 10000) (by
      have := hnow.to_9999
      omega)
    rw [number_ofNumber] at hfrom hto
    have hday : (cutoff now days).day ≤ now.day - days := by
      have := le_max_left days 0
      unfold cutoff
      dsimp only
      omega
    have hcenturies : daysBeforeYear 10000 - daysBeforeYear 0 < maxDays := by decide
    omega
  · have hin : ¬ (Instant.firstYear ≤ (Date.ofNumber (cutoff now days).day).year ∧
        (Date.ofNumber (cutoff now days).day).year ≤ Instant.lastYear) := by
      intro h
      unfold Instant.inRange at hrange
      simp [h.1, h.2] at hrange
    unfold Instant.firstYear Instant.lastYear at hin
    omega

end Cutoff

/-! ## What is removed -/

section Old

variable {h : History} (hh : h.Civil) {r : Row} (hr : r.Sound h) {now : Instant} (hnow : now.Civil) {days : Int}
include hh hr hnow

/-- The comparison of texts is that of the instants. -/
theorem Row.Sound.isOld_iff : r.createdAt < (cutoff now days).stamp ↔ isOld now days (r.job now) = true := by
  obtain ⟨-, t, ht, hstamp, hcreated⟩ := hr.madeIn hh now
  rw [hstamp, isOld, hcreated, Bool.not_eq_true']
  exact Instant.stamp_lt_iff_of_year_le ht (cutoff_year_le hnow days) hnow.leap

theorem Row.Sound.recent_of_year_neg (hyear : (Date.ofNumber (cutoff now days).day).year < 0) :
    isOld now days (r.job now) = false := by
  obtain ⟨-, t, ht, hstamp, -⟩ := hr.madeIn hh now
  rw [← Bool.not_eq_true, ← hr.isOld_iff hh hnow, hstamp]
  exact lt_asymm (Instant.stamp_lt_of_year_neg hyear ht)

end Old

section Clean

variable {h : History} (hh : h.Civil) {now : Instant} (hnow : now.Civil) (days : Int)
include hh hnow

/-- Both ways out of the computation of the cutoff and the comparison of texts come to one and the same. -/
theorem rows_clean_eq : ((replay h).clean now days).2.rows =
    (replay h).rows.filter fun r => !isOld now days (r.job now) := by
  unfold clean
  cases hcutoff : cutoff? now days with
  | none =>
    have hyear := (cutoff?_eq_none_iff.1 hcutoff).year_neg hnow
    refine (List.filter_eq_self.2 fun r hr => ?_).symm
    rw [(replay_sound h r hr).recent_of_year_neg hh hnow hyear]
    rfl
  | some t =>
    rw [cutoff?_eq_some hcutoff]
    refine List.filter_congr fun r hr => ?_
    have hold : r.createdAt < (cutoff now days).stamp ↔ isOld now days (r.job now) = true :=
      (replay_sound h r hr).isOld_iff hh hnow
    by_cases hlt : r.createdAt < (cutoff now days).stamp
    · rw [decide_eq_true hlt, hold.1 hlt]
    · rw [decide_eq_false hlt, Bool.eq_false_iff.2 fun h => hlt (hold.2 h)]

theorem count_clean_eq : ((replay h).clean now days).1 =
    (replay h).rows.countP fun r => isOld now days (r.job now) := by
  have hrows := rows_clean_eq hh hnow days
  have hcount : ((replay h).clean now days).1 =
      (replay h).rows.length - ((replay h).clean now days).2.rows.length := by
    unfold clean
    cases cutoff? now days with
    | none => exact (Nat.sub_self _).symm
    | some t => rfl
  have hsplit := (replay h).rows.length_eq_countP_add_countP fun r => isOld now days (r.job now)
  have hkept : ((replay h).rows.filter fun r => !isOld now days (r.job now)).length =
      (replay h).rows.countP fun r => ¬ isOld now days (r.job now) = true := by
    rw [← List.countP_eq_length_filter]
    congr 1
    funext r
    simp
  rw [hcount, hrows, hkept]
  omega

/-- Without an old job, a clean-up changes nothing. -/
theorem clean_eq_of_recent (hrecent : ∀ r ∈ (replay h).rows, isOld now days (r.job now) = false) :
    (replay h).clean now days = (0, replay h) := by
  have hrows : ((replay h).clean now days).2.rows = (replay h).rows := by
    rw [rows_clean_eq hh hnow days]
    exact List.filter_eq_self.2 fun r hr => by rw [hrecent r hr]; rfl
  have hcount : ((replay h).clean now days).1 = 0 := by
    rw [count_clean_eq hh hnow days, List.countP_eq_zero]
    intro r hr
    rw [hrecent r hr]
    exact Bool.false_ne_true
  exact Prod.ext hcount (congrArg Ledger.mk hrows)

end Clean

/-- **Cleaning up.** After every history, at every instant of the years 0 to 9999 and for any number of days, a
clean-up removes exactly the jobs that were made before the cutoff, to the millisecond, tells how many they were, and
keeps all other rows as they are. It changes nothing if no job is older than the cutoff, if the cutoff lies before the
year 0, or if no instant is kept for it. -/
theorem clean_removes_old_jobs (h : History) (hh : h.Civil) (now : Instant) (hnow : now.Civil) (days : Int) :
    (∀ r ∈ (replay h).rows, r.toJob now = .ok (r.job now) ∧ MadeIn h (r.job now)) ∧
      ((replay h).clean now days).2.rows = (replay h).rows.filter (fun r => !isOld now days (r.job now)) ∧
      ((replay h).clean now days).1 = (replay h).rows.countP (fun r => isOld now days (r.job now)) ∧
      ((∀ r ∈ (replay h).rows, (cutoff now days).toMillis.le (r.job now).createdAt = true) ∨
          (Date.ofNumber (cutoff now days).day).year < 0 ∨ OutOfReach now days →
        (replay h).clean now days = (0, replay h)) := by
  refine ⟨fun r hr => ?_, rows_clean_eq hh hnow days, count_clean_eq hh hnow days, fun hnone => ?_⟩
  · have hsound := replay_sound h r hr
    exact ⟨hsound.toJob now, (hsound.madeIn hh now).1⟩
  · refine clean_eq_of_recent hh hnow days fun r hr => ?_
    have hsound := replay_sound h r hr
    rcases hnone with hlate | hyear | hfar
    · rw [isOld, hlate r hr]
      rfl
    · exact hsound.recent_of_year_neg hh hnow hyear
    · exact hsound.recent_of_year_neg hh hnow (hfar.year_neg hnow)

/-- Of two jobs made three days apart, the one is older than two days; none is older than 2 ^ 63 - 1 days. -/
theorem one_of_two_jobs_is_old :
    let t (day : Int) : Instant := ⟨day, default⟩
    let h : History := [(t 0, .create .cardImport .null), (t 3, .create .setImport .null)]
    ((replay h).clean (t 4) 2).1 = 1 ∧ ((replay h).clean (t 4) 2).2.rows.map Row.id = [2] ∧
      (replay h).clean (t 4) (2 ^ 63 - 1) = (0, replay h) := by
  intro t h
  have hcivil : ∀ day ∈ [0, 3, 4], (t day).Civil := by
    intro day hday
    simp only [List.mem_cons, List.not_mem_nil, or_false] at hday
    rcases hday with rfl | rfl | rfl
    all_goals exact ⟨by decide, by decide, by decide⟩
  have hh : h.Civil := by
    intro call hcall
    simp only [h, List.mem_cons, List.not_mem_nil, or_false] at hcall
    rcases hcall with rfl | rfl
    · exact hcivil 0 (by decide)
    · exact hcivil 3 (by decide)
  have hnow := hcivil 4 (by decide)
  obtain ⟨-, hrows, hcount, -⟩ := clean_removes_old_jobs h hh (t 4) hnow 2
  obtain ⟨-, -, -, hnone⟩ := clean_removes_old_jobs h hh (t 4) hnow (2 ^ 63 - 1)
  refine ⟨?_, ?_, hnone (.inr (.inr (.inl (by decide))))⟩
  · rw [hcount]
    decide +kernel
  · rw [hrows]
    decide +kernel

end CatalogSync.Ledger
