import CatalogSync.Proofs.Ledger.Cleaning
import CatalogSync.Proofs.Text.Bytes

/-!
# Time in stored texts

The store knows times as texts only: it compares their bytes, to order jobs and to tell old ones. Main statement:
`stamps_keep_time`. For the civil instants, a stamp reads back as the instant to the millisecond, and comparing and
ordering stamps is comparing and ordering these instants.
-/

namespace CatalogSync.Time

def Instant.Before (a b : Instant) : Prop := b.le a = false

instance (a b : Instant) : Decidable (a.Before b) := by unfold Instant.Before; infer_instance

/-- A stamp tells nothing below the millisecond. -/
theorem Instant.stamp_toMillis (t : Instant) : t.toMillis.stamp = t.stamp := by
  have hsecond : t.time.toMillis.clockSecond = t.time.clockSecond := by
    unfold OfDay.clockSecond OfDay.toMillis perSecond
    dsimp only
    omega
  have hfraction : t.time.toMillis.fraction / 1000000 = t.time.fraction / 1000000 := by
    unfold OfDay.fraction OfDay.toMillis perSecond
    dsimp only
    omega
  have hclock : t.time.toMillis.chars = t.time.chars := by
    unfold OfDay.chars
    rw [hsecond]
    rfl
  unfold stamp secondChars toMillis
  dsimp only
  rw [hclock, hfraction]

theorem Instant.stamp_eq_iff {a b : Instant} (ha : a.Civil) (hb : b.Civil) :
    a.stamp = b.stamp ↔ a.toMillis = b.toMillis := by
  constructor
  · intro h
    have hread := read_stamp ha
    rw [h, read_stamp hb] at hread
    exact (Option.some.inj hread).symm
  · intro h
    rw [← stamp_toMillis a, h, stamp_toMillis]

end CatalogSync.Time

namespace CatalogSync.Ledger

open CatalogSync.Text CatalogSync.Time

/-- Each row was made at a civil instant, by the text of its time of creation. -/
def Stamped (l : Ledger) (made : Row → Instant) : Prop := ∀ r ∈ l.rows, (made r).Civil ∧ r.createdAt = (made r).stamp

/-- Made later, to the millisecond, or in the same millisecond with no smaller id. -/
def MadeAfter (made : Row → Instant) (r s : Row) : Prop :=
  (made s).toMillis.Before (made r).toMillis ∨ ((made r).toMillis = (made s).toMillis ∧ s.id ≤ r.id)

section Stamped

variable {l : Ledger} {made : Row → Instant} (hl : Stamped l made)
include hl

theorem Stamped.matching (q : Query) : (l.matching q).Pairwise (MadeAfter made) := by
  refine (matching_sorted l q).imp_of_mem fun {r s} hr hs hbefore => ?_
  obtain ⟨hcivil, hr⟩ := hl r (mem_matching.1 hr).1
  obtain ⟨hcivil', hs⟩ := hl s (mem_matching.1 hs).1
  rw [Row.before_iff, hr, hs] at hbefore
  exact hbefore.imp (Instant.stamp_lt_iff hcivil' hcivil).1
    fun ⟨heq, hid⟩ => ⟨(Instant.stamp_eq_iff hcivil hcivil').1 heq, hid⟩

theorem Stamped.clean {now cutoff : Instant} {days : Int} (hcutoff : cutoff? now days = some cutoff) (hcivil : cutoff.Civil) :
    (l.clean now days).2.rows = l.rows.filter fun r => !decide ((made r).toMillis.Before cutoff.toMillis) := by
  unfold Ledger.clean
  rw [hcutoff]
  refine List.filter_congr fun r hr => ?_
  obtain ⟨hmade, hstamp⟩ := hl r hr
  rw [hstamp, decide_eq_decide.2 (Instant.stamp_lt_iff hmade hcivil)]
  rfl

end Stamped

/-- **Stamps keep time.** For civil instants, those of the years 0 to 9999 whose leap seconds end a minute: a stamp reads
back as its instant cut down to the millisecond, and stamping what was read gives the same text; the order of the bytes
of two stamps is the order in time of the instants so cut down, and two stamps are one text exactly for one such
instant. So the rows of every query come in the order in which they were made, the latest first and then by falling id,
and a clean-up keeps the rows that were not made before its cutoff. -/
theorem stamps_keep_time {a b : Instant} (ha : a.Civil) (hb : b.Civil) {l : Ledger} {made : Row → Instant}
    (hl : Stamped l made) :
    (read? a.stamp = some a.toMillis ∧ (read? a.stamp).map Instant.stamp = some a.stamp) ∧
      ((a.stamp.toUTF8.toList < b.stamp.toUTF8.toList ↔ a.toMillis.Before b.toMillis) ∧
        (a.stamp.toUTF8.toList = b.stamp.toUTF8.toList ↔ a.toMillis = b.toMillis)) ∧
      (∀ q, (l.matching q).Pairwise (MadeAfter made)) ∧
      ∀ now days, cutoff? now days = some b →
        (l.clean now days).2.rows = l.rows.filter fun r => !decide ((made r).toMillis.Before b.toMillis) := by
  have hread := read_stamp ha
  refine ⟨⟨hread, ?_⟩, ⟨?_, ?_⟩, hl.matching, fun now days hcutoff => hl.clean hcutoff hb⟩
  · rw [hread, Option.map_some, Instant.stamp_toMillis]
  · rw [toList_toUTF8, toList_toUTF8, utf8_lt_iff, ← String.lt_iff]
    exact Instant.stamp_lt_iff ha hb
  · rw [toList_toUTF8, toList_toUTF8, utf8_inj, String.toList_inj]
    exact Instant.stamp_eq_iff ha hb

/-- A job made in the leap second at the end of 2016 and one made in the first millisecond of 2017: of these instants
nothing below the millisecond is kept, the second job is shown first, and two days after its making only the first one
is older than two days. -/
theorem leap_second_before_new_year :
    let leap : Instant := ⟨17166, 86399, 1999500000, by decide, by decide⟩
    let next : Instant := ⟨17167, 0, 400000, by decide, by decide⟩
    let l : Ledger := replay [(leap, .create .cardImport .null), (next, .create .setImport .null)]
    let made (r : Row) : Instant := if r.id = 1 then leap else next
    leap.Civil ∧ next.Civil ∧ Stamped l made ∧ leap.stamp = "2016-12-31T23:59:60.999Z" ∧
      read? leap.stamp = some leap.toMillis ∧ leap.stamp.toUTF8.toList < next.stamp.toUTF8.toList ∧
      (l.matching {}).Pairwise (MadeAfter made) ∧
      (l.clean ⟨17169, next.time⟩ 2).2.rows.map Row.id = [2] := by
  intro leap next l made
  have hleap : leap.Civil := ⟨by decide, by decide, by decide⟩
  have hnext : next.Civil := ⟨by decide, by decide, by decide⟩
  have hl : Stamped l made := by
    have hrows : l.rows = [Row.fresh leap 1 .cardImport .null, Row.fresh next 2 .setImport .null] := rfl
    intro r hr
    rw [hrows] at hr
    simp only [List.mem_cons, List.not_mem_nil, or_false] at hr
    rcases hr with rfl | rfl
    · exact ⟨hleap, rfl⟩
    · exact ⟨hnext, rfl⟩
  obtain ⟨⟨hread, -⟩, ⟨hlt, -⟩, hmatching, hclean⟩ := stamps_keep_time hleap hnext hl
  refine ⟨hleap, hnext, hl, by decide +kernel, hread, hlt.2 (by decide), hmatching {}, ?_⟩
  rw [hclean ⟨17169, next.time⟩ 2 (by decide)]
  decide

end CatalogSync.Ledger
