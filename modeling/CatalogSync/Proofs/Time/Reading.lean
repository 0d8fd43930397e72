import CatalogSync.Settings.Readers
import CatalogSync.Proofs.Text.Padding
import CatalogSync.Proofs.Time.Calendar
import CatalogSync.Proofs.Time.Order

/-!
# Reading instants back

Civil instants are those of the years 0 to 9999. The text of one reads back as the instant itself (`read_text`), and
its stamp as the instant cut down to the millisecond (`read_stamp`).
-/

namespace CatalogSync.Time

open CatalogSync.Text

/-- An instant of a year of four digits; a leap second ends its minute. -/
structure Instant.Civil (t : Instant) : Prop where
  from_zero : 0 ≤ (Date.ofNumber t.day).year
  to_9999 : (Date.ofNumber t.day).year ≤ 9999
  leap : perSecond ≤ t.time.nano → t.time.second % 60 = 59

/-! ## The parts of a text -/

theorem daysInMonth_le (year : Int) (m : Nat) : daysInMonth year m ≤ 31 := by
  unfold daysInMonth
  split
  · split <;> decide
  all_goals decide

namespace OfDay

variable (t : OfDay)

theorem hour_lt : t.hour < 24 := by
  have h := t.second_lt
  unfold hour
  omega

theorem minute_lt : t.minute < 60 := by
  unfold minute
  omega

theorem clockSecond_lt : t.clockSecond < 100 := by
  have h := t.nano_lt
  unfold clockSecond perSecond
  omega

theorem fraction_lt : t.fraction / 1000000 < 1000 := by
  unfold fraction perSecond
  omega

end OfDay

theorem ofNumber_bounds (number : Int) :
    (Date.ofNumber number).month < 10 ^ 2 ∧ (Date.ofNumber number).day < 10 ^ 2 := by
  have hvalid := isValid_iff.1 (ofNumber_isValid number)
  have hdays := daysInMonth_le (Date.ofNumber number).year (Date.ofNumber number).month
  omega

/-! ## Part by part -/

theorem exactDigits?_padded {w n : Nat} (hw : 1 ≤ w) (hn : n < 10 ^ w) (cs : List Char) :
    exactDigits? w (Decimal.padded w n ++ cs) = some (n, cs) := by
  have hlen := Decimal.length_padded hw hn
  unfold exactDigits?
  rw [List.take_left' hlen, List.drop_left' hlen]
  dsimp only
  rw [if_pos ⟨hlen, Decimal.all_padded w n⟩, Decimal.value_padded]

theorem expect?_cons (c : Char) (cs : List Char) : expect? c (c :: cs) = some cs := if_pos rfl

/-- A fraction of up to nine digits, before something that is no digit. -/
theorem fractionDigits?_padded {w k : Nat} (hw : 1 ≤ w) (hnine : w ≤ 9) (hk : k < 10 ^ w) {c : Char} (cs : List Char)
    (hc : Decimal.isDigit c = false) :
    fractionDigits? (Decimal.padded w k ++ c :: cs) = some (k * 10 ^ (9 - w), c :: cs) := by
  have hlen := Decimal.length_padded hw hk
  have hall := List.all_eq_true.1 (Decimal.all_padded w k)
  have htake : (Decimal.padded w k ++ c :: cs).takeWhile Decimal.isDigit = Decimal.padded w k := by
    rw [List.takeWhile_append_of_pos hall]
    simp [hc]
  have hdrop : (Decimal.padded w k ++ c :: cs).dropWhile Decimal.isDigit = c :: cs := by
    rw [List.dropWhile_append_of_pos hall]
    simp [hc]
  have hnanos : nanosOf (Decimal.padded w k) = k * 10 ^ (9 - w) := by
    unfold nanosOf
    rw [List.take_of_length_le (by omega)]
    dsimp only
    rw [Decimal.value_padded, hlen]
    rfl
  have hsome : (Decimal.padded w k).isEmpty = false := by
    cases hds : Decimal.padded w k with
    | nil =>
      rw [hds, List.length_nil] at hlen
      omega
    | cons => rfl
  unfold fractionDigits?
  rw [htake, hdrop]
  dsimp only
  rw [hsome, hnanos, if_neg (by decide)]

/-- The clock reading of a time of day gives the time back. -/
theorem OfDay.ofClock?_clock {t : OfDay} (h : perSecond ≤ t.nano → t.second % 60 = 59) :
    ofClock? t.hour t.minute t.clockSecond t.fraction = some t := by
  have hsecond := t.second_lt
  have hnano := t.nano_lt
  have hhour := t.hour_lt
  have hminute := t.minute_lt
  have hfraction : t.fraction < perSecond := Nat.mod_lt _ (by decide)
  unfold ofClock?
  by_cases hleap : perSecond ≤ t.nano
  · have hlast := h hleap
    have hsixty : t.clockSecond = 60 := by
      unfold clockSecond perSecond at *
      omega
    have hwhole : t.hour * 3600 + t.minute * 60 + 59 = t.second := by
      unfold hour minute
      omega
    have hpart : perSecond + t.fraction = t.nano := by
      unfold fraction perSecond at *
      omega
    rw [hsixty, if_pos ⟨hhour, hminute, by decide, hfraction⟩, if_pos rfl, hwhole, hpart]
    exact dif_pos ⟨hsecond, hnano⟩
  · have hsame : t.clockSecond = t.second % 60 := by
      unfold clockSecond perSecond at *
      omega
    have hwhole : t.hour * 3600 + t.minute * 60 + t.second % 60 = t.second := by
      unfold hour minute
      omega
    have hpart : t.fraction = t.nano := Nat.mod_eq_of_lt (Nat.not_le.1 hleap)
    rw [hpart] at hfraction ⊢
    rw [hsame, if_pos ⟨hhour, hminute, by omega, hfraction⟩, if_neg (by omega), hwhole]
    exact dif_pos ⟨hsecond, hnano⟩

/-- The clock reading of a time of day, cut down to the millisecond. -/
theorem OfDay.ofClock?_toMillis {t : OfDay} (h : perSecond ≤ t.nano → t.second % 60 = 59) :
    ofClock? t.hour t.minute t.clockSecond (t.fraction / 1000000 * 1000000) = some t.toMillis := by
  have hclock : t.toMillis.clockSecond = t.clockSecond := by
    unfold clockSecond toMillis perSecond
    dsimp only
    omega
  have hfraction : t.toMillis.fraction = t.fraction / 1000000 * 1000000 := by
    unfold fraction toMillis perSecond
    dsimp only
    omega
  have hleap : perSecond ≤ t.toMillis.nano → t.toMillis.second % 60 = 59 := by
    unfold toMillis perSecond at *
    dsimp only
    omega
  rw [← hclock, ← hfraction]
  exact ofClock?_clock hleap

/-- What follows the seconds of a clock reads as so many nanoseconds and a rest. -/
inductive ReadsFraction : List Char → Nat → List Char → Prop
  | whole {cs : List Char} (h : cs.head? ≠ some '.') : ReadsFraction cs 0 cs
  | part {cs rest : List Char} {nano : Nat} (h : fractionDigits? cs = some (nano, rest)) :
    ReadsFraction ('.' :: cs) nano rest

theorem clock?_chars (t : OfDay) {cs rest : List Char} {nano : Nat} {time : OfDay}
    (hfraction : ReadsFraction cs nano rest)
    (htime : OfDay.ofClock? t.hour t.minute t.clockSecond nano = some time) :
    clock? (t.chars ++ cs) = some (time, rest) := by
  unfold clock? OfDay.chars
  simp only [List.append_assoc, List.cons_append]
  rw [exactDigits?_padded (by decide) (Nat.lt_trans t.hour_lt (by decide))]
  simp only [Option.bind_eq_bind, Option.bind_some, expect?_cons]
  rw [exactDigits?_padded (by decide) (Nat.lt_trans t.minute_lt (by decide))]
  simp only [Option.bind_some, expect?_cons]
  rw [exactDigits?_padded (by decide) t.clockSecond_lt]
  simp only [Option.bind_some]
  cases hfraction with
  | whole h =>
    split
    · exact absurd rfl h
    · rw [htime]
      rfl
  | part h =>
    simp only [h, Option.bind_some]
    rw [htime]
    rfl

theorem Instant.addSeconds_zero (t : Instant) : t.addSeconds 0 = t := by
  have hsecond := t.time.second_lt
  refine Instant.eq_of_parts ?_ ?_ rfl
  · show (t.day * 86400 + t.time.second + 0) / 86400 = t.day
    omega
  · show ((t.day * 86400 + t.time.second + 0) % 86400).toNat = t.time.second
    omega

theorem Instant.ofLocal?_utc {date : Date} {time : OfDay} (hdate : date.isValid = true)
    (hyear : (Instant.mk date.number time).inRange = true) :
    Instant.ofLocal? date time 0 = some ⟨date.number, time⟩ := by
  unfold Instant.ofLocal?
  rw [if_pos ⟨hdate, by decide⟩, Int.neg_zero, addSeconds_zero]
  exact if_pos hyear

/-- What follows the seconds decides the time of day, and the date is read back as it is. -/
theorem readChars?_secondChars {t : Instant} (h : t.Civil) {cs zone : List Char} {nano : Nat} {time : OfDay}
    (hfraction : ReadsFraction cs nano zone)
    (htime : OfDay.ofClock? t.time.hour t.time.minute t.time.clockSecond nano = some time)
    (hzone : offset? zone = some (0, [])) : readChars? (t.secondChars ++ cs) = some ⟨t.day, time⟩ := by
  have hyear : (Date.ofNumber t.day).year.toNat < 10 ^ 4 := by
    have hle := h.to_9999
    omega
  have hchars : yearChars (Date.ofNumber t.day).year = Decimal.padded 4 (Date.ofNumber t.day).year.toNat :=
    if_pos ⟨h.from_zero, h.to_9999⟩
  have hdate := ofNumber_bounds t.day
  have hrange : (Instant.mk (Date.ofNumber t.day).number time).inRange = true := by
    have hzero := h.from_zero
    have hle := h.to_9999
    rw [number_ofNumber]
    unfold Instant.inRange Instant.firstYear Instant.lastYear
    simp only [Bool.and_eq_true, decide_eq_true_eq]
    omega
  unfold readChars? Instant.secondChars Date.chars
  rw [hchars]
  simp only [List.append_assoc, List.cons_append]
  rw [exactDigits?_padded (by decide) hyear]
  simp only [Option.bind_eq_bind, Option.bind_some, expect?_cons]
  rw [exactDigits?_padded (by decide) hdate.1]
  simp only [Option.bind_some, expect?_cons]
  rw [exactDigits?_padded (by decide) hdate.2]
  simp only [Option.bind_some]
  rw [clock?_chars t.time hfraction htime]
  simp only [Option.bind_some]
  rw [hzone]
  simp only [Option.bind_some, List.isEmpty_nil, if_true]
  rw [Int.toNat_of_nonneg h.from_zero, Instant.ofLocal?_utc (ofNumber_isValid t.day) hrange, number_ofNumber]

/-! ## Whole texts -/

/-- **Reading back a stamp.** A civil stamp tells its instant to the millisecond. -/
theorem read_stamp {t : Instant} (h : t.Civil) : read? t.stamp = some t.toMillis := by
  have hdigits := fractionDigits?_padded (w := 3) (by decide) (by decide) t.time.fraction_lt [] (c := 'Z') (by decide)
  unfold read? Instant.stamp
  rw [String.toList_ofList, List.append_assoc]
  exact readChars?_secondChars h (.part hdigits) (OfDay.ofClock?_toMillis h.leap) rfl

/-- A fraction reads back exactly, before the offset of UTC. -/
theorem readsFraction_chars {nano : Nat} (h : nano < perSecond) {c : Char} (cs : List Char)
    (hc : Decimal.isDigit c = false) (hdot : c ≠ '.') : ReadsFraction (fractionChars nano ++ c :: cs) nano (c :: cs) := by
  have hdigits : ∀ w, 1 ≤ w → w ≤ 9 → nano % 10 ^ (9 - w) = 0 → nano / 10 ^ (9 - w) < 10 ^ w →
      ReadsFraction ('.' :: (Decimal.padded w (nano / 10 ^ (9 - w)) ++ c :: cs)) nano (c :: cs) := by
    intro w hw hnine hzero hlt
    apply ReadsFraction.part
    rw [fractionDigits?_padded hw hnine hlt cs hc, Nat.div_mul_cancel (Nat.dvd_of_mod_eq_zero hzero)]
  unfold perSecond at h
  unfold fractionChars
  by_cases hzero : nano = 0
  · rw [if_pos hzero, hzero]
    apply ReadsFraction.whole
    simpa using hdot
  rw [if_neg hzero]
  by_cases hmillis : nano % 1000000 = 0
  · rw [if_pos hmillis]
    exact hdigits 3 (by decide) (by decide) hmillis (by omega)
  rw [if_neg hmillis]
  by_cases hmicros : nano % 1000 = 0
  · rw [if_pos hmicros]
    exact hdigits 6 (by decide) (by decide) hmicros (by omega)
  rw [if_neg hmicros]
  have hnine := hdigits 9 (by decide) (by decide) (by omega) (by omega)
  rwa [Nat.sub_self, Nat.pow_zero, Nat.div_one] at hnine

/-- **Reading back a text.** The text of a civil instant tells it exactly. -/
theorem read_text {t : Instant} (h : t.Civil) : read? t.text = some t := by
  have hfraction : t.time.fraction < perSecond := Nat.mod_lt _ (by decide)
  have hreads := readsFraction_chars hfraction ['0', '0', ':', '0', '0'] (c := '+') (by decide) (by decide)
  unfold read? Instant.text Instant.textWith
  rw [String.toList_ofList, List.append_assoc]
  exact readChars?_secondChars h hreads (OfDay.ofClock?_clock h.leap) (by decide)

/-! ## As a setting -/

theorem isBlank_of_isDigit {c : Char} (h : Decimal.isDigit c = true) : isBlank c = false := by
  have hc := Decimal.isDigit_iff.1 h
  unfold isBlank
  simp
  omega

/-- The text of an instant has a digit at either end. -/
theorem text_ends {t : Instant} (h : t.Civil) :
    ∃ c cs, Decimal.isDigit c = true ∧ t.text.toList = c :: cs ++ ['0'] := by
  have hall := Decimal.all_padded 4 (Date.ofNumber t.day).year.toNat
  have hyear : yearChars (Date.ofNumber t.day).year = Decimal.padded 4 (Date.ofNumber t.day).year.toNat :=
    if_pos ⟨h.from_zero, h.to_9999⟩
  have hlen : (Decimal.padded 4 (Date.ofNumber t.day).year.toNat).length = 4 := by
    apply Decimal.length_padded (by decide)
    have hle := h.to_9999
    omega
  unfold Instant.text Instant.textWith Instant.secondChars Date.chars
  rw [String.toList_ofList, hyear]
  cases hchars : Decimal.padded 4 (Date.ofNumber t.day).year.toNat with
  | nil => simp [hchars] at hlen
  | cons c cs =>
    rw [hchars, List.all_cons, Bool.and_eq_true] at hall
    exact ⟨c, _, hall.1, (List.append_assoc (_ :: _) ['+', '0', '0', ':', '0'] ['0']).symm⟩

/-- **Settings keep instants.** The text of a civil instant reads back as a setting. -/
theorem parseTime_text {t : Instant} (h : t.Civil) : Settings.parseTime t.text = some t := by
  obtain ⟨c, cs, hc, hchars⟩ := text_ends h
  unfold Settings.parseTime
  rw [hchars, trimmed_of_ends (isBlank_of_isDigit hc) (by decide), ← hchars]
  exact read_text h

end CatalogSync.Time
