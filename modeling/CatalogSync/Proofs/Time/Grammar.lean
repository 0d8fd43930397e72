import CatalogSync.Proofs.Settings.Meanings
import CatalogSync.Proofs.Time.Stamps

/-!
# The grammar of RFC 3339

What a date and a time with an offset look like (`Spells`), and which instant they tell. The minus of an offset is a
hyphen (`IsHyphen`); the reader takes the minus of mathematics as well (`IsMinus`). A fraction of a second may have any
number of digits. An instant has nine: it is what the text tells, exactly (`Telling.Denotes`), or cut down to whole
nanoseconds (`Telling.CutTo`).

Main statement: `readChars?_iff`.
-/

namespace CatalogSync.Time

open CatalogSync.Settings CatalogSync.Text

/-! ## Texts -/

def Digits (width : Nat) (ds : List Char) : Prop := ds.length = width ∧ ∀ c ∈ ds, c.isDigit = true

/-- The minus of ASCII. -/
def IsHyphen (c : Char) : Prop := c = '-'

/-- The minus of ASCII or that of mathematics. -/
def IsMinus (c : Char) : Prop := c = '-' ∨ c = '−'

/-- What stands between a date and a time. -/
def IsSeparator (c : Char) : Prop := c = 'T' ∨ c = 't' ∨ c = ' '

/-- A date of the calendar: four digits for the year, two for the month and two for the day. -/
def DayWord (word : List Char) (date : Date) : Prop :=
  ∃ year month day, word = year ++ '-' :: (month ++ '-' :: day) ∧ Digits 4 year ∧ Digits 2 month ∧ Digits 2 day ∧
    date = ⟨count year, count month, count day⟩ ∧ date.isValid = true

/-- A fraction of a second and its digits: nothing at all, or a point and one digit or more. -/
inductive FractionWord : List Char → List Char → Prop
  | none : FractionWord [] []
  | some (ds : List Char) (hsome : ds ≠ []) (hds : ∀ c ∈ ds, c.isDigit = true) : FractionWord ('.' :: ds) ds

/-- A clock with seconds, of which there are 61 in a minute with a leap second, and the digits of a fraction. -/
def ClockWord (word : List Char) (hour minute second : Nat) (fraction : List Char) : Prop :=
  ∃ h m s f, word = h ++ ':' :: (m ++ ':' :: (s ++ f)) ∧ Digits 2 h ∧ Digits 2 m ∧ Digits 2 s ∧
    FractionWord f fraction ∧ hour = count h ∧ minute = count m ∧ second = count s ∧
    hour < 24 ∧ minute < 60 ∧ second ≤ 60

/-- The signs of an offset, and whether it is negative. -/
inductive OffsetSign (minus : Char → Prop) : Char → Bool → Prop
  | ahead : OffsetSign minus '+' false
  | behind (c : Char) (hc : minus c) : OffsetSign minus c true

/-- An offset from UTC in seconds: the letter Z, or a sign with hours and minutes. -/
inductive ZoneWord (minus : Char → Prop) : List Char → Int → Prop
  | zulu (c : Char) (hc : c = 'Z' ∨ c = 'z') : ZoneWord minus [c] 0
  | signed (c : Char) (negative : Bool) (h m : List Char) (hc : OffsetSign minus c negative) (hh : Digits 2 h)
      (hm : Digits 2 m) (hhour : count h < 24) (hminute : count m < 60) :
      ZoneWord minus (c :: (h ++ ':' :: m))
        (if negative then -(count h * 3600 + count m * 60 : Nat) else (count h * 3600 + count m * 60 : Nat))

/-- What a text tells of a time: a date and a clock as they are somewhere, and how many seconds they are ahead there. -/
structure Telling where
  date : Date
  hour : Nat
  minute : Nat
  second : Nat
  /-- The digits of the fraction of a second. -/
  fraction : List Char
  offset : Int

/-- **RFC 3339.** A word that tells of a time. -/
def Spells (minus : Char → Prop) (word : List Char) (r : Telling) : Prop :=
  ∃ day separator clock zone, word = day ++ separator :: (clock ++ zone) ∧ DayWord day r.date ∧ IsSeparator separator ∧
    ClockWord clock r.hour r.minute r.second r.fraction ∧ ZoneWord minus zone r.offset

/-! ## Instants -/

namespace Telling

variable (r : Telling)

/-- The seconds from 1970 on, in UTC; a leap second belongs to the one before it. -/
def seconds : Int := r.date.number * 86400 + (r.hour * 3600 + r.minute * 60 + min r.second 59 : Nat) - r.offset

def leap : Nat := if r.second = 60 then perSecond else 0

/-- The instant that a text tells, exactly: its nanoseconds are the fraction of a second that the digits are. -/
def Denotes (t : Instant) : Prop :=
  t.day * 86400 + t.time.second = r.seconds ∧
    t.time.nano * 10 ^ r.fraction.length = r.leap * 10 ^ r.fraction.length + count r.fraction * perSecond

/-- The instant that a text tells, cut down to whole nanoseconds. -/
def CutTo (t : Instant) : Prop :=
  t.day * 86400 + t.time.second = r.seconds ∧
    t.time.nano = r.leap + count r.fraction * perSecond / 10 ^ r.fraction.length

end Telling

/-- Up to nine digits nothing is cut off. -/
theorem Telling.CutTo.denotes {r : Telling} {t : Instant} (h : r.CutTo t) (hlen : r.fraction.length ≤ 9) :
    r.Denotes t := by
  have hnine : perSecond = 10 ^ 9 := rfl
  have hdvd : 10 ^ r.fraction.length ∣ count r.fraction * perSecond :=
    Nat.dvd_mul_left_of_dvd (hnine ▸ Nat.pow_dvd_pow 10 hlen) _
  refine ⟨h.1, ?_⟩
  rw [h.2, Nat.add_mul, Nat.div_mul_cancel hdvd]

/-- A text is cut to one instant. -/
theorem Telling.CutTo.unique {r : Telling} {t u : Instant} (h : r.CutTo t) (h' : r.CutTo u) : t = u := by
  have hseconds := h.1.trans h'.1.symm
  have ht := t.time.second_lt
  have hu := u.time.second_lt
  exact Instant.eq_of_parts (by omega) (by omega) (h.2.trans h'.2.symm)

/-! ## Parts -/

theorem digits_iff {n : Nat} {ds : List Char} : Digits n ds ↔ ds.length = n ∧ ds.all Decimal.isDigit = true := by
  unfold Digits
  rw [List.all_eq_true]
  simp only [isDigit_eq]

theorem Digits.count_lt {n : Nat} {ds : List Char} (h : Digits n ds) : count ds < 10 ^ n := by
  obtain ⟨hlen, hall⟩ := digits_iff.1 h
  rw [← value_eq_count, ← hlen]
  exact Decimal.value_lt hall

theorem exactDigits?_iff {n k : Nat} {cs rest : List Char} :
    exactDigits? n cs = some (k, rest) ↔ ∃ ds, cs = ds ++ rest ∧ Digits n ds ∧ k = count ds := by
  unfold exactDigits?
  dsimp only
  constructor
  · intro h
    split at h
    · next hds =>
      cases h
      exact ⟨cs.take n, (List.take_append_drop n cs).symm, digits_iff.2 hds, value_eq_count _⟩
    · cases h
  · rintro ⟨ds, rfl, hds, rfl⟩
    rw [List.take_left' hds.1, List.drop_left' hds.1, if_pos (digits_iff.1 hds), value_eq_count]

theorem expect?_iff {c : Char} {cs rest : List Char} : expect? c cs = some rest ↔ cs = c :: rest := by
  cases cs with
  | nil => simp [expect?]
  | cons d r =>
    simp [expect?]

theorem nanosOf_eq {ds : List Char} (hds : ∀ c ∈ ds, c.isDigit = true) :
    nanosOf ds = count ds * perSecond / 10 ^ ds.length := by
  have hnine : perSecond = 10 ^ 9 := rfl
  have hpow : Nat.pow 10 (9 - (ds.take 9).length) = 10 ^ (9 - (ds.take 9).length) := rfl
  unfold nanosOf
  dsimp only
  rw [hpow, ← value_eq_count, hnine]
  by_cases hlen : ds.length ≤ 9
  · have hsplit : (10 : Nat) ^ 9 = 10 ^ (9 - ds.length) * 10 ^ ds.length := by
      rw [← Nat.pow_add, Nat.sub_add_cancel hlen]
    rw [List.take_of_length_le hlen, hsplit, ← Nat.mul_assoc, Nat.mul_div_cancel _ (Nat.pow_pos (by decide))]
  · have htake : (ds.take 9).length = 9 := List.length_take_of_le (by omega)
    have hdigits : (ds.drop 9).all Decimal.isDigit = true :=
      List.all_eq_true.2 fun c hc => (isDigit_eq c).trans (hds c (List.mem_of_mem_drop hc))
    have hvalue : Decimal.value ds = Decimal.value (ds.take 9) * 10 ^ (ds.drop 9).length + Decimal.value (ds.drop 9) := by
      rw [← Decimal.value_append, List.take_append_drop]
    have hpows : (10 : Nat) ^ ds.length = 10 ^ (ds.drop 9).length * 10 ^ 9 := by
      rw [← Nat.pow_add, List.length_drop]
      congr 1
      omega
    rw [htake, Nat.sub_self, Nat.pow_zero, Nat.mul_one, hpows, Nat.mul_div_mul_right _ _ (by decide), hvalue, Nat.mul_comm,
      Nat.mul_add_div (Nat.pow_pos (by decide)), Nat.div_eq_of_lt (Decimal.value_lt hdigits), Nat.add_zero]

/-- The rest of a word after a number stops the number. -/
def Stops (rest : List Char) : Prop := ∀ c ∈ rest.head?, c.isDigit = false ∧ c ≠ '.'

theorem fractionDigits?_iff {cs rest : List Char} {nano : Nat} (hrest : Stops rest) :
    fractionDigits? cs = some (nano, rest) ↔
      ∃ ds, cs = ds ++ rest ∧ ds ≠ [] ∧ (∀ c ∈ ds, c.isDigit = true) ∧ nano = nanosOf ds := by
  have hdigit : Decimal.isDigit = Char.isDigit := funext isDigit_eq
  unfold fractionDigits?
  rw [hdigit]
  dsimp only
  constructor
  · intro h
    split at h
    · cases h
    · next hsome =>
      cases h
      refine ⟨cs.takeWhile Char.isDigit, (List.takeWhile_append_dropWhile ..).symm, ?_, ?_, rfl⟩
      · simpa using hsome
      · exact List.all_eq_true.1 List.all_takeWhile
  · rintro ⟨ds, rfl, hsome, hds, rfl⟩
    have hstop : rest.takeWhile Char.isDigit = [] ∧ rest.dropWhile Char.isDigit = rest := by
      cases rest with
      | nil => exact ⟨rfl, rfl⟩
      | cons c rest =>
        have hc := (hrest c rfl).1
        exact ⟨List.takeWhile_cons_of_neg (by simp [hc]), List.dropWhile_cons_of_neg (by simp [hc])⟩
    rw [List.takeWhile_append_of_pos hds, List.dropWhile_append_of_pos hds, hstop.1, hstop.2, List.append_nil,
      if_neg (by simpa using hsome)]

def fraction? : List Char → Option (Nat × List Char)
  | '.' :: r => fractionDigits? r
  | cs => some (0, cs)

theorem fraction?_iff {cs rest : List Char} {nano : Nat} (hrest : Stops rest) :
    fraction? cs = some (nano, rest) ↔
      ∃ f ds, cs = f ++ rest ∧ FractionWord f ds ∧ nano = count ds * perSecond / 10 ^ ds.length := by
  constructor
  · intro h
    unfold fraction? at h
    split at h
    · obtain ⟨ds, rfl, hsome, hds, rfl⟩ := (fractionDigits?_iff hrest).1 h
      exact ⟨_, ds, rfl, .some ds hsome hds, nanosOf_eq hds⟩
    · cases h
      exact ⟨[], [], rfl, .none, rfl⟩
  · rintro ⟨f, ds, rfl, hf, rfl⟩
    cases hf with
    | none =>
      unfold fraction?
      rw [List.nil_append]
      split
      · exact absurd rfl (hrest '.' rfl).2
      · rfl
    | some ds hsome hds => exact (fractionDigits?_iff hrest).2 ⟨ds, rfl, hsome, hds, (nanosOf_eq hds).symm⟩

theorem FractionWord.digits {f ds : List Char} (h : FractionWord f ds) : ∀ c ∈ ds, c.isDigit = true := by
  cases h with
  | none => exact nofun
  | some ds hsome hds => exact hds

/-- A fraction is less than a second. -/
theorem fraction_lt {ds : List Char} (hds : ∀ c ∈ ds, c.isDigit = true) :
    count ds * perSecond / 10 ^ ds.length < perSecond := by
  have hcount : count ds < 10 ^ ds.length := Digits.count_lt ⟨rfl, hds⟩
  rw [Nat.div_lt_iff_lt_mul (Nat.pow_pos (by decide)), Nat.mul_comm perSecond]
  exact Nat.mul_lt_mul_of_pos_right hcount (by decide)

/-! ## Clocks -/

theorem ofClock?_iff {hour minute second nano : Nat} {time : OfDay} :
    OfDay.ofClock? hour minute second nano = some time ↔ hour < 24 ∧ minute < 60 ∧ second ≤ 60 ∧ nano < perSecond ∧
      time.second = hour * 3600 + minute * 60 + min second 59 ∧
      time.nano = (if second = 60 then perSecond else 0) + nano := by
  obtain ⟨s, n, hs, hn⟩ := time
  unfold OfDay.ofClock? OfDay.of?
  by_cases h : hour < 24 ∧ minute < 60 ∧ second ≤ 60 ∧ nano < perSecond
  · obtain ⟨hhour, hminute, hsecond, hnano⟩ := h
    rw [if_pos ⟨hhour, hminute, hsecond, hnano⟩]
    unfold perSecond at *
    by_cases hleap : second = 60
    · rw [if_pos hleap, if_pos hleap, dif_pos ⟨by omega, by omega⟩]
      simp only [Option.some.injEq, OfDay.mk.injEq]
      omega
    · rw [if_neg hleap, if_neg hleap, dif_pos ⟨by omega, by omega⟩]
      simp only [Option.some.injEq, OfDay.mk.injEq]
      omega
  · rw [if_neg h]
    constructor
    · exact nofun
    · rintro ⟨hhour, hminute, hsecond, hnano, -⟩
      exact absurd ⟨hhour, hminute, hsecond, hnano⟩ h

/-- Every clock shows a time of day. -/
theorem ClockWord.exists_time {word fraction : List Char} {hour minute second : Nat}
    (h : ClockWord word hour minute second fraction) :
    ∃ time : OfDay, time.second = hour * 3600 + minute * 60 + min second 59 ∧
      time.nano = (if second = 60 then perSecond else 0) + count fraction * perSecond / 10 ^ fraction.length := by
  obtain ⟨-, -, -, f, -, -, -, -, hf, -, -, -, hhour, hminute, hsecond⟩ := h
  have hnano := fraction_lt hf.digits
  refine ⟨⟨_, _, ?_, ?_⟩, rfl, rfl⟩
  · omega
  · unfold perSecond at *
    split <;> omega

theorem fraction?_none {cs : List Char} (h : ∀ r, cs ≠ '.' :: r) : fraction? cs = some (0, cs) := by
  unfold fraction?
  split
  · exact absurd rfl (h _)
  · rfl

theorem clock?_eq (cs : List Char) : clock? cs = (do
    let (hour, cs) ← exactDigits? 2 cs
    let cs ← expect? ':' cs
    let (minute, cs) ← exactDigits? 2 cs
    let cs ← expect? ':' cs
    let (second, cs) ← exactDigits? 2 cs
    let (nano, cs) ← fraction? cs
    return (← OfDay.ofClock? hour minute second nano, cs)) := by
  unfold clock?
  refine Option.bind_congr fun ⟨hour, a⟩ _ => Option.bind_congr fun b _ => Option.bind_congr fun ⟨minute, c⟩ _ =>
    Option.bind_congr fun d _ => Option.bind_congr fun ⟨second, e⟩ _ => ?_
  dsimp only
  split
  · rfl
  · next hpoint =>
    rw [fraction?_none hpoint]

theorem clock?_iff {cs rest : List Char} {time : OfDay} (hrest : Stops rest) :
    clock? cs = some (time, rest) ↔ ∃ word hour minute second ds, cs = word ++ rest ∧ ClockWord word hour minute second ds ∧
      time.second = hour * 3600 + minute * 60 + min second 59 ∧
      time.nano = (if second = 60 then perSecond else 0) + count ds * perSecond / 10 ^ ds.length := by
  rw [clock?_eq]
  simp only [Option.bind_eq_bind, Option.bind_eq_some_iff, Prod.exists, Option.pure_def, Option.some.injEq, Prod.mk.injEq]
  constructor
  · rintro ⟨hour, a, ha, b, hb, minute, c, hc, d, hd, second, e, he, nano, r, hr, time', htime, rfl, rfl⟩
    obtain ⟨h, rfl, hh, rfl⟩ := exactDigits?_iff.1 ha
    obtain rfl := expect?_iff.1 hb
    obtain ⟨m, rfl, hm, rfl⟩ := exactDigits?_iff.1 hc
    obtain rfl := expect?_iff.1 hd
    obtain ⟨s, rfl, hs, rfl⟩ := exactDigits?_iff.1 he
    obtain ⟨f, ds, rfl, hf, rfl⟩ := (fraction?_iff hrest).1 hr
    obtain ⟨hhour, hminute, hsecond, -, hseconds, hnano⟩ := ofClock?_iff.1 htime
    refine ⟨h ++ ':' :: (m ++ ':' :: (s ++ f)), _, _, _, ds, ?_, ?_, hseconds, hnano⟩
    · simp only [List.append_assoc, List.cons_append]
    · exact ⟨h, m, s, f, rfl, hh, hm, hs, hf, rfl, rfl, rfl, hhour, hminute, hsecond⟩
  · rintro ⟨word, hour, minute, second, ds, rfl, hword, hseconds, hnano⟩
    obtain ⟨h, m, s, f, rfl, hh, hm, hs, hf, rfl, rfl, rfl, hhour, hminute, hsecond⟩ := hword
    simp only [List.append_assoc, List.cons_append]
    have htime := ofClock?_iff.2 ⟨hhour, hminute, hsecond, fraction_lt hf.digits, hseconds, hnano⟩
    exact ⟨_, _, exactDigits?_iff.2 ⟨h, rfl, hh, rfl⟩, _, expect?_iff.2 rfl, _, _, exactDigits?_iff.2 ⟨m, rfl, hm, rfl⟩, _,
      expect?_iff.2 rfl, _, _, exactDigits?_iff.2 ⟨s, rfl, hs, rfl⟩, _, _, (fraction?_iff hrest).2 ⟨f, ds, rfl, hf, rfl⟩,
      time, htime, rfl, rfl⟩

/-! ## Offsets -/

theorem offsetSign?_iff {cs rest : List Char} {negative : Bool} :
    offsetSign? cs = some (negative, rest) ↔ ∃ c, cs = c :: rest ∧ OffsetSign IsMinus c negative := by
  constructor
  · intro h
    unfold offsetSign? at h
    split at h
    · cases h
      exact ⟨_, rfl, .ahead⟩
    · cases h
      exact ⟨_, rfl, .behind _ (.inl rfl)⟩
    · cases h
      exact ⟨_, rfl, .behind _ (.inr rfl)⟩
    · cases h
  · rintro ⟨c, rfl, hc⟩
    cases hc with
    | ahead => rfl
    | behind c hc => obtain rfl | rfl := hc <;> rfl

/-- An offset of less than a day, and nothing after it. -/
theorem offset?_iff {cs : List Char} {offset : Int} :
    offset? cs = some (offset, []) ∧ offset.natAbs < 86400 ↔ ZoneWord IsMinus cs offset := by
  constructor
  · rintro ⟨h, hday⟩
    unfold offset? at h
    split at h
    · cases h
      exact .zulu _ (.inl rfl)
    · cases h
      exact .zulu _ (.inr rfl)
    · simp only [Option.bind_eq_bind, Option.bind_eq_some_iff, Prod.exists] at h
      obtain ⟨negative, a, ha, hours, b, hb, c, hc, minutes, d, hd, h⟩ := h
      obtain ⟨sign, rfl, hsign⟩ := offsetSign?_iff.1 ha
      obtain ⟨h', rfl, hh, rfl⟩ := exactDigits?_iff.1 hb
      obtain rfl := expect?_iff.1 hc
      obtain ⟨m, rfl, hm, rfl⟩ := exactDigits?_iff.1 hd
      split at h
      · next hminute =>
        cases h
        have hhour : count h' < 24 := by
          cases negative <;> simp at hday <;> omega
        rw [List.append_nil]
        exact .signed sign negative h' m hsign hh hm hhour hminute
      · cases h
  · rintro (⟨c, rfl | rfl⟩ | ⟨c, negative, h, m, hc, hh, hm, hhour, hminute⟩)
    · exact ⟨rfl, by decide⟩
    · exact ⟨rfl, by decide⟩
    · refine ⟨?_, ?_⟩
      · have hletter : c ≠ 'Z' ∧ c ≠ 'z' := by
          cases hc with
          | ahead => decide
          | behind c hc => obtain rfl | rfl := hc <;> decide
        unfold offset?
        split
        · next heq => exact absurd (List.cons.inj heq).1 hletter.1
        · next heq => exact absurd (List.cons.inj heq).1 hletter.2
        · simp only [Option.bind_eq_bind, Option.bind_eq_some_iff, Prod.exists]
          refine ⟨_, _, offsetSign?_iff.2 ⟨c, rfl, hc⟩, _, _, exactDigits?_iff.2 ⟨h, rfl, hh, rfl⟩, _, expect?_iff.2 rfl, _, [],
            exactDigits?_iff.2 ⟨m, (List.append_nil m).symm, hm, rfl⟩, ?_⟩
          exact if_pos hminute
      · cases negative <;> simp <;> omega

theorem ZoneWord.stops {cs : List Char} {offset : Int} (h : ZoneWord IsMinus cs offset) : Stops cs := by
  intro c hc
  cases h with
  | zulu d hd =>
    obtain rfl : d = c := Option.some.inj hc
    obtain rfl | rfl := hd <;> decide
  | signed d negative h m hd =>
    obtain rfl : d = c := Option.some.inj hc
    cases hd with
    | ahead => decide
    | behind d hd => obtain rfl | rfl := hd <;> decide

/-! ## Dates and times -/

/-- What comes after the mark between a date and a time. -/
def separator? : List Char → Option (List Char)
  | 'T' :: r => some r
  | 't' :: r => some r
  | ' ' :: r => some r
  | _ => none

theorem separator?_iff {cs rest : List Char} : separator? cs = some rest ↔ ∃ c, cs = c :: rest ∧ IsSeparator c := by
  constructor
  · intro h
    unfold separator? at h
    split at h
    · cases h
      exact ⟨_, rfl, .inl rfl⟩
    · cases h
      exact ⟨_, rfl, .inr (.inl rfl)⟩
    · cases h
      exact ⟨_, rfl, .inr (.inr rfl)⟩
    · cases h
  · rintro ⟨c, rfl, rfl | rfl | rfl⟩ <;> rfl

theorem separator?_bind {α : Type} (cs : List Char) (k : List Char → Option α) :
    (separator? cs).bind k = match cs with
      | 'T' :: r => (some r).bind k
      | 't' :: r => (some r).bind k
      | ' ' :: r => (some r).bind k
      | _ => none.bind k := by
  unfold separator?
  split <;> rfl

theorem readChars?_eq (cs : List Char) : readChars? cs = (do
    let (year, cs) ← exactDigits? 4 cs
    let cs ← expect? '-' cs
    let (month, cs) ← exactDigits? 2 cs
    let cs ← expect? '-' cs
    let (day, cs) ← exactDigits? 2 cs
    let cs ← separator? cs
    let (time, cs) ← clock? cs
    let (offset, cs) ← offset? cs
    if cs.isEmpty then Instant.ofLocal? ⟨year, month, day⟩ time offset else none) := by
  unfold readChars?
  refine Option.bind_congr fun ⟨year, a⟩ _ => Option.bind_congr fun b _ => Option.bind_congr fun ⟨month, c⟩ _ =>
    Option.bind_congr fun d _ => Option.bind_congr fun ⟨day, e⟩ _ => ?_
  exact (separator?_bind e _).symm

/-- The years of a date of four digits and of the days beside it are kept. -/
theorem inRange_of_near {date : Date} (hvalid : date.isValid = true) (hfrom : 0 ≤ date.year) (hto : date.year ≤ 9999)
    {t : Instant} (hlow : date.number - 1 ≤ t.day) (hhigh : t.day ≤ date.number + 1) : t.inRange = true := by
  have hbounds := number_bounds hvalid
  have hfirst := daysBeforeYear_le hfrom
  have hlast := daysBeforeYear_le (y := date.year + 1) (z := 10000) (by omega)
  have hzero : daysBeforeYear 0 = 0 := by decide
  have hten : daysBeforeYear 10000 = 3652425 := by decide
  have hepoch : epoch = 719528 := rfl
  have hyearLow := year_le_of_le (m := -719529) (n := t.day) (by omega)
  have hyearHigh := year_le_of_le (m := t.day) (n := 2932897) (by omega)
  have hbefore : (Date.ofNumber (-719529)).year = -1 := by decide
  have hafter : (Date.ofNumber 2932897).year = 10000 := by decide
  unfold Instant.inRange Instant.firstYear Instant.lastYear
  simp only [Bool.and_eq_true, decide_eq_true_eq]
  omega

/-- A time of day with an offset is the instant of so many seconds. -/
theorem ofLocal?_iff {date : Date} {time : OfDay} {offset : Int} (hvalid : date.isValid = true) (hfrom : 0 ≤ date.year)
    (hto : date.year ≤ 9999) {t : Instant} :
    Instant.ofLocal? date time offset = some t ↔ offset.natAbs < 86400 ∧
      t.day * 86400 + t.time.second = date.number * 86400 + time.second - offset ∧ t.time.nano = time.nano := by
  have hsecond := time.second_lt
  have hsecond' := t.time.second_lt
  unfold Instant.ofLocal?
  by_cases hday : offset.natAbs < 86400
  · have hrange : (Instant.addSeconds ⟨date.number, time⟩ (-offset)).inRange = true := by
      apply inRange_of_near hvalid hfrom hto
      · show date.number - 1 ≤ (date.number * 86400 + time.second + -offset) / 86400
        omega
      · show (date.number * 86400 + time.second + -offset) / 86400 ≤ date.number + 1
        omega
    rw [if_pos ⟨hvalid, hday⟩]
    dsimp only
    rw [if_pos hrange, Option.some.injEq]
    constructor
    · rintro rfl
      refine ⟨hday, ?_, rfl⟩
      show (date.number * 86400 + time.second + -offset) / 86400 * 86400 +
        (((date.number * 86400 + time.second + -offset) % 86400).toNat : Int) = _
      omega
    · rintro ⟨-, hseconds, hnano⟩
      refine Instant.eq_of_parts ?_ ?_ hnano.symm
      · show (date.number * 86400 + time.second + -offset) / 86400 = t.day
        omega
      · show ((date.number * 86400 + time.second + -offset) % 86400).toNat = t.time.second
        omega
  · rw [if_neg fun h => hday h.2]
    exact ⟨nofun, fun h => absurd h.1 hday⟩

theorem DayWord.year_bounds {word : List Char} {date : Date} (h : DayWord word date) :
    0 ≤ date.year ∧ date.year ≤ 9999 := by
  obtain ⟨year, month, day, -, hyear, -, -, rfl, -⟩ := h
  have hlt := hyear.count_lt
  dsimp only
  omega

/-- **Reading RFC 3339.** A word is read as an instant just if it tells of a time, with any minus in its offset, and the
instant is that time cut down to whole nanoseconds. -/
theorem readChars?_iff (word : List Char) (t : Instant) :
    readChars? word = some t ↔ ∃ r, Spells IsMinus word r ∧ r.CutTo t := by
  rw [readChars?_eq]
  simp only [Option.bind_eq_bind, Option.bind_eq_some_iff, Prod.exists]
  constructor
  · rintro ⟨year, a, ha, b, hb, month, c, hc, d, hd, day, e, he, f, hf, time, g, hg, offset, k, hk, h⟩
    split at h
    swap
    · cases h
    next hend =>
    obtain rfl : k = [] := List.isEmpty_iff.1 hend
    obtain ⟨y, rfl, hy, rfl⟩ := exactDigits?_iff.1 ha
    obtain rfl := expect?_iff.1 hb
    obtain ⟨m, rfl, hm, rfl⟩ := exactDigits?_iff.1 hc
    obtain rfl := expect?_iff.1 hd
    obtain ⟨n, rfl, hn, rfl⟩ := exactDigits?_iff.1 he
    obtain ⟨sep, rfl, hsep⟩ := separator?_iff.1 hf
    have hvalid : (Date.mk (count y) (count m) (count n)).isValid = true ∧ offset.natAbs < 86400 := by
      by_contra hnot
      unfold Instant.ofLocal? at h
      rw [if_neg hnot] at h
      cases h
    have hday : DayWord (y ++ '-' :: (m ++ '-' :: n)) ⟨count y, count m, count n⟩ :=
      ⟨y, m, n, rfl, hy, hm, hn, rfl, hvalid.1⟩
    have hzone := offset?_iff.1 ⟨hk, hvalid.2⟩
    obtain ⟨clock, hour, minute, second, ds, rfl, hclock, hseconds, hnano⟩ := (clock?_iff hzone.stops).1 hg
    obtain ⟨hfrom, hto⟩ := hday.year_bounds
    obtain ⟨-, htotal, hsame⟩ := (ofLocal?_iff hvalid.1 hfrom hto).1 h
    refine ⟨⟨⟨count y, count m, count n⟩, hour, minute, second, ds, offset⟩,
      ⟨_, sep, clock, g, ?_, hday, hsep, hclock, hzone⟩, ?_, ?_⟩
    · simp only [List.append_assoc, List.cons_append]
    · rw [htotal, hseconds]
      rfl
    · rw [hsame, hnano]
      rfl
  · rintro ⟨⟨date, hour, minute, second, ds, offset⟩, ⟨day, sep, clock, zone, rfl, hday, hsep, hclock, hzone⟩, htotal, hnano⟩
    dsimp only at hday hclock hzone
    obtain ⟨hfrom, hto⟩ := hday.year_bounds
    obtain ⟨y, m, n, rfl, hy, hm, hn, rfl, hvalid⟩ := hday
    obtain ⟨hoffset, hsmall⟩ := offset?_iff.2 hzone
    obtain ⟨time, hseconds, hfraction⟩ := hclock.exists_time
    have hread := (clock?_iff hzone.stops).2 ⟨clock, hour, minute, second, ds, rfl, hclock, hseconds, hfraction⟩
    have hlocal : Instant.ofLocal? ⟨count y, count m, count n⟩ time offset = some t := by
      refine (ofLocal?_iff hvalid hfrom hto).2 ⟨hsmall, ?_, hnano.trans hfraction.symm⟩
      rw [htotal, hseconds]
      rfl
    simp only [List.append_assoc, List.cons_append]
    exact ⟨_, _, exactDigits?_iff.2 ⟨y, rfl, hy, rfl⟩, _, expect?_iff.2 rfl, _, _, exactDigits?_iff.2 ⟨m, rfl, hm, rfl⟩, _,
      expect?_iff.2 rfl, _, _, exactDigits?_iff.2 ⟨n, rfl, hn, rfl⟩, _, separator?_iff.2 ⟨sep, rfl, hsep⟩, time, zone, hread,
      offset, [], hoffset, hlocal⟩

/-- A word that tells of a time is cut to an instant. -/
theorem Spells.exists_cutTo {minus : Char → Prop} {word : List Char} {r : Telling} (h : Spells minus word r) :
    ∃ t, r.CutTo t := by
  obtain ⟨-, -, clock, -, -, -, -, hclock, -⟩ := h
  obtain ⟨time, hseconds, hnano⟩ := hclock.exists_time
  refine ⟨Instant.addSeconds ⟨r.date.number, time⟩ (-r.offset), ?_, hnano⟩
  show (r.date.number * 86400 + time.second + -r.offset) / 86400 * 86400 +
    (((r.date.number * 86400 + time.second + -r.offset) % 86400).toNat : Int) = r.seconds
  unfold Telling.seconds
  omega

theorem Digits.mem {n : Nat} {ds : List Char} (h : Digits n ds) {c : Char} (hc : c ∈ ds) : c.toNat < 128 := by
  have hdigit := Decimal.isDigit_iff.1 ((isDigit_eq c).trans (h.2 c hc))
  omega

/-- With a hyphen for its minus a word has characters of ASCII only. -/
theorem Spells.ascii {word : List Char} {r : Telling} (h : Spells IsHyphen word r) : ∀ c ∈ word, c.toNat < 128 := by
  obtain ⟨date, hour, minute, second, fraction, offset⟩ := r
  obtain ⟨-, sep, -, zone, rfl, ⟨y, m, n, rfl, hy, hm, hn, -, -⟩, hsep,
    ⟨h', m', s', f, rfl, hh, hm', hs, hf, -, -, -, -, -, -⟩, hzone⟩ := h
  dsimp only at hf hzone
  have hsep' : sep.toNat < 128 := by obtain rfl | rfl | rfl := hsep <;> decide
  have hf' : ∀ c ∈ f, c.toNat < 128 := by
    cases hf with
    | none => exact nofun
    | some ds _ hds =>
      intro c hc
      rcases List.mem_cons.1 hc with rfl | hc
      · decide
      · exact Digits.mem ⟨rfl, hds⟩ hc
  have hzone' : ∀ c ∈ zone, c.toNat < 128 := by
    cases hzone with
    | zulu c hc =>
      intro d hd
      rw [List.mem_singleton.1 hd]
      obtain rfl | rfl := hc <;> decide
    | signed c negative h m hc hh hm =>
      intro d hd
      simp only [List.mem_cons, List.mem_append] at hd
      rcases hd with rfl | hd | rfl | hd
      · cases hc with
        | ahead => decide
        | behind d hd => obtain rfl := hd; decide
      · exact hh.mem hd
      · decide
      · exact hm.mem hd
  intro c hc
  simp only [List.mem_append, List.mem_cons] at hc
  rcases hc with (hc | rfl | hc | rfl | hc) | rfl | (hc | rfl | hc | rfl | hc | hc) | hc
  · exact hy.mem hc
  · decide
  · exact hm.mem hc
  · decide
  · exact hn.mem hc
  · exact hsep'
  · exact hh.mem hc
  · decide
  · exact hm'.mem hc
  · decide
  · exact hs.mem hc
  · exact hf' c hc
  · exact hzone' c hc

end CatalogSync.Time
