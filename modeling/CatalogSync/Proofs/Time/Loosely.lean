import CatalogSync.Proofs.Store.Outcomes
import CatalogSync.Proofs.Time.Reading
import CatalogSync.Time.Loose
import Mathlib.Data.List.TakeWhile

/-!
# Loosely written instants

The reader of loosely written dates and times, taken apart (`readChars_eq`). It reads the text of every instant that is
kept as that instant (`read_zulu`), and whatever text it reads, it reads as an instant that is kept (`kept_of_read`).
-/

namespace CatalogSync.Time

open CatalogSync.Text

/-- An instant of a year that instants are kept for; a leap second ends its minute. -/
structure Instant.Kept (t : Instant) : Prop where
  inRange : t.inRange = true
  leap : perSecond ≤ t.time.nano → t.time.second % 60 = 59

namespace Loose

/-! ## Reading a part -/

/-- A number of at most two digits that counts less than a bound. -/
structure Part (bound : Nat) (ds : List Char) : Prop where
  digits : ds.all Decimal.isDigit = true
  one_le : 1 ≤ ds.length
  le_two : ds.length ≤ 2
  lt : Decimal.value ds < bound

theorem number_sound {cs r : List Char} {n : Nat} (h : number 2 cs = .ok (n, r)) :
    ∃ ds, cs = ds ++ r ∧ ds.all Decimal.isDigit = true ∧ 1 ≤ ds.length ∧ ds.length ≤ 2 ∧ n = Decimal.value ds := by
  cases cs with
  | nil => cases h
  | cons c cs =>
    unfold number at h
    dsimp only at h
    split at h
    · next hc =>
      cases h
      have hpre : ((c :: cs).take 2).takeWhile Decimal.isDigit <+: c :: cs :=
        (List.takeWhile_prefix _).trans (List.take_prefix 2 _)
      have hlen : (((c :: cs).take 2).takeWhile Decimal.isDigit).length ≤ 2 :=
        (List.takeWhile_prefix _).length_le.trans (List.length_take_le 2 _)
      refine ⟨_, (List.prefix_iff_eq_append.1 hpre).symm, List.all_takeWhile, ?_, hlen, rfl⟩
      rw [List.take_succ_cons, List.takeWhile_cons_of_pos hc, List.length_cons]
      exact Nat.le_add_left 1 _
    · cases h

/-- Digits are read up to the last one that is allowed, or up to what is no digit. -/
theorem number_complete {most : Nat} {ds r : List Char} (hds : ds.all Decimal.isDigit = true) (hone : 1 ≤ ds.length)
    (hmost : ds.length ≤ most) (hr : ds.length < most → ∀ c ∈ r.head?, Decimal.isDigit c = false) :
    number most (ds ++ r) = .ok (Decimal.value ds, r) := by
  have hall := List.all_eq_true.1 hds
  have hstop : (r.take (most - ds.length)).takeWhile Decimal.isDigit = [] := by
    cases hleft : most - ds.length with
    | zero => rfl
    | succ k =>
      cases r with
      | nil => rfl
      | cons c r =>
        have hc : Decimal.isDigit c = false := hr (by omega) c rfl
        rw [List.take_succ_cons, List.takeWhile_cons_of_neg (by rw [hc]; decide)]
  have htaken : ((ds ++ r).take most).takeWhile Decimal.isDigit = ds := by
    rw [List.take_append, List.take_of_length_le hmost, List.takeWhile_append_of_pos hall, hstop, List.append_nil]
  cases ds with
  | nil => cases hone
  | cons d ds =>
    have hd : Decimal.isDigit d = true := hall d List.mem_cons_self
    rw [List.cons_append] at htaken ⊢
    unfold number
    dsimp only
    rw [if_pos hd, htaken, ← List.cons_append, List.drop_left]

/-- Digits are no blanks. -/
theorem trimStart_digits {ds : List Char} (hds : ds.all Decimal.isDigit = true) (hone : 1 ≤ ds.length) (r : List Char) :
    trimStart (ds ++ r) = ds ++ r := by
  cases ds with
  | nil => cases hone
  | cons d ds =>
    have hd := isBlank_of_isDigit (List.all_eq_true.1 hds d List.mem_cons_self)
    unfold trimStart
    rw [List.cons_append, List.dropWhile_cons_of_neg (by rw [hd]; decide)]

theorem part_sound {greatest n : Nat} {cs r : List Char} (h : part 2 0 greatest cs = .ok (n, r)) :
    ∃ gap ds, cs = gap ++ ds ++ r ∧ gap.all isBlank = true ∧ Part (greatest + 1) ds ∧ n = Decimal.value ds := by
  obtain ⟨⟨n', r'⟩, hnumber, h⟩ := ok_of_bind h
  dsimp only at h
  split at h
  · next hle =>
    cases h
    obtain ⟨ds, hcs, hds, hone, htwo, rfl⟩ := number_sound hnumber
    refine ⟨cs.takeWhile isBlank, ds, ?_, List.all_takeWhile, ⟨hds, hone, htwo, Nat.lt_succ_of_le hle.2⟩, rfl⟩
    rw [List.append_assoc, ← hcs]
    exact (List.takeWhile_append_dropWhile ..).symm
  · cases h

theorem part_complete {least greatest : Nat} {gap ds r : List Char} (hgap : gap.all isBlank = true)
    (hds : Part (greatest + 1) ds) (hleast : least ≤ Decimal.value ds)
    (hr : ds.length < 2 → ∀ c ∈ r.head?, Decimal.isDigit c = false) :
    part 2 least greatest (gap ++ ds ++ r) = .ok (Decimal.value ds, r) := by
  have hhead : trimStart (gap ++ ds ++ r) = ds ++ r := by
    rw [List.append_assoc]
    exact (List.dropWhile_append_of_pos (List.all_eq_true.1 hgap)).trans (trimStart_digits hds.digits hds.one_le r)
  unfold part
  rw [hhead, number_complete hds.digits hds.one_le hds.le_two hr]
  exact if_pos ⟨hleast, Nat.le_of_lt_succ hds.lt⟩

/-- A number padded to two digits is read whatever follows. -/
theorem part_padded {least greatest n : Nat} (hleast : least ≤ n) (hgreatest : n ≤ greatest) (hn : n < 10 ^ 2)
    (r : List Char) : part 2 least greatest (Decimal.padded 2 n ++ r) = .ok (n, r) := by
  have hlen := Decimal.length_padded (w := 2) (by decide) hn
  have hvalue := Decimal.value_padded 2 n
  have hds : Part (greatest + 1) (Decimal.padded 2 n) :=
    ⟨Decimal.all_padded 2 n, by rw [hlen]; decide, by rw [hlen], by rw [hvalue]; exact Nat.lt_succ_of_le hgreatest⟩
  have hpart : part 2 least greatest ([] ++ Decimal.padded 2 n ++ r) = .ok (Decimal.value (Decimal.padded 2 n), r) :=
    part_complete rfl hds (by rwa [hvalue]) fun hlt => by omega
  rwa [hvalue, List.nil_append] at hpart

theorem mark_cons {c : Char} (hc : isBlank c = false) (r : List Char) : mark c (c :: r) = .ok r := by
  unfold mark trimStart
  rw [List.dropWhile_cons_of_neg (by rw [hc]; decide)]
  exact if_pos rfl

/-- A padded number is read up to what is no digit. -/
theorem number_padded {most w n : Nat} {r : List Char} (hmost : (Decimal.padded w n).length ≤ most)
    (hr : ∀ c ∈ r.head?, Decimal.isDigit c = false) : number most (Decimal.padded w n ++ r) = .ok (n, r) := by
  have hsome : 1 ≤ (Decimal.padded w n).length := List.length_pos_iff.2 (Decimal.padded_ne_nil w n)
  rw [number_complete (Decimal.all_padded w n) hsome hmost fun _ => hr, Decimal.value_padded]

theorem year_digits {n : Nat} (hn : n < 10 ^ 4) {r : List Char} (hr : ∀ c ∈ r.head?, Decimal.isDigit c = false) :
    year (Decimal.padded 4 n ++ r) = .ok ((n : Int), r) := by
  have hwidth : (Decimal.padded 4 n).length = 4 := Decimal.length_padded (by decide) hn
  have hdigits := Decimal.all_padded 4 n
  have hnumber := number_padded (Nat.le_of_eq hwidth) hr
  have hbounds : -2147483648 ≤ (n : Int) ∧ (n : Int) ≤ 2147483647 := by omega
  unfold year
  rw [trimStart_digits hdigits (by omega)]
  cases hpadded : Decimal.padded 4 n with
  | nil => exact absurd hpadded (Decimal.padded_ne_nil 4 n)
  | cons d ds =>
    rw [hpadded] at hnumber hdigits
    rw [List.all_cons, Bool.and_eq_true] at hdigits
    dsimp only
    split
    · next hsign => cases hsign; cases hdigits.1
    · next hsign => cases hsign; cases hdigits.1
    · rw [hnumber]
      exact if_pos hbounds

theorem year_signed {y : Int} (hfirst : -2147483648 ≤ y) (hlast : y ≤ 2147483647) {r : List Char}
    (hr : ∀ c ∈ r.head?, Decimal.isDigit c = false) :
    year ((if y < 0 then '-' else '+') :: Decimal.padded 4 y.natAbs ++ r) = .ok (y, r) := by
  have hnumber : number (Decimal.padded 4 y.natAbs ++ r).length (Decimal.padded 4 y.natAbs ++ r) =
      .ok (y.natAbs, r) := number_padded (by rw [List.length_append]; omega) hr
  have hbounds : -2147483648 ≤ y ∧ y ≤ 2147483647 := ⟨hfirst, hlast⟩
  unfold year
  by_cases hneg : y < 0
  · have hy : -(y.natAbs : Int) = y := by omega
    rw [if_pos hneg, List.cons_append]
    show number _ _ >>= _ = _
    rw [hnumber]
    show (if -2147483648 ≤ -(y.natAbs : Int) ∧ -(y.natAbs : Int) ≤ 2147483647 then _ else _) = _
    rw [hy]
    exact if_pos hbounds
  · have hy : (y.natAbs : Int) = y := by omega
    rw [if_neg hneg, List.cons_append]
    show number _ _ >>= _ = _
    rw [hnumber]
    show (if -2147483648 ≤ (y.natAbs : Int) ∧ (y.natAbs : Int) ≤ 2147483647 then _ else _) = _
    rw [hy]
    exact if_pos hbounds

/-- A year is read as it is written, with a sign unless it has four digits. -/
theorem year_chars {y : Int} (hfirst : -2147483648 ≤ y) (hlast : y ≤ 2147483647) {r : List Char}
    (hr : ∀ c ∈ r.head?, Decimal.isDigit c = false) : year (yearChars y ++ r) = .ok (y, r) := by
  unfold yearChars
  by_cases hfour : 0 ≤ y ∧ y ≤ 9999
  · rw [if_pos hfour, year_digits (by omega) hr, Int.toNat_of_nonneg hfour.1]
  · rw [if_neg hfour, year_signed hfirst hlast hr]

/-! ## The reader in parts -/

def separator : List Char → Except Fault (List Char)
  | [] => throw .tooShort
  | c :: r => if c = 'T' ∨ c = 't' ∨ c = ' ' then return r else throw .invalid

theorem separator_bind {α : Type} (cs : List Char) (k : List Char → Except Fault α) :
    separator cs >>= k =
      match cs with
      | [] => throw .tooShort >>= k
      | c :: r => if c = 'T' ∨ c = 't' ∨ c = ' ' then pure r >>= k else throw .invalid >>= k := by
  unfold separator
  split
  · rfl
  · split <;> rfl

theorem separator_cons (r : List Char) : separator ('T' :: r) = .ok r := rfl

/-- A fraction after its point, if there is a point. -/
def fraction (cs : List Char) : Except Fault (Nat × List Char) :=
  match cs with
  | '.' :: r => do
    let _ ← number 9 r
    return (nanosOf (r.takeWhile Decimal.isDigit), r.dropWhile Decimal.isDigit)
  | _ => return (0, cs)

theorem fraction_bind {α : Type} (cs : List Char) (k : Nat × List Char → Except Fault α) :
    fraction cs >>= k =
      match cs with
      | '.' :: r =>
        number 9 r >>= fun (_, _) => pure (nanosOf (r.takeWhile Decimal.isDigit), r.dropWhile Decimal.isDigit) >>= k
      | _ => pure (0, cs) >>= k := by
  unfold fraction
  split
  · exact bind_assoc _ _ _
  · rfl

/-- An offset after blanks, which may be spelled `UTC`. -/
def zone (cs : List Char) : Except Fault (Int × List Char) :=
  if startsWithUtc (trimStart cs) then return (0, (trimStart cs).drop 3) else offset (trimStart cs)

theorem zone_bind {α : Type} (cs : List Char) (k : Int × List Char → Except Fault α) :
    zone cs >>= k =
      if startsWithUtc (trimStart cs) then pure (0, (trimStart cs).drop 3) >>= k else offset (trimStart cs) >>= k := by
  unfold zone
  split <;> rfl

/-- The instant of a date, a time and an offset, if they make one. -/
def assemble (date : Date) (time? : Option OfDay) (shift : Int) : Except Fault Instant := do
  if !(date.isValid && Instant.firstYear ≤ date.year && date.year ≤ Instant.lastYear) then throw .outOfRange
  match time? with
  | none => throw .outOfRange
  | some time =>
    if 86400 ≤ shift.natAbs then throw .outOfRange
    match Instant.ofLocal? date time shift with
    | some t => return t
    | none => throw .impossible

/-- The parts one after the other. -/
theorem readChars_eq (cs : List Char) : readChars cs = (do
    let (y, cs) ← year cs
    let cs ← mark '-' cs
    let (month, cs) ← part 2 1 12 cs
    let cs ← mark '-' cs
    let (day, cs) ← part 2 1 31 cs
    let cs ← separator cs
    let (hour, cs) ← part 2 0 23 cs
    let cs ← mark ':' cs
    let (minute, cs) ← part 2 0 59 cs
    let cs ← mark ':' cs
    let (second, cs) ← part 2 0 60 cs
    let (nano, cs) ← fraction cs
    let (shift, cs) ← zone cs
    if !(trimStart cs).isEmpty then throw .tooLong
    assemble ⟨y, month, day⟩ (OfDay.ofClock? hour minute second nano) shift) := by
  unfold readChars
  refine congrArg (year cs >>= ·) (funext fun (y, cs) => ?_)
  refine congrArg (mark '-' cs >>= ·) (funext fun cs => ?_)
  refine congrArg (part 2 1 12 cs >>= ·) (funext fun (month, cs) => ?_)
  refine congrArg (mark '-' cs >>= ·) (funext fun cs => ?_)
  refine congrArg (part 2 1 31 cs >>= ·) (funext fun (day, cs) => ?_)
  refine (separator_bind cs _).symm.trans (congrArg (separator cs >>= ·) (funext fun cs => ?_))
  refine congrArg (part 2 0 23 cs >>= ·) (funext fun (hour, cs) => ?_)
  refine congrArg (mark ':' cs >>= ·) (funext fun cs => ?_)
  refine congrArg (part 2 0 59 cs >>= ·) (funext fun (minute, cs) => ?_)
  refine congrArg (mark ':' cs >>= ·) (funext fun cs => ?_)
  refine congrArg (part 2 0 60 cs >>= ·) (funext fun (second, cs) => ?_)
  refine (fraction_bind cs _).symm.trans (congrArg (fraction cs >>= ·) (funext fun (nano, cs) => ?_))
  exact (zone_bind cs _).symm

/-! ## The text of an instant -/

theorem fraction_of_reads {cs rest : List Char} {nano : Nat} (h : ReadsFraction cs nano rest) :
    fraction cs = .ok (nano, rest) := by
  cases h with
  | whole h =>
    unfold fraction
    split
    · exact absurd rfl h
    · rfl
  | @part cs rest nano h =>
    unfold fractionDigits? at h
    dsimp only at h
    split at h
    · cases h
    · next hsome =>
      cases h
      cases cs with
      | nil => exact absurd rfl hsome
      | cons c cs =>
        by_cases hc : Decimal.isDigit c = true
        · have hnumber : number 9 (c :: cs) = .ok _ := if_pos hc
          show number 9 (c :: cs) >>= _ = _
          rw [hnumber]
          rfl
        · rw [List.takeWhile_cons_of_neg hc] at hsome
          exact absurd rfl hsome

theorem assemble_kept {t : Instant} (h : t.Kept) :
    assemble (Date.ofNumber t.day) (OfDay.ofClock? t.time.hour t.time.minute t.time.clockSecond t.time.fraction) 0 =
      .ok t := by
  have hyear := h.inRange
  have hlocal : Instant.ofLocal? (Date.ofNumber t.day) t.time 0 = some ⟨(Date.ofNumber t.day).number, t.time⟩ := by
    apply Instant.ofLocal?_utc (ofNumber_isValid t.day)
    rw [number_ofNumber]
    exact hyear
  unfold Instant.inRange at hyear
  unfold assemble
  rw [OfDay.ofClock?_clock h.leap, ofNumber_isValid, Bool.true_and, hyear]
  dsimp only
  rw [hlocal, number_ofNumber]
  rfl

/-- **Reading back.** The text of an instant that is kept is read as that instant. -/
theorem read_zulu {t : Instant} (h : t.Kept) : read t.zulu = .ok t := by
  have hdate := isValid_iff.1 (ofNumber_isValid t.day)
  have hdays := daysInMonth_le (Date.ofNumber t.day).year (Date.ofNumber t.day).month
  have hyear := h.inRange
  unfold Instant.inRange Instant.firstYear Instant.lastYear at hyear
  simp only [Bool.and_eq_true, decide_eq_true_eq] at hyear
  have hsecond : t.time.clockSecond ≤ 60 := by
    have hnano := t.time.nano_lt
    have hleap := h.leap
    unfold OfDay.clockSecond perSecond at *
    omega
  have hhour := t.time.hour_lt
  have hminute := t.time.minute_lt
  have hfraction : t.time.fraction < perSecond := Nat.mod_lt _ (by decide)
  have hmark : "Z".toList = ['Z'] := rfl
  have hhyphen : ∀ r : List Char, ∀ c ∈ ('-' :: r).head?, Decimal.isDigit c = false := by
    rintro r c ⟨⟩
    decide
  unfold read Instant.zulu Instant.textWith Instant.secondChars Date.chars OfDay.chars
  rw [String.toList_ofList, hmark, readChars_eq]
  simp only [List.append_assoc, List.cons_append]
  refine bind_eq_ok_iff.2 ⟨_, year_chars (by omega) (by omega) (hhyphen _), ?_⟩
  refine bind_eq_ok_iff.2 ⟨_, mark_cons (by decide) _, ?_⟩
  refine bind_eq_ok_iff.2 ⟨_, part_padded (by omega) (by omega) (by omega) _, ?_⟩
  refine bind_eq_ok_iff.2 ⟨_, mark_cons (by decide) _, ?_⟩
  refine bind_eq_ok_iff.2 ⟨_, part_padded (by omega) (by omega) (by omega) _, ?_⟩
  refine bind_eq_ok_iff.2 ⟨_, separator_cons _, ?_⟩
  refine bind_eq_ok_iff.2 ⟨_, part_padded (by omega) (by omega) (by omega) _, ?_⟩
  refine bind_eq_ok_iff.2 ⟨_, mark_cons (by decide) _, ?_⟩
  refine bind_eq_ok_iff.2 ⟨_, part_padded (by omega) (by omega) (by omega) _, ?_⟩
  refine bind_eq_ok_iff.2 ⟨_, mark_cons (by decide) _, ?_⟩
  refine bind_eq_ok_iff.2 ⟨_, part_padded (by omega) hsecond (by omega) _, ?_⟩
  refine bind_eq_ok_iff.2 ⟨_, fraction_of_reads (readsFraction_chars hfraction [] (by decide) (by decide)), ?_⟩
  refine bind_eq_ok_iff.2 ⟨(0, []), rfl, ?_⟩
  exact assemble_kept h

/-! ## What is read -/

/-- A clock has its second 60 at the end of a minute only. -/
theorem ofClock?_leap {hour minute second nano : Nat} {time : OfDay}
    (h : OfDay.ofClock? hour minute second nano = some time) (hleap : perSecond ≤ time.nano) :
    time.second % 60 = 59 := by
  unfold OfDay.ofClock? OfDay.of? at h
  split at h
  · next hclock =>
    split at h <;> split at h
    · cases h
      show (hour * 3600 + minute * 60 + 59) % 60 = 59
      omega
    · cases h
    · cases h
      exact absurd hclock.2.2.2 (Nat.not_lt.2 hleap)
    · cases h
  · cases h

/-- Offsets are written in whole minutes. -/
theorem offset_minutes {cs r : List Char} {shift : Int} (h : offset cs = .ok (shift, r)) : shift % 60 = 0 := by
  unfold offset at h
  split at h
  · cases h
  · split at h
    · cases h
      rfl
    · split at h
      · cases h
      · next negative _ _ =>
        obtain ⟨⟨a, b, r⟩, -, h⟩ := ok_of_bind h
        dsimp only at h
        split at h
        · cases h
        obtain ⟨⟨m, n, r⟩, -, h⟩ := ok_of_bind h
        dsimp only at h
        split at h
        · cases h
        split at h
        · cases h
        cases h
        cases negative
        · rw [if_neg (by decide)]
          omega
        · rw [if_pos rfl]
          omega

theorem zone_minutes {cs r : List Char} {shift : Int} (h : zone cs = .ok (shift, r)) : shift % 60 = 0 := by
  unfold zone at h
  split at h
  · cases h
    rfl
  · exact offset_minutes h

/-- A shift by whole minutes leaves a leap second at the end of a minute. -/
theorem kept_of_ofLocal? {date : Date} {time : OfDay} {shift : Int} {t : Instant} (hshift : shift % 60 = 0)
    (htime : perSecond ≤ time.nano → time.second % 60 = 59) (h : Instant.ofLocal? date time shift = some t) :
    t.Kept := by
  unfold Instant.ofLocal? at h
  split at h
  · dsimp only at h
    split at h
    · next hrange =>
      cases h
      refine ⟨hrange, fun hleap => ?_⟩
      have hsecond := htime hleap
      show ((date.number * 86400 + time.second + -shift) % 86400).toNat % 60 = 59
      omega
    · cases h
  · cases h

theorem kept_of_assemble {date : Date} {hour minute second nano : Nat} {shift : Int} {t : Instant}
    (hshift : shift % 60 = 0) (h : assemble date (OfDay.ofClock? hour minute second nano) shift = .ok t) : t.Kept := by
  unfold assemble at h
  obtain ⟨-, h⟩ := ok_of_check h
  split at h
  · cases h
  next time htime =>
  split at h
  · next t' hlocal =>
    obtain rfl : t' = t := by
      split at h
      · cases h
      · exact Except.ok.inj h
    exact kept_of_ofLocal? hshift (ofClock?_leap htime) hlocal
  · split at h <;> cases h

/-- What is read is kept. -/
theorem kept_of_read {s : String} {t : Instant} (h : read s = .ok t) : t.Kept := by
  unfold read at h
  rw [readChars_eq] at h
  obtain ⟨⟨y, cs⟩, -, h⟩ := ok_of_bind h
  obtain ⟨cs, -, h⟩ := ok_of_bind h
  obtain ⟨⟨month, cs⟩, -, h⟩ := ok_of_bind h
  obtain ⟨cs, -, h⟩ := ok_of_bind h
  obtain ⟨⟨day, cs⟩, -, h⟩ := ok_of_bind h
  obtain ⟨cs, -, h⟩ := ok_of_bind h
  obtain ⟨⟨hour, cs⟩, -, h⟩ := ok_of_bind h
  obtain ⟨cs, -, h⟩ := ok_of_bind h
  obtain ⟨⟨minute, cs⟩, -, h⟩ := ok_of_bind h
  obtain ⟨cs, -, h⟩ := ok_of_bind h
  obtain ⟨⟨second, cs⟩, -, h⟩ := ok_of_bind h
  obtain ⟨⟨nano, cs⟩, -, h⟩ := ok_of_bind h
  obtain ⟨⟨shift, cs⟩, hzone, h⟩ := ok_of_bind h
  obtain ⟨-, h⟩ := ok_of_check h
  exact kept_of_assemble (zone_minutes hzone) h

end Loose

end CatalogSync.Time
