import CatalogSync.Proofs.Settings.Seeding
import CatalogSync.Proofs.Text.Padding
import CatalogSync.Settings.Access
import Mathlib.Data.Nat.Digits.Defs

/-!
# What settings mean

The text of a setting is a word with blanks around it. `Numeral` says which words are integers of 64 bits and `TruthWord`
which are truth values. Any other word has no meaning for a reader, which gives its default then, and so it does where
there is no text at all (`Reads`).

Main statement: `readers_know_their_words`.
-/

namespace CatalogSync.Settings

open CatalogSync.Program CatalogSync.Text

/-! ## Words -/

/-- A text is this word with blanks around it. -/
def Surrounds (s : String) (word : List Char) : Prop :=
  ∃ before after, s.toList = before ++ word ++ after ∧ before.all isBlank = true ∧ after.all isBlank = true

/-- The signs of an integer, and whether it is negative. -/
inductive Sign : List Char → Bool → Prop
  | missing : Sign [] false
  | plus : Sign ['+'] false
  | minus : Sign ['-'] true

def count (ds : List Char) : Nat := Nat.ofDigits 10 (ds.reverse.map fun c => c.toNat - '0'.toNat)

/-- **Integers as words**: a sign or none, and one digit of ASCII or more, which count what 64 bits hold. -/
def Numeral (word : List Char) (n : Int) : Prop :=
  ∃ sign negative ds, Sign sign negative ∧ ds ≠ [] ∧ (∀ c ∈ ds, c.isDigit = true) ∧ word = sign ++ ds ∧
    n = (if negative then -(count ds : Int) else count ds) ∧ -2 ^ 63 ≤ n ∧ n < 2 ^ 63

def spellings : Bool → List String
  | true => ["true", "1", "yes", "on"]
  | false => ["false", "0", "no", "off"]

/-- **Truth values as words**: their spellings, with small or capital letters of ASCII. -/
def TruthWord (word : List Char) (b : Bool) : Prop :=
  ∃ spelling ∈ spellings b, word.map Char.toLower = spelling.toList

/-- What a reader gives for an answer: the meaning of the word in its text, or its default where there is no text or the
word means nothing. -/
def Reads {α : Type} (means : List Char → α → Prop) (a : Answer) (default v : α) : Prop :=
  (∃ s word, a = .ok (some s) ∧ Surrounds s word ∧ means word v) ∨
    (v = default ∧ ∀ s word w, a = .ok (some s) → Surrounds s word → ¬ means word w)

theorem surrounds_trimmed (s : String) : Surrounds s (trimmed s.toList) := around_trimmed s.toList

theorem Surrounds.trimmed_eq {s : String} {word : List Char} (h : Surrounds s word)
    (hword : ∀ c ∈ word, isBlank c = false) : trimmed s.toList = word := by
  obtain ⟨before, after, hs, hbefore, hafter⟩ := h
  rw [hs]
  exact trimmed_of_around hbefore hafter hword

/-- A reader of words without blanks in them reads the word in a text. -/
theorem reads_word_iff {α : Type} {read : List Char → Option α} {means : List Char → α → Prop}
    (hread : ∀ word v, read word = some v ↔ means word v) (hblank : ∀ word v, means word v → ∀ c ∈ word, isBlank c = false)
    (s : String) (v : α) : read (trimmed s.toList) = some v ↔ ∃ word, Surrounds s word ∧ means word v := by
  constructor
  · intro h
    exact ⟨_, surrounds_trimmed s, (hread _ v).1 h⟩
  · rintro ⟨word, hword, h⟩
    rw [hword.trimmed_eq (hblank word v h), hread]
    exact h

/-- A reader with a default. -/
theorem getD_eq_iff {α : Type} {read : String → Option α} {means : List Char → α → Prop}
    (hread : ∀ s v, read s = some v ↔ ∃ word, Surrounds s word ∧ means word v) (a : Answer) (default v : α) :
    (a.text?.bind read).getD default = v ↔ Reads means a default v := by
  have htext : ∀ {s}, a.text? = some s ↔ a = .ok (some s) := by
    intro s
    cases a with
    | ok value => simp [Answer.text?]
    | error e => simp [Answer.text?]
  cases hmeaning : a.text?.bind read with
  | some w =>
    obtain ⟨s, hs, hw⟩ := Option.bind_eq_some_iff.1 hmeaning
    rw [Option.getD_some]
    constructor
    · rintro rfl
      obtain ⟨word, hword, h⟩ := (hread s w).1 hw
      exact .inl ⟨s, word, htext.1 hs, hword, h⟩
    · rintro (⟨s', word, ha, hword, h⟩ | ⟨-, hnone⟩)
      · have hv := (hread s' v).2 ⟨word, hword, h⟩
        rw [htext.2 ha] at hs
        obtain rfl := Option.some.inj hs
        rw [hv] at hw
        exact (Option.some.inj hw).symm
      · obtain ⟨word, hword, h⟩ := (hread s w).1 hw
        exact absurd h (hnone s word w (htext.1 hs) hword)
  | none =>
    have hnone : ∀ s word w, a = .ok (some s) → Surrounds s word → ¬ means word w := by
      intro s word w ha hword h
      have hw := (hread s w).2 ⟨word, hword, h⟩
      rw [htext.2 ha, Option.bind_some, hw] at hmeaning
      cases hmeaning
    rw [Option.getD_none]
    constructor
    · rintro rfl
      exact .inr ⟨rfl, hnone⟩
    · rintro (⟨s, word, ha, hword, h⟩ | ⟨rfl, -⟩)
      · exact absurd h (hnone s word v ha hword)
      · rfl

/-! ## Integers -/

theorem isDigit_eq (c : Char) : Decimal.isDigit c = c.isDigit := by
  rw [Bool.eq_iff_iff, Decimal.isDigit_iff]
  simp [Char.isDigit, UInt32.le_iff_toNat_le]

theorem value_eq_count (ds : List Char) : Decimal.value ds = count ds := by
  induction ds using List.reverseRecOn with
  | nil => rfl
  | append_singleton ds c ih =>
    rw [Decimal.value_concat, ih]
    unfold count
    rw [List.reverse_append, List.reverse_singleton, List.singleton_append, List.map_cons, Nat.ofDigits_cons, Nat.add_comm]
    rfl

theorem fitsInt64_iff {n : Int} : Decimal.fitsInt64 n = true ↔ -2 ^ 63 ≤ n ∧ n < 2 ^ 63 := by
  unfold Decimal.fitsInt64 Decimal.minInt64 Decimal.maxInt64
  rw [Bool.and_eq_true, decide_eq_true_eq, decide_eq_true_eq]
  omega

theorem isBlank_of_isDigit {c : Char} (h : c.isDigit = true) : isBlank c = false := by
  have hbounds := Decimal.isDigit_iff.1 ((isDigit_eq c).trans h)
  unfold isBlank
  simp
  omega

theorem splitSign_spec (cs : List Char) :
    ∃ sign, Sign sign (Decimal.splitSign cs).1 ∧ cs = sign ++ (Decimal.splitSign cs).2 := by
  unfold Decimal.splitSign
  split
  · exact ⟨['+'], .plus, rfl⟩
  · exact ⟨['-'], .minus, rfl⟩
  · exact ⟨[], .missing, rfl⟩

theorem Sign.splitSign {sign ds : List Char} {negative : Bool} (h : Sign sign negative) (hds : ∀ c ∈ ds, c.isDigit = true) :
    Decimal.splitSign (sign ++ ds) = (negative, ds) := by
  cases h with
  | plus => rfl
  | minus => rfl
  | missing =>
    rw [List.nil_append]
    unfold Decimal.splitSign
    split
    · exact absurd (hds _ List.mem_cons_self) (by decide)
    · exact absurd (hds _ List.mem_cons_self) (by decide)
    · rfl

theorem readInt64_iff (word : List Char) (n : Int) : Decimal.readInt64 word = some n ↔ Numeral word n := by
  have hdigits : ∀ ds : List Char, ds.all Decimal.isDigit = true ↔ ∀ c ∈ ds, c.isDigit = true := by
    intro ds
    rw [List.all_eq_true]
    exact forall₂_congr fun c _ => by rw [isDigit_eq]
  constructor
  · intro h
    obtain ⟨sign, hsign, hword⟩ := splitSign_spec word
    unfold Decimal.readInt64 at h
    generalize Decimal.splitSign word = p at h hsign hword
    obtain ⟨negative, ds⟩ := p
    dsimp only at h hsign hword
    split at h
    · cases h
    · next hds =>
      simp only [Bool.or_eq_true, Bool.not_eq_true', not_or, Bool.not_eq_false, List.isEmpty_iff] at hds
      rw [value_eq_count] at h
      by_cases hfits : Decimal.fitsInt64 (if negative = true then -(count ds : Int) else count ds) = true
      · rw [if_pos hfits] at h
        obtain rfl := Option.some.inj h
        exact ⟨sign, negative, ds, hsign, hds.1, (hdigits ds).1 hds.2, hword, rfl, fitsInt64_iff.1 hfits⟩
      · rw [if_neg hfits] at h
        cases h
  · rintro ⟨sign, negative, ds, hsign, hsome, hds, rfl, rfl, hfits⟩
    have hall : (ds.isEmpty || !ds.all Decimal.isDigit) = false := by
      rw [(hdigits ds).2 hds]
      simpa using hsome
    unfold Decimal.readInt64
    rw [hsign.splitSign hds]
    dsimp only
    rw [hall, value_eq_count]
    exact if_pos (fitsInt64_iff.2 hfits)

theorem Numeral.noBlank {word : List Char} {n : Int} (h : Numeral word n) : ∀ c ∈ word, isBlank c = false := by
  obtain ⟨sign, negative, ds, hsign, -, hds, rfl, -, -⟩ := h
  intro c hc
  rcases List.mem_append.1 hc with hc | hc
  · cases hsign with
    | missing => cases hc
    | plus =>
      rw [List.mem_singleton.1 hc]
      decide
    | minus =>
      rw [List.mem_singleton.1 hc]
      decide
  · exact isBlank_of_isDigit (hds c hc)

theorem parseInt_iff (s : String) (n : Int) : parseInt s = some n ↔ ∃ word, Surrounds s word ∧ Numeral word n :=
  reads_word_iff readInt64_iff (fun _ _ => Numeral.noBlank) s n

example : parseInt "\t-9223372036854775808 " = some (-2 ^ 63) ∧ parseInt "9223372036854775808" = none ∧
    parseInt "1 000" = none := by decide

theorem int_eq_iff (a : Answer) (default n : Int) : a.int default = n ↔ Reads Numeral a default n :=
  getD_eq_iff parseInt_iff a default n

/-- An integer in decimal is a word for itself. -/
theorem numeral_ofInt {n : Int} (hleast : -2 ^ 63 ≤ n) (hmost : n < 2 ^ 63) : Numeral (Decimal.ofInt n).toList n := by
  have hsome : ∀ m, Decimal.digits m ≠ [] := by
    intro m hnil
    have hpadded := Decimal.padded_ne_nil 0 m
    unfold Decimal.padded at hpadded
    rw [hnil] at hpadded
    exact hpadded rfl
  have hdigits : ∀ m, ∀ c ∈ Decimal.digits m, c.isDigit = true := by
    intro m c hc
    rw [← isDigit_eq]
    exact List.all_eq_true.1 (Decimal.digits_all m) c hc
  have hcount : ∀ m, count (Decimal.digits m) = m := fun m => by rw [← value_eq_count, Decimal.value_digits]
  cases n with
  | ofNat m =>
    refine ⟨[], false, Decimal.digits m, .missing, hsome m, hdigits m, ?_, ?_, hleast, hmost⟩
    · exact String.toList_ofList
    · rw [hcount]
      rfl
  | negSucc m =>
    refine ⟨['-'], true, Decimal.digits (m + 1), .minus, hsome _, hdigits _, ?_, ?_, hleast, hmost⟩
    · unfold Decimal.ofInt Decimal.ofNat
      rw [String.toList_append]
      exact congrArg (['-'] ++ ·) String.toList_ofList
    · rw [hcount]
      rfl

theorem parseInt_ofInt {n : Int} (hleast : -2 ^ 63 ≤ n) (hmost : n < 2 ^ 63) : parseInt (Decimal.ofInt n) = some n := by
  refine (parseInt_iff _ n).2 ⟨_, ⟨[], [], ?_, rfl, rfl⟩, numeral_ofInt hleast hmost⟩
  rw [List.nil_append, List.append_nil]

/-! ## Truth values -/

theorem lower_eq (c : Char) : lower c = c.toLower := by
  have hcapital : ('A' ≤ c ∧ c ≤ 'Z') ↔ (c.val ≥ 'A'.val ∧ c.val ≤ 'Z'.val) := Iff.rfl
  unfold lower Char.toLower
  by_cases h : c.val ≥ 'A'.val ∧ c.val ≤ 'Z'.val
  · rw [if_pos (hcapital.2 h), dif_pos h]
    have hbounds : 65 ≤ c.toNat ∧ c.toNat ≤ 90 := ⟨UInt32.le_iff_toNat_le.1 h.1, UInt32.le_iff_toNat_le.1 h.2⟩
    have hvalid : (c.toNat + 32).isValidChar := .inl (by omega)
    apply Char.toNat_inj.1
    unfold Char.ofNat
    rw [dif_pos hvalid]
    show c.toNat + 32 = (c.val + 32).toNat
    rw [UInt32.toNat_add]
    show c.toNat + 32 = (c.toNat + 32) % 2 ^ 32
    omega
  · rw [if_neg (fun hc => h (hcapital.1 hc)), dif_neg h]

/-- A blank is no capital letter. -/
theorem toLower_of_isBlank {c : Char} (h : isBlank c = true) : c.toLower = c := by
  rw [← lower_eq]
  unfold lower
  rw [if_neg]
  rintro ⟨hfirst, hlast⟩
  have hbounds : 65 ≤ c.toNat ∧ c.toNat ≤ 90 := ⟨hfirst, hlast⟩
  unfold isBlank at h
  simp at h
  omega

theorem TruthWord.noBlank {word : List Char} {b : Bool} (h : TruthWord word b) : ∀ c ∈ word, isBlank c = false := by
  obtain ⟨spelling, hmem, hword⟩ := h
  have hspellings : ∀ b, ∀ spelling ∈ spellings b, (spelling.toList.all fun c => !isBlank c) = true := by decide
  have hspelling := List.all_eq_true.1 (hspellings b spelling hmem)
  intro c hc
  by_contra hblank
  have hmem' : c.toLower ∈ spelling.toList := by
    rw [← hword]
    exact List.mem_map_of_mem hc
  rw [Bool.not_eq_false] at hblank
  rw [toLower_of_isBlank hblank] at hmem'
  have hno := hspelling c hmem'
  rw [hblank] at hno
  cases hno

theorem truthWord_iff_mem {word : List Char} {b : Bool} :
    TruthWord word b ↔ String.ofList (word.map lower) ∈ spellings b := by
  have hmap : word.map lower = word.map Char.toLower := List.map_congr_left fun c _ => lower_eq c
  rw [hmap]
  constructor
  · rintro ⟨spelling, hmem, hword⟩
    rwa [hword, String.ofList_toList]
  · intro hmem
    exact ⟨_, hmem, String.toList_ofList.symm⟩

/-- No word spells both truth values. -/
theorem TruthWord.unique {word : List Char} {b b' : Bool} (h : TruthWord word b) (h' : TruthWord word b') : b = b' := by
  have hdisjoint : ∀ b b', ∀ spelling ∈ spellings b, spelling ∈ spellings b' → b = b' := by decide
  exact hdisjoint b b' _ (truthWord_iff_mem.1 h) (truthWord_iff_mem.1 h')

def truthOf (word : List Char) : Option Bool :=
  if String.ofList (word.map lower) ∈ spellings true then some true
  else if String.ofList (word.map lower) ∈ spellings false then some false
  else none

theorem truthOf_iff (word : List Char) (b : Bool) : truthOf word = some b ↔ TruthWord word b := by
  unfold truthOf
  by_cases htrue : TruthWord word true
  · rw [if_pos (truthWord_iff_mem.1 htrue), Option.some.injEq]
    exact ⟨fun hb => hb ▸ htrue, htrue.unique⟩
  · rw [if_neg (mt truthWord_iff_mem.2 htrue)]
    by_cases hfalse : TruthWord word false
    · rw [if_pos (truthWord_iff_mem.1 hfalse), Option.some.injEq]
      exact ⟨fun hb => hb ▸ hfalse, hfalse.unique⟩
    · rw [if_neg (mt truthWord_iff_mem.2 hfalse)]
      cases b with
      | true => simp [htrue]
      | false => simp [hfalse]

theorem parseBool_eq (s : String) : parseBool s = truthOf (trimmed s.toList) := by
  simp only [parseBool, truthOf, spellings, List.mem_cons, List.not_mem_nil, or_false]

theorem parseBool_iff (s : String) (b : Bool) : parseBool s = some b ↔ ∃ word, Surrounds s word ∧ TruthWord word b := by
  rw [parseBool_eq]
  exact reads_word_iff truthOf_iff (fun _ _ => TruthWord.noBlank) s b

theorem bool_eq_iff (a : Answer) (default b : Bool) : a.bool default = b ↔ Reads TruthWord a default b :=
  getD_eq_iff parseBool_iff a default b

/-! ## Reading from a store -/

/-- What a store may answer for a key: its value, or an error if it is faulty. -/
def Answers (faulty : Bool) (s : Values) (key : String) (a : Answer) : Prop :=
  a = .ok (s key) ∨ faulty = true ∧ ∃ e, a = .error e

/-- A reader asks for the value of its key, once, and changes nothing. -/
theorem reader_ends {α : Type} (faulty : Bool) (s : Values) (key : String) (read : Answer → α) (t : List Event) :
    Ends (store faulty) True (fun r u s' => s' = s ∧ ∃ a, u = t ++ [⟨.readSetting key, a⟩] ∧ Answers faulty s key a ∧ r = read a)
      (Program.call (.readSetting key) >>= fun a => pure (read a)) t s := by
  have hstays : ∀ u u' : Values, u = s → (store faulty).stirs u u' → u' = s := fun _ _ _ h => h.elim
  refine Ends.call (· = s) rfl hstays ?_ ?_
  · rintro - m rfl
    exact ⟨m, .ok (m key), m, .refl m, rfl, rfl⟩
  · rintro m a m' rfl hread
    have hanswer : Answers faulty m key a ∧ m' = m := by
      cases a with
      | ok value => exact ⟨.inl (congrArg Except.ok hread.1), hread.2⟩
      | error e => exact ⟨.inr ⟨hread.1, e, rfl⟩, hread.2⟩
    obtain ⟨ha, rfl⟩ := hanswer
    exact Ends.pure (· = m') rfl hstays (by rintro _ rfl; exact ⟨rfl, a, rfl, ha, rfl⟩)

/-- **Readers know their words.** Whatever a store holds, and whether it answers or fails, the reader of integers and the
reader of truth values each ask for their key once and change nothing. They give the meaning of the word in the text, and
their default in every other case. An integer of 64 bits that is written in decimal is read as itself. -/
theorem readers_know_their_words (key : String) (s : Values) :
    (∀ default, Ends (store true) True (fun r t s' => s' = s ∧ ∃ a, t = [⟨.readSetting key, a⟩] ∧ Answers true s key a ∧
        ∀ n, r = n ↔ Reads Numeral a default n) (getInt key default) [] s) ∧
      (∀ default, Ends (store true) True (fun r t s' => s' = s ∧ ∃ a, t = [⟨.readSetting key, a⟩] ∧ Answers true s key a ∧
        ∀ b, r = b ↔ Reads TruthWord a default b) (getBool key default) [] s) ∧
      ∀ (n : Int64) (default : Int), Ends (store false) True (fun r _ _ => r = n.toInt) (do
        let _ ← Program.call (.writeSetting key (Decimal.ofInt n.toInt))
        getInt key default) [] s := by
  refine ⟨fun default => ?_, fun default => ?_, fun n default => ?_⟩
  · refine (reader_ends true s key (Answer.int · default) []).mono ?_
    rintro r t s' ⟨hs', a, ht, ha, rfl⟩
    exact ⟨hs', a, ht, ha, fun n => int_eq_iff a default n⟩
  · refine (reader_ends true s key (Answer.bool · default) []).mono ?_
    rintro r t s' ⟨hs', a, ht, ha, rfl⟩
    exact ⟨hs', a, ht, ha, fun b => bool_eq_iff a default b⟩
  · refine Ends.call (· = s) rfl (fun _ _ _ h => h.elim) ?_ ?_
    · rintro - m rfl
      exact ⟨m, .ok (), _, .refl m, rfl⟩
    · rintro m a m' rfl hwrite
      cases a with
      | error e => cases hwrite.1
      | ok u =>
        obtain rfl : m' = Function.update m key (some (Decimal.ofInt n.toInt)) := hwrite
        refine (reader_ends false _ key (Answer.int · default) _).mono ?_
        rintro r t s' ⟨-, a, -, ha | ⟨hno, -⟩, rfl⟩
        · subst ha
          rw [Function.update_self]
          show (parseInt (Decimal.ofInt n.toInt)).getD default = n.toInt
          rw [parseInt_ofInt n.le_toInt n.toInt_lt, Option.getD_some]
        · cases hno

end CatalogSync.Settings
