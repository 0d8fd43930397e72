import CatalogSync.Sql.Reading

/-!
# Reading plain text

A reading stands somewhere in its statement, and its tokens are those of the characters ahead (`Reading.Before`).
Blanks, plain words and the symbols around lists are passed one by one, and what lies between two places is told by the
characters there (`between_eq`).
-/

namespace CatalogSync.Sql

open CatalogSync.Text

/-! ## Bytes -/

theorem byteLength_append (cs ds : List Char) : byteLength (cs ++ ds) = byteLength cs + byteLength ds := by
  have hfrom : ∀ (ds : List Char) (n : Nat), ds.foldl (fun n c => n + c.utf8Size) n = n + byteLength ds := by
    intro ds
    induction ds with
    | nil => exact fun _ => rfl
    | cons d ds ih =>
      intro n
      unfold byteLength
      rw [List.foldl_cons, List.foldl_cons, ih, ih]
      omega
  unfold byteLength
  rw [List.foldl_append]
  exact hfrom ds _

theorem byteLength_cons (c : Char) (cs : List Char) : byteLength (c :: cs) = c.utf8Size + byteLength cs := by
  rw [← List.singleton_append, byteLength_append]
  exact congrArg (· + _) (Nat.zero_add _)

section Between

variable {start stop n : Nat} {cs rest : List Char}

theorem go_before (h : n + byteLength cs ≤ start) :
    between.go start stop n (cs ++ rest) = between.go start stop (n + byteLength cs) rest := by
  induction cs generalizing n with
  | nil => rfl
  | cons c cs ih =>
    rw [byteLength_cons] at h
    have hpos := c.utf8Size_pos
    have hout : (decide (start ≤ n) && decide (n < stop)) = false := by
      rw [decide_eq_false (by omega), Bool.false_and]
    rw [List.cons_append, between.go, if_neg (Bool.eq_false_iff.1 hout), ih (by omega), byteLength_cons, Nat.add_assoc]

theorem go_inside (hstart : start ≤ n) (hstop : n + byteLength cs ≤ stop) :
    between.go start stop n (cs ++ rest) = cs ++ between.go start stop (n + byteLength cs) rest := by
  induction cs generalizing n with
  | nil => rfl
  | cons c cs ih =>
    rw [byteLength_cons] at hstop
    have hpos := c.utf8Size_pos
    have hin : (decide (start ≤ n) && decide (n < stop)) = true := by
      rw [decide_eq_true hstart, decide_eq_true (by omega), Bool.and_self]
    rw [List.cons_append, between.go, if_pos hin, ih (by omega) (by omega), byteLength_cons, Nat.add_assoc,
      List.cons_append]

theorem go_after (h : stop ≤ n) : between.go start stop n rest = [] := by
  induction rest generalizing n with
  | nil => rfl
  | cons c rest ih =>
    have hout : (decide (start ≤ n) && decide (n < stop)) = false := by
      rw [decide_eq_false (Nat.not_lt.2 h), Bool.and_false]
    rw [between.go, if_neg (Bool.eq_false_iff.1 hout), ih (by omega)]

end Between

/-- What lies between two places of a statement. -/
theorem between_eq {sql : String} {passed cs ahead : List Char} (h : sql.toList = passed ++ (cs ++ ahead)) :
    between sql (byteLength passed) (byteLength passed + byteLength cs) = String.ofList cs := by
  unfold between
  rw [h, go_before (Nat.zero_add _ ▸ Nat.le_refl _), Nat.zero_add, go_inside (Nat.le_refl _) (Nat.le_refl _),
    go_after (Nat.le_refl _), List.append_nil]

/-! ## Tokens -/

theorem takeWhile_of_head {α : Type} {p : α → Bool} {l : List α} (h : l.head?.any p = false) : l.takeWhile p = [] := by
  cases l with
  | nil => rfl
  | cons a l =>
    have ha : p a = false := h
    exact List.takeWhile_cons_of_neg (Bool.eq_false_iff.1 ha)

/-- Characters of which a word is made: it starts as a name does and goes on so. -/
def isPlain : List Char → Bool
  | [] => false
  | c :: cs => isNameStart c && cs.all isNameChar

/-- Characters that are no part of a word in front of them. -/
def endsWord (cs : List Char) : Bool := cs.head?.all fun c => !isNameChar c && c != '\''

/-- The symbols that stand around and between the parts of a declaration. -/
def listSymbols : List Char := ['(', ',', ')', ';']

section Tokens

variable {fuel n : Nat} {c : Char} {cs ahead : List Char}

theorem tokensFrom_symbol (hc : c ∈ listSymbols) :
    tokensFrom (fuel + 1) n (c :: ahead) = ⟨.symbol, [c], n⟩ :: tokensFrom fuel (n + byteLength [c]) ahead := by
  have hfacts : ∀ c ∈ listSymbols, gapLength (c :: ahead) = 0 ∧ scan (c :: ahead) = (.symbol, 1) := by
    unfold listSymbols
    simp only [List.forall_mem_cons]
    exact ⟨⟨rfl, rfl⟩, ⟨rfl, rfl⟩, ⟨rfl, rfl⟩, ⟨rfl, rfl⟩, List.forall_mem_nil _⟩
  obtain ⟨hgap, hscan⟩ := hfacts c hc
  rw [tokensFrom, hgap]
  dsimp only [List.isEmpty_cons]
  rw [if_neg Bool.false_ne_true, if_neg (Nat.lt_irrefl 0), hscan]
  rfl

theorem ne_of_isNameStart {d : Char} (hc : isNameStart c = true) (hd : isNameStart d = false) : c ≠ d := by
  rintro rfl
  exact Bool.false_ne_true (hd.symm.trans hc)

theorem isNameChar_of_isNameStart (hc : isNameStart c = true) : isNameChar c = true := by
  unfold isNameChar
  rw [hc, Bool.true_or, Bool.true_or]

theorem isBlank_of_isNameStart (hc : isNameStart c = true) : isBlank c = false := by
  unfold isBlank
  simp only [Bool.or_eq_false_iff, decide_eq_false_iff_not]
  exact ⟨⟨⟨⟨ne_of_isNameStart hc rfl, ne_of_isNameStart hc rfl⟩, ne_of_isNameStart hc rfl⟩,
    ne_of_isNameStart hc rfl⟩, ne_of_isNameStart hc rfl⟩

theorem takeWhile_isNameChar (hcs : cs.all isNameChar = true) (hahead : endsWord ahead = true) :
    (cs ++ ahead).takeWhile isNameChar = cs := by
  rw [List.takeWhile_append_of_pos (List.all_eq_true.1 hcs)]
  cases ahead with
  | nil => exact List.append_nil cs
  | cons d ahead =>
    have hd : isNameChar d = false := by
      unfold endsWord at hahead
      simp only [List.head?_cons, Option.all_some, Bool.and_eq_true, Bool.not_eq_true'] at hahead
      exact hahead.1
    rw [List.takeWhile_cons_of_neg (Bool.eq_false_iff.1 hd), List.append_nil]

/-- No quote follows the first character of a word. -/
theorem not_quote_after (hcs : cs.all isNameChar = true) (hahead : endsWord ahead = true) :
    (cs ++ ahead).head? ≠ some '\'' := by
  intro h
  cases cs with
  | cons d cs =>
    cases h
    obtain ⟨hd, -⟩ := Bool.and_eq_true_iff.1 hcs
    exact absurd hd (by decide)
  | nil =>
    rw [List.nil_append] at h
    unfold endsWord at hahead
    rw [h] at hahead
    exact absurd hahead (by decide)

theorem scan_plain (hcs : isPlain cs = true) (hahead : endsWord ahead = true) :
    scan (cs ++ ahead) = (.word, cs.length) := by
  cases cs with
  | nil => cases hcs
  | cons c cs =>
    obtain ⟨hc, hmore⟩ := Bool.and_eq_true_iff.1 hcs
    have hall : (c :: cs).all isNameChar = true := by
      rw [List.all_cons, isNameChar_of_isNameStart hc, hmore, Bool.and_self]
    have hquote : c ≠ '\'' := ne_of_isNameStart hc rfl
    have hname : c ≠ '"' := ne_of_isNameStart hc rfl
    have htick : c ≠ '\x60' := ne_of_isNameStart hc rfl
    have hbracket : c ≠ '[' := ne_of_isNameStart hc rfl
    have hblob := not_quote_after hmore hahead
    have hlong := takeWhile_isNameChar hall hahead
    rw [List.cons_append] at hlong ⊢
    unfold scan
    dsimp only
    rw [if_neg hquote, if_neg (by simp [hname, htick]), if_neg hbracket, decide_eq_false hblob, Bool.and_false,
      if_neg Bool.false_ne_true, if_pos hc, hlong]

theorem gapLength_plain (hcs : isPlain cs = true) : gapLength (cs ++ ahead) = 0 := by
  cases cs with
  | nil => cases hcs
  | cons c cs =>
    obtain ⟨hc, -⟩ := Bool.and_eq_true_iff.1 hcs
    have hdash : c ≠ '-' := ne_of_isNameStart hc rfl
    have hslash : c ≠ '/' := ne_of_isNameStart hc rfl
    rw [List.cons_append]
    unfold gapLength
    split
    · next h => exact absurd (List.cons.inj h).1 hdash
    · next h => exact absurd (List.cons.inj h).1 hslash
    · rw [List.takeWhile_cons_of_neg (Bool.eq_false_iff.1 (isBlank_of_isNameStart hc)), List.length_nil]

theorem tokensFrom_word (hcs : isPlain cs = true) (hahead : endsWord ahead = true) :
    tokensFrom (fuel + 1) n (cs ++ ahead) = ⟨.word, cs, n⟩ :: tokensFrom fuel (n + byteLength cs) ahead := by
  have hne : cs ≠ [] := by
    rintro rfl
    cases hcs
  have hlength : max cs.length 1 = cs.length := Nat.max_eq_left (List.length_pos_iff.2 hne)
  rw [tokensFrom, gapLength_plain hcs, List.isEmpty_eq_false_iff.2 (List.append_ne_nil_of_left_ne_nil hne _),
    if_neg Bool.false_ne_true]
  dsimp only
  rw [if_neg (Nat.lt_irrefl 0), scan_plain hcs hahead]
  dsimp only
  rw [hlength, List.take_left, List.drop_left]

end Tokens

theorem Token.isSymbol_iff {t : Token} {s : String} : t.isSymbol s = true ↔ t.kind = .symbol ∧ t.chars = s.toList := by
  unfold isSymbol toText
  rw [Bool.and_eq_true, decide_eq_true_eq, beq_iff_eq, ← String.toList_inj, String.toList_ofList]

/-- As long as the steps suffice their number does not matter. -/
theorem tokensFrom_congr {k m n : Nat} {cs : List Char} (hk : cs.length < k) (hm : cs.length < m) :
    tokensFrom k n cs = tokensFrom m n cs := by
  induction k generalizing m n cs with
  | zero => exact absurd hk (Nat.not_lt_zero _)
  | succ k ih =>
    cases m with
    | zero => exact absurd hm (Nat.not_lt_zero _)
    | succ m =>
      rw [tokensFrom, tokensFrom]
      by_cases hempty : cs.isEmpty = true
      · rw [if_pos hempty, if_pos hempty]
      · rw [if_neg hempty, if_neg hempty]
        have hpos : 0 < cs.length := List.length_pos_iff.2 fun h => hempty (List.isEmpty_iff.2 h)
        have hdrop : ∀ i, 0 < i → (cs.drop i).length < k ∧ (cs.drop i).length < m := by
          intro i hi
          rw [List.length_drop]
          omega
        dsimp only
        split
        · next hgap => exact ih (hdrop _ hgap).1 (hdrop _ hgap).2
        · have hnext := hdrop (max (scan cs).2 1) (by omega)
          rw [ih hnext.1 hnext.2]

theorem gapLength_blank {c : Char} {ahead : List Char} (hc : isBlank c = true) :
    gapLength (c :: ahead) = ((c :: ahead).takeWhile isBlank).length := by
  unfold gapLength
  split
  · next h =>
    cases h
    exact absurd hc (by decide)
  · next h =>
    cases h
    exact absurd hc (by decide)
  · rfl

/-- A blank is no token, whatever follows it. -/
theorem tokensFrom_blank {fuel n : Nat} {ahead : List Char} (hfuel : ahead.length < fuel) :
    tokensFrom (fuel + 1) n (' ' :: ahead) = tokensFrom fuel (n + 1) ahead := by
  have hstep : tokensFrom (fuel + 1) n (' ' :: ahead) =
      tokensFrom fuel (n + 1 + byteLength (ahead.take (ahead.takeWhile isBlank).length))
        (ahead.drop (ahead.takeWhile isBlank).length) := by
    rw [tokensFrom, gapLength_blank (by decide), List.takeWhile_cons_of_pos (by decide)]
    dsimp only [List.isEmpty_cons, List.length_cons]
    rw [if_neg Bool.false_ne_true, if_pos (Nat.succ_pos _), List.take_succ_cons, List.drop_succ_cons, byteLength_cons,
      ← Nat.add_assoc]
    rfl
  rw [hstep]
  cases ahead with
  | nil => rfl
  | cons c ahead =>
    cases hc : isBlank c with
    | false =>
      rw [List.takeWhile_cons_of_neg (Bool.eq_false_iff.1 hc)]
      rfl
    | true =>
      -- The blanks that follow are passed in one step with this one, or in a step of their own.
      obtain ⟨fuel, rfl⟩ : ∃ m, fuel = m + 1 := ⟨fuel - 1, by omega⟩
      have hblanks : 0 < ((c :: ahead).takeWhile isBlank).length := by
        rw [List.takeWhile_cons_of_pos hc]
        exact Nat.succ_pos _
      have hshort : ((c :: ahead).drop ((c :: ahead).takeWhile isBlank).length).length < fuel := by
        rw [List.length_drop, List.length_cons]
        rw [List.length_cons] at hfuel
        omega
      conv => rhs; rw [tokensFrom]
      dsimp only [List.isEmpty_cons]
      rw [gapLength_blank hc, if_neg Bool.false_ne_true, if_pos hblanks]
      exact tokensFrom_congr (Nat.lt_succ_of_lt hshort) hshort

/-! ## Places -/

namespace Reading

/-- A reading stands in its statement before some characters: its tokens are those of these characters. -/
def Before (r : Reading) (ahead : List Char) : Prop :=
  ∃ passed, r.sql.toList = passed ++ ahead ∧
    ∀ fuel, ahead.length < fuel → r.rest = tokensFrom fuel (byteLength passed) ahead

theorem before_start (sql : String) : (Reading.mk sql (tokens sql)).Before sql.toList :=
  ⟨[], rfl, fun _ hfuel => tokensFrom_congr (Nat.lt_succ_self _) hfuel⟩

section Before

variable {r : Reading} {kind : Kind} {c : Char} {s : String} {ahead cs : List Char}

theorem Before.over (h : r.Before []) : r.rest = [] := by
  obtain ⟨passed, -, hrest⟩ := h
  exact hrest 1 Nat.one_pos

theorem Before.blank (h : r.Before (' ' :: ahead)) : r.Before ahead := by
  obtain ⟨passed, htext, hrest⟩ := h
  refine ⟨passed ++ [' '], ?_, fun fuel hfuel => ?_⟩
  · rw [htext, List.append_assoc, List.singleton_append]
  · rw [hrest (fuel + 1) (Nat.succ_lt_succ hfuel), tokensFrom_blank hfuel, byteLength_append]
    rfl

/-- A token is next, and after it the reading stands before what follows. -/
theorem Before.token (h : r.Before (cs ++ ahead)) (hcs : cs ≠ [])
    (hfrom : ∀ fuel n, tokensFrom (fuel + 1) n (cs ++ ahead) =
      ⟨kind, cs, n⟩ :: tokensFrom fuel (n + byteLength cs) ahead) :
    (∃ n, r.rest = ⟨kind, cs, n⟩ :: r.skip.rest ∧ between r.sql n (n + byteLength cs) = String.ofList cs) ∧
      r.skip.Before ahead := by
  obtain ⟨passed, htext, hrest⟩ := h
  have hnext : ∀ fuel, ahead.length < fuel → r.rest = ⟨kind, cs, byteLength passed⟩ ::
      tokensFrom fuel (byteLength (passed ++ cs)) ahead := by
    intro fuel hfuel
    have hlong : (cs ++ ahead).length < fuel + cs.length + 1 := by
      rw [List.length_append]
      omega
    have hpos := List.length_pos_iff.2 hcs
    rw [hrest _ hlong, hfrom, byteLength_append, tokensFrom_congr (by omega) hfuel]
  have hskip : ∀ fuel, ahead.length < fuel → r.skip.rest = tokensFrom fuel (byteLength (passed ++ cs)) ahead := by
    intro fuel hfuel
    change r.rest.drop 1 = _
    rw [hnext fuel hfuel]
    rfl
  refine ⟨⟨byteLength passed, ?_, between_eq htext⟩, passed ++ cs, ?_, hskip⟩
  · rw [hskip (ahead.length + 1) (Nat.lt_succ_self _)]
    exact hnext _ (Nat.lt_succ_self _)
  · rw [List.append_assoc]
    exact htext

theorem Before.plain (h : r.Before (s.toList ++ ahead)) (hs : isPlain s.toList = true)
    (hahead : endsWord ahead = true) :
    (∃ n, r.rest = ⟨.word, s.toList, n⟩ :: r.skip.rest ∧ between r.sql n (n + byteLength s.toList) = s) ∧
      r.skip.Before ahead := by
  have hne : s.toList ≠ [] := by
    intro hnil
    rw [hnil] at hs
    cases hs
  have htoken := h.token hne fun fuel n => tokensFrom_word hs hahead
  rwa [String.ofList_toList] at htoken

/-- What is refused gives nothing. -/
theorem refuse_ne_ok {α : Type} (r : Reading) (a : α) : r.refuse ≠ .ok a := by
  unfold refuse
  split
  · exact nofun
  · split <;> exact nofun

/-! ### What has been passed -/

section Passed

variable {r r' : Reading} {s : String}

theorem head_of_atSymbol (h : r.atSymbol s = true) : ∃ t rest, r.rest = t :: rest ∧ t.isSymbol s = true := by
  unfold atSymbol at h
  rw [Option.any_eq_true] at h
  obtain ⟨t, ht, his⟩ := h
  obtain ⟨rest, hrest⟩ := List.head?_eq_some_iff.1 ht
  exact ⟨t, rest, hrest, his⟩

theorem head_of_atWord (h : r.atWord s = true) : ∃ t rest, r.rest = t :: rest ∧ t.isWord s = true := by
  unfold atWord at h
  rw [Option.any_eq_true] at h
  obtain ⟨t, ht, his⟩ := h
  obtain ⟨rest, hrest⟩ := List.head?_eq_some_iff.1 ht
  exact ⟨t, rest, hrest, his⟩

theorem symbol_eq_ok_iff : r.symbol s = .ok r' ↔ r.atSymbol s = true ∧ r' = r.skip := by
  unfold symbol
  split
  · next h => exact ⟨fun heq => ⟨h, (Except.ok.inj heq).symm⟩, fun heq => heq.2 ▸ rfl⟩
  · next h => exact ⟨fun heq => absurd heq (r.refuse_ne_ok r'), fun heq => absurd heq.1 h⟩

theorem word_eq_ok_iff : r.word s = .ok r' ↔ r.atWord s = true ∧ r' = r.skip := by
  unfold word
  split
  · next h => exact ⟨fun heq => ⟨h, (Except.ok.inj heq).symm⟩, fun heq => heq.2 ▸ rfl⟩
  · next h => exact ⟨fun heq => absurd heq (r.refuse_ne_ok r'), fun heq => absurd heq.1 h⟩

theorem name_eq_ok_iff {n : Nat} : r.name = .ok (s, n, r') ↔
    ∃ t rest, r.rest = t :: rest ∧ t.name? = some s ∧ t.offset = n ∧ r' = r.skip := by
  unfold name skip
  cases hrest : r.rest with
  | nil => exact ⟨fun h => absurd h (r.refuse_ne_ok _), nofun⟩
  | cons t rest =>
    dsimp only
    cases hname : t.name? with
    | none =>
      refine ⟨fun h => absurd h (r.refuse_ne_ok _), ?_⟩
      rintro ⟨t', rest', heq, hname', -⟩
      cases heq
      rw [hname] at hname'
      cases hname'
    | some name =>
      constructor
      · intro h
        cases h
        exact ⟨t, rest, rfl, hname, rfl, rfl⟩
      · rintro ⟨t', rest', heq, hname', rfl, rfl⟩
        cases heq
        rw [hname] at hname'
        cases hname'
        rfl

end Passed

theorem length_skip_le (r : Reading) : r.skip.rest.length ≤ r.rest.length := by
  unfold skip
  rw [List.length_drop]
  exact Nat.sub_le _ _

/-! ### Keywords and symbols -/

/-- A keyword is next, in whatever letters. -/
def AtKeyword (r : Reading) (word : String) : Prop :=
  ∃ t, r.rest.head? = some t ∧ t.kind = .word ∧ capitals t.toText = word

/-- A symbol of one character is next. -/
def AtSign (r : Reading) (c : Char) : Prop := ∃ t, r.rest.head? = some t ∧ t.kind = .symbol ∧ t.chars = [c]

/-- A text that is a keyword as it is written. -/
def IsKeyword (s : String) : Prop := isPlain s.toList = true ∧ capitals s = s

instance (s : String) : Decidable (IsKeyword s) := inferInstanceAs (Decidable (_ ∧ _))

theorem AtKeyword.atWord {word : String} (h : r.AtKeyword word) : r.atWord s = (word == s) := by
  obtain ⟨t, ht, hkind, hword⟩ := h
  unfold Reading.atWord Token.isWord
  rw [ht, Option.any_some, hkind, hword, decide_eq_true rfl, Bool.true_and]

theorem AtKeyword.atSymbol {word : String} (h : r.AtKeyword word) : r.atSymbol s = false := by
  obtain ⟨t, ht, hkind, -⟩ := h
  unfold Reading.atSymbol Token.isSymbol
  rw [ht, Option.any_some, hkind]
  rfl

theorem AtKeyword.word (h : r.AtKeyword s) : r.word s = .ok r.skip := by
  unfold Reading.word
  rw [h.atWord, if_pos (beq_self_eq_true s)]

theorem AtKeyword.noType (h : r.AtKeyword s) (hs : reservedWords.contains s = true) :
    r.rest.head?.any isTypePart = false := by
  obtain ⟨t, ht, hkind, hword⟩ := h
  unfold isTypePart Token.name?
  rw [ht, Option.any_some, hkind, hword]
  dsimp only
  rw [if_pos hs]
  rfl

theorem AtSign.atWord (h : r.AtSign c) : r.atWord s = false := by
  obtain ⟨t, ht, hkind, -⟩ := h
  unfold Reading.atWord Token.isWord
  rw [ht, Option.any_some, hkind]
  rfl

theorem AtSign.atSymbol (h : r.AtSign c) : r.atSymbol s = (String.singleton c == s) := by
  obtain ⟨t, ht, hkind, hchars⟩ := h
  unfold Reading.atSymbol Token.isSymbol Token.toText
  rw [ht, Option.any_some, hkind, hchars, decide_eq_true rfl, Bool.true_and]
  rfl

theorem AtSign.symbol (h : r.AtSign c) : r.symbol (String.singleton c) = .ok r.skip := by
  unfold Reading.symbol
  rw [h.atSymbol, if_pos (beq_self_eq_true _)]

theorem AtSign.noType (h : r.AtSign c) : r.rest.head?.any isTypePart = false := by
  obtain ⟨t, ht, hkind, -⟩ := h
  unfold isTypePart Token.name?
  rw [ht, Option.any_some, hkind]
  rfl

theorem Before.word (h : r.Before (s.toList ++ ahead)) (hs : isPlain s.toList = true) (hahead : endsWord ahead = true) :
    r.AtKeyword (capitals s) ∧ r.skip.Before ahead := by
  obtain ⟨⟨n, hrest, -⟩, hskip⟩ := h.plain hs hahead
  refine ⟨⟨⟨.word, s.toList, n⟩, ?_, rfl, ?_⟩, hskip⟩
  · rw [hrest]
    rfl
  · unfold Token.toText
    rw [String.ofList_toList]

theorem Before.keyword (h : r.Before (s.toList ++ ahead)) (hs : IsKeyword s) (hahead : endsWord ahead = true) :
    r.AtKeyword s ∧ r.skip.Before ahead := by
  have hword := h.word hs.1 hahead
  rwa [hs.2] at hword

theorem Before.sign (h : r.Before (c :: ahead)) (hc : c ∈ listSymbols) : r.AtSign c ∧ r.skip.Before ahead := by
  have hone : r.Before ([c] ++ ahead) := h
  obtain ⟨⟨n, hrest, -⟩, hskip⟩ := hone.token (List.cons_ne_nil _ _) fun _ _ => tokensFrom_symbol hc
  refine ⟨⟨⟨.symbol, [c], n⟩, ?_, rfl, rfl⟩, hskip⟩
  rw [hrest]
  rfl

/-! ### Names and types -/

/-- A text that is a name as it is written. -/
def IsName (s : String) : Prop := isPlain s.toList = true ∧ reservedWords.contains (capitals s) = false

instance (s : String) : Decidable (IsName s) := inferInstanceAs (Decidable (_ ∧ _))

theorem IsName.name? {n : Nat} (hs : IsName s) : (Token.mk .word s.toList n).name? = some s := by
  unfold Token.name? Token.toText
  dsimp only
  rw [String.ofList_toList, hs.2]
  rfl

/-- A plain name is passed. -/
theorem Before.name (h : r.Before (s.toList ++ ahead)) (hs : IsName s) (hahead : endsWord ahead = true) :
    (∃ n, r.name = .ok (s, n, r.skip)) ∧ r.skip.Before ahead := by
  obtain ⟨⟨n, hrest, -⟩, hskip⟩ := h.plain hs.1 hahead
  refine ⟨⟨n, ?_⟩, hskip⟩
  unfold Reading.name
  rw [hrest]
  dsimp only
  rw [hs.name?]
  rfl

theorem length_of_name {n : Nat} (h : r.name = .ok (s, n, r.skip)) : r.skip.rest.length < r.rest.length := by
  cases hrest : r.rest with
  | nil =>
    unfold Reading.name refuse at h
    rw [hrest] at h
    cases h
  | cons t rest =>
    unfold skip
    rw [hrest]
    exact Nat.lt_succ_self _

/-- A type of one word is passed, and told as it is written. -/
theorem Before.type (h : r.Before (s.toList ++ ahead)) (hs : IsName s) (hahead : endsWord ahead = true)
    (hother : capitals s ≠ "GENERATED") (hnext : r.skip.rest.head?.any isTypePart = false)
    (hsize : r.skip.atSymbol "(" = false) : writtenType r = .ok (s, r.skip) := by
  obtain ⟨⟨n, hrest, htext⟩, -⟩ := h.plain hs.1 hahead
  have hpart : isTypePart ⟨.word, s.toList, n⟩ = true := by
    unfold isTypePart Token.isWord Token.toText
    dsimp only
    rw [hs.name?, String.ofList_toList, beq_eq_false_iff_ne.2 hother]
    rfl
  have hparts : r.rest.takeWhile isTypePart = [⟨.word, s.toList, n⟩] := by
    rw [hrest, List.takeWhile_cons_of_pos hpart, takeWhile_of_head hnext]
  have htaken : r.rest.take (r.rest.length - r.skip.rest.length) = [⟨.word, s.toList, n⟩] := by
    have hone : r.rest.length - r.skip.rest.length = 1 := by
      rw [hrest, List.length_cons]
      omega
    rw [hone, hrest, List.take_succ_cons, List.take_zero]
  have hoffset : r.offset = n := by
    unfold Reading.offset
    rw [hrest]
  have hsized : typeSize r.skip = .ok r.skip := by
    unfold typeSize
    rw [hsize, if_neg Bool.false_ne_true]
  unfold writtenType
  rw [hparts]
  change (do
    let sized ← typeSize r.skip
    let passed := r.rest.take (r.rest.length - sized.rest.length)
    let stop := (passed.getLast?.map Token.stop).getD r.offset
    return (between r.sql r.offset stop, sized)) = _
  rw [hsized]
  dsimp only [bind, Except.bind]
  rw [htaken, hoffset]
  change Except.ok (between r.sql n (n + byteLength s.toList), r.skip) = _
  rw [htext]

end Before

end Reading

end CatalogSync.Sql
