import CatalogSync.Proofs.Sql.Reading
import Mathlib.Data.List.Find
import Mathlib.Data.List.Induction

/-!
# Texts within a statement

A text that is read as certain tokens by itself is read as the same tokens within a statement, if a comma or a closing
parenthesis follows: no token and no comment of it goes on into what follows (`Spells.before`).
-/

namespace CatalogSync.Sql

open CatalogSync.Text

/-- What ends an item of a list. -/
def EndsItem (x : Char) : Prop := x = ',' ∨ x = ')'

section Lists

variable {x : Char} {cs ahead : List Char} {p : Char → Bool}

theorem EndsItem.fails (hx : EndsItem x) (hcomma : p ',' = false) (hclose : p ')' = false) : p x = false := by
  obtain rfl | rfl := hx
  · exact hcomma
  · exact hclose

theorem EndsItem.ne {d : Char} (hx : EndsItem x) (hcomma : ',' ≠ d) (hclose : ')' ≠ d) : x ≠ d := by
  obtain rfl | rfl := hx
  · exact hcomma
  · exact hclose

/-- What stops at the end of an item does not depend on what follows. -/
theorem takeWhile_item (hx : p x = false) : (cs ++ x :: ahead).takeWhile p = cs.takeWhile p := by
  induction cs with
  | nil => exact List.takeWhile_cons_of_neg (Bool.eq_false_iff.1 hx)
  | cons c cs ih =>
    rw [List.cons_append, List.takeWhile_cons, List.takeWhile_cons, ih]

/-- What stops within a text does not depend on what follows. -/
theorem takeWhile_within (h : ((cs ++ [x]).takeWhile p).length ≤ cs.length) (hx : p x = true) (ahead : List Char) :
    (cs ++ ahead).takeWhile p = (cs ++ [x]).takeWhile p := by
  induction cs with
  | nil =>
    rw [List.nil_append, List.takeWhile_cons_of_pos hx] at h
    exact absurd h (Nat.not_succ_le_zero _)
  | cons c cs ih =>
    rw [List.cons_append, List.cons_append, List.takeWhile_cons, List.takeWhile_cons]
    rw [List.cons_append, List.takeWhile_cons] at h
    split at h
    · next hc => rw [if_pos hc, if_pos hc, ih (Nat.le_of_succ_le_succ h)]
    · next hc => rw [if_neg hc, if_neg hc]

theorem drop_item {n : Nat} {tail : List Char} (h : n ≤ cs.length) : (cs ++ tail).drop n = cs.drop n ++ tail :=
  List.drop_append_of_le_length h

theorem head?_item (hx : p x = false) : (cs ++ x :: ahead).head?.any p = cs.head?.any p := by
  cases cs with
  | nil => exact hx
  | cons c cs => rfl

end Lists

/-! ## Numbers -/

def digitCount (cs : List Char) : Nat := (cs.takeWhile Decimal.isDigit).length

/-- The length of a number of hexadecimal digits, its mark left out. -/
def hexCount : List Char → Nat
  | '0' :: x :: r => if x = 'x' ∨ x = 'X' then (r.takeWhile isHex).length else 0
  | _ => 0

def fractionLength : List Char → Nat
  | '.' :: r => 1 + digitCount r
  | _ => 0

/-- The length of a number with the exponent that may follow it. -/
def withExponent (n : Nat) : List Char → Nat
  | e :: r =>
    if e = 'e' ∨ e = 'E' then
      match r with
      | s :: t =>
        if (s = '+' ∨ s = '-') ∧ 0 < digitCount t then n + 2 + digitCount t
        else if 0 < digitCount r then n + 1 + digitCount r
        else n
      | [] => n
    else n
  | [] => n

theorem numberLength_eq (cs : List Char) : numberLength cs =
    if 0 < hexCount cs then hexCount cs + 2
    else withExponent (digitCount cs + fractionLength (cs.drop (digitCount cs)))
      (cs.drop (digitCount cs + fractionLength (cs.drop (digitCount cs)))) := by
  rfl

section Numbers

variable {x : Char} {cs ahead : List Char} {n : Nat}

theorem digitCount_le (cs : List Char) : digitCount cs ≤ cs.length := (List.takeWhile_prefix _).length_le

theorem fractionLength_le (cs : List Char) : fractionLength cs ≤ cs.length := by
  unfold fractionLength
  split
  · next r =>
    have hr := digitCount_le r
    rw [List.length_cons]
    omega
  · exact Nat.zero_le _

theorem withExponent_le (n : Nat) (cs : List Char) : withExponent n cs ≤ n + cs.length := by
  unfold withExponent
  split
  · next e r =>
    split
    · split
      · next s t =>
        have ht := digitCount_le t
        have hr := digitCount_le (s :: t)
        rw [List.length_cons, List.length_cons]
        rw [List.length_cons] at hr
        split
        · omega
        · split <;> omega
      · omega
    · omega
  · omega

theorem hexCount_le (cs : List Char) : 0 < hexCount cs → hexCount cs + 2 ≤ cs.length := by
  unfold hexCount
  split
  · next x r =>
    have hr : (r.takeWhile isHex).length ≤ r.length := (List.takeWhile_prefix _).length_le
    rw [List.length_cons, List.length_cons]
    split <;> omega
  · exact fun h => absurd h (Nat.lt_irrefl 0)

theorem numberLength_le (cs : List Char) : numberLength cs ≤ cs.length := by
  have hdigits := digitCount_le cs
  have hfraction := fractionLength_le (cs.drop (digitCount cs))
  rw [List.length_drop] at hfraction
  rw [numberLength_eq]
  split
  · next hhex => exact hexCount_le cs hhex
  · refine Nat.le_trans (withExponent_le _ _) ?_
    rw [List.length_drop]
    omega

section Item

variable (hx : EndsItem x)

include hx

theorem digitCount_item : digitCount (cs ++ x :: ahead) = digitCount cs := by
  unfold digitCount
  rw [takeWhile_item (hx.fails (by decide) (by decide))]

theorem digitCount_end : digitCount (x :: ahead) = 0 := by
  have hitem : digitCount ([] ++ x :: ahead) = digitCount [] := digitCount_item hx
  exact hitem

theorem hexCount_item : hexCount (cs ++ x :: ahead) = hexCount cs := by
  match cs with
  | [] =>
    have hzero : x ≠ '0' := hx.ne (by decide) (by decide)
    unfold hexCount
    split
    · next h => exact absurd (List.cons.inj h).1 hzero
    · rfl
  | [c] =>
    have hmark : ¬ (x = 'x' ∨ x = 'X') := not_or.2 ⟨hx.ne (by decide) (by decide), hx.ne (by decide) (by decide)⟩
    have hone : hexCount [c] = 0 := by
      unfold hexCount
      split
      · next h => cases h
      · rfl
    rw [List.singleton_append, hone]
    unfold hexCount
    split
    · next h =>
      cases h
      exact if_neg hmark
    · rfl
  | c :: d :: r =>
    have hhex : isHex x = false := hx.fails (by decide) (by decide)
    rw [List.cons_append, List.cons_append]
    by_cases hc : c = '0'
    · subst hc
      change (if d = 'x' ∨ d = 'X' then ((r ++ x :: ahead).takeWhile isHex).length else 0) = _
      rw [takeWhile_item hhex]
      rfl
    · unfold hexCount
      split
      · next h => exact absurd (List.cons.inj h).1 hc
      · split
        · next h => exact absurd (List.cons.inj h).1 hc
        · rfl

theorem fractionLength_item : fractionLength (cs ++ x :: ahead) = fractionLength cs := by
  match cs with
  | [] =>
    have hpoint : x ≠ '.' := hx.ne (by decide) (by decide)
    unfold fractionLength
    split
    · next h => exact absurd (List.cons.inj h).1 hpoint
    · rfl
  | c :: r =>
    rw [List.cons_append]
    by_cases hc : c = '.'
    · subst hc
      change 1 + digitCount (r ++ x :: ahead) = 1 + digitCount r
      rw [digitCount_item hx]
    · unfold fractionLength
      split
      · next h => exact absurd (List.cons.inj h).1 hc
      · split
        · next h => exact absurd (List.cons.inj h).1 hc
        · rfl

theorem withExponent_item : withExponent n (cs ++ x :: ahead) = withExponent n cs := by
  match cs with
  | [] =>
    have hmark : ¬ (x = 'e' ∨ x = 'E') := not_or.2 ⟨hx.ne (by decide) (by decide), hx.ne (by decide) (by decide)⟩
    exact if_neg hmark
  | [e] =>
    have hsign : ¬ (x = '+' ∨ x = '-') := not_or.2 ⟨hx.ne (by decide) (by decide), hx.ne (by decide) (by decide)⟩
    have hnone : ¬ ((x = '+' ∨ x = '-') ∧ 0 < digitCount ahead) := fun h => hsign h.1
    rw [List.singleton_append]
    unfold withExponent
    dsimp only
    rw [digitCount_end hx, if_neg (Nat.lt_irrefl 0), if_neg hnone]
  | e :: s :: t =>
    rw [List.cons_append, List.cons_append]
    unfold withExponent
    dsimp only
    rw [← List.cons_append, digitCount_item hx, digitCount_item hx]

theorem numberLength_item : numberLength (cs ++ x :: ahead) = numberLength cs := by
  have hdigits := digitCount_le cs
  have hfraction := fractionLength_le (cs.drop (digitCount cs))
  rw [List.length_drop] at hfraction
  rw [numberLength_eq, numberLength_eq, hexCount_item hx, digitCount_item hx, drop_item hdigits, fractionLength_item hx,
    drop_item (by omega), withExponent_item hx]

end Item

end Numbers

/-! ## Gaps -/

section Gaps

variable {x : Char} {cs ahead : List Char} {n : Nat}

/-- A comment that ends within a text ends there whatever follows. -/
theorem commentLength_within (h : commentLength n (cs ++ [')']) ≤ n + cs.length) (ahead : List Char) :
    commentLength n (cs ++ ahead) = commentLength n (cs ++ [')']) := by
  have hnext : ∀ (n : Nat) (c d : Char) tail, ¬ (c = '*' ∧ d = '/') →
      commentLength n (c :: d :: tail) = commentLength (n + 1) (d :: tail) := by
    intro n c d tail hopen
    conv => lhs; unfold commentLength
    split
    · next heq =>
      cases heq
      exact absurd ⟨rfl, rfl⟩ hopen
    · next heq =>
      cases heq
      rfl
    · next heq => cases heq
  induction cs generalizing n with
  | nil => exact absurd h (Nat.not_succ_le_self n)
  | cons c cs ih =>
    cases cs with
    | nil =>
      change commentLength n (c :: ')' :: []) ≤ n + 1 at h
      rw [hnext n c ')' [] fun heq => absurd heq.2 (by decide)] at h
      exact absurd h (Nat.not_succ_le_self (n + 1))
    | cons d r =>
      change commentLength n (c :: d :: (r ++ [')'])) ≤ _ at h
      change commentLength n (c :: d :: (r ++ ahead)) = commentLength n (c :: d :: (r ++ [')']))
      by_cases hend : c = '*' ∧ d = '/'
      · obtain ⟨rfl, rfl⟩ := hend
        rfl
      · rw [hnext n c d _ hend] at h
        rw [hnext n c d _ hend, hnext n c d _ hend]
        rw [List.length_cons, Nat.add_comm (d :: r).length, ← Nat.add_assoc] at h
        exact ih h

/-- The gap in front is the same whatever follows the text, if it ends within the text. -/
theorem gapLength_item (hx : EndsItem x) (hcs : cs ≠ []) (h : gapLength (cs ++ [')']) ≤ cs.length) :
    gapLength (cs ++ x :: ahead) = gapLength (cs ++ [')']) := by
  have hblank : ∀ y, EndsItem y → isBlank y = false := fun y hy => hy.fails (by decide) (by decide)
  match cs with
  | [] => exact absurd rfl hcs
  | [c] =>
    have hplain : ∀ y tail, EndsItem y → gapLength (c :: y :: tail) = ([c].takeWhile isBlank).length := by
      intro y tail hy
      have hdash : y ≠ '-' := hy.ne (by decide) (by decide)
      have hstar : y ≠ '*' := hy.ne (by decide) (by decide)
      unfold gapLength
      split
      · next h => exact absurd (List.cons.inj (List.cons.inj h).2).1 hdash
      · next h => exact absurd (List.cons.inj (List.cons.inj h).2).1 hstar
      · have hitem : ([c] ++ y :: tail).takeWhile isBlank = [c].takeWhile isBlank := takeWhile_item (hblank y hy)
        exact congrArg List.length hitem
    rw [List.singleton_append, List.singleton_append, hplain x ahead hx, hplain ')' [] (.inr rfl)]
  | c :: d :: r =>
    rw [List.cons_append, List.cons_append, List.cons_append, List.cons_append] at *
    by_cases hline : c = '-' ∧ d = '-'
    · obtain ⟨rfl, rfl⟩ := hline
      change 2 + ((r ++ [')']).takeWhile (· ≠ '\n')).length ≤ _ at h
      change 2 + ((r ++ x :: ahead).takeWhile (· ≠ '\n')).length = 2 + ((r ++ [')']).takeWhile (· ≠ '\n')).length
      rw [List.length_cons, List.length_cons] at h
      have hwithin : ((r ++ [')']).takeWhile (· ≠ '\n')).length ≤ r.length := by omega
      rw [takeWhile_within hwithin (by decide)]
    · by_cases hstar : c = '/' ∧ d = '*'
      · obtain ⟨rfl, rfl⟩ := hstar
        match r with
        | [] => exact absurd h (by decide)
        | e :: r =>
          change 2 + commentLength 0 (e :: r ++ [')']) ≤ _ at h
          change 2 + commentLength 0 (e :: r ++ x :: ahead) = 2 + commentLength 0 (e :: r ++ [')'])
          rw [List.length_cons, List.length_cons] at h
          rw [commentLength_within (by omega)]
      · have hplain : ∀ tail, gapLength (c :: d :: tail) = ((c :: d :: tail).takeWhile isBlank).length := by
          intro tail
          unfold gapLength
          split
          · next h =>
            cases h
            exact absurd ⟨rfl, rfl⟩ hline
          · next h =>
            cases h
            exact absurd ⟨rfl, rfl⟩ hstar
          · rfl
        rw [hplain, hplain, ← List.cons_append, ← List.cons_append, takeWhile_item (hblank x hx), ← List.cons_append,
          ← List.cons_append, takeWhile_item (hblank ')' (.inr rfl))]

end Gaps

/-! ## Tokens -/

section Tokens

variable {x : Char} {cs ahead : List Char} {n m : Nat}

/-- A quote that is closed within a text is closed there whatever follows. -/
theorem quotedLength?_item {quote : Char} (hx : EndsItem x) (hquote : ¬ EndsItem quote)
    (h : quotedLength? quote n (cs ++ [')']) = some m) : quotedLength? quote n (cs ++ x :: ahead) = some m := by
  have hne : ∀ y, EndsItem y → y ≠ quote := fun y hy heq => hquote (heq ▸ hy)
  induction cs using List.twoStepInduction generalizing n with
  | nil =>
    have hopen : quotedLength? quote n [')'] = none := if_neg (hne ')' (.inr rfl))
    rw [List.nil_append, hopen] at h
    cases h
  | singleton c =>
    rw [List.singleton_append, quotedLength?, if_neg (hne ')' (.inr rfl))] at h
    rw [List.singleton_append, quotedLength?, if_neg (hne x hx)]
    split at h
    · next hc => rw [if_pos hc, ← h]
    · have hopen : quotedLength? quote (n + 1) [')'] = none := if_neg (hne ')' (.inr rfl))
      rw [hopen] at h
      cases h
  | cons_cons c d r ih ih' =>
    rw [List.cons_append, List.cons_append, quotedLength?] at h
    rw [List.cons_append, List.cons_append, quotedLength?]
    split at h
    · next hc =>
      rw [if_pos hc]
      split at h
      · next hd => rw [if_pos hd, ih h]
      · next hd => rw [if_neg hd, ← h]
    · next hc =>
      rw [if_neg hc]
      exact ih' d h

theorem getElem?_item {c : Char} {i : Nat} (hx : x ≠ c) (hi : i ≤ cs.length) :
    (cs ++ x :: ahead)[i]? = some c ↔ cs[i]? = some c := by
  rcases Nat.lt_or_eq_of_le hi with hlt | rfl
  · rw [List.getElem?_append_left hlt]
  · rw [List.getElem?_append_right (Nat.le_refl _), Nat.sub_self, List.getElem?_eq_none (Nat.le_refl _)]
    exact ⟨fun h => absurd (Option.some.inj h) hx, nofun⟩

theorem isPrefixOf_item {l : List Char} (hl : x ∉ l) : l.isPrefixOf (cs ++ x :: ahead) = l.isPrefixOf cs := by
  induction l generalizing cs with
  | nil => rw [List.isPrefixOf_nil_left, List.isPrefixOf_nil_left]
  | cons a l ih =>
    rw [List.mem_cons, not_or] at hl
    cases cs with
    | nil =>
      change ((a == x) && l.isPrefixOf ahead) = false
      rw [beq_eq_false_iff_ne.2 (Ne.symm hl.1), Bool.false_and]
    | cons c cs =>
      change ((a == c) && l.isPrefixOf (cs ++ x :: ahead)) = ((a == c) && l.isPrefixOf cs)
      rw [ih hl.2]

theorem find?_longSymbols_item (hx : EndsItem x) :
    longSymbols.find? (fun s => s.toList.isPrefixOf (cs ++ x :: ahead)) =
      longSymbols.find? (fun s => s.toList.isPrefixOf cs) := by
  have hfree : ∀ s ∈ longSymbols, ',' ∉ s.toList ∧ ')' ∉ s.toList := by decide
  refine List.find?_congr fun s hs => isPrefixOf_item ?_
  obtain ⟨hcomma, hclose⟩ := hfree s hs
  obtain rfl | rfl := hx
  · exact hcomma
  · exact hclose

theorem scanVariable_item (hx : EndsItem x) (mark : Char) :
    scanVariable mark (cs ++ x :: ahead) = scanVariable mark cs := by
  unfold scanVariable
  rw [takeWhile_item (hx.fails (by decide) (by decide)), head?_item (hx.fails (by decide) (by decide))]

theorem head?_quote_item (hx : EndsItem x) :
    decide ((cs ++ x :: ahead).head? = some '\'') = decide (cs.head? = some '\'') := by
  cases cs with
  | nil =>
    have hquote : x ≠ '\'' := hx.ne (by decide) (by decide)
    rw [List.nil_append, List.head?_cons, decide_eq_false fun h => hquote (Option.some.inj h)]
    rfl
  | cons c cs => rfl

/-- The first token of a text is the same whatever follows the text, if it ends within the text. -/
theorem scan_item {c : Char} (hx : EndsItem x) (hlegal : (scan (c :: cs ++ [')'])).1 ≠ .illegal) :
    scan (c :: cs ++ x :: ahead) = scan (c :: cs ++ [')']) := by
  have hclose : EndsItem ')' := .inr rfl
  have hname : ∀ y, EndsItem y → isNameChar y = false := fun y hy => hy.fails (by decide) (by decide)
  have hdigit : ∀ y, EndsItem y → Decimal.isDigit y = false := fun y hy => hy.fails (by decide) (by decide)
  have hhex : ∀ y, EndsItem y → isHex y = false := fun y hy => hy.fails (by decide) (by decide)
  rw [List.cons_append] at hlegal ⊢
  rw [List.cons_append]
  unfold scan at hlegal ⊢
  dsimp only at hlegal ⊢
  by_cases htext : c = '\''
  · simp only [if_pos htext] at hlegal ⊢
    cases hquoted : quotedLength? c 1 (cs ++ [')']) with
    | none =>
      rw [hquoted] at hlegal
      exact absurd rfl hlegal
    | some m => rw [quotedLength?_item hx (by rw [htext]; unfold EndsItem; decide) hquoted]
  simp only [if_neg htext] at hlegal ⊢
  by_cases hquote : (decide (c = '"') || decide (c = '\x60')) = true
  · simp only [if_pos hquote] at hlegal ⊢
    cases hquoted : quotedLength? c 1 (cs ++ [')']) with
    | none =>
      rw [hquoted] at hlegal
      exact absurd rfl hlegal
    | some m =>
      have hother : ¬ EndsItem c := by
        rw [Bool.or_eq_true, decide_eq_true_eq, decide_eq_true_eq] at hquote
        unfold EndsItem
        obtain rfl | rfl := hquote <;> decide
      rw [quotedLength?_item hx hother hquoted]
  simp only [if_neg hquote] at hlegal ⊢
  by_cases hbracket : c = '['
  · simp only [if_pos hbracket] at hlegal ⊢
    split at hlegal
    · next hinside =>
      have hwithin : ((cs ++ [')']).takeWhile (· ≠ ']')).length ≤ cs.length := by
        rw [List.length_append] at hinside
        exact Nat.le_of_lt_succ hinside
      have hlonger : ((cs ++ [')']).takeWhile (· ≠ ']')).length < (cs ++ x :: ahead).length := by
        rw [List.length_append, List.length_cons]
        omega
      rw [takeWhile_within hwithin (by decide), if_pos hinside, if_pos hlonger]
    · exact absurd rfl hlegal
  simp only [if_neg hbracket] at hlegal ⊢
  rw [head?_quote_item hx, head?_quote_item hclose]
  by_cases hblob : ((decide (c = 'x') || decide (c = 'X')) && decide (cs.head? = some '\'')) = true
  · rw [if_pos hblob, if_pos hblob]
    rw [Bool.and_eq_true, decide_eq_true_eq] at hblob
    obtain ⟨r, rfl⟩ := List.head?_eq_some_iff.1 hblob.2
    have hdrop : ∀ tail : List Char, ('\'' :: r ++ tail).drop 1 = r ++ tail := fun _ => rfl
    have hdigits : (r.takeWhile isHex).length + 1 ≤ ('\'' :: r).length :=
      Nat.succ_le_succ (List.takeWhile_prefix _).length_le
    have hend : ∀ y tail, EndsItem y → (('\'' :: r ++ y :: tail)[(r.takeWhile isHex).length + 1]? = some '\'' ↔
        ('\'' :: r)[(r.takeWhile isHex).length + 1]? = some '\'') := fun y tail hy =>
      getElem?_item (hy.ne (by decide) (by decide)) hdigits
    simp only [hdrop, takeWhile_item (hhex x hx), takeWhile_item (hhex ')' hclose), hend x ahead hx,
      hend ')' [] hclose]
  rw [if_neg hblob, if_neg hblob]
  by_cases hstart : isNameStart c = true
  · rw [if_pos hstart, if_pos hstart, ← List.cons_append, ← List.cons_append, takeWhile_item (hname x hx),
      takeWhile_item (hname ')' hclose)]
  rw [if_neg hstart, if_neg hstart, head?_item (hdigit x hx), head?_item (hdigit ')' hclose), ← List.cons_append,
    ← List.cons_append]
  split
  · have hlength := numberLength_le (c :: cs)
    rw [numberLength_item hx, numberLength_item hclose, drop_item hlength, drop_item hlength,
      takeWhile_item (hname x hx), takeWhile_item (hname ')' hclose)]
  · rw [takeWhile_item (hdigit x hx), takeWhile_item (hdigit ')' hclose), scanVariable_item hx, scanVariable_item hclose,
      find?_longSymbols_item hx, find?_longSymbols_item hclose]

end Tokens

/-! ## Texts -/

def Token.shift (n : Nat) (t : Token) : Token := { t with offset := n + t.offset }

/-- A text is read as certain tokens: these are in front of a closing parenthesis after it. -/
structure Spells (s : String) (ts : List Token) : Prop where
  tokens : tokens (s ++ ")") = ts ++ [⟨.symbol, [')'], byteLength s.toList⟩]
  legal : ∀ t ∈ ts, t.kind ≠ .illegal

instance (s : String) (ts : List Token) : Decidable (Spells s ts) :=
  decidable_of_iff (_ ∧ _) ⟨fun h => ⟨h.1, h.2⟩, fun h => ⟨h.tokens, h.legal⟩⟩

section Texts

variable {x : Char} {cs ahead : List Char} {ts : List Token}

theorem tokensFrom_shift (m : Nat) {fuel n : Nat} {cs : List Char} :
    tokensFrom fuel (m + n) cs = (tokensFrom fuel n cs).map (Token.shift m) := by
  induction fuel generalizing n cs with
  | zero => rfl
  | succ fuel ih =>
    rw [tokensFrom, tokensFrom]
    dsimp only
    split
    · rfl
    · split
      · rw [Nat.add_assoc, ih]
      · rw [Nat.add_assoc, ih]
        rfl

theorem tokensFrom_nil (fuel n : Nat) : tokensFrom fuel n [] = [] := by
  cases fuel <;> rfl

/-- A gap, if there is one in front, is passed. -/
theorem tokensFrom_gap {fuel n : Nat} (hcs : cs ≠ []) (hgap : 0 < gapLength cs) :
    tokensFrom (fuel + 1) n cs = tokensFrom fuel (n + byteLength (cs.take (gapLength cs))) (cs.drop (gapLength cs)) := by
  rw [tokensFrom, List.isEmpty_eq_false_iff.2 hcs, if_neg Bool.false_ne_true]
  exact if_pos hgap

theorem tokensFrom_scan {fuel n : Nat} (hcs : cs ≠ []) (hgap : gapLength cs = 0) :
    tokensFrom (fuel + 1) n cs = ⟨(scan cs).1, cs.take (max (scan cs).2 1), n⟩ ::
      tokensFrom fuel (n + byteLength (cs.take (max (scan cs).2 1))) (cs.drop (max (scan cs).2 1)) := by
  rw [tokensFrom, List.isEmpty_eq_false_iff.2 hcs, if_neg Bool.false_ne_true, hgap]
  exact if_neg (Nat.lt_irrefl 0)

/-- A text is read as the same tokens whatever follows the item that it ends. The induction is on the steps: a gap or a
token in front of the closing parenthesis lies within the text, so that it is there as well. -/
theorem tokensFrom_item (hx : EndsItem x) {fuel k m n : Nat}
    (h : tokensFrom fuel n (cs ++ [')']) = ts ++ [⟨.symbol, [')'], n + byteLength cs⟩])
    (hlegal : ∀ t ∈ ts, t.kind ≠ .illegal) (hk : (cs ++ x :: ahead).length < k) (hm : (x :: ahead).length < m) :
    tokensFrom k n (cs ++ x :: ahead) = ts ++ tokensFrom m (n + byteLength cs) (x :: ahead) := by
  have hclose : ∀ fuel n, tokensFrom (fuel + 1) n [')'] = [⟨.symbol, [')'], n⟩] := fun fuel n => by
    rw [tokensFrom_symbol (by decide), tokensFrom_nil]
  induction fuel generalizing cs ts k n with
  | zero => exact absurd h (by simp [tokensFrom])
  | succ fuel ih =>
    obtain ⟨k, rfl⟩ : ∃ l, k = l + 1 := ⟨k - 1, by omega⟩
    cases cs with
    | nil =>
      rw [List.nil_append, hclose] at h
      obtain rfl : ts = [] := by simpa using (congrArg List.length h).symm
      exact tokensFrom_congr hk hm
    | cons c cs =>
      have hend : c :: cs ++ [')'] ≠ [] := List.cons_ne_nil _ _
      have hitem : c :: cs ++ x :: ahead ≠ [] := List.cons_ne_nil _ _
      -- Of a front part of the text, in bytes and in characters.
      have hsplit : ∀ l, n + byteLength (c :: cs) =
          n + byteLength ((c :: cs).take l) + byteLength ((c :: cs).drop l) := fun l => by
        rw [Nat.add_assoc, ← byteLength_append, List.take_append_drop]
      have hshort : ∀ l, 0 < l → ((c :: cs).drop l ++ x :: ahead).length < k := fun l hl => by
        rw [List.length_append] at hk ⊢
        rw [List.length_drop, List.length_cons]
        rw [List.length_cons] at hk
        omega
      by_cases hgap : 0 < gapLength (c :: cs ++ [')'])
      · rw [tokensFrom_gap hend hgap] at h
        by_cases hlength : gapLength (c :: cs ++ [')']) ≤ (c :: cs).length
        · have hsame : gapLength (c :: cs ++ x :: ahead) = gapLength (c :: cs ++ [')']) :=
            gapLength_item hx (List.cons_ne_nil _ _) hlength
          rw [List.take_append_of_le_length hlength, drop_item hlength, hsplit (gapLength (c :: cs ++ [')']))] at h
          rw [tokensFrom_gap hitem (hsame ▸ hgap), hsame, List.take_append_of_le_length hlength, drop_item hlength,
            hsplit (gapLength (c :: cs ++ [')']))]
          exact ih h hlegal (hshort _ hgap)
        · rw [List.drop_eq_nil_of_le (by rw [List.length_append]; exact Nat.not_le.1 hlength), tokensFrom_nil] at h
          exact absurd h.symm (List.append_ne_nil_of_right_ne_nil _ (List.cons_ne_nil _ _))
      · rw [Nat.pos_iff_ne_zero, not_not] at hgap
        rw [tokensFrom_scan hend hgap] at h
        by_cases hlength : max (scan (c :: cs ++ [')'])).2 1 ≤ (c :: cs).length
        · cases ts with
          | nil =>
            have hoffset : n = n + byteLength (c :: cs) := congrArg Token.offset (List.cons.inj h).1
            have hpos := c.utf8Size_pos
            rw [byteLength_cons] at hoffset
            omega
          | cons t ts =>
            rw [List.forall_mem_cons] at hlegal
            obtain ⟨rfl, hrest⟩ := List.cons.inj h
            have hsame : scan (c :: cs ++ x :: ahead) = scan (c :: cs ++ [')']) := scan_item hx hlegal.1
            have hnogap : gapLength (c :: cs ++ x :: ahead) = 0 :=
              (gapLength_item hx (List.cons_ne_nil _ _) (hgap ▸ Nat.zero_le _)).trans hgap
            rw [List.take_append_of_le_length hlength, drop_item hlength,
              hsplit (max (scan (c :: cs ++ [')'])).2 1)] at hrest
            rw [tokensFrom_scan hitem hnogap, hsame, List.take_append_of_le_length hlength,
              List.take_append_of_le_length hlength, drop_item hlength, hsplit (max (scan (c :: cs ++ [')'])).2 1),
              ih hrest hlegal.2 (hshort _ (by omega))]
            rfl
        · have hover : (c :: cs ++ [')']).length ≤ max (scan (c :: cs ++ [')'])).2 1 := by
            rw [List.length_append]
            exact Nat.not_le.1 hlength
          rw [List.drop_eq_nil_of_le hover, List.take_of_length_le hover, tokensFrom_nil] at h
          obtain rfl : ts = [] := by simpa using (congrArg List.length h).symm
          have hchars : c :: (cs ++ [')']) = [')'] := congrArg Token.chars (List.cons.inj h).1
          simpa using congrArg List.length hchars

/-- **Texts within a statement.** Before a text and the end of its item, the tokens of the text are ahead, and then those
of what follows. The text begins where as much of the statement is left as the text and what follows take. -/
theorem Spells.before {s : String} {r : Reading} (hs : Spells s ts) (hx : EndsItem x)
    (h : r.Before (s.toList ++ x :: ahead)) :
    ∃ (n : Nat) (r' : Reading), r'.sql = r.sql ∧ r.rest = ts.map (Token.shift n) ++ r'.rest ∧ r'.Before (x :: ahead) ∧
      n + byteLength (s.toList ++ x :: ahead) = byteLength r.sql.toList ∧ r'.offset = n + byteLength s.toList ∧
      between r.sql n (n + byteLength s.toList) = s := by
  obtain ⟨passed, htext, hrest⟩ := h
  have hclose : ")".toList = [')'] := by decide
  have htokens := hs.tokens
  unfold Sql.tokens at htokens
  rw [String.toList_append, hclose, ← Nat.zero_add (byteLength s.toList)] at htokens
  have hitem : ∀ m, (x :: ahead).length < m →
      r.rest = ts.map (Token.shift (byteLength passed)) ++ tokensFrom m (byteLength (passed ++ s.toList)) (x :: ahead) := by
    intro m hm
    have hspelled := tokensFrom_item hx htokens hs.legal (Nat.lt_succ_self (s.toList ++ x :: ahead).length) hm
    rw [hrest _ (Nat.lt_succ_self _), ← Nat.add_zero (byteLength passed), tokensFrom_shift, hspelled, List.map_append,
      ← tokensFrom_shift, Nat.zero_add, byteLength_append, Nat.add_zero]
  have hsign : x ∈ listSymbols := by obtain rfl | rfl := hx <;> decide
  refine ⟨byteLength passed, ⟨r.sql, tokensFrom ((x :: ahead).length + 1) (byteLength (passed ++ s.toList)) (x :: ahead)⟩,
    rfl, hitem _ (Nat.lt_succ_self _), ⟨passed ++ s.toList, ?_, fun m hm => ?_⟩, ?_, ?_, ?_⟩
  · rw [List.append_assoc]
    exact htext
  · exact tokensFrom_congr (Nat.lt_succ_self _) hm
  · rw [htext, byteLength_append passed]
  · unfold Reading.offset
    rw [tokensFrom_symbol hsign, byteLength_append]
  · rw [between_eq htext, String.ofList_toList]

/-- A symbol that is ahead stands where as much of the statement is left as it and what follows take. -/
theorem Reading.Before.signAt {r : Reading} {c : Char} (h : r.Before (c :: ahead)) (hc : c ∈ listSymbols) :
    ∃ n, r.rest = ⟨.symbol, [c], n⟩ :: r.skip.rest ∧ n + byteLength (c :: ahead) = byteLength r.sql.toList := by
  obtain ⟨passed, htext, hrest⟩ := h
  have hnext := hrest ((c :: ahead).length + 1) (Nat.lt_succ_self _)
  rw [tokensFrom_symbol hc] at hnext
  refine ⟨byteLength passed, ?_, ?_⟩
  · unfold Reading.skip
    rw [hnext]
    rfl
  · rw [htext, byteLength_append]

end Texts

end CatalogSync.Sql
