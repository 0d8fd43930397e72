import CatalogSync.Proofs.Sql.Reading
import CatalogSync.Proofs.Store.Outcomes
import CatalogSync.Sql.Expression
import Mathlib.Data.List.TakeWhile

/-!
# Passing expressions

An expression that is passed has as many parentheses closed as opened, and never one closed too many: what is ahead of it
and what is ahead after it are at the same depth (`expression_passes`). So the parenthesis that closes an expression is
the one that belongs to the parenthesis in front of it.
-/

namespace CatalogSync.Sql

/-- From a reading to one further on, where so many parentheses are open before and after: what closes them is found
from either. -/
structure Passes (before after : Nat) (r r' : Reading) : Prop where
  sql : r'.sql = r.sql
  suffix : r'.rest <:+ r.rest
  query : ∀ depth, pastQuery (depth + before) r.rest = pastQuery (depth + after) r'.rest

/-- A token that is no parenthesis. -/
def Token.IsFlat (t : Token) : Prop := t.isSymbol "(" = false ∧ t.isSymbol ")" = false

section Steps

variable {n m k : Nat} {r r' r'' : Reading} {t : Token} {rest : List Token}

theorem Passes.refl (n : Nat) (r : Reading) : Passes n n r r :=
  ⟨rfl, List.suffix_refl _, fun _ => rfl⟩

theorem Passes.trans (h : Passes n m r r') (h' : Passes m k r' r'') : Passes n k r r'' :=
  ⟨h'.sql.trans h.sql, h'.suffix.trans h.suffix, fun depth => (h.query depth).trans (h'.query depth)⟩

/-- What is passed is passed within more parentheses. -/
theorem Passes.within (h : Passes n m r r') (k : Nat) : Passes (k + n) (k + m) r r' := by
  refine ⟨h.sql, h.suffix, fun depth => ?_⟩
  rw [← Nat.add_assoc, ← Nat.add_assoc]
  exact h.query (depth + k)

theorem pastQuery_flat (ht : t.IsFlat) : pastQuery n (t :: rest) = pastQuery n rest := by
  rw [pastQuery, if_neg (Bool.eq_false_iff.1 ht.1), if_neg (Bool.eq_false_iff.1 ht.2)]

theorem isSymbol_of_kind (h : t.kind ≠ .symbol) (s : String) : t.isSymbol s = false := by
  unfold Token.isSymbol
  rw [decide_eq_false h, Bool.false_and]

theorem isFlat_of_kind (h : t.kind ≠ .symbol) : t.IsFlat := ⟨isSymbol_of_kind h "(", isSymbol_of_kind h ")"⟩

theorem kind_of_isWord {word : String} (h : t.isWord word = true) : t.kind ≠ .symbol := by
  intro hsymbol
  unfold Token.isWord at h
  rw [hsymbol] at h
  cases h

theorem isFlat_of_isWord {word : String} (h : t.isWord word = true) : t.IsFlat := isFlat_of_kind (kind_of_isWord h)

/-- A token is one symbol only. -/
theorem isSymbol_of_isSymbol {s s' : String} (h : t.isSymbol s = true) (hs : s ≠ s') : t.isSymbol s' = false := by
  rw [Bool.eq_false_iff]
  intro h'
  exact hs (String.toList_inj.1 ((Token.isSymbol_iff.1 h).2.symm.trans (Token.isSymbol_iff.1 h').2))

theorem not_open_of_close (h : t.isSymbol ")" = true) : t.isSymbol "(" ≠ true :=
  Bool.eq_false_iff.1 (isSymbol_of_isSymbol h (by decide))

theorem isFlat_of_isSymbol {s : String} (h : t.isSymbol s = true) (hs : s ≠ "(" ∧ s ≠ ")") : t.IsFlat :=
  ⟨isSymbol_of_isSymbol h hs.1, isSymbol_of_isSymbol h hs.2⟩

/-- A token that is no parenthesis is passed. -/
theorem passes_skip (h : ∀ t ∈ r.rest.head?, t.IsFlat) : Passes 0 0 r r.skip := by
  refine ⟨rfl, List.drop_suffix 1 r.rest, fun depth => ?_⟩
  unfold Reading.skip
  cases hrest : r.rest with
  | nil => rfl
  | cons t rest =>
    rw [hrest] at h
    exact pastQuery_flat (h t rfl)

theorem passes_open (h : r.atSymbol "(" = true) : Passes 0 1 r r.skip := by
  obtain ⟨t, rest, hrest, hopen⟩ := Reading.head_of_atSymbol h
  refine ⟨rfl, List.drop_suffix 1 r.rest, fun depth => ?_⟩
  unfold Reading.skip
  rw [hrest, pastQuery, if_pos hopen]
  rfl

theorem passes_close (h : r.atSymbol ")" = true) : Passes 1 0 r r.skip := by
  obtain ⟨t, rest, hrest, hclose⟩ := Reading.head_of_atSymbol h
  have hopen := not_open_of_close hclose
  refine ⟨rfl, List.drop_suffix 1 r.rest, fun depth => ?_⟩
  unfold Reading.skip
  rw [hrest, pastQuery, if_neg hopen, if_pos hclose, if_neg (Nat.succ_ne_zero depth)]
  rfl

theorem passes_symbol_close (h : r.symbol ")" = .ok r') : Passes 1 0 r r' := by
  obtain ⟨hat, rfl⟩ := Reading.symbol_eq_ok_iff.1 h
  exact passes_close hat

theorem passes_symbol_open (h : r.symbol "(" = .ok r') : Passes 0 1 r r' := by
  obtain ⟨hat, rfl⟩ := Reading.symbol_eq_ok_iff.1 h
  exact passes_open hat

theorem passes_of_atSymbol {s : String} (h : r.atSymbol s = true) (hs : s ≠ "(" ∧ s ≠ ")") : Passes 0 0 r r.skip := by
  obtain ⟨t, rest, hrest, his⟩ := Reading.head_of_atSymbol h
  refine passes_skip fun t' ht' => ?_
  rw [hrest] at ht'
  cases ht'
  exact isFlat_of_isSymbol his hs

theorem passes_of_atWord {word : String} (h : r.atWord word = true) : Passes 0 0 r r.skip := by
  obtain ⟨t, rest, hrest, his⟩ := Reading.head_of_atWord h
  refine passes_skip fun t' ht' => ?_
  rw [hrest] at ht'
  cases ht'
  exact isFlat_of_isWord his

theorem passes_word {word : String} (h : r.word word = .ok r') : Passes 0 0 r r' := by
  obtain ⟨hat, rfl⟩ := Reading.word_eq_ok_iff.1 h
  exact passes_of_atWord hat

theorem passes_of_atAnyWord {words : List String} (h : r.atAnyWord words = true) : Passes 0 0 r r.skip := by
  obtain ⟨word, -, hword⟩ := List.any_eq_true.1 h
  exact passes_of_atWord hword

theorem passes_pastWord (r : Reading) (word : String) : Passes 0 0 r (r.pastWord word) := by
  unfold Reading.pastWord
  split
  · next h => exact passes_of_atWord h
  · exact .refl 0 r

theorem passes_pastAnyWord (r : Reading) (words : List String) : Passes 0 0 r (r.pastAnyWord words) := by
  unfold Reading.pastAnyWord
  split
  · next h => exact passes_of_atAnyWord h
  · exact .refl 0 r

theorem kind_of_name? {name : String} (h : t.name? = some name) : t.kind ≠ .symbol := by
  intro hsymbol
  unfold Token.name? at h
  rw [hsymbol] at h
  cases h

theorem passes_name {name : String} {offset : Nat} (h : r.name = .ok (name, offset, r')) : Passes 0 0 r r' := by
  obtain ⟨t, rest, hrest, hname, -, rfl⟩ := Reading.name_eq_ok_iff.1 h
  refine passes_skip fun t' ht' => ?_
  rw [hrest] at ht'
  cases ht'
  exact isFlat_of_kind (kind_of_name? hname)

theorem passes_pastName (h : r.pastName = .ok r') : Passes 0 0 r r' := by
  unfold Reading.pastName at h
  cases hname : r.name with
  | error fault =>
    rw [hname] at h
    cases h
  | ok told =>
    obtain ⟨name, offset, r₁⟩ := told
    rw [hname] at h
    cases h
    exact passes_name hname

/-- A query that is passed is passed within more parentheses as well. -/
theorem pastQuery_within {ts rest : List Token} (h : pastQuery n ts = some rest) :
    rest <:+ ts ∧ ∀ depth, pastQuery (depth + (n + 1)) ts = pastQuery depth rest := by
  induction ts generalizing n with
  | nil => cases h
  | cons t ts ih =>
    rw [pastQuery] at h
    split at h
    · next hopen =>
      obtain ⟨hsuffix, hdeeper⟩ := ih h
      refine ⟨hsuffix.trans (List.suffix_cons t ts), fun depth => ?_⟩
      rw [pastQuery, if_pos hopen]
      exact hdeeper depth
    · next hopen =>
      split at h
      · next hclose =>
        split at h
        · next hzero =>
          cases h
          subst hzero
          refine ⟨List.suffix_cons t _, fun depth => ?_⟩
          rw [pastQuery, if_neg hopen, if_pos hclose, if_neg (Nat.succ_ne_zero depth)]
          rfl
        · next hpos =>
          obtain ⟨hsuffix, hdeeper⟩ := ih h
          refine ⟨hsuffix.trans (List.suffix_cons t ts), fun depth => ?_⟩
          rw [pastQuery, if_neg hopen, if_pos hclose, if_neg (by omega), ← hdeeper depth]
          congr 1
          omega
      · next hclose =>
        obtain ⟨hsuffix, hdeeper⟩ := ih h
        refine ⟨hsuffix.trans (List.suffix_cons t ts), fun depth => ?_⟩
        rw [pastQuery, if_neg hopen, if_neg hclose]
        exact hdeeper depth

theorem passes_query {uses uses' : List Use} (h : query r uses = .ok (uses', r')) : Passes 1 0 r r' := by
  unfold query at h
  split at h
  · next rest hpast =>
    cases h
    obtain ⟨hsuffix, hdeeper⟩ := pastQuery_within hpast
    exact ⟨rfl, hsuffix, hdeeper⟩
  · exact absurd h (Reading.refuse_ne_ok _ _)

end Steps

/-! ## Types -/

section Types

variable {r r' : Reading}

theorem isFlat_of_isTypePart {t : Token} (h : isTypePart t = true) : t.IsFlat := by
  unfold isTypePart at h
  rw [Bool.and_eq_true] at h
  obtain ⟨name, hname⟩ := Option.isSome_iff_exists.1 h.1
  exact isFlat_of_kind (kind_of_name? hname)

theorem passes_number (h : (if r.rest.head?.any (·.kind = .number) then .ok r.skip else r.refuse) = .ok r') :
    Passes 0 0 r r' := by
  split at h
  · next hnumber =>
    cases h
    refine passes_skip fun t ht => isFlat_of_kind fun hsymbol => ?_
    rw [Option.mem_def.1 ht, Option.any_some, decide_eq_true_eq, hsymbol] at hnumber
    cases hnumber
  · exact absurd h (r.refuse_ne_ok _)

theorem passes_signedNumber (h : signedNumber r = .ok r') : Passes 0 0 r r' := by
  have hsigned : Passes 0 0 r (if r.atSymbol "+" || r.atSymbol "-" then r.skip else r) := by
    split
    · next hsign =>
      rw [Bool.or_eq_true] at hsign
      obtain hsign | hsign := hsign
      · exact passes_of_atSymbol hsign (by decide)
      · exact passes_of_atSymbol hsign (by decide)
    · exact .refl 0 r
  exact hsigned.trans (passes_number h)

theorem passes_typeSize (h : typeSize r = .ok r') : Passes 0 0 r r' := by
  unfold typeSize at h
  split at h
  · next hopen =>
    obtain ⟨r₁, hfirst, h⟩ := ok_of_bind h
    have hmore : ∃ r₂, Passes 0 0 r₁ r₂ ∧ r₂.symbol ")" = .ok r' := by
      dsimp only at h
      split at h
      · next hcomma =>
        obtain ⟨r₂, hsecond, hclose⟩ := ok_of_bind h
        exact ⟨r₂, (passes_of_atSymbol hcomma (by decide)).trans (passes_signedNumber hsecond), hclose⟩
      · exact ⟨r₁, .refl 0 r₁, h⟩
    obtain ⟨r₂, hsecond, hclose⟩ := hmore
    have hinside := ((passes_signedNumber hfirst).trans hsecond).within 1
    exact ((passes_open hopen).trans hinside).trans (passes_symbol_close hclose)
  · cases h
    exact .refl 0 r

theorem pastQuery_append_flat {n : Nat} {ts rest : List Token} (h : ∀ t ∈ ts, t.IsFlat) :
    pastQuery n (ts ++ rest) = pastQuery n rest := by
  induction ts with
  | nil => rfl
  | cons t ts ih =>
    rw [List.forall_mem_cons] at h
    rw [List.cons_append, pastQuery_flat h.1, ih h.2]

theorem passes_writtenType {type : String} (h : writtenType r = .ok (type, r')) : Passes 0 0 r r' := by
  unfold writtenType at h
  dsimp only at h
  split at h
  · cases h
    exact .refl 0 r
  · obtain ⟨sized, hsized, h⟩ := ok_of_bind h
    cases h
    have hparts := List.prefix_iff_eq_append.1 (List.takeWhile_prefix isTypePart (l := r.rest))
    have hflat : ∀ t ∈ r.rest.takeWhile isTypePart, t.IsFlat := fun t ht =>
      isFlat_of_isTypePart (List.mem_takeWhile_imp ht)
    have hnames : Passes 0 0 r { r with rest := r.rest.drop (r.rest.takeWhile isTypePart).length } := by
      refine ⟨rfl, List.drop_suffix _ _, fun depth => ?_⟩
      conv_lhs => rw [← hparts]
      exact pastQuery_append_flat hflat
    exact hnames.trans (passes_typeSize hsized)

end Types

/-! ## Expressions -/

/-- All that is passed in so many steps, be it an expression or a part of one. -/
structure AllPass (fuel : Nat) : Prop where
  expression : ∀ joined r uses uses' r', expression fuel joined r uses = .ok (uses', r') → Passes 0 0 r r'
  furtherOperands : ∀ joined r uses uses' r', furtherOperands fuel joined r uses = .ok (uses', r') → Passes 0 0 r r'
  comparison : ∀ joined r uses uses' r', r.atAnyWord ("IN" :: "BETWEEN" :: likeWords) = true →
    comparison fuel joined r uses = .ok (uses', r') → Passes 0 0 r r'
  operand : ∀ r uses uses' r', operand fuel r uses = .ok (uses', r') → Passes 0 0 r r'
  qualified : ∀ r uses uses' r', r.atSymbol "." = true → qualified fuel r uses = .ok (uses', r') → Passes 0 0 r r'
  cases : ∀ r uses uses' r', cases fuel r uses = .ok (uses', r') → Passes 0 0 r r'
  arguments : ∀ r uses uses' r', arguments fuel r uses = .ok (uses', r') → Passes 1 0 r r'
  operands : ∀ r uses uses' r', operands fuel r uses = .ok (uses', r') → Passes 1 0 r r'

section Expressions

variable {fuel : Nat} {joined : Bool} {r r' : Reading} {uses uses' : List Use}

theorem expression_step (ih : AllPass fuel) (h : expression (fuel + 1) joined r uses = .ok (uses', r')) :
    Passes 0 0 r r' := by
  rw [expression] at h
  obtain ⟨⟨uses₁, r₁⟩, hfirst, h⟩ := ok_of_bind h
  exact (ih.operand _ _ _ _ hfirst).trans (ih.furtherOperands _ _ _ _ _ h)

theorem isFlat_of_isOperator {t : Token} (h : isOperator t = true) : t.IsFlat := by
  unfold isOperator at h
  rw [Bool.and_eq_true] at h
  have hother : ∀ s ∈ longSymbols ++ ["+", "-", "*", "/", "%", "=", "<", ">", "&", "|"], s ≠ "(" ∧ s ≠ ")" := by
    decide
  obtain ⟨hopen, hclose⟩ := hother _ (List.contains_iff_mem.1 h.2)
  unfold Token.IsFlat Token.isSymbol
  rw [beq_eq_false_iff_ne.2 hopen, beq_eq_false_iff_ne.2 hclose, Bool.and_false]
  exact ⟨rfl, rfl⟩

/-- A token that is ahead is passed if it is no parenthesis. -/
theorem passes_head {t : Token} {rest : List Token} (hrest : r.rest = t :: rest) (ht : t.IsFlat) :
    Passes 0 0 r r.skip := by
  refine passes_skip fun t' ht' => ?_
  rw [hrest] at ht'
  cases ht'
  exact ht

theorem furtherOperands_step (ih : AllPass fuel) (h : furtherOperands (fuel + 1) joined r uses = .ok (uses', r')) :
    Passes 0 0 r r' := by
  rw [furtherOperands] at h
  split at h
  · cases h
    exact .refl 0 r
  · next t rest hrest =>
    have hword : ∀ {word}, t.isWord word = true → Passes 0 0 r r.skip := fun hw =>
      passes_head hrest (isFlat_of_isWord hw)
    split at h
    · next hop => exact (passes_head hrest (isFlat_of_isOperator hop)).trans (ih.expression _ _ _ _ _ h)
    split at h
    · next hjoin =>
      split at h
      · exact ((Bool.or_eq_true _ _ ▸ hjoin).elim hword hword).trans (ih.expression _ _ _ _ _ h)
      · cases h
        exact .refl 0 r
    split at h
    · next his =>
      have hnot := (hword his).trans (passes_pastWord r.skip "NOT")
      dsimp only at h
      split at h
      · next hdistinct =>
        obtain ⟨r₁, hfrom, h⟩ := ok_of_bind h
        exact ((hnot.trans (passes_of_atWord hdistinct)).trans (passes_word hfrom)).trans (ih.expression _ _ _ _ _ h)
      · exact hnot.trans (ih.expression _ _ _ _ _ h)
    split at h
    · next hnull => exact ((Bool.or_eq_true _ _ ▸ hnull).elim hword hword).trans (ih.furtherOperands _ _ _ _ _ h)
    split at h
    · next hcollate =>
      obtain ⟨r₁, hname, h⟩ := ok_of_bind h
      exact ((hword hcollate).trans (passes_pastName hname)).trans (ih.furtherOperands _ _ _ _ _ h)
    split at h
    · next hnot =>
      split at h
      · next hnull =>
        exact ((hword hnot).trans (passes_of_atWord hnull)).trans (ih.furtherOperands _ _ _ _ _ h)
      split at h
      · next hat => exact (hword hnot).trans (ih.comparison _ _ _ _ _ hat h)
      · exact absurd h (Reading.refuse_ne_ok _ _)
    split at h
    · next hat => exact ih.comparison _ _ _ _ _ hat h
    · cases h
      exact .refl 0 r

theorem comparison_step (ih : AllPass fuel) (hat : r.atAnyWord ("IN" :: "BETWEEN" :: likeWords) = true)
    (h : comparison (fuel + 1) joined r uses = .ok (uses', r')) : Passes 0 0 r r' := by
  have hskip := passes_of_atAnyWord hat
  rw [comparison] at h
  split at h
  · obtain ⟨⟨uses₁, r₁⟩, hlow, h⟩ := ok_of_bind h
    obtain ⟨r₂, hand, h⟩ := ok_of_bind h
    exact ((hskip.trans (ih.expression _ _ _ _ _ hlow)).trans (passes_word hand)).trans (ih.expression _ _ _ _ _ h)
  split at h
  · dsimp only at h
    split at h
    · next hopen =>
      have hopened := hskip.trans (passes_open hopen)
      split at h
      · next hclose =>
        exact (hopened.trans (passes_close hclose)).trans (ih.furtherOperands _ _ _ _ _ h)
      · obtain ⟨⟨uses₁, r₁⟩, hmembers, h⟩ := ok_of_bind h
        exact (hopened.trans (ih.operands _ _ _ _ hmembers)).trans (ih.furtherOperands _ _ _ _ _ h)
    · obtain ⟨r₁, hname, h⟩ := ok_of_bind h
      exact (hskip.trans (passes_pastName hname)).trans (ih.furtherOperands _ _ _ _ _ h)
  · obtain ⟨⟨uses₁, r₁⟩, hoperand, h⟩ := ok_of_bind h
    have hpast := hskip.trans (ih.operand _ _ _ _ hoperand)
    dsimp only at h
    split at h
    · next hescape => exact (hpast.trans (passes_of_atWord hescape)).trans (ih.expression _ _ _ _ _ h)
    · exact hpast.trans (ih.furtherOperands _ _ _ _ _ h)

theorem isFlat_of_isSign {t : Token} (h : isSign t = true) : t.IsFlat := by
  unfold isSign at h
  rw [Bool.or_eq_true, List.any_eq_true] at h
  obtain ⟨s, hs, his⟩ | hword := h
  · have hother : ∀ s ∈ ["+", "-", "~"], s ≠ "(" ∧ s ≠ ")" := by decide
    exact isFlat_of_isSymbol his (hother s hs)
  · exact isFlat_of_isWord hword

theorem kind_of_isLiteral {t : Token} (h : isLiteral t = true) : t.kind ≠ .symbol := by
  intro hsymbol
  unfold isLiteral isConstant at h
  rw [Bool.or_eq_true, hsymbol] at h
  obtain hkind | hword := h
  · exact absurd hkind (by decide)
  · obtain ⟨word, -, hword⟩ := List.any_eq_true.1 hword
    exact kind_of_isWord hword hsymbol

theorem operand_step (ih : AllPass fuel) (h : operand (fuel + 1) r uses = .ok (uses', r')) : Passes 0 0 r r' := by
  rw [operand] at h
  split at h
  · exact absurd h (r.refuse_ne_ok _)
  · next t rest hrest =>
    split at h
    · next hsign => exact (passes_head hrest (isFlat_of_isSign hsign)).trans (ih.operand _ _ _ _ h)
    split at h
    · next hopen =>
      have hat : r.atSymbol "(" = true := by
        unfold Reading.atSymbol
        rw [hrest]
        exact hopen
      exact (passes_open hat).trans (ih.operands _ _ _ _ h)
    split at h
    · next hliteral =>
      cases h
      exact passes_head hrest (isFlat_of_kind (kind_of_isLiteral hliteral))
    split at h
    · next hvariable =>
      cases h
      exact passes_head hrest (isFlat_of_kind fun hsymbol => by rw [hsymbol] at hvariable; cases hvariable)
    split at h
    · next hexists =>
      obtain ⟨r₁, hopen, h⟩ := ok_of_bind h
      have hword := passes_head hrest (isFlat_of_isWord hexists)
      exact (hword.trans (passes_symbol_open hopen)).trans (passes_query h)
    split at h
    · next hcase =>
      have hword := passes_head hrest (isFlat_of_isWord hcase)
      dsimp only at h
      split at h
      · exact hword.trans (ih.cases _ _ _ _ h)
      · obtain ⟨⟨uses₁, r₁⟩, hchoice, h⟩ := ok_of_bind h
        exact (hword.trans (ih.expression _ _ _ _ _ hchoice)).trans (ih.cases _ _ _ _ h)
    split at h
    · next hcast =>
      have hword := passes_head hrest (isFlat_of_isWord hcast)
      obtain ⟨r₁, hopen, h⟩ := ok_of_bind h
      obtain ⟨⟨uses₁, r₂⟩, hvalue, h⟩ := ok_of_bind h
      obtain ⟨r₃, has, h⟩ := ok_of_bind h
      obtain ⟨⟨type, r₄⟩, htype, h⟩ := ok_of_bind h
      obtain ⟨r₅, hclose, h⟩ := ok_of_bind h
      cases h
      have hinside := (((ih.expression _ _ _ _ _ hvalue).trans (passes_word has)).trans
        (passes_writtenType htype)).within 1
      exact ((hword.trans (passes_symbol_open hopen)).trans hinside).trans (passes_symbol_close hclose)
    · obtain ⟨⟨name, offset, r₁⟩, hname, h⟩ := ok_of_bind h
      have hpast := passes_name hname
      dsimp only at h
      split at h
      · next hopen => exact (hpast.trans (passes_open hopen)).trans (ih.arguments _ _ _ _ h)
      split at h
      · next hpoint => exact hpast.trans (ih.qualified _ _ _ _ hpoint h)
      · cases h
        exact hpast

theorem qualified_step (ih : AllPass fuel) (hat : r.atSymbol "." = true)
    (h : qualified (fuel + 1) r uses = .ok (uses', r')) : Passes 0 0 r r' := by
  rw [qualified] at h
  obtain ⟨r₁, hname, h⟩ := ok_of_bind h
  have hpast := (passes_of_atSymbol hat (by decide)).trans (passes_pastName hname)
  split at h
  · next hpoint => exact hpast.trans (ih.qualified _ _ _ _ hpoint h)
  · cases h
    exact hpast

theorem cases_step (ih : AllPass fuel) (h : cases (fuel + 1) r uses = .ok (uses', r')) : Passes 0 0 r r' := by
  rw [cases] at h
  obtain ⟨r₁, hwhen, h⟩ := ok_of_bind h
  obtain ⟨⟨uses₁, r₂⟩, hcondition, h⟩ := ok_of_bind h
  obtain ⟨r₃, hthen, h⟩ := ok_of_bind h
  obtain ⟨⟨uses₂, r₄⟩, hvalue, h⟩ := ok_of_bind h
  have hpast := (((passes_word hwhen).trans (ih.expression _ _ _ _ _ hcondition)).trans (passes_word hthen)).trans
    (ih.expression _ _ _ _ _ hvalue)
  dsimp only at h
  split at h
  · exact hpast.trans (ih.cases _ _ _ _ h)
  split at h
  · next helse =>
    obtain ⟨⟨uses₃, r₅⟩, hother, h⟩ := ok_of_bind h
    obtain ⟨r₆, hend, h⟩ := ok_of_bind h
    cases h
    exact ((hpast.trans (passes_of_atWord helse)).trans (ih.expression _ _ _ _ _ hother)).trans (passes_word hend)
  · obtain ⟨r₅, hend, h⟩ := ok_of_bind h
    cases h
    exact hpast.trans (passes_word hend)

theorem arguments_step (ih : AllPass fuel) (h : arguments (fuel + 1) r uses = .ok (uses', r')) : Passes 1 0 r r' := by
  rw [arguments] at h
  split at h
  · next hclose =>
    cases h
    exact passes_close hclose
  split at h
  · next hstar =>
    cases hclose : r.skip.symbol ")" with
    | error fault =>
      rw [hclose] at h
      cases h
    | ok r₁ =>
      rw [hclose] at h
      cases h
      exact ((passes_of_atSymbol hstar (by decide)).within 1).trans (passes_symbol_close hclose)
  · exact ((passes_pastAnyWord r _).within 1).trans (ih.operands _ _ _ _ h)

theorem operands_step (ih : AllPass fuel) (h : operands (fuel + 1) r uses = .ok (uses', r')) : Passes 1 0 r r' := by
  rw [operands] at h
  split at h
  · exact passes_query h
  · obtain ⟨⟨uses₁, r₁⟩, hvalue, h⟩ := ok_of_bind h
    have hpast := (ih.expression _ _ _ _ _ hvalue).within 1
    dsimp only at h
    split at h
    · next hcomma => exact (hpast.trans ((passes_of_atSymbol hcomma (by decide)).within 1)).trans (ih.operands _ _ _ _ h)
    · obtain ⟨r₂, hclose, h⟩ := ok_of_bind h
      cases h
      exact hpast.trans (passes_symbol_close hclose)

end Expressions

/-- By induction on the steps, all functions at once: each part of an expression is passed in fewer steps. -/
theorem allPass (fuel : Nat) : AllPass fuel := by
  induction fuel with
  | zero =>
    exact
      { expression := fun _ r _ _ _ h => absurd h (r.refuse_ne_ok _)
        furtherOperands := fun _ r _ _ _ h => absurd h (r.refuse_ne_ok _)
        comparison := fun _ r _ _ _ _ h => absurd h (r.refuse_ne_ok _)
        operand := fun r _ _ _ h => absurd h (r.refuse_ne_ok _)
        qualified := fun r _ _ _ _ h => absurd h (r.refuse_ne_ok _)
        cases := fun r _ _ _ h => absurd h (r.refuse_ne_ok _)
        arguments := fun r _ _ _ h => absurd h (r.refuse_ne_ok _)
        operands := fun r _ _ _ h => absurd h (r.refuse_ne_ok _) }
  | succ fuel ih =>
    exact
      { expression := fun _ _ _ _ _ => expression_step ih
        furtherOperands := fun _ _ _ _ _ => furtherOperands_step ih
        comparison := fun _ _ _ _ _ => comparison_step ih
        operand := fun _ _ _ _ => operand_step ih
        qualified := fun _ _ _ _ => qualified_step ih
        cases := fun _ _ _ _ => cases_step ih
        arguments := fun _ _ _ _ => arguments_step ih
        operands := fun _ _ _ _ => operands_step ih }

/-- **Expressions close what they open.** An expression is passed within the parentheses that it stands in. -/
theorem expression_passes {r r' : Reading} {uses : List Use} (h : r.expression = .ok (uses, r')) : Passes 0 0 r r' :=
  (allPass r.fuel).expression _ _ _ _ _ h

end CatalogSync.Sql
