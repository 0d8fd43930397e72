import CatalogSync.Proofs.Json.Outlook

/-!
# Words, strings and numbers with more in sight

What one cursor reads of a word, a string or a number, a cursor that sees further reads as well:
`agree_readWord`, `agree_readText` and `agree_readNumber`. The last two also say that some of the
bytes have been consumed.
-/

namespace CatalogSync.Json

def IsNumber : Json → Prop
  | .int _ | .real _ => True
  | _ => False

theorem isNumber_integerOf (negative : Bool) (n : Nat) : IsNumber (integerOf negative n) := by
  unfold integerOf
  split
  · trivial
  · split
    · trivial
    · split <;> trivial

namespace Outlook

variable {o : Outlook} {c d : Cursor} {n : Nat}

/-! ## A byte that is ahead -/

theorem Before.rest_eq {b : UInt8} {next : Option UInt8} (h : o.Before n (some b, c) (next, d)) :
    ∃ r, c.rest = b :: r := by
  have hb : some b = c.rest.head? := h.2.1
  cases hr : c.rest with
  | nil => simp [hr] at hb
  | cons a r =>
    simp [hr] at hb
    exact ⟨r, by rw [hb]⟩

theorem Before.skip {b : UInt8} {next : Option UInt8} (h : o.Before n (some b, c) (next, d)) :
    o.At (n - 1) c.skip d.skip := by
  obtain ⟨r, hr⟩ := h.rest_eq
  exact h.2.2.2.skip hr

theorem Before.pos {b : UInt8} {next : Option UInt8} (h : o.Before n (some b, c) (next, d)) : 1 ≤ n := by
  obtain ⟨r, hr⟩ := h.rest_eq
  have hn := h.2.2.2.2
  rw [hr, List.length_cons] at hn
  omega

/-- A failure over the byte ahead, or over there being none. -/
theorem Before.failAhead {α β : Type} {R : α → β → Prop} {p q : Option UInt8 × Cursor} (h : o.Before n p q)
    {cause : Cause} (hc : cause.OfBytes) :
    o.Agree R (p.2.failAhead cause : Except Failure α) (q.2.failAhead cause) := by
  obtain ⟨-, hhead, hend, hat⟩ := h
  refine agree_failAhead hat.1 ?_ hc
  cases hp : p.1 with
  | none => exact .inr (hend hp)
  | some b =>
    left
    intro hnil
    rw [hp, hnil] at hhead
    exact Option.some_ne_none b hhead

/-! ## Words -/

theorem agree_readWord (h : o.At n c d) (word : List UInt8) :
    o.Agree (o.At n) (readWord c word) (readWord d word) := by
  induction word generalizing c d n with
  | nil => exact agree_ok h
  | cons w ws ih =>
    unfold readWord
    rcases h.1.byte_or_end with ⟨b, r, hc, hd⟩ | ⟨hc, hw⟩ | ⟨hc, hd, hw⟩
    · simp only [hc, hd]
      split
      · exact ih ((h.skip hc).mono (Nat.sub_le n 1))
      · exact agree_fail (h.1.skip hc) (by simp)
    · simp only [hc]
      exact agree_failAtEnd_waiting h.1 hw
    · simp only [hc, hd]
      exact agree_failAtEnd h.1 hw (by simp)

/-! ## Strings -/

/-- What is scanned when `more` follows: the same end or the same fault, but an end of the bytes
leaves it open what comes. -/
def Extends (more : List UInt8) (n : Nat) : Scanned → Scanned → Prop
  | .closed bytes p rest, y => y = .closed bytes p (rest ++ more) ∧ rest.length + 1 ≤ n
  | .early _, _ => True
  | .fault cause p, y => y = .fault cause p ∧ cause.OfBytes

theorem Extends.mono {more : List UInt8} {m : Nat} {x y : Scanned} (h : Extends more n x y) (hnm : n ≤ m) :
    Extends more m x y := by
  cases x with
  | closed bytes p rest => exact ⟨h.1, Nat.le_trans h.2 hnm⟩
  | early p => trivial
  | fault cause p => exact h

theorem scanText_append (more : List UInt8) (p : Position) (acc l : List UInt8) :
    Extends more l.length (scanText p acc l) (scanText p acc (l ++ more)) := by
  fun_induction scanText p acc l <;> try trivial
  -- one step of the scan of the longer text; the cases tell which
  all_goals rw [List.cons_append, scanText.eq_def _ _ (_ :: _)]
  all_goals simp [*]
  case case2 => exact ⟨rfl, Nat.le_refl _⟩
  case case4 ih => exact ih.mono (by omega)
  case case8 ih => exact ih.mono (by omega)
  case case15 ih => exact ih.mono (by omega)
  case case19 ih => exact ih.mono (by omega)
  all_goals exact ⟨rfl, by simp⟩

theorem agree_readText (h : o.At n c d) : o.Agree (o.Past (n - 1)) (readText c) (readText d) := by
  have hscan := scanText_append o.more c.position [] c.rest
  unfold readText
  rw [h.1.position, h.1.rest]
  cases hx : scanText c.position [] c.rest with
  | early p =>
    rcases h.1.waits_or_all with hw | hmore
    · exact agree_failAtEnd_waiting (h.1.moveTo p []) hw
    · have hsees := h.1.moveTo p []
      rw [hmore] at hsees ⊢
      rw [List.append_nil, hx]
      exact agree_failAtEnd hsees hmore (by simp)
  | fault cause p =>
    rw [hx] at hscan
    rw [hscan.1]
    exact agree_error hscan.2 fun _ => rfl
  | closed bytes p rest =>
    rw [hx] at hscan
    obtain ⟨hy, hlen⟩ := hscan
    have hn : rest.length ≤ n - 1 := by have := h.2; omega
    have hown : (c.rest ++ o.more).take ((c.rest ++ o.more).length - (rest ++ o.more).length) =
        c.rest.take (c.rest.length - rest.length) := by
      have hsub : (c.rest ++ o.more).length - (rest ++ o.more).length = c.rest.length - rest.length := by
        simp only [List.length_append]
        omega
      rw [hsub, List.take_append_of_le_length (Nat.sub_le _ _)]
    rw [hy]
    simp only
    cases String.fromUTF8? ⟨bytes.toArray⟩ with
    | some s => exact agree_ok ⟨rfl, h.1.moveTo p rest, hn⟩
    | none =>
      simp only [hown]
      exact agree_error (by simp) fun _ => rfl

/-! ## Digits -/

theorem takeDigits_of_none {b : UInt8} {r : List UInt8} (hb : digit? b = none) : takeDigits (b :: r) = ([], b :: r) := by
  simp [takeDigits, hb]

theorem takeDigits_of_some {b : UInt8} {r : List UInt8} {k : Nat} (hb : digit? b = some k) :
    takeDigits (b :: r) = (k :: (takeDigits r).1, (takeDigits r).2) := by
  simp [takeDigits, hb]

theorem takeDigits_append {l : List UInt8} (more : List UInt8) (h : (takeDigits l).2 ≠ []) :
    takeDigits (l ++ more) = ((takeDigits l).1, (takeDigits l).2 ++ more) := by
  induction l with
  | nil => exact absurd rfl h
  | cons b r ih =>
    rw [List.cons_append]
    cases hb : digit? b with
    | none =>
      rw [takeDigits_of_none hb, takeDigits_of_none hb]
      rfl
    | some k =>
      rw [takeDigits_of_some hb] at h ⊢
      rw [takeDigits_of_some hb, ih h]

theorem takeDigits_length (l : List UInt8) : (takeDigits l).2.length ≤ l.length := by
  induction l with
  | nil => exact Nat.le_refl 0
  | cons b r ih =>
    cases hb : digit? b with
    | none => simp [takeDigits_of_none hb]
    | some k =>
      simp only [takeDigits_of_some hb, List.length_cons]
      omega

theorem takeDigits_cons_length {b : UInt8} {r : List UInt8} (hb : (digit? b).isSome = true) :
    (takeDigits (b :: r)).2.length ≤ r.length := by
  obtain ⟨k, hk⟩ := Option.isSome_iff_exists.mp hb
  rw [takeDigits_of_some hk]
  exact takeDigits_length r

/-- If the digits reach to the end of the bytes, more of them may follow. -/
theorem takeDigits_append_fst (l more : List UInt8) : ∃ ds, (takeDigits (l ++ more)).1 = (takeDigits l).1 ++ ds := by
  induction l with
  | nil => exact ⟨_, rfl⟩
  | cons b r ih =>
    obtain ⟨ds, hds⟩ := ih
    rw [List.cons_append]
    cases hb : digit? b with
    | none =>
      refine ⟨[], ?_⟩
      rw [takeDigits_of_none hb, takeDigits_of_none hb]
      rfl
    | some k =>
      refine ⟨ds, ?_⟩
      rw [takeDigits_of_some hb, takeDigits_of_some hb, hds, List.cons_append]

/-- Digits, the byte after them, and the cursors before that byte. -/
def Digits (o : Outlook) (n : Nat) (p q : List Nat × Option UInt8 × Cursor) : Prop := q.1 = p.1 ∧ o.Before n p.2 q.2

theorem agree_readDigits (h : o.Sees c d) (hn : (takeDigits c.rest).2.length ≤ n) :
    o.Agree (o.Digits n) (readDigits c) (readDigits d) := by
  have hpeek := agree_peek_after (fun ds => c.position.along ds.length)
    (fun _ more hl => takeDigits_append more hl) h hn
  unfold readDigits
  rw [h.position]
  refine agree_bind hpeek fun p q hpq => ?_
  exact agree_ok ⟨hpq.1, hpq.2⟩

/-! ## Numbers -/

/-- A number and the cursors after it. -/
def Numeral (o : Outlook) (n : Nat) (p q : Json × Cursor) : Prop := IsNumber p.1 ∧ o.Past n p q

theorem Numeral.of_real {x : Binary64} (h : o.At n c d) : o.Numeral n (.real x, c) (.real x, d) := ⟨trivial, rfl, h⟩

theorem Numeral.of_integer (h : o.At n c d) (negative : Bool) (k : Nat) :
    o.Numeral n (integerOf negative k, c) (integerOf negative k, d) :=
  ⟨isNumber_integerOf negative k, rfl, h⟩

theorem here_moveTo (c : Cursor) (p : Position) (rest : List UInt8) : (c.moveTo p rest).here = p := by
  simp [Cursor.here, Cursor.moveTo]

theorem agree_realOf (h : o.At n c d) (negative : Bool) (digits : Nat) (exponent : Int) :
    o.Agree (o.Numeral n) (realOf c negative digits exponent) (realOf d negative digits exponent) := by
  unfold realOf
  cases scale (Binary64.ofNat digits) exponent 4 with
  | some x => exact agree_ok (.of_real h)
  | none => exact agree_fail h.1 (by simp)

/-- Once a digit of an exponent is past what can be read, all that follow are. -/
theorem foldl_appendExponent (ds : List Nat) {e left : Nat} (hleft : left ≠ 0) :
    ds.foldl appendExponent (e, left) = (e, left + ds.length) := by
  induction ds generalizing left with
  | nil => rfl
  | cons k ds ih =>
    have hstep : appendExponent (e, left) k = (e, left + 1) := by simp [appendExponent, hleft]
    rw [List.foldl_cons, hstep, ih (by omega), List.length_cons]
    congr 1
    omega

/-- Digits up to the end of the bytes, more of which are waited for. -/
theorem agree_readDigits_waiting {α β : Type} {R : α → β → Prop} (h : o.Sees c d) (hnil : (takeDigits c.rest).2 = [])
    (hw : o.waiting = true ∧ o.more ≠ []) (f : List Nat × Option UInt8 × Cursor → Except Failure α) (y : Except Failure β) :
    o.Agree R (readDigits c >>= f) y := by
  unfold readDigits Cursor.peek Cursor.moveTo
  simp only [hnil, h.stalled hw.1]
  exact agree_of_more hw.1 hw.2

theorem agree_exponentDigits (h : o.At n c d) (negative down : Bool) (digits : Nat) (exponent : Int) :
    o.Agree (o.Numeral n) (exponentDigits c negative down digits exponent)
      (exponentDigits d negative down digits exponent) := by
  have hlen : (takeDigits c.rest).2.length ≤ n := Nat.le_trans (takeDigits_length _) h.2
  have hread := agree_readDigits h.1 hlen
  unfold exponentDigits
  by_cases hrest : (takeDigits c.rest).2 = [] ∧ o.waiting = true ∧ o.more ≠ []
  · -- the digits may go on, so only a failure that more of them leave as it is comes of it
    obtain ⟨ds, hds⟩ := takeDigits_append_fst c.rest o.more
    cases hread : (takeDigits c.rest).1.foldl appendExponent (0, 0) with
    | mk e left =>
      by_cases hleft : left = 0
      · simp only [hread, hleft, if_true]
        exact agree_readDigits_waiting h.1 hrest.1 hrest.2 _ _
      · simp only [h.1.rest, hds, List.foldl_append, hread, foldl_appendExponent ds hleft, hleft, if_false]
        split
        · have hleft' : left + ds.length ≠ 0 := by omega
          have hpos : (takeDigits c.rest).1.length + ds.length - (left + ds.length) =
              (takeDigits c.rest).1.length - left := by omega
          simp only [hleft', if_false, List.length_append, hpos, h.1.position]
          exact agree_error (by simp) fun _ => by rw [here_moveTo, here_moveTo]
        · exact agree_readDigits_waiting h.1 hrest.1 hrest.2 _ _
  · simp only [h.1.scan_eq (fun _ more hl => takeDigits_append more hl) hrest, h.1.position]
    split
    · refine agree_bind hread ?_
      rintro ⟨ds, next, c'⟩ ⟨ds', next', d'⟩ ⟨hds, hbefore⟩
      exact agree_realOf hbefore.2.2.2 _ _ _
    · split
      · exact agree_error (by simp) fun _ => by rw [here_moveTo, here_moveTo]
      · refine agree_bind hread ?_
        rintro ⟨ds, next, c'⟩ ⟨ds', next', d'⟩ ⟨hds, hbefore⟩
        exact agree_ok (.of_real hbefore.2.2.2)

theorem Before.sign {next next' : Option UInt8} (h : o.Before n (next, c) (next', d)) :
    o.Past n (exponentSign next c) (exponentSign next' d) := by
  obtain rfl : next' = next := h.1
  unfold exponentSign
  split
  · exact ⟨rfl, h.skip.mono (Nat.sub_le n 1)⟩
  · exact ⟨rfl, h.skip.mono (Nat.sub_le n 1)⟩
  · exact ⟨rfl, h.2.2.2⟩

theorem agree_readExponent (h : o.At n c d) (negative : Bool) (digits : Nat) (exponent : Int) :
    o.Agree (o.Numeral n) (readExponent c negative digits exponent) (readExponent d negative digits exponent) := by
  unfold readExponent
  refine agree_bind (agree_peek h) ?_
  rintro ⟨next, c⟩ ⟨next', d⟩ hbefore
  have hsign := hbefore.sign
  dsimp only
  generalize exponentSign next c = p at hsign
  generalize exponentSign next' d = q at hsign
  obtain ⟨down, c⟩ := p
  obtain ⟨down', d⟩ := q
  obtain ⟨rfl, hat⟩ := hsign
  dsimp only at hat ⊢
  rcases hat.1.byte_or_end with ⟨b, r, hc, hd⟩ | ⟨hc, hw⟩ | ⟨hc, hd, hw⟩
  · simp only [hc, hd]
    split
    · exact agree_fail (hat.1.skip hc) (by simp)
    · exact agree_exponentDigits hat negative _ digits exponent
  · simp only [hc]
    exact agree_failAtEnd_waiting hat.1 hw
  · simp only [hc, hd]
    exact agree_failAtEnd hat.1 hw (by simp)

theorem agree_readFraction (h : o.At n c d) (negative : Bool) (digits : Nat) (exponent : Int) :
    o.Agree (o.Numeral n) (readFraction c negative digits exponent) (readFraction d negative digits exponent) := by
  unfold readFraction
  refine agree_bind (agree_readDigits h.1 (Nat.le_trans (takeDigits_length _) h.2)) ?_
  rintro ⟨ds, next, c⟩ ⟨ds', next', d⟩ ⟨rfl, hbefore⟩
  obtain rfl : next' = next := hbefore.1
  dsimp only
  split
  · split
    · exact hbefore.failAhead (by simp)
    · exact hbefore.failAhead (by simp)
  · split
    · next hmark =>
      rw [Bool.or_eq_true, decide_eq_true_eq, decide_eq_true_eq] at hmark
      rcases hmark with rfl | rfl
      · exact agree_readExponent (hbefore.skip.mono (Nat.sub_le n 1)) _ _ _
      · exact agree_readExponent (hbefore.skip.mono (Nat.sub_le n 1)) _ _ _
    · exact agree_realOf hbefore.2.2.2 _ _ _

theorem agree_numberTail {next next' : Option UInt8} (h : o.Before n (next, c) (next', d)) (negative : Bool)
    (digits left : Nat) :
    o.Agree (o.Numeral n) (readNumber.numberTail negative c next digits left)
      (readNumber.numberTail negative d next' digits left) := by
  obtain rfl : next' = next := h.1
  unfold readNumber.numberTail
  split
  · next hmark =>
    subst hmark
    exact agree_readFraction (h.skip.mono (Nat.sub_le n 1)) _ _ _
  · split
    · next hmark =>
      rw [Bool.or_eq_true, decide_eq_true_eq, decide_eq_true_eq] at hmark
      rcases hmark with rfl | rfl
      · exact agree_readExponent (h.skip.mono (Nat.sub_le n 1)) _ _ _
      · exact agree_readExponent (h.skip.mono (Nat.sub_le n 1)) _ _ _
    · split
      · exact agree_ok (.of_integer h.2.2.2 negative digits)
      · exact agree_realOf h.2.2.2 _ _ _

theorem agree_readNumber (h : o.At n c d) (negative : Bool) :
    o.Agree (o.Numeral (n - 1)) (readNumber c negative) (readNumber d negative) := by
  unfold readNumber
  rcases h.1.byte_or_end with ⟨b, r, hc, hd⟩ | ⟨hc, hw⟩ | ⟨hc, hd, hw⟩
  · have hn : r.length ≤ n - 1 := by
      have := h.2
      rw [hc, List.length_cons] at this
      omega
    simp only [hc, hd]
    cases hb : digit? b with
    | none => exact agree_fail (h.1.skip hc) (by simp)
    | some first =>
      dsimp only
      split
      · refine agree_bind (agree_peek (h.skip hc)) ?_
        rintro ⟨next, c⟩ ⟨next', d⟩ hbefore
        obtain rfl : next' = next := hbefore.1
        cases next' with
        | none => exact agree_ok (.of_integer hbefore.2.2.2 negative 0)
        | some k =>
          dsimp only
          split
          · exact hbefore.failAhead (by simp)
          · exact agree_numberTail hbefore _ _ _
      · have hdigits : (takeDigits c.rest).2.length ≤ n - 1 := by
          rw [hc]
          exact Nat.le_trans (takeDigits_cons_length (by simp [hb])) hn
        refine agree_bind (agree_readDigits h.1 hdigits) ?_
        rintro ⟨ds, next, c⟩ ⟨ds', next', d⟩ ⟨rfl, hbefore⟩
        exact agree_numberTail hbefore _ _ _
  · simp only [hc]
    exact agree_failAtEnd_waiting h.1 hw
  · simp only [hc, hd]
    exact agree_failAtEnd h.1 hw (by simp)

end Outlook

end CatalogSync.Json
