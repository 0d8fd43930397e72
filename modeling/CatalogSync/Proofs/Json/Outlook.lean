import CatalogSync.Json.Reader
import CatalogSync.Json.Record

/-!
# Reading with more in sight

Two cursors may stand before the same bytes while one of them sees further: it has bytes that the
other one waits for, or stands in a text of another kind. `Outlook.Sees` relates such cursors, and
`Outlook.Agree` what is read at them: a value that is read at the first cursor is read at the second,
an error is an error, and only a read that waits for bytes leaves it open what comes of it. An error is
told by what is wrong with the bytes or by how they end (`Ending.Tells`).

This module has the cursor and what stands on it; `agree_skipSpace` is its main statement.
-/

namespace CatalogSync.Json

/-- A cause that lies in the bytes and not in how they end. -/
@[simp] def Cause.OfBytes : Cause → Prop
  | .read _ => False
  | .stalled => False
  | .mismatch reason => ∃ (v : Json) (wanted : String), reason = v.wrongKind wanted
  | _ => True

/-- A text that ends so can fail for this cause. -/
inductive Ending.Tells (ending : Ending) : Cause → Prop
  | bytes {cause : Cause} (h : cause.OfBytes) : Tells ending cause
  | read {reason : String} (h : ending = .broken reason) : Tells ending (.read reason)
  | stalled (h : ending = .stalled) : Tells ending .stalled

theorem Ending.Tells.eq_stalled {ending : Ending} {cause : Cause} (h : ending.Tells cause) (hc : cause = .stalled) :
    ending = .stalled := by
  subst hc
  cases h with
  | bytes h => exact h.elim
  | stalled h => exact h

/-- How one cursor sees further than another. -/
structure Outlook where
  /-- Whether the texts are of the same kind, both held whole or both streaming in. -/
  exact : Bool
  /-- Whether the first cursor waits for what the second one sees. -/
  waiting : Bool
  /-- The bytes that only the second one has. -/
  more : List UInt8
  /-- What comes after the bytes of the second one. -/
  ending : Ending

namespace Outlook

variable {o : Outlook} {c d : Cursor} {α β γ δ : Type}

/-- The second cursor stands before the bytes of the first one, and sees further. -/
structure Sees (o : Outlook) (c d : Cursor) : Prop where
  rest : d.rest = c.rest ++ o.more
  last : d.ending = o.ending
  room : if o.waiting then c.ending = .stalled else o.more = [] ∧ c.ending = o.ending
  position : d.position = c.position
  peeked : d.peeked = c.peeked
  streamed : o.exact = true → d.streamed = c.streamed
  /-- A byte that was looked at is there. -/
  seen : o.exact = true → c.peeked = true → c.rest ≠ []

/-- The first cursor waits for a byte. If there is none, and the next read fails, the second cursor comes upon it. -/
structure Waits (o : Outlook) (f : Failure) (y : Except Failure β) : Prop where
  waiting : o.waiting = true
  cause : f.cause = .stalled
  read : ∀ reason, o.more = [] → o.ending = .broken reason → ∃ g, y = .error g ∧ g.cause = .read reason

/-- What is read at the second cursor, as far as it follows from what is read at the first. -/
def Agree (o : Outlook) (R : α → β → Prop) (x : Except Failure α) (y : Except Failure β) : Prop :=
  match x with
  | .ok a => ∃ b, y = .ok b ∧ R a b
  | .error f =>
    o.Waits f y ∨
      ∃ g, y = .error g ∧ (o.exact = true → g = f) ∧ (f.position.isSome = true ∨ o.more = []) ∧ o.ending.Tells f.cause

/-- Two cursors of which the first has at most `n` bytes left. -/
def At (o : Outlook) (n : Nat) (c d : Cursor) : Prop := o.Sees c d ∧ c.rest.length ≤ n

/-- A value and the cursors after it. -/
def Past (o : Outlook) (n : Nat) (p q : α × Cursor) : Prop := q.1 = p.1 ∧ o.At n p.2 q.2

/-- A byte ahead, if there is one, and the cursors before it. -/
def Before (o : Outlook) (n : Nat) (p q : Option UInt8 × Cursor) : Prop :=
  q.1 = p.1 ∧ p.1 = p.2.rest.head? ∧ (p.1 = none → o.waiting = false) ∧ o.At n p.2 q.2

/-! ## Outcomes -/

theorem agree_ok {R : α → β → Prop} {a : α} {b : β} (h : R a b) :
    o.Agree R (.ok a : Except Failure α) (.ok b) := ⟨b, rfl, h⟩

theorem agree_mono {R S : α → β → Prop} {x : Except Failure α} {y : Except Failure β} (h : o.Agree R x y)
    (hRS : ∀ a b, R a b → S a b) : o.Agree S x y := by
  cases x with
  | ok a =>
    obtain ⟨b, hy, hR⟩ := h
    exact ⟨b, hy, hRS a b hR⟩
  | error f => exact h

theorem agree_bind {R : α → β → Prop} {S : γ → δ → Prop} {x : Except Failure α} {y : Except Failure β}
    {f : α → Except Failure γ} {g : β → Except Failure δ} (h : o.Agree R x y)
    (hfg : ∀ a b, R a b → o.Agree S (f a) (g b)) : o.Agree S (x >>= f) (y >>= g) := by
  cases x with
  | ok a =>
    obtain ⟨b, rfl, hR⟩ := h
    exact hfg a b hR
  | error e =>
    rcases h with ⟨hw, hcause, hread⟩ | ⟨e', rfl, h⟩
    · refine .inl ⟨hw, hcause, fun reason hmore hend => ?_⟩
      obtain ⟨e', rfl, he'⟩ := hread reason hmore hend
      exact ⟨e', rfl, he'⟩
    · exact .inr ⟨e', rfl, h⟩

theorem agree_ite {p : Prop} [Decidable p] {R : α → β → Prop} {x x' : Except Failure α} {y y' : Except Failure β}
    (h : p → o.Agree R x y) (h' : ¬ p → o.Agree R x' y') :
    o.Agree R (if p then x else x') (if p then y else y') := by
  by_cases hp : p
  · rw [if_pos hp, if_pos hp]
    exact h hp
  · rw [if_neg hp, if_neg hp]
    exact h' hp

/-- The same failure at a place. -/
theorem agree_error {R : α → β → Prop} {cause : Cause} {p q : Position} (hc : cause.OfBytes)
    (h : o.exact = true → q = p) :
    o.Agree R (.error ⟨cause, some p⟩ : Except Failure α) (.error ⟨cause, some q⟩) := by
  refine .inr ⟨_, rfl, fun he => ?_, .inl rfl, .bytes hc⟩
  rw [h he]

/-- A read that waits for bytes which the second cursor has leaves it open what comes. -/
theorem agree_of_more (hw : o.waiting = true) (hmore : o.more ≠ []) {R : α → β → Prop} {y : Except Failure β} :
    o.Agree R (.error ⟨.stalled, none⟩ : Except Failure α) y :=
  .inl ⟨hw, rfl, fun _ hno => absurd hno hmore⟩

/-- There are no more bytes, so the first cursor waits, and a failed read is the second one's. -/
theorem agree_of_no_more (hw : o.waiting = true) {R : α → β → Prop} {y : Except Failure β}
    (hy : ∀ reason, o.ending = .broken reason → y = .error ⟨.read reason, none⟩) :
    o.Agree R (.error ⟨.stalled, none⟩ : Except Failure α) y :=
  .inl ⟨hw, rfl, fun reason _ hbroken => ⟨_, hy reason hbroken, rfl⟩⟩

/-- Both cursors are at the end of all bytes, and fail by how these end. -/
theorem agree_told (hmore : o.more = []) {R : α → β → Prop} {cause : Cause} (hc : o.ending.Tells cause) :
    o.Agree R (.error ⟨cause, none⟩ : Except Failure α) (.error ⟨cause, none⟩) :=
  .inr ⟨_, rfl, fun _ => rfl, .inr hmore, hc⟩

/-! ## Cursors -/

theorem Sees.more_eq_nil (h : o.Sees c d) (hw : o.waiting = false) : o.more = [] := by
  have := h.room
  rw [hw] at this
  exact this.1

theorem Sees.ending_eq (h : o.Sees c d) (hw : o.waiting = false) : c.ending = o.ending := by
  have := h.room
  rw [hw] at this
  exact this.2

theorem Sees.stalled (h : o.Sees c d) (hw : o.waiting = true) : c.ending = .stalled := by
  have := h.room
  rwa [hw] at this

theorem Sees.at (h : o.Sees c d) : o.At c.rest.length c d := ⟨h, Nat.le_refl _⟩

theorem At.mono {n m : Nat} (h : o.At n c d) (hnm : n ≤ m) : o.At m c d := ⟨h.1, Nat.le_trans h.2 hnm⟩

/-- A cursor beside itself, with nothing more in sight. -/
theorem sees_self (c : Cursor) : Sees ⟨false, false, [], c.ending⟩ c c where
  rest := (List.append_nil _).symm
  last := rfl
  room := ⟨rfl, rfl⟩
  position := rfl
  peeked := rfl
  streamed := fun _ => rfl
  seen := fun he => nomatch he

/-- A cursor waits if there are bytes that only the second one has. -/
theorem Sees.waits_or_all (h : o.Sees c d) : (o.waiting = true ∧ o.more ≠ []) ∨ o.more = [] := by
  cases hw : o.waiting with
  | true => exact (Classical.em (o.more = [])).elim .inr fun hmore => .inl ⟨rfl, hmore⟩
  | false => exact .inr (h.more_eq_nil hw)

/-- Both cursors stand before the same byte, or the first one is at the end of its bytes, or both are. -/
theorem Sees.byte_or_end (h : o.Sees c d) :
    (∃ b r, c.rest = b :: r ∧ d.rest = b :: (r ++ o.more)) ∨ (c.rest = [] ∧ o.waiting = true ∧ o.more ≠ []) ∨
      (c.rest = [] ∧ d.rest = [] ∧ o.more = []) := by
  cases hr : c.rest with
  | cons b r => exact .inl ⟨b, r, rfl, by rw [h.rest, hr]; rfl⟩
  | nil =>
    rcases h.waits_or_all with hw | hmore
    · exact .inr (.inl ⟨rfl, hw⟩)
    · exact .inr (.inr ⟨rfl, by rw [h.rest, hr, hmore]; rfl, hmore⟩)

/-- Cursors that move by some of the bytes ahead of the first one. -/
theorem Sees.moveTo (h : o.Sees c d) (p : Position) (rest : List UInt8) :
    o.Sees (c.moveTo p rest) (d.moveTo p (rest ++ o.more)) where
  rest := rfl
  last := h.last
  room := h.room
  position := rfl
  peeked := rfl
  streamed := h.streamed
  seen := fun _ hp => nomatch hp

theorem skip_cons {b : UInt8} {r : List UInt8} (hr : c.rest = b :: r) :
    c.skip = c.moveTo (c.position.after b) r := by
  unfold Cursor.skip
  rw [hr]
  rfl

theorem Sees.skip (h : o.Sees c d) {b : UInt8} {r : List UInt8} (hr : c.rest = b :: r) : o.Sees c.skip d.skip := by
  have hd : d.rest = b :: (r ++ o.more) := by rw [h.rest, hr]; rfl
  rw [skip_cons hr, skip_cons hd, h.position]
  exact h.moveTo _ _

theorem At.skip {n : Nat} (h : o.At n c d) {b : UInt8} {r : List UInt8} (hr : c.rest = b :: r) :
    o.At (n - 1) c.skip d.skip := by
  refine ⟨h.1.skip hr, ?_⟩
  have hn := h.2
  rw [hr, List.length_cons] at hn
  rw [skip_cons hr]
  exact Nat.le_sub_one_of_lt hn

/-- The byte ahead of both cursors has been looked at. -/
theorem Sees.peek (h : o.Sees c d) {b : UInt8} {r : List UInt8} (hr : c.rest = b :: r) :
    o.Sees { c with peeked := true } { d with peeked := true } where
  rest := h.rest
  last := h.last
  room := h.room
  position := h.position
  peeked := rfl
  streamed := h.streamed
  seen := fun _ _ => by
    show c.rest ≠ []
    rw [hr]
    exact List.cons_ne_nil b r

theorem Sees.ahead_eq (h : o.Sees c d) (hr : c.rest ≠ [] ∨ o.more = []) : d.ahead = c.ahead := by
  unfold Cursor.ahead
  rw [h.rest, h.position]
  rcases hr with hr | hr
  · obtain ⟨b, r, hbr⟩ := List.exists_cons_of_ne_nil hr
    rw [hbr]
    rfl
  · rw [hr, List.append_nil]

theorem Sees.here_eq (h : o.Sees c d) (he : o.exact = true) : d.here = c.here := by
  unfold Cursor.here
  rw [h.streamed he, h.peeked, h.position]
  split
  · next hpeek =>
    rw [Bool.and_eq_true] at hpeek
    exact h.ahead_eq (.inl (h.seen he hpeek.2))
  · rfl

/-! ## Failures at a cursor -/

theorem agree_fail (h : o.Sees c d) {R : α → β → Prop} {cause : Cause} (hc : cause.OfBytes) :
    o.Agree R (c.fail cause : Except Failure α) (d.fail cause) :=
  agree_error hc fun he => h.here_eq he

theorem agree_failAhead (h : o.Sees c d) (hr : c.rest ≠ [] ∨ o.waiting = false) {R : α → β → Prop} {cause : Cause}
    (hc : cause.OfBytes) : o.Agree R (c.failAhead cause : Except Failure α) (d.failAhead cause) :=
  agree_error hc fun _ => h.ahead_eq (hr.imp_right h.more_eq_nil)

/-- At the end of its bytes a cursor that waits for more of them leaves it open what comes. -/
theorem agree_failAtEnd_waiting (h : o.Sees c d) (hw : o.waiting = true ∧ o.more ≠ []) {R : α → β → Prop}
    {cause : Cause} {y : Except Failure β} : o.Agree R (c.failAtEnd cause : Except Failure α) y := by
  unfold Cursor.failAtEnd
  rw [h.stalled hw.1]
  exact agree_of_more hw.1 hw.2

theorem agree_failAtEnd (h : o.Sees c d) (hmore : o.more = []) {R : α → β → Prop} {cause : Cause}
    (hc : cause.OfBytes) : o.Agree R (c.failAtEnd cause : Except Failure α) (d.failAtEnd cause) := by
  unfold Cursor.failAtEnd
  rw [h.last]
  cases hw : o.waiting with
  | true =>
    rw [h.stalled hw]
    refine agree_of_no_more hw fun reason hbroken => ?_
    rw [hbroken]
  | false =>
    rw [h.ending_eq hw]
    cases ho : o.ending with
    | closed => exact agree_fail h hc
    | broken reason => exact agree_told hmore (.read ho)
    | stalled => exact agree_told hmore (.stalled ho)

/-! ## The byte ahead -/

theorem peek_cons {b : UInt8} {r : List UInt8} (hr : c.rest = b :: r) :
    c.peek = .ok (some b, { c with peeked := true }) := by
  unfold Cursor.peek
  split
  · next heq =>
    rw [hr] at heq
    injection heq with hb
    rw [hb]
  · next heq =>
    rw [hr] at heq
    nomatch heq

theorem agree_peek {n : Nat} (h : o.At n c d) : o.Agree (o.Before n) c.peek d.peek := by
  obtain ⟨h, hn⟩ := h
  cases hr : c.rest with
  | cons b r =>
    have hd : d.rest = b :: (r ++ o.more) := by rw [h.rest, hr]; rfl
    rw [peek_cons hr, peek_cons hd]
    exact agree_ok ⟨rfl, by rw [hr]; rfl, (fun hb => nomatch hb), h.peek hr, hn⟩
  | nil =>
    rcases h.waits_or_all with ⟨hw, hmore⟩ | hmore
    · unfold Cursor.peek
      rw [hr, h.stalled hw]
      exact agree_of_more hw hmore
    · have hd : d.rest = [] := by rw [h.rest, hr, hmore]; rfl
      unfold Cursor.peek
      rw [hr, hd, h.last]
      cases hw : o.waiting with
      | true =>
        rw [h.stalled hw]
        refine agree_of_no_more hw fun reason hbroken => ?_
        rw [hbroken]
      | false =>
        rw [h.ending_eq hw]
        cases ho : o.ending with
        | closed => exact agree_ok ⟨rfl, by rw [hr]; rfl, fun _ => hw, h, hn⟩
        | broken reason => exact agree_told hmore (.read ho)
        | stalled => exact agree_told hmore (.stalled ho)

theorem pastSpace_snd (p : Position) (l : List UInt8) : (Cursor.pastSpace p l).2 = l.dropWhile Cursor.isSpace := by
  induction l generalizing p with
  | nil => rfl
  | cons b r ih =>
    unfold Cursor.pastSpace
    by_cases hb : Cursor.isSpace b = true
    · rw [if_pos hb, ih, List.dropWhile_cons_of_pos hb]
    · rw [if_neg hb, List.dropWhile_cons_of_neg hb]

theorem pastSpace_append {p : Position} {l : List UInt8} (more : List UInt8) (h : (Cursor.pastSpace p l).2 ≠ []) :
    Cursor.pastSpace p (l ++ more) = ((Cursor.pastSpace p l).1, (Cursor.pastSpace p l).2 ++ more) := by
  induction l generalizing p with
  | nil => exact absurd rfl h
  | cons b r ih =>
    unfold Cursor.pastSpace at h ⊢
    rw [List.cons_append]
    by_cases hb : Cursor.isSpace b = true
    · simp only [hb, if_true] at h ⊢
      exact ih h
    · simp only [hb] at h ⊢
      rfl

theorem skipSpace_eq (c : Cursor) :
    c.skipSpace = (c.moveTo (Cursor.pastSpace c.position c.rest).1 (Cursor.pastSpace c.position c.rest).2).peek := rfl

/-- What `scan` passes of the bytes ahead is the same at both cursors, unless the first one has to wait for
the byte after it. -/
theorem Sees.scan_eq {σ : Type} {scan : List UInt8 → σ × List UInt8}
    (hscan : ∀ l more, (scan l).2 ≠ [] → scan (l ++ more) = ((scan l).1, (scan l).2 ++ more)) (h : o.Sees c d)
    (hrest : ¬((scan c.rest).2 = [] ∧ o.waiting = true ∧ o.more ≠ [])) :
    scan d.rest = ((scan c.rest).1, (scan c.rest).2 ++ o.more) := by
  rw [h.rest]
  by_cases hnil : (scan c.rest).2 = []
  · have hmore : o.more = [] := h.waits_or_all.resolve_left fun hw => hrest ⟨hnil, hw⟩
    rw [hmore, List.append_nil, List.append_nil]
  · exact hscan c.rest o.more hnil

/-- A look at the byte ahead, after bytes that `scan` passes: unless the first cursor has to wait for
that byte, both cursors have passed the same bytes. -/
theorem agree_peek_after {σ : Type} {n : Nat} {scan : List UInt8 → σ × List UInt8} (place : σ → Position)
    (hscan : ∀ l more, (scan l).2 ≠ [] → scan (l ++ more) = ((scan l).1, (scan l).2 ++ more)) (h : o.Sees c d)
    (hn : (scan c.rest).2.length ≤ n) :
    o.Agree (fun p q => (scan d.rest).1 = (scan c.rest).1 ∧ o.Before n p q)
      (c.moveTo (place (scan c.rest).1) (scan c.rest).2).peek (d.moveTo (place (scan d.rest).1) (scan d.rest).2).peek := by
  by_cases hrest : (scan c.rest).2 = [] ∧ o.waiting = true ∧ o.more ≠ []
  · unfold Cursor.peek Cursor.moveTo
    simp only [hrest.1, h.stalled hrest.2.1]
    exact agree_of_more hrest.2.1 hrest.2.2
  · rw [h.scan_eq hscan hrest]
    exact agree_mono (agree_peek ⟨h.moveTo _ _, hn⟩) fun p q hpq => ⟨rfl, hpq⟩

theorem agree_skipSpace {n : Nat} (h : o.At n c d) : o.Agree (o.Before n) c.skipSpace d.skipSpace := by
  have hlen : (Cursor.pastSpace c.position c.rest).2.length ≤ n := by
    rw [pastSpace_snd]
    exact Nat.le_trans (List.dropWhile_suffix _).length_le h.2
  have hpeek := agree_peek_after id (fun _ more hl => pastSpace_append more hl) h.1 hlen
  rw [skipSpace_eq, skipSpace_eq, h.1.position]
  exact agree_mono hpeek fun p q hpq => hpq.2

end Outlook

end CatalogSync.Json
