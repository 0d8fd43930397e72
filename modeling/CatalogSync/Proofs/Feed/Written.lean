import CatalogSync.Proofs.Feed.Breaking
import CatalogSync.Proofs.Json.Written

/-!
# Feeds as they are written

The items of an array that was written come back one after the other from the stream (`elements_written`). With its
closing bracket the array is one document. A feed that ends in front of the bracket breaks off inside the array behind all
the items, and one that goes on behind it breaks off past the array.

Main statements: `written_document`, `unclosed_breaks`, `followed_breaks`.
-/

namespace CatalogSync.Feed

open CatalogSync.Json CatalogSync.Text Decoder

def written (items : List Json) : List UInt8 := (Json.array items).write.toUTF8.toList

/-- A feed of the items of an array and whatever follows them. -/
def feedOf (items : List Json) (tail : List UInt8) : Source := ⟨91 :: (utf8 (itemChars items) ++ tail), .closed⟩

/-- The text of an array, but for its closing bracket. -/
def unclosed (items : List Json) : Source := feedOf items []

/-- The text of an array and more behind it. -/
def followed (items : List Json) (more : List UInt8) : Source := feedOf items (93 :: more)

theorem written_eq (items : List Json) : written items = 91 :: (utf8 (itemChars items) ++ [93]) := by
  unfold written write
  rw [toList_toUTF8, String.toList_ofList, utf8_array]

theorem written_document {n : Nat} {items : List Json} (hn : n < elementDepth) (h : ∀ v ∈ items, Storable n v) :
    readWithin depthLimit (written items) = .ok (.array items) :=
  read_write (Nat.add_lt_of_lt_sub hn) (.array h)

/-! ## One element -/

section Element

variable {n fuel : Nat} {v : Json} {c : Cursor} {more : List UInt8}

theorem nextElement_first (hn : n < elementDepth) (hv : Storable n v) (hfuel : 2 * (utf8 (chars v)).length ≤ fuel)
    (hmore : Stops more) (h : c.Stands (utf8 (chars v) ++ more)) :
    ∃ c', nextElement fuel c true = .ok (some v, c') ∧ c'.Stands more := by
  obtain ⟨c₁, hahead, hc₁⟩ := elementAhead_first (hv.opens.append more) h
  obtain ⟨c₂, hread, hc₂⟩ := hv.readsBack _ _ _ _ hn hfuel hmore hc₁
  exact ⟨c₂, bind_eq_ok_iff.2 ⟨_, hahead, (if_pos rfl).trans (bind_eq_ok_iff.2 ⟨_, hread, rfl⟩)⟩, hc₂⟩

theorem nextElement_later (hn : n < elementDepth) (hv : Storable n v) (hfuel : 2 * (utf8 (chars v)).length ≤ fuel)
    (hmore : Stops more) (h : c.Stands (44 :: (utf8 (chars v) ++ more))) :
    ∃ c', nextElement fuel c false = .ok (some v, c') ∧ c'.Stands more := by
  obtain ⟨c₁, hahead, hc₁⟩ := elementAhead_later (hv.opens.append more) h
  obtain ⟨c₂, hread, hc₂⟩ := hv.readsBack _ _ _ _ hn hfuel hmore hc₁
  exact ⟨c₂, bind_eq_ok_iff.2 ⟨_, hahead, (if_pos rfl).trans (bind_eq_ok_iff.2 ⟨_, hread, rfl⟩)⟩, hc₂⟩

end Element

/-! ## All elements -/

section Elements

variable {n fuel : Nat} {items : List Json} {c : Cursor} {tail : List UInt8}

theorem stops_later (htail : Stops tail) (items : List Json) : Stops (utf8 (laterItems items) ++ tail) := by
  cases items with
  | nil => exact htail
  | cons v r =>
    rw [utf8_laterItems_cons]
    rintro _ ⟨⟩
    exact .inl rfl

theorem laterElements_written (hn : n < elementDepth) (htail : Stops tail) (hitems : ∀ v ∈ items, Storable n v)
    (hfuel : 2 * (utf8 (laterItems items)).length ≤ fuel) (h : c.Stands (utf8 (laterItems items) ++ tail)) :
    ∃ e, Elements fuel c false items e false ∧ e.Stands tail := by
  induction items generalizing c with
  | nil => exact ⟨c, .nil c false, h⟩
  | cons v r ih =>
    obtain ⟨hv, hr⟩ := List.forall_mem_cons.1 hitems
    rw [utf8_laterItems_cons, List.length_cons, List.length_append] at hfuel
    rw [utf8_laterItems_cons, List.cons_append, List.append_assoc] at h
    have hvalue : 2 * (utf8 (chars v)).length ≤ fuel := by omega
    obtain ⟨c₁, hnext, hc₁⟩ := nextElement_later hn hv hvalue (stops_later htail r) h
    obtain ⟨e, hrest, he⟩ := ih hr (by omega) hc₁
    exact ⟨e, .cons hnext hrest, he⟩

/-- The items of an array are read one after the other, up to what follows them. -/
theorem elements_written (hn : n < elementDepth) (htail : Stops tail) (hitems : ∀ v ∈ items, Storable n v)
    (hfuel : 2 * (utf8 (itemChars items)).length ≤ fuel) (h : c.Stands (utf8 (itemChars items) ++ tail)) :
    ∃ e last, Elements fuel c true items e last ∧ e.Stands tail := by
  cases items with
  | nil => exact ⟨c, true, .nil c true, h⟩
  | cons v r =>
    obtain ⟨hv, hr⟩ := List.forall_mem_cons.1 hitems
    rw [itemChars_cons, utf8_append, List.length_append] at hfuel
    rw [itemChars_cons, utf8_append, List.append_assoc] at h
    have hvalue : 2 * (utf8 (chars v)).length ≤ fuel := by omega
    have hlater : 2 * (utf8 (laterItems r)).length ≤ fuel := by omega
    obtain ⟨c₁, hnext, hc₁⟩ := nextElement_first hn hv hvalue (stops_later htail r) h
    obtain ⟨e, hrest, he⟩ := laterElements_written hn htail hr hlater hc₁
    exact ⟨e, false, .cons hnext hrest, he⟩

/-- The array of a feed is opened, and its items are read up to what follows them. -/
theorem feedOf_elements (hn : n < elementDepth) (htail : Stops tail) (hitems : ∀ v ∈ items, Storable n v) :
    ∃ c e last, openArray (Cursor.stream (feedOf items tail).bytes .closed) = .ok c ∧
      Elements (feedOf items tail).fuel c true items e last ∧ e.Stands tail := by
  have hstart : (Cursor.stream (feedOf items tail).bytes .closed).Stands (91 :: (utf8 (itemChars items) ++ tail)) :=
    ⟨rfl, rfl⟩
  obtain ⟨c, hskip, hc⟩ := hstart.skipSpace (by rintro _ ⟨⟩; rfl)
  have hfuel : 2 * (utf8 (itemChars items)).length ≤ (feedOf items tail).fuel := by
    change _ ≤ 2 * ((utf8 (itemChars items) ++ tail).length + 1) + 2
    rw [List.length_append]
    omega
  obtain ⟨e, last, helements, he⟩ := elements_written hn htail hitems hfuel hc.skip
  exact ⟨c.skip, e, last, bind_eq_ok_iff.2 ⟨_, hskip, rfl⟩, helements, he⟩

end Elements

/-- The steps of the decoder of a feed of two elements, both in one batch. -/
theorem pair_steps {n : Nat} {v w : Json} (hn : n < elementDepth) (hv : Storable n v) (hw : Storable n w) :
    ∃ c e f d, step (feedOf [v, w] [93]).fuel 2 false (start (feedOf [v, w] [93])) = .reading c true [] 0 ∧
      step (feedOf [v, w] [93]).fuel 2 false (.reading c true [] 0) = .reading e false [v] 1 ∧
      step (feedOf [v, w] [93]).fuel 2 false (.reading e false [v] 1) = .holding [v, w] (.reading f false [] 2) ∧
      step (feedOf [v, w] [93]).fuel 2 false (.reading f false [] 2) = .closing d 2 ∧
      step (feedOf [v, w] [93]).fuel 2 false (.closing d 2) = .finished (.ok 2) := by
  have hbracket : Stops [93] := by
    rintro _ ⟨⟩
    exact .inr (.inl rfl)
  have hroom : HasRoom 2 := by decide
  have hitems : ∀ u ∈ [v, w], Storable n u := List.forall_mem_cons.2 ⟨hv, List.forall_mem_singleton.2 hw⟩
  obtain ⟨c, f, last, hopen, helements, hf⟩ := feedOf_elements hn hbracket hitems
  cases helements with
  | @cons _ e _ _ _ _ _ hfirst hrest =>
    cases hrest with
    | cons hsecond hrest =>
      cases hrest
      obtain ⟨d, hahead, hd⟩ := elementAhead_end hf false
      have hclose : nextElement (feedOf [v, w] [93]).fuel f false = .ok (none, d.skip) :=
        bind_eq_ok_iff.2 ⟨_, hahead, rfl⟩
      obtain ⟨d', hskip, -⟩ := hd.skip.skipSpace nofun
      have hend : readEnd d.skip = .ok () := bind_eq_ok_iff.2 ⟨_, hskip, rfl⟩
      have hstart : start (feedOf [v, w] [93]) = .opening (Cursor.stream (feedOf [v, w] [93]).bytes .closed) := rfl
      refine ⟨c, e, f, d.skip, ?_, ?_, ?_, ?_, ?_⟩
      · simp only [hstart, step, hopen, if_pos hroom]
      · simp [step, hfirst]
      · simp [step, hsecond]
      · simp [step, hclose]
      · simp [step, hend]

/-! ## Feeds that are not one array -/

section Broken

variable {n : Nat} {items : List Json}

/-- **Cut off.** A feed that ends in front of the closing bracket breaks off behind all the items of its array. -/
theorem unclosed_breaks (hn : n < elementDepth) (hitems : ∀ v ∈ items, Storable n v) :
    ∃ p, Breaks (unclosed items) items .inside ⟨.endInList, some p⟩ := by
  have hnothing : Stops [] := nofun
  obtain ⟨c, e, last, hopen, helements, he⟩ := feedOf_elements hn hnothing hitems
  obtain ⟨d, hskip, -⟩ := he.skipSpace nofun
  have hahead : elementAhead e last = .error ⟨.endInList, some d.ahead⟩ := by
    unfold elementAhead
    rw [hskip]
    rfl
  have hfail : nextElement (unclosed items).fuel e last = .error ⟨.endInList, some d.ahead⟩ := by
    unfold nextElement
    rw [hahead]
    rfl
  exact ⟨d.ahead, .inside hopen helements hfail Cause.noConfusion⟩

/-- **Carried on.** A feed that goes on behind the closing bracket with anything but blanks breaks off there. -/
theorem followed_breaks (hn : n < elementDepth) (hitems : ∀ v ∈ items, Storable n v) {b : UInt8} {r : List UInt8}
    (hb : Cursor.isSpace b = false) :
    ∃ p, Breaks (followed items (b :: r)) items .past ⟨.trailingCharacters, some p⟩ := by
  have hbracket : Stops (93 :: b :: r) := by
    rintro _ ⟨⟩
    exact .inr (.inl rfl)
  obtain ⟨c, e, last, hopen, helements, he⟩ := feedOf_elements hn hbracket hitems
  obtain ⟨d, hahead, hd⟩ := elementAhead_end he last
  have hclose : nextElement (followed items (b :: r)).fuel e last = .ok (none, d.skip) :=
    bind_eq_ok_iff.2 ⟨_, hahead, rfl⟩
  obtain ⟨d', hskip, -⟩ := hd.skip.skipSpace (by rintro _ ⟨⟩; exact hb)
  have hend : readEnd d.skip = .error ⟨.trailingCharacters, some d'.ahead⟩ := by
    unfold readEnd
    rw [hskip]
    rfl
  exact ⟨d'.ahead, .past hopen helements hclose hend Cause.noConfusion⟩

end Broken

end CatalogSync.Feed
