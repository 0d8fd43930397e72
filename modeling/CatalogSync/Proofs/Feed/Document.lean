import CatalogSync.Proofs.Feed.Pieces

/-!
# A feed as a document

A feed is read element by element and handed over in batches, a document is read as a whole.
`start_runs` relates the two: the batches of a feed are its array cut into batches, if the whole feed
reads as one array, and otherwise its decoder ends with a fault. `deliver_agrees` says it of what is
delivered, and `ok_of_deliver` says it of a decoder that is content with its feed. Where there is no
room for a batch, nothing is delivered (`deliver_overflows`).
-/

namespace CatalogSync.Feed

open CatalogSync.Json CatalogSync.Json.Outlook

/-! ## Cutting a list into batches -/

/-- The elements cut into full batches, and what is left over in a last one; `batch` holds elements from
before in reverse. -/
def cut (size : Nat) (batch : Batch) : List Json → List Batch
  | [] => if batch.isEmpty then [] else [batch.reverse]
  | v :: vs =>
    if max size 1 ≤ (v :: batch).length then (v :: batch).reverse :: cut size [] vs else cut size (v :: batch) vs

theorem cut_flatten (size : Nat) (batch : Batch) (vs : List Json) :
    (cut size batch vs).flatten = batch.reverse ++ vs := by
  induction vs generalizing batch with
  | nil =>
    unfold cut
    cases batch with
    | nil => rfl
    | cons v batch => simp
  | cons v vs ih =>
    unfold cut
    split
    · rw [List.flatten_cons, ih]
      simp
    · rw [ih]
      simp

/-- All batches but the last are full. -/
theorem cut_full (size : Nat) (batch : Batch) (vs : List Json) (hbatch : batch.length < max size 1) :
    ∀ b ∈ (cut size batch vs).dropLast, b.length = max size 1 := by
  induction vs generalizing batch with
  | nil =>
    unfold cut
    split <;> simp
  | cons v vs ih =>
    unfold cut
    split
    · next hfull =>
      intro b hb
      cases hrest : cut size [] vs with
      | nil => simp [hrest] at hb
      | cons a l =>
        rw [hrest, List.dropLast_cons_cons, List.mem_cons] at hb
        rcases hb with rfl | hb
        · rw [List.length_cons] at hfull
          rw [List.length_reverse, List.length_cons]
          omega
        · rw [← hrest] at hb
          exact ih [] (by simp only [List.length_nil]; omega) b hb
    · next hfull => exact ih (v :: batch) (by omega)

/-- No batch is empty, and none is larger than it may be. -/
theorem cut_bounds (size : Nat) (batch : Batch) (vs : List Json) (hbatch : batch.length < max size 1) :
    ∀ b ∈ cut size batch vs, 1 ≤ b.length ∧ b.length ≤ max size 1 := by
  induction vs generalizing batch with
  | nil =>
    unfold cut
    cases batch with
    | nil => simp
    | cons v batch =>
      simp only [List.isEmpty_cons, Bool.false_eq_true, if_false, List.mem_singleton, forall_eq, List.length_reverse]
      rw [List.length_cons] at hbatch ⊢
      omega
  | cons v vs ih =>
    unfold cut
    split
    · next hfull =>
      intro b hb
      rcases List.mem_cons.mp hb with rfl | hb
      · rw [List.length_cons] at hfull
        rw [List.length_reverse, List.length_cons]
        omega
      · exact ih [] (by simp only [List.length_nil]; omega) b hb
    · next hfull => exact ih (v :: batch) (by omega)

/-- There are as many batches as it takes to hold the elements. -/
theorem length_cut (size : Nat) (batch : Batch) (vs : List Json) (hbatch : batch.length < max size 1) :
    (cut size batch vs).length = (batch.length + vs.length + (max size 1 - 1)) / max size 1 := by
  have hpos : 0 < max size 1 := by omega
  induction vs generalizing batch with
  | nil =>
    unfold cut
    cases batch with
    | nil =>
      simp only [List.isEmpty_nil, if_true, List.length_nil]
      rw [Nat.div_eq_of_lt (by omega)]
    | cons v batch =>
      simp only [List.isEmpty_cons, Bool.false_eq_true, if_false, List.length_singleton]
      rw [List.length_cons] at hbatch
      have hone : (v :: batch).length + ([] : List Json).length + (max size 1 - 1) = batch.length + max size 1 := by
        rw [List.length_cons, List.length_nil]
        omega
      rw [hone, Nat.add_div_right _ hpos, Nat.div_eq_of_lt (by omega)]
  | cons v vs ih =>
    have hcons : batch.length + (v :: vs).length = (v :: batch).length + vs.length := by
      rw [List.length_cons, List.length_cons]
      omega
    rw [hcons]
    unfold cut
    split
    · next hfull =>
      have hsize : (v :: batch).length = max size 1 := by
        rw [List.length_cons] at hfull ⊢
        omega
      have hnext : (v :: batch).length + vs.length + (max size 1 - 1) =
          ([] : Batch).length + vs.length + (max size 1 - 1) + max size 1 := by
        rw [hsize, List.length_nil]
        omega
      rw [List.length_cons, ih [] hpos, hnext, Nat.add_div_right _ hpos]
    · next hfull => exact ih (v :: batch) (by omega)

/-! ## The document -/

theorem openArray_iff {c d : Cursor} :
    Decoder.openArray c = .ok d ↔ ∃ b, c.skipSpace = .ok (some 91, b) ∧ b.skip = d := by
  unfold Decoder.openArray
  constructor
  · intro h
    obtain ⟨⟨next, b⟩, hskip, h⟩ := ok_of_bind h
    dsimp only at h
    split at h
    · cases h
    · cases h
      exact ⟨b, hskip, rfl⟩
    · cases hkind : readKind b with
      | error f =>
        rw [hkind] at h
        cases h
      | ok p =>
        rw [hkind] at h
        cases h
  · rintro ⟨b, hskip, rfl⟩
    rw [hskip]
    rfl

/-- A document that is one array: blanks, the items between their brackets, and blanks. -/
theorem readWithin_array_iff {bytes : List UInt8} {items : List Json} :
    readWithin depthLimit bytes = .ok (.array items) ↔
      ∃ b c, Decoder.openArray (Cursor.whole bytes) = .ok b ∧
        readItems (2 * bytes.length + 1) Decoder.elementDepth b true [] = .ok (items, c) ∧ readEnd c = .ok () := by
  unfold readWithin enoughSteps
  constructor
  · intro h
    obtain ⟨⟨v, c⟩, hvalue, h⟩ := ok_of_bind h
    obtain ⟨u, hend, h⟩ := ok_of_bind h
    cases h
    obtain ⟨b, hskip, -, hitems⟩ := readValue_array_iff.mp hvalue
    exact ⟨b.skip, c, openArray_iff.mpr ⟨b, hskip, rfl⟩, hitems, hend⟩
  · rintro ⟨b, c, hopen, hitems, hend⟩
    obtain ⟨a, hskip, rfl⟩ := openArray_iff.mp hopen
    have hvalue : readValue (2 * bytes.length + 2) depthLimit (Cursor.whole bytes) = .ok (.array items, c) :=
      readValue_array_iff.mpr ⟨a, hskip, by decide, hitems⟩
    rw [hvalue]
    change (readEnd c >>= fun _ => .ok (Json.array items)) = _
    rw [hend]
    rfl

namespace Decoder

theorem readItems_succ (fuel : Nat) (c : Cursor) (first : Bool) (acc : List Json) :
    readItems (fuel + 1) elementDepth c first acc = (nextElement fuel c first >>= fun p =>
      match p with
      | (some v, c) => readItems fuel elementDepth c false (v :: acc)
      | (none, c) => .ok (acc.reverse, c)) := by
  rw [readItems]
  unfold nextElement
  cases elementAhead c first with
  | error f => rfl
  | ok p =>
    obtain ⟨more, c⟩ := p
    cases more with
    | false => rfl
    | true =>
      change (readValue fuel elementDepth c >>= _) = ((readValue fuel elementDepth c >>= _) >>= _)
      cases readValue fuel elementDepth c <;> rfl

/-- The outlook of a text that streams in to its end, towards the same text held whole. -/
def held : Outlook := ⟨false, false, [], .closed⟩

/-- At the same place a step of the decoder fails if the document does. -/
theorem held_failure {α β : Type} {R : α → β → Prop} {f : Failure} {y : Except Failure β}
    (h : held.Agree R (.error f : Except Failure α) y) : f.cause ≠ .stalled ∧ ∃ g, y = .error g := by
  rcases h with hw | ⟨g, hy, -, -, hend⟩
  · cases hw.waiting
  · exact ⟨fun hf => Ending.noConfusion (hend.eq_stalled hf), g, hy⟩

variable {fuel fuel' size : Nat}

/-- One element: it stays in the batch, or the batch is full and handed over. -/
theorem element_runs {c c' : Cursor} {v : Json} {first : Bool} (h : nextElement fuel c first = .ok (some v, c'))
    (size : Nat) (batch : Batch) (count : Nat) :
    ∃ full batch', batch'.length < max size 1 ∧ (∀ vs, cut size batch (v :: vs) = full ++ cut size batch' vs) ∧
      Runs fuel size (.reading c first batch count) full (.reading c' false batch' (count + 1)) := by
  by_cases hfull : max size 1 ≤ (v :: batch).length
  · refine ⟨[(v :: batch).reverse], [], by rw [List.length_nil]; omega, fun vs => ?_, .step rfl ?_⟩
    · rw [cut, if_pos hfull]
      rfl
    · simp only [step, h, Bool.false_eq_true, if_false, if_pos hfull]
      exact .hand (.stop _)
  · refine ⟨[], v :: batch, Nat.lt_of_not_le hfull, fun vs => ?_, .step rfl ?_⟩
    · rw [cut, if_neg hfull]
      rfl
    · simp only [step, h, Bool.false_eq_true, if_false, if_neg hfull]
      exact .stop _

/-- Inside the array the decoder hands over the items that the document goes on with, or it fails and so
does the document. By induction on the bytes ahead: an element consumes one of them at least. -/
theorem reading_runs {n : Nat} {c w : Cursor} (h : held.At n c w) (hf : Enough n fuel) (hf' : 2 * n + 2 ≤ fuel')
    (size : Nat) (first : Bool) (batch : Batch) (count : Nat) (acc : List Json) :
    (∃ vs c' w', readItems fuel' elementDepth w first acc = .ok (acc.reverse ++ vs, w') ∧
        Runs fuel size (.reading c first batch count) (cut size batch vs) (.closing c' (count + vs.length)) ∧
        held.Sees c' w') ∨
      ((∃ g, readItems fuel' elementDepth w first acc = .error g) ∧
        ∃ batches f, Runs fuel size (.reading c first batch count) batches (.failing f)) := by
  induction n using Nat.strongRecOn generalizing fuel' c w first batch count acc with
  | ind n ih =>
    obtain ⟨k, rfl⟩ : ∃ k, fuel' = k + 1 := ⟨fuel' - 1, by omega⟩
    have hk : Enough n k := ⟨by omega, by omega⟩
    have hnext := agree_nextElement h hf hk first
    rw [readItems_succ]
    cases hc : nextElement fuel c first with
    | error f =>
      rw [hc] at hnext
      obtain ⟨hcause, g, hw⟩ := held_failure hnext
      right
      refine ⟨⟨g, by rw [hw]; rfl⟩, [], f.placedAt (endOf c), .step rfl ?_⟩
      simp only [step, hc, Bool.false_eq_true, if_false, failed]
      exact .stop _
    | ok p =>
      obtain ⟨v, c'⟩ := p
      rw [hc] at hnext
      obtain ⟨⟨v', w'⟩, hw, hpos, rfl, hat⟩ := hnext
      rw [hw]
      cases v' with
      | none =>
        left
        refine ⟨[], c', w', by rw [List.append_nil]; rfl, .step rfl ?_, hat.1⟩
        simp only [step, hc, Bool.false_eq_true, if_false, cut]
        split
        · exact .stop _
        · exact .hand (.stop _)
      | some v =>
        obtain ⟨full, batch', -, hcut, hstep⟩ := element_runs hc size batch count
        have hfuel : Enough (n - 1) fuel := ⟨by have := hf.1; omega, hf.2⟩
        rcases ih (n - 1) (by omega) hat hfuel (by omega : 2 * (n - 1) + 2 ≤ k) false batch' (count + 1) (v :: acc) with
          ⟨vs, e, w'', hitems, hruns, hsees⟩ | ⟨hfail, batches, f, hruns⟩
        · left
          have hcount : count + 1 + vs.length = count + (v :: vs).length := by
            rw [List.length_cons]
            omega
          refine ⟨v :: vs, e, w'', ?_, ?_, hsees⟩
          · change readItems k elementDepth w' false (v :: acc) = _
            rw [hitems, List.reverse_cons, List.append_assoc]
            rfl
          · rw [hcut, ← hcount]
            exact hstep.trans hruns
        · right
          exact ⟨hfail, full ++ batches, f, hstep.trans hruns⟩

theorem failing_runs (fuel size : Nat) (f : Failure) :
    Runs fuel size (.failing f) [] (.finished (.error (DecodeFault.ofFailure false f))) := .step rfl (.stop _)

/-- After the array the decoder ends: it is content just if the document ends there. -/
theorem closing_runs {c w : Cursor} (h : held.Sees c w) (fuel size count : Nat) :
    (readEnd w = .ok () ∧ Runs fuel size (.closing c count) [] (.finished (.ok count))) ∨
      ((∃ g, readEnd w = .error g) ∧ ∃ e, Runs fuel size (.closing c count) [] (.finished (.error e))) := by
  have hend := agree_readEnd h.at
  cases hc : readEnd c with
  | ok u =>
    rw [hc] at hend
    obtain ⟨u', hw, -⟩ := hend
    left
    refine ⟨hw, .step rfl ?_⟩
    simp only [step, hc]
    exact .stop _
  | error f =>
    rw [hc] at hend
    obtain ⟨hcause, g, hw⟩ := held_failure hend
    right
    refine ⟨⟨g, hw⟩, DecodeFault.ofFailure false f, .step rfl ?_⟩
    simp only [step, hc]
    exact failing_runs _ _ f

theorem held_sees (bytes : List UInt8) : held.Sees (Cursor.stream bytes .closed) (Cursor.whole bytes) where
  rest := (List.append_nil _).symm
  last := rfl
  room := ⟨rfl, rfl⟩
  position := rfl
  peeked := rfl
  streamed := Bool.noConfusion
  seen := fun he => Bool.noConfusion he

/-- The batches of a feed are those of the array that it is as a document; if it is none, the decoder
ends with a fault. -/
theorem start_runs (bytes : List UInt8) (hroom : HasRoom size) :
    (∃ items, readWithin depthLimit bytes = .ok (.array items) ∧
        Runs (enoughSteps bytes.length) size (start ⟨bytes, .closed⟩) (cut size [] items)
          (.finished (.ok items.length))) ∨
      ((∀ items, readWithin depthLimit bytes ≠ .ok (.array items)) ∧
        ∃ batches e, Runs (enoughSteps bytes.length) size (start ⟨bytes, .closed⟩) batches (.finished (.error e))) := by
  have hopen := agree_openArray (held_sees bytes).at
  unfold start
  cases hc : openArray (Cursor.stream bytes .closed) with
  | error f =>
    rw [hc] at hopen
    obtain ⟨hcause, g, hw⟩ := held_failure hopen
    right
    refine ⟨fun items hdoc => ?_, [], DecodeFault.ofFailure false f, .step rfl ?_⟩
    · obtain ⟨b, c, hb, -⟩ := readWithin_array_iff.mp hdoc
      rw [hw] at hb
      cases hb
    · simp only [step, hc]
      exact failing_runs _ _ f
  | ok c =>
    rw [hc] at hopen
    obtain ⟨w, hw, hpos, hat⟩ := hopen
    change 1 ≤ bytes.length at hpos
    change held.At (bytes.length - 1) c w at hat
    have hfirst : (Decoder.opening (Cursor.stream bytes .closed)).step (enoughSteps bytes.length) size false =
        .reading c true [] 0 := by
      simp only [step, hc, if_pos hroom]
    have hfuel : Enough (bytes.length - 1) (enoughSteps bytes.length) := by
      unfold Enough enoughSteps
      omega
    -- a document that is an array has been read from the same bracket, by the same items and to the same end
    have hsame : ∀ items, readWithin depthLimit bytes = .ok (.array items) →
        ∃ w', readItems (2 * bytes.length + 1) elementDepth w true [] = .ok (items, w') ∧ readEnd w' = .ok () := by
      intro items hdoc
      obtain ⟨b, e, hb, hitems, he⟩ := readWithin_array_iff.mp hdoc
      rw [hw] at hb
      cases hb
      exact ⟨e, hitems, he⟩
    rcases reading_runs hat hfuel (by omega : 2 * (bytes.length - 1) + 2 ≤ 2 * bytes.length + 1) size true [] 0 [] with
      ⟨items, c', w', hitems, hruns, hlast⟩ | ⟨⟨g, hfail⟩, batches, f, hruns⟩
    · rw [Nat.zero_add] at hruns
      rcases closing_runs hlast (enoughSteps bytes.length) size items.length with ⟨hw', hend⟩ | ⟨⟨g, hw'⟩, e, hend⟩
      · left
        refine ⟨items, readWithin_array_iff.mpr ⟨w, w', hw, hitems, hw'⟩, .step rfl ?_⟩
        rw [hfirst]
        exact hruns.on hend
      · right
        refine ⟨fun items' hdoc => ?_, cut size [] items, e, .step rfl ?_⟩
        · obtain ⟨w'', hitems', he⟩ := hsame items' hdoc
          rw [hitems] at hitems'
          cases hitems'
          rw [hw'] at he
          cases he
        · rw [hfirst]
          exact hruns.on hend
    · right
      refine ⟨fun items hdoc => ?_, batches, DecodeFault.ofFailure false f, .step rfl ?_⟩
      · obtain ⟨w', hitems, -⟩ := hsame items hdoc
        rw [hfail] at hitems
        cases hitems
      · rw [hfirst]
        exact hruns.on (failing_runs _ _ f)

/-- Without room for a batch nothing is handed over, and an array is refused for the lack of it. -/
theorem start_overflows (bytes : List UInt8) (hroom : ¬HasRoom size) :
    ∃ fault, Runs (enoughSteps bytes.length) size (start ⟨bytes, .closed⟩) [] (.finished (.error fault)) ∧
      ∀ items, readWithin depthLimit bytes = .ok (.array items) → fault = .overflow := by
  have hopen := agree_openArray (held_sees bytes).at
  unfold start
  cases hc : openArray (Cursor.stream bytes .closed) with
  | error f =>
    rw [hc] at hopen
    obtain ⟨hcause, g, hw⟩ := held_failure hopen
    refine ⟨DecodeFault.ofFailure false f, .step rfl ?_, fun items hdoc => ?_⟩
    · simp only [step, hc]
      exact failing_runs _ _ f
    · obtain ⟨b, c, hb, -⟩ := readWithin_array_iff.mp hdoc
      rw [hw] at hb
      cases hb
  | ok c =>
    refine ⟨.overflow, .step rfl ?_, fun _ _ => rfl⟩
    simp only [step, hc, if_neg hroom]
    exact .stop _

end Decoder

/-! ## What is delivered -/

/-- What a decoder delivers of these bytes is what they are as a document. -/
structure Agrees (bytes : List UInt8) (size : Nat) (batches : List Batch) (outcome : Outcome) : Prop where
  /-- The decoder is content just with one array, and has counted its elements. -/
  ok_iff : ∀ n, outcome = .ok n ↔
    ∃ items, readWithin depthLimit bytes = .ok (.array items) ∧ n = items.length
  /-- The elements come in order, and each of them once. -/
  elements : ∀ items, readWithin depthLimit bytes = .ok (.array items) → batches.flatten = items
  full : ∀ items, readWithin depthLimit bytes = .ok (.array items) →
    ∀ batch ∈ batches.dropLast, batch.length = max size 1
  last : ∀ items, readWithin depthLimit bytes = .ok (.array items) →
    ∀ batch ∈ batches.getLast?, 1 ≤ batch.length ∧ batch.length ≤ max size 1
  /-- Anything else is a fault. -/
  fault : (∀ items, readWithin depthLimit bytes ≠ .ok (.array items)) → ∃ e, outcome = .error e

/-- An array is delivered in its batches. -/
theorem deliver_document {bytes : List UInt8} {items : List Json} {size : Nat}
    (h : readWithin depthLimit bytes = .ok (.array items)) (hroom : HasRoom size) :
    deliver ⟨bytes, .closed⟩ size false = (cut size [] items, some (.ok items.length)) := by
  rcases Decoder.start_runs bytes hroom with ⟨items', hdoc, hruns⟩ | ⟨hno, -⟩
  · rw [h] at hdoc
    cases hdoc
    exact deliver_of_finished (s := ⟨bytes, .closed⟩) hruns
  · exact absurd h (hno items)

/-- Without room for a batch nothing is delivered. -/
theorem deliver_overflows (bytes : List UInt8) {size : Nat} (hroom : ¬HasRoom size) :
    ∃ fault, deliver ⟨bytes, .closed⟩ size false = ([], some (.error fault)) ∧
      ∀ items, readWithin depthLimit bytes = .ok (.array items) → fault = .overflow := by
  obtain ⟨fault, hruns, hfault⟩ := Decoder.start_overflows bytes hroom
  exact ⟨fault, deliver_of_finished (s := ⟨bytes, .closed⟩) hruns, hfault⟩

/-- An array is refused only for the lack of room. -/
theorem overflow_of_document {bytes : List UInt8} {items : List Json} {size : Nat} {batches : List Batch}
    {fault : DecodeFault} (hdoc : readWithin depthLimit bytes = .ok (.array items))
    (h : deliver ⟨bytes, .closed⟩ size false = (batches, some (.error fault))) : fault = .overflow := by
  by_cases hroom : HasRoom size
  · rw [deliver_document hdoc hroom] at h
    cases h
  · obtain ⟨fault', hdeliver, hfault⟩ := deliver_overflows bytes hroom
    rw [hdeliver] at h
    cases h
    exact hfault items hdoc

/-- A decoder that is content had room. -/
theorem hasRoom_of_ok {bytes : List UInt8} {size : Nat} {batches : List Batch} {n : Nat}
    (h : deliver ⟨bytes, .closed⟩ size false = (batches, some (.ok n))) : HasRoom size := by
  by_contra hroom
  obtain ⟨fault, hdeliver, -⟩ := deliver_overflows bytes hroom
  rw [h] at hdeliver
  cases hdeliver

theorem deliver_agrees (bytes : List UInt8) {size : Nat} (hroom : HasRoom size) :
    ∃ outcome, (deliver ⟨bytes, .closed⟩ size false).2 = some outcome ∧
      Agrees bytes size (deliver ⟨bytes, .closed⟩ size false).1 outcome := by
  rcases Decoder.start_runs bytes hroom with ⟨items, hdoc, hruns⟩ | ⟨hno, batches, e, hruns⟩
  · rw [deliver_of_finished (s := ⟨bytes, .closed⟩) hruns]
    have hitems : ∀ items', readWithin depthLimit bytes = .ok (.array items') → items' = items := by
      intro items' h
      rw [hdoc] at h
      cases h
      rfl
    have hsize : ([] : Batch).length < max size 1 := by
      rw [List.length_nil]
      omega
    refine ⟨.ok items.length, rfl, ?_, ?_, ?_, ?_, ?_⟩
    · intro n
      constructor
      · intro h
        cases h
        exact ⟨items, hdoc, rfl⟩
      · rintro ⟨items', h, rfl⟩
        rw [hitems items' h]
    · intro items' h
      rw [hitems items' h]
      exact cut_flatten size [] items
    · intro items' _
      exact cut_full size [] items hsize
    · intro items' _ batch hbatch
      exact cut_bounds size [] items hsize batch (List.mem_of_getLast? hbatch)
    · intro h
      exact absurd hdoc (h items)
  · rw [deliver_of_finished (s := ⟨bytes, .closed⟩) hruns]
    refine ⟨.error e, rfl, ?_, ?_, ?_, ?_, fun _ => ⟨e, rfl⟩⟩
    · intro n
      constructor
      · intro h
        cases h
      · rintro ⟨items, h, -⟩
        exact absurd h (hno items)
    · intro items h
      exact absurd h (hno items)
    · intro items h
      exact absurd h (hno items)
    · intro items h
      exact absurd h (hno items)

/-! ## Feeds that do not end for good -/

namespace Decoder

/-- The text that a decoder reads ends so, and it is content only with a text that ends for good. -/
def EndsWith (ending : Ending) : Decoder → Prop
  | .opening c => c.ending = ending
  | .reading c _ _ _ => c.ending = ending
  | .holding _ next => next.EndsWith ending
  | .closing c _ => c.ending = ending
  | .failing _ => True
  | .finished (.ok _) => ending = .closed
  | .finished (.error _) => True

variable {ending : Ending} {fuel size : Nat}

theorem Takes.endsWith {d e : Decoder} (h : Takes fuel size d e) (hd : EndsWith ending d) (hf : Enough d.ahead fuel) :
    EndsWith ending e := by
  have hnext : ∀ {c c' : Cursor} {first : Bool} {v : Option Json}, c.ending = ending → Enough c.rest.length fuel →
      nextElement fuel c first = .ok (v, c') → c'.ending = ending := by
    intro c c' first v hc hf hok
    have hagree := agree_nextElement (sees_self c).at hf hf first
    rw [hok] at hagree
    obtain ⟨q, -, -, -, hsees, -⟩ := hagree
    exact (hsees.ending_eq rfl).trans hc
  cases h with
  | stay => exact hd
  | fail f h => trivial
  | @opened c c' hok =>
    have hagree := agree_openArray (sees_self c).at
    rw [hok] at hagree
    obtain ⟨b, -, -, hsees, -⟩ := hagree
    exact (hsees.ending_eq rfl).trans hd
  | overflow => trivial
  | keep hok => exact hnext hd hf hok
  | fill hok => exact hnext hd hf hok
  | close hok => exact hnext hd hf hok
  | last hok => exact hnext hd hf hok
  | finish hok => exact hd.symm.trans (ending_of_readEnd hok)
  | report e => trivial

theorem Runs.endsWith {d e : Decoder} {batches : List Batch} (hruns : Runs fuel size d batches e)
    (h : EndsWith ending d) (hf : Enough d.ahead fuel) : EndsWith ending e := by
  induction hruns with
  | stop d => exact h
  | step hbusy _ ih =>
    have hle := step_ahead_le size false hf
    exact ih ((step_takes _ _ _ _).endsWith h hf) ⟨by have := hf.1; omega, hf.2⟩
  | hand _ ih => exact ih h hf

end Decoder

/-- A decoder that is content has delivered the array that its feed is. -/
theorem ok_of_deliver {s : Source} {size : Nat} {batches : List Batch} {n : Nat}
    (h : deliver s size false = (batches, some (.ok n))) :
    s.ending = .closed ∧ ∃ items, readWithin depthLimit s.bytes = .ok (.array items) ∧ batches.flatten = items := by
  have hstart : Decoder.EndsWith s.ending (Decoder.start s) := rfl
  have hclosed : s.ending = .closed := (runs_of_deliver h).endsWith hstart (start_enough s)
  refine ⟨hclosed, ?_⟩
  obtain ⟨bytes, ending⟩ := s
  obtain rfl : ending = .closed := hclosed
  obtain ⟨outcome, hdeliver, hagrees⟩ := deliver_agrees bytes (hasRoom_of_ok h)
  rw [h] at hdeliver hagrees
  cases hdeliver
  obtain ⟨items, hdoc, -⟩ := (hagrees.ok_iff n).mp rfl
  exact ⟨items, hdoc, hagrees.elements items hdoc⟩

end CatalogSync.Feed
