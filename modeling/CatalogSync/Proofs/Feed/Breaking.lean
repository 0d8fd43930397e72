import CatalogSync.Proofs.Feed.Undisturbed
import Mathlib.Algebra.BigOperators.Group.List.Basic

/-!
# Feeds that break off

A feed that is not one whole array is read up to a defect (`Breaks`), wherever that is: before the array, in an
element, between two of them, at the end of the bytes, or after the closing bracket. Which side of the closing bracket
it is on decides what is delivered: only the full batches of the elements before it, or all of them. In batches that are
too large to be set up nothing is.

Main statements: `deliver_of_breaks`, `deliver_of_breaks_without_room`.
-/

namespace CatalogSync.Feed

open CatalogSync.Json CatalogSync.Json.Outlook Decoder

/-! ## Up to the defect -/

/-- Elements that are read one after the other, from one place in the array to another; with each place, whether no
element stands before it. -/
inductive Elements (fuel : Nat) : Cursor → Bool → List Json → Cursor → Bool → Prop
  | nil (c : Cursor) (first : Bool) : Elements fuel c first [] c first
  | cons {c c' e : Cursor} {first last : Bool} {v : Json} {vs : List Json}
      (h : nextElement fuel c first = .ok (some v, c')) (hrest : Elements fuel c' false vs e last) :
      Elements fuel c first (v :: vs) e last

/-- The sides of the closing bracket. -/
inductive Side where
  | inside
  | past
deriving DecidableEq, Repr

/-- **Defects.** The elements before the defect of a feed, the side of the closing bracket that it is on, and the
failure that it is told by. -/
inductive Breaks (s : Source) : List Json → Side → Failure → Prop
  /-- Something else than an array begins. -/
  | opening {f : Failure} (h : openArray (Cursor.stream s.bytes s.ending) = .error f) (hf : f.cause ≠ .stalled) :
      Breaks s [] .inside f
  | inside {c e : Cursor} {last : Bool} {items : List Json} {f : Failure}
      (hopen : openArray (Cursor.stream s.bytes s.ending) = .ok c) (hitems : Elements s.fuel c true items e last)
      (h : nextElement s.fuel e last = .error f) (hf : f.cause ≠ .stalled) :
      Breaks s items .inside (f.placedAt (endOf e))
  | past {c e d : Cursor} {last : Bool} {items : List Json} {f : Failure}
      (hopen : openArray (Cursor.stream s.bytes s.ending) = .ok c) (hitems : Elements s.fuel c true items e last)
      (hclose : nextElement s.fuel e last = .ok (none, d)) (h : readEnd d = .error f) (hf : f.cause ≠ .stalled) :
      Breaks s items .past f

/-- The batches of the elements before a defect that are handed over: inside the array those that are full, past it
all of them. -/
inductive HandedOver (size : Nat) (items : List Json) : Side → List Batch → Prop
  | inside {batches : List Batch} (count : batches.length = items.length / size)
      (full : ∀ batch ∈ batches, batch.length = size)
      (elements : batches.flatten = items.take (items.length / size * size)) : HandedOver size items .inside batches
  | past {batches : List Batch} (count : batches.length = (items.length + (size - 1)) / size)
      (full : ∀ batch ∈ batches.dropLast, batch.length = size)
      (last : ∀ batch ∈ batches.getLast?, 1 ≤ batch.length ∧ batch.length ≤ size)
      (elements : batches.flatten = items) : HandedOver size items .past batches

/-! ## Full batches -/

section Cutting

variable {size : Nat} {items : List Json} {full : List Batch} {rest : Batch}

/-- What is left over when more is to come is less than a batch, and the batches before it are full. -/
theorem full_of_cut (hcut : ∀ vs, cut size [] (items ++ vs) = full ++ cut size rest vs) :
    ∀ batch ∈ full, batch.length = max size 1 := by
  have hroom : ([] : Batch).length < max size 1 := by
    rw [List.length_nil]
    omega
  -- with one element more there is a batch after these
  have hmore := cut_full size [] (items ++ [.null]) hroom
  have hlater : cut size rest [.null] ≠ [] := by
    intro hnil
    have hflatten := cut_flatten size rest [.null]
    rw [hnil, List.flatten_nil] at hflatten
    exact absurd (List.append_eq_nil_iff.1 hflatten.symm).2 (List.cons_ne_nil _ _)
  intro batch hbatch
  apply hmore
  rw [hcut, List.dropLast_append_of_ne_nil hlater]
  exact List.mem_append_left _ hbatch

theorem handedOver_inside (hsize : 1 ≤ size) (hrest : rest.length < max size 1)
    (hcut : ∀ vs, cut size [] (items ++ vs) = full ++ cut size rest vs) : HandedOver size items .inside full := by
  have hmax : max size 1 = size := Nat.max_eq_left hsize
  have hfull : ∀ batch ∈ full, batch.length = size := fun batch hbatch => by
    rw [← hmax]
    exact full_of_cut hcut batch hbatch
  have helements : full.flatten ++ rest.reverse = items := by
    have hflatten := congrArg List.flatten (hcut [])
    rw [List.flatten_append, cut_flatten, cut_flatten] at hflatten
    simpa using hflatten.symm
  have hlength : full.flatten.length = full.length * size := by
    rw [List.length_flatten, List.sum_eq_card_nsmul _ size (List.forall_mem_map.2 hfull), List.length_map,
      Nat.nsmul_eq_mul]
  have hcount : items.length / size = full.length := by
    rw [← helements, List.length_append, hlength, List.length_reverse, Nat.add_comm, Nat.add_mul_div_right _ _ hsize,
      Nat.div_eq_of_lt (hmax ▸ hrest), Nat.zero_add]
  refine .inside hcount.symm hfull ?_
  rw [hcount, ← hlength, ← helements, List.take_left]

theorem handedOver_past (hsize : 1 ≤ size) (items : List Json) : HandedOver size items .past (cut size [] items) := by
  have hmax : max size 1 = size := Nat.max_eq_left hsize
  have hroom : ([] : Batch).length < max size 1 := by
    rw [List.length_nil]
    omega
  have hlength := length_cut size [] items hroom
  have hfull := cut_full size [] items hroom
  have hbounds := cut_bounds size [] items hroom
  rw [hmax] at hlength hfull hbounds
  rw [List.length_nil, Nat.zero_add] at hlength
  exact .past hlength hfull (fun batch hbatch => hbounds batch (List.mem_of_getLast? hbatch))
    (cut_flatten size [] items)

end Cutting

/-! ## What is delivered -/

section Delivering

variable {fuel size : Nat} {s : Source} {items : List Json} {side : Side} {f : Failure}

/-- Elements that are read are handed over in full batches, but for those that are left over. -/
theorem Elements.runs {c e : Cursor} {first last : Bool} (h : Elements fuel c first items e last) {batch : Batch}
    (hbatch : batch.length < max size 1) (count : Nat) :
    ∃ full rest, rest.length < max size 1 ∧ (∀ vs, cut size batch (items ++ vs) = full ++ cut size rest vs) ∧
      Runs fuel size (.reading c first batch count) full (.reading e last rest (count + items.length)) := by
  induction h generalizing batch count with
  | nil c first => exact ⟨[], batch, hbatch, fun _ => rfl, .stop _⟩
  | @cons c c' e first last v vs h _ ih =>
    obtain ⟨full, batch', hroom, hcut, hstep⟩ := element_runs h size batch count
    obtain ⟨full', rest, hrest, hcut', hruns⟩ := ih hroom (count + 1)
    refine ⟨full ++ full', rest, hrest, fun ws => ?_, ?_⟩
    · rw [List.cons_append, hcut, hcut', List.append_assoc]
    · have hcount : count + (v :: vs).length = count + 1 + vs.length := by
        rw [List.length_cons]
        omega
      rw [hcount]
      exact hstep.trans hruns

/-- Inside the array of a feed. -/
theorem Elements.runs_start {c e : Cursor} {last : Bool} (hopen : openArray (Cursor.stream s.bytes s.ending) = .ok c)
    (h : Elements s.fuel c true items e last) (hroom : HasRoom size) :
    ∃ full rest, rest.length < max size 1 ∧ (∀ vs, cut size [] (items ++ vs) = full ++ cut size rest vs) ∧
      Runs s.fuel size (start s) full (.reading e last rest items.length) := by
  have hempty : ([] : Batch).length < max size 1 := by
    rw [List.length_nil]
    omega
  obtain ⟨full, rest, hrest, hcut, hruns⟩ := h.runs hempty 0
  rw [Nat.zero_add] at hruns
  refine ⟨full, rest, hrest, hcut, .step rfl ?_⟩
  simp only [start, step, hopen, if_pos hroom]
  exact hruns

/-- The closing bracket of a feed: what is left over is handed over. -/
theorem Elements.runs_closing {c e d : Cursor} {last : Bool}
    (hopen : openArray (Cursor.stream s.bytes s.ending) = .ok c) (h : Elements s.fuel c true items e last)
    (hclose : nextElement s.fuel e last = .ok (none, d)) (hroom : HasRoom size) :
    Runs s.fuel size (start s) (cut size [] items) (.closing d items.length) := by
  obtain ⟨full, rest, -, hcut, hruns⟩ := h.runs_start hopen hroom
  have hall := hcut []
  rw [List.append_nil] at hall
  rw [hall]
  refine hruns.trans (.step rfl ?_)
  simp only [step, hclose, Bool.false_eq_true, if_false, cut]
  split
  · exact .stop _
  · exact .hand (.stop _)

/-- **Breaking off.** A feed delivers the batches before its defect that are to be handed over, and ends with its
failure. -/
theorem deliver_of_breaks (h : Breaks s items side f) (hsize : 1 ≤ size) (hroom : HasRoom size) :
    ∃ batches, deliver s size false = (batches, some (.error (DecodeFault.ofFailure false f))) ∧
      HandedOver size items side batches := by
  have hdeliver : ∀ {batches}, Runs s.fuel size (start s) batches (.failing f) →
      deliver s size false = (batches, some (.error (DecodeFault.ofFailure false f))) := fun hruns =>
    deliver_of_finished (hruns.on (failing_runs s.fuel size f))
  cases h with
  | opening h hf =>
    refine ⟨[], hdeliver (.step rfl ?_), .inside ?_ nofun ?_⟩
    · simp only [start, step, h]
      exact .stop _
    · rw [List.length_nil, List.length_nil, Nat.zero_div]
    · rw [List.take_nil]
      rfl
  | @inside c e last items f hopen hitems h hf =>
    obtain ⟨full, rest, hrest, hcut, hruns⟩ := hitems.runs_start hopen hroom
    refine ⟨full, hdeliver (hruns.on (.step rfl ?_)), handedOver_inside hsize hrest hcut⟩
    simp only [step, h, Bool.false_eq_true, if_false, failed]
    exact .stop _
  | past hopen hitems hclose h hf =>
    refine ⟨_, hdeliver ((hitems.runs_closing hopen hclose hroom).on (.step rfl ?_)), handedOver_past hsize items⟩
    simp only [step, h]
    exact .stop _

/-- **Breaking off without room.** Nothing is delivered, and what is told is the lack of room if an array begins. -/
theorem deliver_of_breaks_without_room (h : Breaks s items side f) (hroom : ¬HasRoom size) :
    ∃ fault, deliver s size false = ([], some (.error fault)) ∧
      (fault = .overflow ∨ items = [] ∧ side = .inside ∧ fault = DecodeFault.ofFailure false f) := by
  have hoverflow : ∀ {c}, openArray (Cursor.stream s.bytes s.ending) = .ok c →
      deliver s size false = ([], some (.error .overflow)) := fun hopen => by
    refine deliver_of_finished (.step rfl ?_)
    simp only [start, step, hopen, if_neg hroom]
    exact .stop _
  cases h with
  | opening h hf =>
    refine ⟨_, deliver_of_finished (.step rfl ?_), .inr ⟨rfl, rfl, rfl⟩⟩
    simp only [start, step, h]
    exact failing_runs _ _ f
  | inside hopen _ _ _ => exact ⟨_, hoverflow hopen, .inl rfl⟩
  | past hopen _ _ _ _ => exact ⟨_, hoverflow hopen, .inl rfl⟩

end Delivering

/-! ## Every other feed -/

section Every

variable {fuel : Nat} {s : Source}

/-- Inside the array elements are read up to a failure or to the closing bracket. By induction on the bytes ahead. -/
theorem elements_end {c : Cursor} (hf : Enough c.rest.length fuel) (first : Bool) :
    ∃ items e last, Elements fuel c first items e last ∧ Enough e.rest.length fuel ∧
      ((∃ f, nextElement fuel e last = .error f) ∨ ∃ d, nextElement fuel e last = .ok (none, d)) := by
  obtain ⟨n, hn⟩ : ∃ n, c.rest.length = n := ⟨_, rfl⟩
  induction n using Nat.strongRecOn generalizing c first with
  | ind n ih =>
    cases hnext : nextElement fuel c first with
    | error f => exact ⟨[], c, first, .nil c first, hf, .inl ⟨f, hnext⟩⟩
    | ok p =>
      obtain ⟨v, c'⟩ := p
      have hlater := nextElement_later hf hnext
      cases v with
      | none => exact ⟨[], c, first, .nil c first, hf, .inr ⟨c', hnext⟩⟩
      | some v =>
        have hf' : Enough c'.rest.length fuel := ⟨by have := hf.1; omega, hf.2⟩
        obtain ⟨items, e, last, hitems, hend⟩ := ih _ (by omega) hf' false rfl
        exact ⟨v :: items, e, last, .cons hnext hitems, hend⟩

/-- **Every feed** that does not stall and is not one array breaks off. -/
theorem breaks_of_not_document (hflows : s.ending ≠ .stalled)
    (hno : ∀ items, s.ending = .closed → readWithin depthLimit s.bytes ≠ .ok (.array items)) :
    ∃ items side f, Breaks s items side f := by
  have hstart := start_enough s
  have hcause : ∀ {α β : Type} {R : α → β → Prop} {c : Cursor} {f : Failure} {y : Except Failure β},
      c.ending = s.ending → Agree ⟨false, false, [], c.ending⟩ R (.error f : Except Failure α) y →
      f.cause ≠ .stalled := fun hend hagree hf => hflows (hend.symm.trans ((tells_of_agree hagree).eq_stalled hf))
  cases hopen : openArray (Cursor.stream s.bytes s.ending) with
  | error f =>
    have hagree := agree_openArray (sees_self (Cursor.stream s.bytes s.ending)).at
    rw [hopen] at hagree
    exact ⟨[], .inside, f, .opening hopen (hcause rfl hagree)⟩
  | ok c =>
    have hlater := openArray_later hopen
    have hahead : (start s).ahead = (Cursor.stream s.bytes s.ending).rest.length := rfl
    have hf : Enough c.rest.length s.fuel := ⟨by have := hstart.1; omega, hstart.2⟩
    obtain ⟨items, e, last, hitems, he, hend⟩ := elements_end hf true
    -- batches of one element will do to read it
    have hroom : HasRoom 1 := by decide
    obtain ⟨full, rest, -, -, hruns⟩ := hitems.runs_start hopen hroom
    have hending : e.ending = s.ending := hruns.endsWith rfl hstart
    rcases hend with ⟨f, h⟩ | ⟨d, h⟩
    · have hagree := agree_nextElement (sees_self e).at he he last
      rw [h] at hagree
      exact ⟨items, .inside, _, .inside hopen hitems h (hcause hending hagree)⟩
    · have hclosing := hitems.runs_closing hopen h hroom
      have hending' : d.ending = s.ending := hclosing.endsWith rfl hstart
      cases hlast : readEnd d with
      | error f =>
        have hagree := agree_readEnd (sees_self d).at
        rw [hlast] at hagree
        exact ⟨items, .past, f, .past hopen hitems h hlast (hcause hending' hagree)⟩
      | ok u =>
        -- nothing is wrong with it, so it is one array
        exfalso
        have hdone : Runs s.fuel 1 (start s) (cut 1 [] items) (.finished (.ok items.length)) := by
          refine hclosing.on (.step rfl ?_)
          simp only [step, hlast]
          exact .stop _
        have hdeliver := deliver_of_finished hdone
        obtain ⟨hclosed, items', hdoc, -⟩ := ok_of_deliver hdeliver
        exact hno items' hclosed hdoc

end Every

end CatalogSync.Feed
