import CatalogSync.Proofs.Feed.Draining
import Mathlib.Data.List.Infix

/-!
# What the fault of a decoder tells

A decoder knows why it failed from a text alone, and takes one that begins with the mark of a decoder that was told to
stop for just that (`IsMarked`). No text over malformed bytes begins so, but the text of a failed read may.

`AsksOn` says which of the two a feed comes to: whether a decoder that has all its bytes asks for more, or has found
fault with them. `ToldApart` is what the end of a decoder then tells. A decoder without room for a batch finds fault with
nothing and panics once the array is open (`Overflowed`).

Main statement: `toldApart_of_reaches`.
-/

namespace CatalogSync.Feed

open CatalogSync.Json CatalogSync.Json.Outlook

/-! ## Texts with the mark -/

/-- A text begins like that of a decoder that was told to stop. -/
def IsMarked (text : String) : Prop := DecodeFault.stopMark.toList <+: text.toList

instance : DecidablePred IsMarked := fun text => by unfold IsMarked; infer_instance

/-- What follows a beginning of the mark does not go on like a place. -/
theorem drop_mark (k : Nat) (hk : k < DecodeFault.stopMark.toList.length) :
    ¬(DecodeFault.stopMark.toList.drop k).take 2 <+: [' ', 'a'] := by
  revert k
  decide

/-- A place told after a text does not change whether the text is marked. -/
theorem isMarked_append (text place : String) : IsMarked (text ++ (" at line " ++ place)) ↔ IsMarked text := by
  unfold IsMarked
  rw [String.toList_append, String.toList_append]
  constructor
  · intro h
    by_cases hlen : DecodeFault.stopMark.toList.length ≤ text.toList.length
    · exact List.prefix_of_prefix_length_le h (List.prefix_append _ _) hlen
    · have hrest := (h.drop text.toList.length).take 2
      rw [List.drop_left] at hrest
      exact absurd hrest (drop_mark _ (Nat.lt_of_not_le hlen))
  · exact fun h => h.trans (List.prefix_append _ _)

theorem isMarked_message (f : Failure) : IsMarked f.message ↔ IsMarked f.cause.message := by
  unfold Failure.message
  split
  · rfl
  · simp only [String.append_assoc]
    exact isMarked_append _ _

/-- What is wrong with bytes is never told by a text with the mark. -/
theorem not_isMarked_of_bytes {cause : Cause} (h : cause.OfBytes) : ¬IsMarked cause.message := by
  cases cause with
  | mismatch reason =>
    obtain ⟨v, wanted, rfl⟩ := h
    unfold IsMarked Cause.message Json.wrongKind
    intro hmark
    have hhead := hmark.take 1
    rw [String.toList_append, String.toList_append, String.toList_append] at hhead
    exact absurd hhead (by decide : ¬['d'] <+: ['i'])
  | read reason => exact h.elim
  | stalled => exact h.elim
  | _ => decide

/-! ## What a failure becomes -/

theorem ofFailure_of_bytes {f : Failure} (h : f.cause.OfBytes) :
    DecodeFault.ofFailure false f = .framing f.message := by
  have hmark : ¬IsMarked f.message := (isMarked_message f).not.2 (not_isMarked_of_bytes h)
  unfold DecodeFault.ofFailure
  rw [Bool.false_or, if_neg (by rwa [List.isPrefixOf_iff_prefix])]
  split
  · next reason hcause =>
    rw [hcause] at h
    exact h.elim
  · rfl

theorem ofFailure_of_read {f : Failure} {reason : String} (h : f.cause = .read reason) :
    DecodeFault.ofFailure false f = if IsMarked reason then .cancelled else .read f.message := by
  have hmark : IsMarked f.message ↔ IsMarked reason := by
    rw [isMarked_message, h]
    rfl
  unfold DecodeFault.ofFailure
  rw [Bool.false_or, h]
  simp only [List.isPrefixOf_iff_prefix]
  exact if_congr hmark rfl rfl

/-- What a decoder may fail by: its bytes, or the read after them. -/
def FailedBy (ending : Ending) (f : Failure) : Prop :=
  f.cause.OfBytes ∨ ∃ reason, f.cause = .read reason ∧ ending = .broken reason

theorem failedBy_of_tells {ending : Ending} {f : Failure} (h : ending.Tells f.cause) (hf : f.cause ≠ .stalled) :
    FailedBy ending f := by
  unfold FailedBy
  generalize f.cause = cause at h hf ⊢
  cases h with
  | bytes hbytes => exact .inl hbytes
  | read hbroken => exact .inr ⟨_, rfl, hbroken⟩
  | stalled => exact absurd rfl hf

/-- There was no room for a batch. -/
def Overflowed (size : Nat) (found : Outcome) : Prop := ¬HasRoom size ∧ found = .error .overflow

namespace Decoder

variable {fuel size : Nat} {ending : Ending} {d e : Decoder} {f : Failure}

/-- A decoder that has failed has done so by its bytes, by the read after them or for lack of room. -/
def FailsBy (ending : Ending) (size : Nat) : Decoder → Prop
  | .holding _ next => next.FailsBy ending size
  | .failing f => FailedBy ending f
  | .finished (.error fault) =>
    Overflowed size (.error fault) ∨ ∃ f, FailedBy ending f ∧ fault = DecodeFault.ofFailure false f
  | _ => True

/-- **One step.** -/
theorem FailsBy.step (h : d.FailsBy ending size) (hends : d.EndsWith ending) (hbusy : d.isBusy = true)
    (hf : Enough d.ahead fuel) : (d.step fuel size false).FailsBy ending size := by
  generalize hstep : d.step fuel size false = e
  have htakes := step_takes fuel size false d
  rw [hstep] at htakes
  cases htakes with
  | stay => exact h
  | fail f =>
    obtain ⟨hfails, hcause⟩ := fails_of_failing hbusy hf hstep
    exact failedBy_of_tells (hfails.tells hends hf) hcause
  | @report f fault =>
    injection hstep with houtcome
    injection houtcome with hfault
    exact .inr ⟨f, h, hfault.symm⟩
  | overflow hopen hroom => exact .inl ⟨hroom, rfl⟩
  | opened => trivial
  | keep => trivial
  | fill => trivial
  | close => trivial
  | last => trivial
  | finish => trivial

/-- A whole run, by induction on its steps. -/
theorem Runs.failsBy {batches : List Batch} (hruns : Runs fuel size d batches e) (h : d.FailsBy ending size)
    (hends : d.EndsWith ending) (hf : Enough d.ahead fuel) : e.FailsBy ending size := by
  induction hruns with
  | stop d => exact h
  | step hbusy _ ih =>
    have hle := step_ahead_le size false hf
    exact ih (h.step hends hbusy hf) ((step_takes _ _ _ _).endsWith hends hf) ⟨by have := hf.1; omega, hf.2⟩
  | hand _ ih => exact ih h hends hf

end Decoder

open Decoder

variable {bytes : List UInt8} {ending : Ending} {size : Nat} {batches : List Batch}

/-- A decoder ends with a fault by its bytes, by the read after them or for lack of room. -/
theorem failedBy_of_deliver {fault : DecodeFault} (h : deliver ⟨bytes, ending⟩ size false = (batches, some (.error fault))) :
    Overflowed size (.error fault) ∨ ∃ f, FailedBy ending f ∧ fault = DecodeFault.ofFailure false f :=
  (runs_of_deliver h).failsBy trivial rfl (start_enough _)

/-! ## A decoder that has found fault with the bytes -/

/-- What is wrong with the bytes stays wrong, whatever comes after them. -/
theorem deliver_more {outcome : Outcome} (h : deliver ⟨bytes, .stalled⟩ size false = (batches, some outcome))
    (more : List UInt8) (ending : Ending) : deliver ⟨bytes ++ more, ending⟩ size false = (batches, some outcome) := by
  have hstart := start_enough ⟨bytes ++ more, ending⟩
  have hahead : (start ⟨bytes, .stalled⟩).ahead ≤ (start ⟨bytes ++ more, ending⟩).ahead :=
    (start_sees_more bytes more ending).left.1
  obtain ⟨e, hruns, hsees⟩ := (runs_of_deliver h).sees rfl (start_sees_more bytes more ending) (start_enough _)
    (⟨by have := hstart.1; omega, hstart.2⟩ : Enough _ (Source.fuel ⟨bytes ++ more, ending⟩))
  cases hsees with
  | finished => exact deliver_of_finished hruns

/-- A decoder that ends without asking for more than the bytes has found them malformed, or had no room. -/
theorem framing_of_found {outcome : Outcome} (h : deliver ⟨bytes, .stalled⟩ size false = (batches, some outcome)) :
    Overflowed size outcome ∨ ∃ text, outcome = .error (.framing text) := by
  cases outcome with
  | ok n => exact Ending.noConfusion (ok_of_deliver h).1
  | error fault =>
    rcases failedBy_of_deliver h with hover | ⟨f, hbytes | ⟨reason, -, hbroken⟩, rfl⟩
    · exact .inl hover
    · exact .inr ⟨_, congrArg _ (ofFailure_of_bytes hbytes)⟩
    · cases hbroken

/-! ## A decoder that asks for more -/

/-- Where one decoder waits for a byte, the read fails that another one is at. -/
theorem read_of_agree {α β : Type} {R : α → β → Prop} {reason : String} {f : Failure} {y : Except Failure β}
    (h : (awaiting [] (.broken reason)).Agree R (.error f : Except Failure α) y) (hf : f.cause = .stalled) :
    ∃ g, y = .error g ∧ g.cause = .read reason := by
  rcases h with hwaits | ⟨g, -, -, -, htells⟩
  · exact hwaits.read reason rfl rfl
  · exact Ending.noConfusion (htells.eq_stalled hf)

theorem Decoder.Fails.of_sees {fuel : Nat} {d e : Decoder} {f : Failure} {reason : String} (h : Fails fuel d f)
    (hf : f.cause = .stalled) (hsees : Sees (awaiting [] (.broken reason)) d e) (henough : Enough d.ahead fuel) :
    ∃ g, Fails fuel e g ∧ g.cause = .read reason := by
  cases h with
  | opening h =>
    cases hsees with
    | opening hc =>
      have hagree := agree_openArray hc.at
      rw [h] at hagree
      obtain ⟨g, hg, hcause⟩ := read_of_agree hagree hf
      exact ⟨g, .opening hg, hcause⟩
  | reading first batch count h =>
    rw [placedAt_cause] at hf
    cases hsees with
    | reading _ _ _ hc =>
      have hagree := agree_nextElement hc.at henough henough first
      rw [h] at hagree
      obtain ⟨g, hg, hcause⟩ := read_of_agree hagree hf
      exact ⟨_, .reading first batch count hg, by rw [placedAt_cause, hcause]⟩
  | closing count h =>
    cases hsees with
    | closing _ hc =>
      have hagree := agree_readEnd hc.at
      rw [h] at hagree
      obtain ⟨g, hg, hcause⟩ := read_of_agree hagree hf
      exact ⟨g, .closing count hg, hcause⟩

/-- A decoder that asks for more comes upon the read that fails. -/
theorem deliver_broken (h : deliver ⟨bytes, .stalled⟩ size false = (batches, none)) (reason : String) :
    ∃ f : Failure, f.cause = .read reason ∧
      deliver ⟨bytes, .broken reason⟩ size false = (batches, some (.error (DecodeFault.ofFailure false f))) := by
  obtain ⟨d, hruns, hbusy, hstep⟩ := runs_of_waiting h
  obtain ⟨f, hfails, hf⟩ := waits_of_stuck hbusy (runs_enough hruns) hstep
  have hsees := start_sees_more bytes [] (.broken reason)
  rw [List.append_nil] at hsees
  obtain ⟨e, hwhole, he⟩ := hruns.sees rfl hsees (start_enough _) (start_enough _)
  obtain ⟨g, hg, hcause⟩ := hfails.of_sees hf he (runs_enough hruns)
  have hfailing := hg.failing (by rw [hcause]; exact Cause.noConfusion) size
  have hend := hwhole.on (.step hg.isBusy (hfailing ▸ failing_runs _ size g))
  exact ⟨g, hcause, deliver_of_finished (s := ⟨bytes, .broken reason⟩) hend⟩

/-! ## Told apart -/

/-- A decoder that has got these bytes asks for more. -/
def AsksOn (bytes : List UInt8) (size : Nat) : Prop := (deliver ⟨bytes, .stalled⟩ size false).2 = none

/-- What the end of a decoder tells of its feed. -/
structure ToldApart (bytes : List UInt8) (ending : Ending) (size : Nat) (found : Outcome) : Prop where
  /-- Unless the decoder asks for more than the bytes, they are the beginning of no array, which is told; but without room
  for a batch it may have panicked. -/
  malformed : ¬AsksOn bytes size → Overflowed size found ∨ ((∃ text, found = .error (.framing text)) ∧
    ∀ more items, readWithin depthLimit (bytes ++ more) ≠ .ok (.array items))
  /-- If the decoder asks for more and the read fails, the text of the read is told, unless it has the mark. -/
  read : AsksOn bytes size → ∀ reason, ending = .broken reason → ∃ place : Option Position,
    found = .error (if IsMarked reason then .cancelled else .read (Failure.message ⟨.read reason, place⟩))
  /-- Nothing else is told like a decoder that was told to stop. -/
  cancelled : found = .error .cancelled → AsksOn bytes size ∧ ∃ reason, ending = .broken reason ∧ IsMarked reason
  /-- If the feed ends for good, it is one array or malformed, as long as there was room. -/
  closed : ending = .closed → Overflowed size found ∨
    (∃ items, readWithin depthLimit bytes = .ok (.array items) ∧ found = .ok items.length) ∨
    ((∀ items, readWithin depthLimit bytes ≠ .ok (.array items)) ∧ ∃ text, found = .error (.framing text))

/-- Bytes with which a decoder finds fault. -/
theorem malformed_of_not_asksOn {found : Outcome} (hfound : ¬AsksOn bytes size)
    (h : deliver ⟨bytes, ending⟩ size false = (batches, some found)) :
    Overflowed size found ∨ ((∃ text, found = .error (.framing text)) ∧
      ∀ more items, readWithin depthLimit (bytes ++ more) ≠ .ok (.array items)) := by
  obtain ⟨outcome, hout⟩ := Option.ne_none_iff_exists'.1 hfound
  have hdeliver : deliver ⟨bytes, .stalled⟩ size false = (_, some outcome) := Prod.ext rfl hout
  have hsame := deliver_more hdeliver [] ending
  rw [List.append_nil, h] at hsame
  cases hsame
  refine (framing_of_found hdeliver).imp_right fun hframing => ⟨hframing, fun more items hdoc => ?_⟩
  obtain ⟨text, rfl⟩ := hframing
  cases overflow_of_document hdoc (deliver_more hdeliver more .closed)

/-- **Told apart.** However a decoder that nobody stops ends. -/
theorem toldApart_of_deliver {found : Outcome} (h : deliver ⟨bytes, ending⟩ size false = (batches, some found)) :
    ToldApart bytes ending size found where
  malformed hfound := malformed_of_not_asksOn hfound h
  read hasks reason hbroken := by
    subst hbroken
    obtain ⟨f, hcause, hdeliver⟩ := deliver_broken (Prod.ext rfl hasks) reason
    rw [h, ofFailure_of_read hcause] at hdeliver
    cases hdeliver
    obtain ⟨cause, place⟩ := f
    obtain rfl : cause = .read reason := hcause
    exact ⟨place, rfl⟩
  cancelled hcancelled := by
    subst hcancelled
    constructor
    · by_contra hfound
      rcases malformed_of_not_asksOn hfound h with ⟨-, hover⟩ | ⟨⟨text, htext⟩, -⟩
      · cases hover
      · cases htext
    · rcases failedBy_of_deliver h with ⟨-, hover⟩ | ⟨f, hbytes | ⟨reason, hcause, hbroken⟩, hfault⟩
      · cases hover
      · rw [ofFailure_of_bytes hbytes] at hfault
        cases hfault
      · rw [ofFailure_of_read hcause] at hfault
        split at hfault
        · next hmark => exact ⟨reason, hbroken, hmark⟩
        · cases hfault
  closed hclosed := by
    subst hclosed
    cases found with
    | ok n =>
      obtain ⟨-, items, hdoc, -⟩ := ok_of_deliver h
      rw [deliver_document hdoc (hasRoom_of_ok h)] at h
      cases h
      exact .inr (.inl ⟨items, hdoc, rfl⟩)
    | error fault =>
      rcases failedBy_of_deliver h with hover | ⟨f, hbytes | ⟨reason, -, hbroken⟩, rfl⟩
      · exact .inl hover
      · refine .inr (.inr ⟨fun items hdoc => ?_, _, congrArg _ (ofFailure_of_bytes hbytes)⟩)
        rw [ofFailure_of_bytes hbytes] at h
        cases overflow_of_document hdoc h
      · cases hbroken

/-- The same of a decoder to which a feed comes piece by piece while its batches are taken, in any order. -/
theorem toldApart_of_reaches {pieces : List (List UInt8)} {d : Draining} {found : Outcome}
    (h : Draining.Reaches (.start pieces ending size) d) (hend : d.exchange.outcome? = some found) :
    ToldApart pieces.flatten ending size found :=
  toldApart_of_deliver (Draining.delivered_of_outcome h hend)

end CatalogSync.Feed
