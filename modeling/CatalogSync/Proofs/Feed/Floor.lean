import CatalogSync.Proofs.Feed.Draining
import CatalogSync.Proofs.Program.World
import CatalogSync.Server.Basic
import Mathlib.Logic.Function.Basic

/-!
# Decoders at work beside a program

On a `Floor` decoders work while a program takes their batches and somebody may cancel any token at any
time. All of this happens in any order. A batch that is ready and a cancelled token are both answers
that the program may get, and a channel closes as soon as its decoder is past the array.

`Tracks` ties what a decoder was given, what it has handed over, what is on its way and what has been
received. It lasts (`Tracks.stirs`), and `received_of_join` is what it says at the end.
-/

namespace CatalogSync.Feed

open CatalogSync.Json CatalogSync.Json.Outlook

/-- Decoders by their numbers, and the tokens that are cancelled. -/
structure Floor where
  decodings : Nat → Option Decoding
  cancelled : Token → Bool

namespace Floor

def bare : Floor := ⟨fun _ => none, fun _ => false⟩

/-- The floor with a decoder in its place. -/
def put (s : Floor) (id : Nat) (d : Decoding) : Floor :=
  { s with decodings := Function.update s.decodings id (some d) }

/-- A decoder takes a step, or a token is cancelled. -/
inductive Stirs (s : Floor) : Floor → Prop
  | work {id : Nat} {d : Decoding} (h : s.decodings id = some d) :
      Stirs s (s.put id { d with exchange := d.exchange.work (s.cancelled d.token || !d.exchange.attended) })
  | cancel (token : Token) : Stirs s { s with cancelled := Function.update s.cancelled token true }

/-- What a receiver may find. -/
def Arrives (s : Floor) (id : Nat) (token : Token) (s' : Floor) : Arrival → Prop
  | .cancelled => s.cancelled token = true ∧ s' = s
  | .batch items => ∃ d e, s.decodings id = some d ∧ d.exchange.take? = some (.batch items, e) ∧
      s' = s.put id { d with exchange := e }
  | .closed => ∃ d, s.decodings id = some d ∧ d.exchange.queue = [] ∧ d.exchange.decoder.hungUp = true ∧ s' = s

/-- What may answer a question. Where decoders have no part in it, that is anything. -/
def Answers (s : Floor) : (q : Ask) → q.Answer → Floor → Prop
  | .startDecoder source size token, id, s' =>
    s.decodings id = none ∧ s' = s.put id ⟨token, Exchange.start source size⟩
  | .receive id token, arrival, s' => s.Arrives id token s' arrival
  | .join id, outcome, s' => (∃ d, s.decodings id = some d ∧ d.exchange.outcome? = some outcome) ∧ s' = s
  | .abandon id, _, s' => ∃ d, s.decodings id = some d ∧ s' = s.put id { d with exchange := d.exchange.leave }
  | .isCancelled token, answer, s' => answer = s.cancelled token ∧ s' = s
  | _, _, s' => s' = s

/-- Decoders, a program and somebody who cancels. -/
def world : World Floor := ⟨Stirs, Answers⟩

/-! ## What has been received -/

/-- A decoder that was told to stop, or that found a fault. -/
def Halted : Decoder → Prop
  | .failing _ => True
  | .finished (.error _) => True
  | _ => False

/-- A decoder is where it would be undisturbed, or it has halted after that. What it has handed over is
what was received and what is on its way. -/
structure Tracks (source : Source) (size : Nat) (received : List Batch) (e : Exchange) : Prop where
  source_eq : e.source = source
  fuel_eq : e.fuel = source.fuel
  size_eq : e.size = size
  attended : e.attended = true
  runs : ∃ whole, Decoder.Runs source.fuel size (Decoder.start source) (received ++ e.queue) whole ∧
    (e.decoder = whole ∨ Halted e.decoder)

variable {source : Source} {size : Nat} {received : List Batch} {e : Exchange}

theorem start_tracks (source : Source) (size : Nat) : Tracks source size [] (Exchange.start source size) :=
  ⟨rfl, rfl, rfl, rfl, _, .stop _, .inl rfl⟩

theorem step_of_cancelled (fuel size : Nat) (d : Decoder) :
    d.step fuel size true = d.step fuel size false ∨ Halted (d.step fuel size true) := by
  cases d with
  | reading c first batch count => exact .inr trivial
  | failing f => exact .inr trivial
  | opening c => exact .inl rfl
  | holding batch next => exact .inl rfl
  | closing c count => exact .inl rfl
  | finished outcome => exact .inl rfl

theorem Halted.step {d : Decoder} (h : Halted d) (fuel size : Nat) (cancelled : Bool) :
    Halted (d.step fuel size cancelled) := by
  cases d with
  | failing f => trivial
  | finished outcome => exact h
  | reading c first batch count => exact h.elim
  | opening c => exact h.elim
  | holding batch next => exact h.elim
  | closing c count => exact h.elim

/-- **One step of the decoder**, cancelled or not. -/
theorem Tracks.work (h : Tracks source size received e) (cancelled : Bool) :
    Tracks source size received (e.work cancelled) := by
  obtain ⟨hsource, hfuel, hsize, hattended, whole, hruns, hwhole⟩ := h
  by_cases hd : ∃ batch next, e.decoder = .holding batch next
  · obtain ⟨batch, next, hd⟩ := hd
    have hwhole : whole = .holding batch next := by
      rcases hwhole with hwhole | hhalted
      · rw [← hwhole, hd]
      · rw [hd] at hhalted
        exact hhalted.elim
    subst hwhole
    rcases Exchange.work_of_holding hd hattended cancelled with hwork | hwork
    · rw [hwork]
      refine ⟨hsource, hfuel, hsize, hattended, next, ?_, .inl rfl⟩
      have hrun := hruns.trans (.hand (.stop next))
      rwa [List.append_assoc] at hrun
    · rw [hwork]
      exact ⟨hsource, hfuel, hsize, hattended, _, hruns, .inl hd⟩
  · have hno : ∀ batch next, e.decoder ≠ .holding batch next := fun batch next h => hd ⟨batch, next, h⟩
    rw [Exchange.work_of_not_holding hno, hfuel, hsize]
    refine ⟨hsource, rfl, rfl, hattended, ?_⟩
    rcases hwhole with hwhole | hhalted
    · subst hwhole
      by_cases hbusy : e.decoder.isBusy = true
      · have hnext := hruns.on (.step hbusy (.stop _))
        cases cancelled with
        | false => exact ⟨_, hnext, .inl rfl⟩
        | true =>
          rcases step_of_cancelled source.fuel size e.decoder with hstep | hhalted
          · exact ⟨_, hnext, .inl hstep⟩
          · exact ⟨_, hruns, .inr hhalted⟩
      · exact ⟨_, hruns, .inl (Decoder.step_of_not_busy hbusy)⟩
    · exact ⟨whole, hruns, .inr (hhalted.step _ _ _)⟩

theorem Tracks.take {items : Batch} {e' : Exchange} (h : Tracks source size received e)
    (htake : e.take? = some (.batch items, e')) : Tracks source size (received ++ [items]) e' := by
  obtain ⟨hsource, hfuel, hsize, hattended, whole, hruns, hwhole⟩ := h
  obtain ⟨queue, hqueue, rfl⟩ := Exchange.take_batch htake
  refine ⟨hsource, hfuel, hsize, hattended, whole, ?_, hwhole⟩
  rw [hqueue] at hruns
  rwa [List.append_assoc]

/-- What has been received comes first in what the feed delivers. -/
theorem Tracks.received_first (h : Tracks source size received e) : received <+: (deliver source size false).1 := by
  obtain ⟨-, -, -, -, whole, hruns, -⟩ := h
  exact (List.prefix_append _ _).trans (runs_first hruns)

/-! ## On the floor -/

/-- The decoder of a number, from which this much has been received. -/
def Tracking (source : Source) (size : Nat) (id : Nat) (received : List Batch) (s : Floor) : Prop :=
  ∃ d, s.decodings id = some d ∧ Tracks source size received d.exchange

/-- The same, with the channel closed and nothing on its way. -/
def Drained (source : Source) (size : Nat) (id : Nat) (received : List Batch) (s : Floor) : Prop :=
  ∃ d, s.decodings id = some d ∧ Tracks source size received d.exchange ∧ d.exchange.queue = [] ∧
    d.exchange.decoder.hungUp = true

variable {s s' : Floor} {id : Nat}

theorem put_same (s : Floor) (id : Nat) (d : Decoding) : (s.put id d).decodings id = some d := by
  simp [put]

theorem put_other {j : Nat} (h : id ≠ j) (s : Floor) (d : Decoding) : (s.put j d).decodings id = s.decodings id := by
  simp [put, h]

/-- What one step of its decoder keeps of an exchange is kept by whatever happens on the floor. -/
theorem stirs_keeps {P : Exchange → Prop} (hP : ∀ e cancelled, P e → P (e.work (cancelled || !e.attended)))
    (h : ∃ d, s.decodings id = some d ∧ P d.exchange) (hstir : Stirs s s') :
    ∃ d, s'.decodings id = some d ∧ P d.exchange := by
  obtain ⟨d, hd, hPd⟩ := h
  cases hstir with
  | @work j d' hd' =>
    by_cases hj : id = j
    · subst hj
      rw [hd] at hd'
      cases hd'
      exact ⟨_, put_same _ _ _, hP _ _ hPd⟩
    · exact ⟨d, by rw [put_other hj, hd], hPd⟩
  | cancel token => exact ⟨d, hd, hPd⟩

theorem Tracking.stirs (h : Tracking source size id received s) (hstir : Stirs s s') :
    Tracking source size id received s' :=
  stirs_keeps (fun _ _ htracks => htracks.work _) h hstir

theorem hungUp_step {d : Decoder} (h : d.hungUp = true) (fuel size : Nat) (cancelled : Bool) :
    (d.step fuel size cancelled).hungUp = true := by
  cases d with
  | closing c count =>
    simp only [Decoder.step]
    split
    · rfl
    · split <;> rfl
  | failing f => rfl
  | finished outcome => rfl
  | opening c => cases h
  | reading c first batch count => cases h
  | holding batch next => cases h

theorem Drained.stirs (h : Drained source size id received s) (hstir : Stirs s s') :
    Drained source size id received s' := by
  refine stirs_keeps (P := fun e => Tracks source size received e ∧ e.queue = [] ∧ e.decoder.hungUp = true) ?_ h hstir
  rintro e cancelled ⟨htracks, hqueue, hhung⟩
  have hno : ∀ batch next, e.decoder ≠ .holding batch next := by
    intro batch next hd
    rw [hd] at hhung
    cases hhung
  refine ⟨htracks.work _, ?_, ?_⟩
  · rw [Exchange.work_of_not_holding hno, hqueue]
  · rw [Exchange.work_of_not_holding hno]
    exact hungUp_step hhung _ _ _

/-- **The end.** A channel that has closed and a decoder that is content mean that everything which the
feed delivers has been received. -/
theorem Drained.received_of_join {d : Decoding} {n : Nat} (h : Drained source size id received s)
    (hd : s.decodings id = some d) (hjoin : d.exchange.outcome? = some (.ok n)) :
    deliver source size false = (received, some (.ok n)) := by
  obtain ⟨d', hd', ⟨-, -, -, -, whole, hruns, hwhole⟩, hqueue, -⟩ := h
  rw [hd] at hd'
  cases hd'
  have hdone := Exchange.decoder_of_outcome hjoin
  rw [hdone] at hwhole
  rw [hqueue, List.append_nil] at hruns
  rcases hwhole with hwhole | hhalted
  · rw [← hwhole] at hruns
    exact deliver_of_finished hruns
  · exact hhalted.elim

end Floor

end CatalogSync.Feed
