import CatalogSync.Proofs.Program.World
import Mathlib.Logic.Function.Basic

/-!
# Programs side by side

Programs that run side by side in a world take turns, question by question and in any order:
`Together` are their runs. `Follows` says that a program keeps to a protocol, whatever it is
answered: a stage goes with it, and every question with its answer is a step that the stage allows.

Main statements: `Together.allowed` and `Together.keeps`. Programs that follow a protocol each
follow it side by side, and what every allowed step keeps is kept by them all.
-/

namespace CatalogSync

namespace Program

variable {α β σ ι S : Type}

/-! ## Protocols -/

/-- Whatever the answers are, the program takes steps of a protocol, and `post` holds of its result and its stage at
the end. -/
def Follows (next : S → Event → Option S) (post : α → S → Prop) : Program α → S → Prop
  | .done a, st => post a st
  | .ask q k, st => ∀ a, ∃ st', next st ⟨q, a⟩ = some st' ∧ Follows next post (k a) st'

section Follows

variable {next : S → Event → Option S} {post : α → S → Prop} {st : S}

theorem Follows.pure {a : α} (h : post a st) : Follows next post (pure a) st := h

theorem Follows.bind {p : Program α} {f : α → Program β} {post' : β → S → Prop} (h : Follows next post p st)
    (hf : ∀ a st, post a st → Follows next post' (f a) st) : Follows next post' (p >>= f) st := by
  change Follows next post' (p.bind f) st
  induction p generalizing st with
  | done a => exact hf a st h
  | ask q k ih =>
    intro a
    obtain ⟨st', hnext, hrest⟩ := h a
    exact ⟨st', hnext, ih a hrest⟩

theorem Follows.call {q : Ask} {f : q.Answer → Program α}
    (h : ∀ a, ∃ st', next st ⟨q, a⟩ = some st' ∧ Follows next post (f a) st') :
    Follows next post (Program.call q >>= f) st := h

/-- A question that leaves the stage as it is. -/
theorem Follows.aside {q : Ask} {f : q.Answer → Program α} (hq : ∀ a, next st ⟨q, a⟩ = some st)
    (h : ∀ a, Follows next post (f a) st) : Follows next post (Program.call q >>= f) st :=
  fun a => ⟨st, hq a, h a⟩

theorem Follows.ite {c : Prop} [Decidable c] {p q : Program α} (hp : c → Follows next post p st)
    (hq : ¬ c → Follows next post q st) : Follows next post (if c then p else q) st := by
  split
  · next hc => exact hp hc
  · next hc => exact hq hc

/-- A program all of whose questions leave the stage as it is. -/
theorem All.follows {asks : Ask → Prop} {gives : α → Prop} {p : Program α} (h : All asks gives p)
    (hasks : ∀ q a, asks q → next st ⟨q, a⟩ = some st) :
    Follows next (fun a st' => gives a ∧ st' = st) p st := by
  induction p with
  | done a => exact ⟨h, rfl⟩
  | ask q k ih => exact fun a => ⟨st, hasks q a h.1, ih a (h.2 a)⟩

end Follows

/-! ## Runs side by side -/

variable [DecidableEq ι]

/-- A run of programs side by side: from a state, by events, each with the one who asked, to what is left of the
programs and the state then. -/
inductive Together (w : World σ) : (ι → Program α) → σ → List (ι × Event) → (ι → Program α) → σ → Prop
  | start (ps : ι → Program α) (s : σ) : Together w ps s [] ps s
  | stir {ps rs : ι → Program α} {s m s' : σ} {t : List (ι × Event)} (h : w.stirs s m)
      (rest : Together w ps m t rs s') : Together w ps s t rs s'
  | answer {ps rs : ι → Program α} {i : ι} {q : Ask} {k : q.Answer → Program α} {a : q.Answer} {s m s' : σ}
      {t : List (ι × Event)} (hi : ps i = .ask q k) (h : w.answers s q a m)
      (rest : Together w (Function.update ps i (k a)) m t rs s') : Together w ps s ((i, ⟨q, a⟩) :: t) rs s'

/-- The stages after an event. -/
def advance (next : S → Event → Option S) (st : ι → S) (e : ι × Event) : ι → S :=
  Function.update st e.1 ((next (st e.1) e.2).getD (st e.1))

/-- The stages after events. -/
def track (next : S → Event → Option S) (st : ι → S) (t : List (ι × Event)) : ι → S := t.foldl (advance next) st

variable {w : World σ} {next : S → Event → Option S} {post : α → S → Prop} {ps rs : ι → Program α} {st : ι → S}
  {s s' : σ} {t u v : List (ι × Event)}

theorem track_append : track next st (u ++ v) = track next (track next st u) v := by
  unfold track
  rw [List.foldl_append]

theorem advance_of_next {i : ι} {e : Event} {x : S} (h : next (st i) e = some x) :
    advance next st (i, e) = Function.update st i x := by
  unfold advance
  rw [h, Option.getD_some]

theorem Together.append {qs : ι → Program α} {m : σ} (hfirst : Together w ps s u qs m)
    (hthen : Together w qs m v rs s') : Together w ps s (u ++ v) rs s' := by
  induction hfirst with
  | start => exact hthen
  | stir h _ ih => exact .stir h (ih hthen)
  | answer hi h _ ih => exact .answer hi h (ih hthen)

/-- A run by way of a state. -/
theorem Together.split (hrun : Together w ps s (u ++ v) rs s') :
    ∃ qs m, Together w ps s u qs m ∧ Together w qs m v rs s' := by
  generalize ht : u ++ v = t at hrun
  induction hrun generalizing u with
  | start ps s =>
    obtain ⟨rfl, rfl⟩ := List.append_eq_nil_iff.1 ht
    exact ⟨ps, s, .start ps s, .start ps s⟩
  | stir hstir _ ih =>
    obtain ⟨qs, m, hfirst, hthen⟩ := ih ht
    exact ⟨qs, m, .stir hstir hfirst, hthen⟩
  | @answer ps rs i q k a s m s' t hi hans rest ih =>
    cases u with
    | nil =>
      refine ⟨ps, s, .start ps s, ?_⟩
      rw [show v = _ from ht]
      exact .answer hi hans rest
    | cons e u =>
      rw [List.cons_append] at ht
      obtain ⟨rfl, htail⟩ := List.cons.inj ht
      obtain ⟨qs, m', hfirst, hthen⟩ := ih htail
      exact ⟨qs, m', .answer hi hans hfirst, hthen⟩

/-- One step of programs that each follow a protocol. -/
theorem follows_update (hps : ∀ i, Follows next post (ps i) (st i)) {i : ι} {q : Ask} {k : q.Answer → Program α}
    (hi : ps i = .ask q k) (a : q.Answer) :
    ∃ x, next (st i) ⟨q, a⟩ = some x ∧
      ∀ j, Follows next post (Function.update ps i (k a) j) (Function.update st i x j) := by
  have hask := hps i
  rw [hi] at hask
  obtain ⟨x, hnext, hrest⟩ := hask a
  refine ⟨x, hnext, fun j => ?_⟩
  by_cases hj : j = i
  · subst hj
    rw [Function.update_self, Function.update_self]
    exact hrest
  · rw [Function.update_of_ne hj, Function.update_of_ne hj]
    exact hps j

/-- Side by side, programs go on following their protocol. -/
theorem Together.follows (hrun : Together w ps s t rs s') (hps : ∀ i, Follows next post (ps i) (st i)) :
    ∀ i, Follows next post (rs i) (track next st t i) := by
  induction hrun generalizing st with
  | start => exact hps
  | stir _ _ ih => exact ih hps
  | answer hi _ _ ih =>
    obtain ⟨x, hnext, hrest⟩ := follows_update hps hi _
    change ∀ j, Follows next post _ (track next (advance next st _) _ j)
    rw [advance_of_next hnext]
    exact ih hrest

/-- **Every event is allowed** at the stage of the one who asks. -/
theorem Together.allowed {i : ι} {e : Event} (hrun : Together w ps s (u ++ (i, e) :: v) rs s')
    (hps : ∀ i, Follows next post (ps i) (st i)) : ∃ x, next (track next st u i) e = some x := by
  obtain ⟨qs, m, hfirst, hthen⟩ := hrun.split
  have hqs := hfirst.follows hps
  -- in what is left of the run the event is the first, and only the world stirs before it
  generalize ht : (i, e) :: v = t at hthen
  clear hrun hfirst
  induction hthen with
  | start => cases ht
  | stir _ _ ih => exact ih hqs ht
  | answer hi _ _ _ =>
    cases ht
    obtain ⟨x, hnext, -⟩ := follows_update hqs hi _
    exact ⟨x, hnext⟩

/-- **What is kept.** What holds of the stages and the state, and is kept by all that happens by itself and by every
allowed step, is kept along a run. -/
theorem Together.keeps {I : (ι → S) → σ → Prop} (hrun : Together w ps s t rs s')
    (hps : ∀ i, Follows next post (ps i) (st i)) (hstir : ∀ st s s', I st s → w.stirs s s' → I st s')
    (hstep : ∀ st s i q a x s', I st s → next (st i) ⟨q, a⟩ = some x → w.answers s q a s' →
      I (Function.update st i x) s') (hI : I st s) : I (track next st t) s' := by
  induction hrun generalizing st with
  | start => exact hI
  | stir h _ ih => exact ih hps (hstir _ _ _ hI h)
  | answer hi hans _ ih =>
    obtain ⟨x, hnext, hrest⟩ := follows_update hps hi _
    change I (track next (advance next st _) _) _
    rw [advance_of_next hnext]
    exact ih hrest (hstep st _ _ _ _ x _ hI hnext hans)

end Program

end CatalogSync
