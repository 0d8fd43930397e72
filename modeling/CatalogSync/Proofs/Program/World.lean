import CatalogSync.Program.Basic

/-!
# Programs in a world

A `World` says what may happen while nobody asks, and how a question may be answered. `Reaches` are the
runs of a program in it, a run that has not come to its end included, with the questions asked so far
and their answers. `Safe` is what has to be shown of a program, question by question, so that all of
its runs keep an invariant (`Safe.reaches`).
-/

namespace CatalogSync

abbrev Event := (question : Ask) × question.Answer

/-- How the surroundings of a program behave. -/
structure World (σ : Type) where
  /-- What may happen by itself. -/
  stirs : σ → σ → Prop
  /-- What may answer a question, and the state after it. -/
  answers : σ → (q : Ask) → q.Answer → σ → Prop

namespace World

variable {σ : Type} (w : World σ)

/-- Some time passes without a question. -/
inductive Passes : σ → σ → Prop
  | refl (s : σ) : Passes s s
  | stir {s m s' : σ} (h : w.stirs s m) (rest : Passes m s') : Passes s s'

variable {w} in
/-- What is kept by everything that happens by itself is kept while time passes. -/
theorem Passes.keeps {A : σ → Prop} {s s' : σ} (h : w.Passes s s') (hA : ∀ s s', A s → w.stirs s s' → A s')
    (hs : A s) : A s' := by
  induction h with
  | refl s => exact hs
  | stir hstir _ ih => exact ih (hA _ _ hs hstir)

variable {w} in
theorem Passes.trans {s m s' : σ} (h : w.Passes s m) (h' : w.Passes m s') : w.Passes s s' := by
  induction h with
  | refl s => exact h'
  | stir hstir _ ih => exact .stir hstir (ih h')

end World

namespace Program

variable {α β σ : Type}

/-- A run of a program: from a state, by events, to what is left of the program and the state then. -/
inductive Reaches (w : World σ) : Program α → σ → List Event → Program α → σ → Prop
  | start (p : Program α) (s : σ) : Reaches w p s [] p s
  | stir {p r : Program α} {s m s' : σ} {t : List Event} (h : w.stirs s m) (rest : Reaches w p m t r s') :
      Reaches w p s t r s'
  | answer {q : Ask} {next : q.Answer → Program α} {a : q.Answer} {r : Program α} {s m s' : σ} {t : List Event}
      (h : w.answers s q a m) (rest : Reaches w (next a) m t r s') : Reaches w (.ask q next) s (⟨q, a⟩ :: t) r s'

/-- Whatever happens from here on, `inv` holds of the events and the state at all times, and `post` of the
result, the events and the state at the end. -/
def Safe (w : World σ) (inv : List Event → σ → Prop) (post : α → List Event → σ → Prop) :
    Program α → List Event → σ → Prop
  | .done a, t, s => ∀ s', w.Passes s s' → inv t s' ∧ post a t s'
  | .ask q next, t, s => ∀ s', w.Passes s s' →
      inv t s' ∧ ∀ a m, w.answers s' q a m → Safe w inv post (next a) (t ++ [⟨q, a⟩]) m

variable {w : World σ} {inv : List Event → σ → Prop} {post : α → List Event → σ → Prop} {t : List Event} {s s' : σ}

theorem Safe.passes {p : Program α} (h : Safe w inv post p t s) (hp : w.Passes s s') : Safe w inv post p t s' := by
  cases p with
  | done a => exact fun m hm => h m (hp.trans hm)
  | ask q next => exact fun m hm => h m (hp.trans hm)

theorem Safe.holds {p : Program α} (h : Safe w inv post p t s) : inv t s := by
  cases p with
  | done a => exact (h s (.refl s)).1
  | ask q next => exact (h s (.refl s)).1

/-- **Soundness.** What is safe stays safe along every run. -/
theorem Safe.reaches {p r : Program α} {u : List Event} (h : Safe w inv post p t s) (hrun : Reaches w p s u r s') :
    Safe w inv post r (t ++ u) s' := by
  induction hrun generalizing t with
  | start p s => rwa [List.append_nil]
  | stir hstir _ ih => exact ih (h.passes (.stir hstir (.refl _)))
  | @answer q next a r s m s' u hans _ ih =>
    have hnext := ih ((h s (.refl s)).2 a m hans)
    rwa [List.append_assoc] at hnext

theorem Safe.done {a : α} (h : Safe w inv post (.done a) t s) : post a t s := (h s (.refl s)).2

theorem Safe.mono {p : Program α} {post' : α → List Event → σ → Prop} (h : Safe w inv post p t s)
    (hpost : ∀ a t s, post a t s → post' a t s) : Safe w inv post' p t s := by
  induction p generalizing t s with
  | done a =>
    intro m hm
    obtain ⟨hinv, hdone⟩ := h m hm
    exact ⟨hinv, hpost a t m hdone⟩
  | ask q next ih =>
    intro m hm
    obtain ⟨hinv, hnext⟩ := h m hm
    exact ⟨hinv, fun a m' hans => ih a (hnext a m' hans)⟩

/-- One program after the other. -/
theorem Safe.bind {p : Program α} {f : α → Program β} {post' : β → List Event → σ → Prop}
    (h : Safe w inv post p t s) (hf : ∀ a t s, post a t s → Safe w inv post' (f a) t s) :
    Safe w inv post' (p >>= f) t s := by
  change Safe w inv post' (p.bind f) t s
  induction p generalizing t s with
  | done a => exact hf a t s h.done
  | ask q next ih =>
    intro m hm
    obtain ⟨hinv, hnext⟩ := h m hm
    exact ⟨hinv, fun a m' hans => ih a (hnext a m' hans)⟩

/-- The end of a program, where `A` holds and lasts. -/
theorem Safe.pure {a : α} (A : σ → Prop) (hA : A s) (hlasts : ∀ s s', A s → w.stirs s s' → A s')
    (h : ∀ s, A s → inv t s ∧ post a t s) : Safe w inv post (pure a) t s :=
  fun _ hm => h _ (hm.keeps hlasts hA)

/-- A question, where `A` holds and lasts until it is answered. -/
theorem Safe.call {q : Ask} {f : q.Answer → Program α} (A : σ → Prop) (hA : A s)
    (hlasts : ∀ s s', A s → w.stirs s s' → A s') (hinv : ∀ s, A s → inv t s)
    (h : ∀ s a m, A s → w.answers s q a m → Safe w inv post (f a) (t ++ [⟨q, a⟩]) m) :
    Safe w inv post (Program.call q >>= f) t s := by
  intro m hm
  have hAm := hm.keeps hlasts hA
  exact ⟨hinv m hAm, fun a m' hans => h m a m' hAm hans⟩

/-! ## What a program may ask -/

/-- Every question satisfies `asks` and every result `gives`, whatever the answers are. -/
def All (asks : Ask → Prop) (gives : α → Prop) : Program α → Prop
  | .done a => gives a
  | .ask q next => asks q ∧ ∀ a, All asks gives (next a)

variable {asks : Ask → Prop} {gives : α → Prop}

theorem All.bind {p : Program α} {f : α → Program β} {gives' : β → Prop} (h : All asks gives p)
    (hf : ∀ a, gives a → All asks gives' (f a)) : All asks gives' (p >>= f) := by
  change All asks gives' (p.bind f)
  induction p with
  | done a => exact hf a h
  | ask q next ih => exact ⟨h.1, fun a => ih a (h.2 a)⟩

theorem All.mono {p : Program α} {asks' : Ask → Prop} {gives' : α → Prop} (h : All asks gives p)
    (hasks : ∀ q, asks q → asks' q) (hgives : ∀ a, gives a → gives' a) : All asks' gives' p := by
  induction p with
  | done a => exact hgives a h
  | ask q next ih => exact ⟨hasks q h.1, fun a => ih a (h.2 a)⟩

theorem All.pure {a : α} (h : gives a) : All asks gives (pure a : Program α) := h

theorem All.call {q : Ask} {f : q.Answer → Program α} (hq : asks q) (h : ∀ a, All asks gives (f a)) :
    All asks gives (Program.call q >>= f) := ⟨hq, h⟩

theorem All.last {q : Ask} {gives : q.Answer → Prop} (hq : asks q) (h : ∀ a, gives a) :
    All asks gives (Program.call q) := ⟨hq, h⟩

theorem All.ite {c : Prop} [Decidable c] {p q : Program α} (hp : c → All asks gives p) (hq : ¬ c → All asks gives q) :
    All asks gives (if c then p else q) := by
  split
  · next hc => exact hp hc
  · next hc => exact hq hc

/-- A program all of whose questions leave `A` as it is. -/
theorem All.safe {p : Program α} (h : All asks gives p) (A : List Event → σ → Prop)
    (hlasts : ∀ t s s', A t s → w.stirs s s' → A t s')
    (hasks : ∀ q, asks q → ∀ t s a s', A t s → w.answers s q a s' → A (t ++ [⟨q, a⟩]) s')
    (hinv : ∀ t s, A t s → inv t s) (hA : A t s) :
    Safe w inv (fun a t s => gives a ∧ A t s) p t s := by
  induction p generalizing t s with
  | done a =>
    intro m hm
    have hAm := hm.keeps (hlasts t) hA
    exact ⟨hinv t m hAm, h, hAm⟩
  | ask q next ih =>
    intro m hm
    have hAm := hm.keeps (hlasts t) hA
    exact ⟨hinv t m hAm, fun a m' hans => ih a (h.2 a) (hasks q h.1 t m a m' hAm hans)⟩

end Program

end CatalogSync
