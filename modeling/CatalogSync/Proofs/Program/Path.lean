import CatalogSync.Proofs.Program.Ending
import Mathlib.Data.List.Forall2

/-!
# Paths

A run of a program in a world has two sides. `Path` is that of the program: its questions, with the answers to them,
take it somewhere. `World.Takes` is that of the world: from one state to another it can give these answers.

Main statement: `reaches_iff`. The two sides make a run, and one can be changed without the other.
-/

namespace CatalogSync

variable {σ : Type}

namespace World

variable {w : World σ}

/-- A world that only says which answers are possible. -/
def free (possible : Event → Prop) : World Unit := ⟨fun _ _ => False, fun _ q a _ => possible ⟨q, a⟩⟩

/-- From a state to another, a world can give the answers of events. -/
inductive Takes (w : World σ) : σ → List Event → σ → Prop
  | start (s : σ) : Takes w s [] s
  | stir {s m s' : σ} {t : List Event} (h : w.stirs s m) (rest : Takes w m t s') : Takes w s t s'
  | answer {s m s' : σ} {q : Ask} {a : q.Answer} {t : List Event} (h : w.answers s q a m) (rest : Takes w m t s') :
    Takes w s (⟨q, a⟩ :: t) s'

variable {s m s' : σ} {t u : List Event}

theorem Takes.after (h : w.Passes s m) (htakes : w.Takes m t s') : w.Takes s t s' := by
  induction h with
  | refl s => exact htakes
  | stir hstir _ ih => exact .stir hstir (ih htakes)

theorem Takes.answered (h : w.Takes s t s') {q : Ask} {a : q.Answer} (hmem : ⟨q, a⟩ ∈ t) :
    ∃ m m', w.answers m q a m' := by
  induction h with
  | start => cases hmem
  | stir _ _ ih => exact ih hmem
  | answer hans _ ih =>
    rcases List.mem_cons.1 hmem with hfirst | hlater
    · cases hfirst
      exact ⟨_, _, hans⟩
    · exact ih hlater

theorem Takes.of_possible {possible : Event → Prop} (h : ∀ e ∈ t, possible e) : (free possible).Takes () t () := by
  induction t with
  | nil => exact .start ()
  | cons e t ih => exact .answer (h e List.mem_cons_self) (ih fun d hd => h d (List.mem_cons_of_mem e hd))

end World

namespace Program

variable {α β : Type} {w : World σ} {p r : Program α} {s s' : σ} {t u : List Event}

/-- The questions and answers `t` take a program to what is left of it. -/
inductive Path : Program α → List Event → Program α → Prop
  | here (p : Program α) : Path p [] p
  | step {q : Ask} {next : q.Answer → Program α} {a : q.Answer} {r : Program α} {t : List Event}
    (rest : Path (next a) t r) : Path (.ask q next) (⟨q, a⟩ :: t) r

/-- **The two sides of a run.** -/
theorem reaches_iff : Reaches w p s t r s' ↔ Path p t r ∧ w.Takes s t s' := by
  constructor
  · intro h
    induction h with
    | start p s => exact ⟨.here p, .start s⟩
    | stir hstir _ ih => exact ⟨ih.1, .stir hstir ih.2⟩
    | answer hans _ ih => exact ⟨.step ih.1, .answer hans ih.2⟩
  · rintro ⟨hpath, htakes⟩
    induction htakes generalizing p with
    | start s =>
      cases hpath
      exact .start _ s
    | stir hstir _ ih => exact .stir hstir (ih hpath)
    | answer hans _ ih =>
      cases hpath with
      | step rest => exact .answer hans (ih rest)

theorem Path.bind {f : α → Program β} {a : α} {r : Program β} (h : Path p t (.done a)) (h' : Path (f a) u r) :
    Path (p >>= f) (t ++ u) r := by
  change Path (p.bind f) (t ++ u) r
  generalize hd : Program.done a = d at h
  induction h with
  | here =>
    subst hd
    exact h'
  | step _ ih => exact .step (ih hd)

/-! ### The parts of a path -/

theorem Path.of_done {a : α} {r : Program α} (h : Path (.done a) t r) : t = [] ∧ r = .done a := by
  cases h
  exact ⟨rfl, rfl⟩

/-- A question is still to be answered, or it has been, and the path goes on from its answer. -/
theorem Path.of_call {q : Ask} {f : q.Answer → Program α} {r : Program α} (h : Path (Program.call q >>= f) t r) :
    (t = [] ∧ r = .ask q f) ∨ ∃ a u, t = ⟨q, a⟩ :: u ∧ Path (f a) u r := by
  change Path (.ask q f) t r at h
  cases h with
  | here => exact .inl ⟨rfl, rfl⟩
  | step rest => exact .inr ⟨_, _, rfl, rest⟩

/-- Of two programs, the first waits for an answer, or it is done, and the path goes on in the second. -/
theorem Path.of_bind {f : α → Program β} {r : Program β} (h : Path (p >>= f) t r) :
    (∃ q next, Path p t (.ask q next) ∧ r = .ask q fun a => next a >>= f) ∨
      ∃ a u v, t = u ++ v ∧ Path p u (.done a) ∧ Path (f a) v r := by
  change Path (p.bind f) t r at h
  induction p generalizing t with
  | done a => exact .inr ⟨a, [], t, rfl, .here _, h⟩
  | ask q next ih =>
    change Path (.ask q fun a => (next a).bind f) t r at h
    cases h with
    | here => exact .inl ⟨q, next, .here _, rfl⟩
    | @step _ _ a _ t rest =>
      rcases ih a rest with ⟨q', next', hpath, hr⟩ | ⟨b, u, v, ht, hu, hv⟩
      · exact .inl ⟨q', next', .step hpath, hr⟩
      · exact .inr ⟨b, ⟨q, a⟩ :: u, v, congrArg _ ht, .step hu, hv⟩

theorem Path.of_bind_done {f : α → Program β} {b : β} (h : Path (p >>= f) t (.done b)) :
    ∃ a u v, t = u ++ v ∧ Path p u (.done a) ∧ Path (f a) v (.done b) := by
  rcases h.of_bind with ⟨q, next, -, hdone⟩ | hparts
  · cases hdone
  · exact hparts

theorem Path.of_call_done {q : Ask} {f : q.Answer → Program α} {b : α} (h : Path (Program.call q >>= f) t (.done b)) :
    ∃ a u, t = ⟨q, a⟩ :: u ∧ Path (f a) u (.done b) := by
  rcases h.of_call with ⟨-, hdone⟩ | hparts
  · cases hdone
  · exact hparts

/-- What is safe in a world that allows the answers on a path is so along the path. -/
theorem Path.safe {possible : Event → Prop} {inv : List Event → Unit → Prop} {post : α → List Event → Unit → Prop}
    (h : Path p t r) (hpossible : ∀ e ∈ t, possible e) (hsafe : p.Safe (World.free possible) inv post [] ()) :
    r.Safe (World.free possible) inv post t () :=
  hsafe.reaches (reaches_iff.2 ⟨h, .of_possible hpossible⟩)

section Free

variable {possible : Event → Prop} {inv : List Event → Unit → Prop} {post : α → List Event → Unit → Prop}

/-- A question in a world that only says which answers are possible. -/
theorem Safe.ask {q : Ask} {f : q.Answer → Program α} (hinv : inv t ())
    (h : ∀ a, possible ⟨q, a⟩ → (f a).Safe (World.free possible) inv post (t ++ [⟨q, a⟩]) ()) :
    (Program.call q >>= f).Safe (World.free possible) inv post t () :=
  Safe.call (fun _ => True) trivial (fun _ _ _ _ => trivial) (fun _ _ => hinv) fun _ a _ _ hans => h a hans

theorem Safe.end {a : α} (hinv : inv t ()) (hpost : post a t ()) :
    (Pure.pure a : Program α).Safe (World.free possible) inv post t () :=
  Safe.pure (fun _ => True) trivial (fun _ _ _ _ => trivial) fun _ _ => ⟨hinv, hpost⟩

end Free

/-- What a program may ask and come to, it may on its way. -/
theorem Path.all {asks : Ask → Prop} {gives : α → Prop} (h : Path p t r) (hall : p.All asks gives) :
    (∀ e ∈ t, asks e.1) ∧ r.All asks gives := by
  induction h with
  | here => exact ⟨fun e he => absurd he List.not_mem_nil, hall⟩
  | step _ ih =>
    obtain ⟨hasks, hrest⟩ := ih (hall.2 _)
    refine ⟨fun e he => ?_, hrest⟩
    rcases List.mem_cons.1 he with rfl | hmem
    · exact hall.1
    · exact hasks e hmem

theorem Path.unique {r' : Program α} (h : Path p t r) (h' : Path p t r') : r' = r := by
  induction h with
  | here =>
    cases h'
    rfl
  | step _ ih =>
    cases h' with
    | step rest => exact ih rest

/-! ## Answers that do not matter -/

/-- Every question satisfies `asks`, and what comes after a question that satisfies `deaf` does not depend on the
answer. -/
def Heedless (asks deaf : Ask → Prop) : Program α → Prop
  | .done _ => True
  | .ask q next => asks q ∧ (deaf q → ∀ a b, next a = next b) ∧ ∀ a, Heedless asks deaf (next a)

section Heedless

variable {asks deaf : Ask → Prop}

theorem Heedless.bind {f : α → Program β} (h : Heedless asks deaf p) (hf : ∀ a, Heedless asks deaf (f a)) :
    Heedless asks deaf (p >>= f) := by
  change Heedless asks deaf (p.bind f)
  induction p with
  | done a => exact hf a
  | ask q next ih =>
    obtain ⟨hasks, hdeaf, hnext⟩ := h
    refine ⟨hasks, fun hq a b => ?_, fun a => ih a (hnext a)⟩
    exact congrArg (Program.bind · f) (hdeaf hq a b)

theorem Heedless.call {q : Ask} {f : q.Answer → Program α} (hasks : asks q) (hq : ¬ deaf q)
    (h : ∀ a, Heedless asks deaf (f a)) : Heedless asks deaf (Program.call q >>= f) :=
  ⟨hasks, fun hdeaf => absurd hdeaf hq, h⟩

/-- A question whose answer is thrown away. -/
theorem Heedless.tell {q : Ask} {p : Program α} (hasks : asks q) (h : Heedless asks deaf p) :
    Heedless asks deaf (Program.call q >>= fun _ => p) :=
  ⟨hasks, fun _ _ _ => rfl, fun _ => h⟩

theorem Heedless.ite {c : Prop} [Decidable c] {q : Program α} (hp : c → Heedless asks deaf p)
    (hq : ¬ c → Heedless asks deaf q) : Heedless asks deaf (if c then p else q) := by
  split
  · next hc => exact hp hc
  · next hc => exact hq hc

theorem All.heedless {gives : α → Prop} (h : p.All (fun q => asks q ∧ ¬ deaf q) gives) : Heedless asks deaf p := by
  induction p with
  | done a => trivial
  | ask q next ih => exact ⟨h.1.1, fun hq => absurd hq h.1.2, fun a => ih a (h.2 a)⟩

/-- The same question, with the same answer unless the answer does not matter. -/
def Alike (deaf : Ask → Prop) (e e' : Event) : Prop := e' = e ∨ (deaf e.1 ∧ e'.1 = e.1)

/-- A heedless program goes the same way whatever the answers are that do not matter. -/
theorem Path.alike (h : Path p t r) (hp : p.Heedless asks deaf) (hu : List.Forall₂ (Alike deaf) t u) : Path p u r := by
  induction h generalizing u with
  | here =>
    cases hu
    exact .here _
  | @step q next a r t rest ih =>
    obtain ⟨hasks, hdeaf, hnext⟩ := hp
    cases hu with
    | @cons _ e' _ u he hrest =>
      obtain rfl | ⟨hq, hsame⟩ := he
      · exact .step (ih (hnext a) hrest)
      · obtain ⟨q', b⟩ := e'
        obtain rfl : q' = q := hsame
        -- What is left after the other answer is what is left after this one.
        have hpath := ih (hnext a) hrest
        rw [hdeaf hq a b] at hpath
        exact .step hpath

theorem Path.asked (h : Path p t r) (hp : p.Heedless asks deaf) : ∀ e ∈ t, asks e.1 := by
  induction h with
  | here => exact fun e he => absurd he List.not_mem_nil
  | step _ ih =>
    obtain ⟨hasks, -, hnext⟩ := hp
    intro e he
    rcases List.mem_cons.1 he with rfl | hmem
    · exact hasks
    · exact ih (hnext _) e hmem

end Heedless

end Program

end CatalogSync
