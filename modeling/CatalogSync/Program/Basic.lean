import CatalogSync.Program.Ask

/-!
# Programs

A program is a tree: it is done, or it asks and goes on by the answer. Nothing but its questions
touches the surroundings, so the same program runs against any handler that answers them
(`Program.run`), and a run that waits for an answer leaves the rest of the program behind.
-/

namespace CatalogSync

/-- A program that ends with an `α`. -/
inductive Program (α : Type) where
  | done (a : α)
  | ask (question : Ask) (next : question.Answer → Program α)

namespace Program

variable {α β σ : Type}

/-- Goes on with `f` once the program is done. -/
def bind : Program α → (α → Program β) → Program β
  | .done a, f => f a
  | .ask q next, f => .ask q fun answer => (next answer).bind f

instance : Monad Program where
  pure := .done
  bind := bind

instance [Inhabited α] : Inhabited (Program α) := ⟨.done default⟩

/-- Asks one question. -/
def call (q : Ask) : Program q.Answer := .ask q .done

/-- Answers questions and may change on the way; `none` if the answer has to be waited for. -/
abbrev Handler (σ : Type) := (q : Ask) → σ → Option (q.Answer × σ)

/-- What a run came to. -/
inductive Run (α σ : Type) where
  | done (a : α) (s : σ)
  /-- The first question of `rest` has no answer yet. -/
  | waiting (rest : Program α) (s : σ)

/-- Runs a program until it is done or has to wait. -/
def run (h : Handler σ) : Program α → σ → Run α σ
  | .done a, s => .done a s
  | .ask q next, s =>
    match h q s with
    | some (answer, s) => run h (next answer) s
    | none => .waiting (.ask q next) s

def Run.state : Run α σ → σ
  | .done _ s => s
  | .waiting _ s => s

@[simp] theorem run_done (h : Handler σ) (a : α) (s : σ) : run h (.done a) s = .done a s := rfl

theorem bind_assoc {γ : Type} (p : Program α) (f : α → Program β) (g : β → Program γ) :
    (p.bind f).bind g = p.bind fun a => (f a).bind g := by
  induction p with
  | done a => rfl
  | ask q next ih => simp [bind, ih]

end Program

end CatalogSync
