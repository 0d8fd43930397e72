import CatalogSync.Proofs.Metrics.Series
import CatalogSync.Proofs.Schedule.Spacing
import CatalogSync.Schedule.Rehearsal
import Mathlib.Data.List.Perm.Basic

/-!
# The gauge of running tasks

The start of a body puts the task on the board and sets its gauge in one step, under the lock of the board. The end of
one takes two: the name is taken off the board, and the gauge is cleared when the lock is gone. In between others may
move, and may start the task again; then its gauge is cleared although it runs.

Main statements: `gauge_at_rest` says what the gauge of a task shows whenever no end of the task is between its two
steps; `crossed_start_shows_idle` is a run in which it shows that the task is idle, and the task is running. Turns that
nothing comes between do what a rehearsal does (`trigger_uninterrupted`).
-/

namespace CatalogSync.Schedule

open CatalogSync.Text CatalogSync.Time CatalogSync.Metrics

/-! ## A scheduler and its gauges -/

/-- A step of a start or an end, as far as the board and the gauge go. -/
inductive Mark where
  /-- The task is put on the board and its gauge set. -/
  | started (name : String)
  /-- The task is taken off the board. -/
  | removed (name : String)
  /-- The gauge is cleared. -/
  | cleared (name : String)
deriving DecidableEq, Repr, Inhabited

/-- What a step writes to the metrics. -/
def Mark.record (r : Registry) : Mark → Registry
  | .started name => r.record (.taskRunning name true)
  | .removed _ => r
  | .cleared name => r.record (.taskRunning name false)

/-- A scheduler with its metrics. -/
structure Panel where
  state : State
  registry : Registry := {}
  /-- The tasks that were taken off the board and whose gauge is still to be cleared. -/
  leaving : List String := []
  /-- All steps of starts and ends, the latest first. -/
  marks : List Mark := []

/-- The step that something is. -/
def markOf? : Happening → Option Mark
  | .attempt t _ _ true => some (.started t.name)
  | .ended f _ => some (.removed f.task.name)
  | _ => none

/-- What is new in the log after a move. -/
def State.news (s : State) (m : Move) : List Happening := (s.step m).log.take ((s.step m).log.length - s.log.length)

/-- A move of the scheduler, or of an end that has taken its task off the board. -/
inductive Turn where
  | move (m : Move)
  | clear (end_ : Nat)

namespace Panel

def mark (p : Panel) (m : Mark) : Panel := { p with registry := m.record p.registry, marks := m :: p.marks }

/-- Takes down what happened on the board. -/
def note (h : Happening) (p : Panel) : Panel :=
  match markOf? h with
  | none => p
  | some (.removed name) => { p.mark (.removed name) with leaving := p.leaving ++ [name] }
  | some m => p.mark m

/-- The panel after a turn. -/
def step (p : Panel) : Turn → Panel
  | .move m => (p.state.news m).foldr note { p with state := p.state.step m }
  | .clear i =>
    match p.leaving[i]? with
    | none => p
    | some name => { p.mark (.cleared name) with leaving := p.leaving.eraseIdx i }

end Panel

/-- A scheduler with its metrics after turns. -/
def watch (offers : List Task) (turns : List Turn) : Panel :=
  turns.foldl Panel.step { state := { tasks := enroll offers } }

theorem watch_concat (offers : List Task) (turns : List Turn) (t : Turn) :
    watch offers (turns ++ [t]) = (watch offers turns).step t := List.foldl_concat ..

/-- The move of the scheduler that a turn is. -/
def Turn.move? : Turn → Option Move
  | .move m => some m
  | .clear _ => none

theorem Panel.note_state (h : Happening) (p : Panel) : (p.note h).state = p.state := by
  unfold Panel.note
  split <;> rfl

theorem Panel.step_state (p : Panel) (t : Turn) : (p.step t).state = t.move?.elim p.state p.state.step := by
  cases t with
  | move m =>
    show ((p.state.news m).foldr Panel.note { p with state := p.state.step m }).state = p.state.step m
    induction p.state.news m with
    | nil => rfl
    | cons h news ih => rw [List.foldr_cons, Panel.note_state, ih]
  | clear i =>
    unfold Panel.step
    dsimp only
    split <;> rfl

/-- The metrics are only watched: the scheduler moves as it does without them. -/
theorem watch_state (offers : List Task) (turns : List Turn) :
    (watch offers turns).state = run offers (turns.filterMap Turn.move?) := by
  induction turns using List.reverseRecOn with
  | nil => rfl
  | append_singleton turns t ih =>
    rw [watch_concat, Panel.step_state, ih, List.filterMap_append]
    cases t with
    | move m => exact (run_concat ..).symm
    | clear i => exact congrArg (run offers) (List.append_nil _).symm

/-! ## A task by itself -/

/-- A panel is that of a rehearsal. -/
structure Panel.Shows (p : Panel) (r : Rehearsal) : Prop where
  tasks : p.state.tasks = r.tasks
  board : p.state.board = r.board
  gauges : p.registry.taskRunning = r.server.registry.taskRunning

section Uninterrupted

variable {p : Panel} {r : Rehearsal} {m : Move} {new : List Happening}

theorem Panel.step_of_log (h : (p.state.step m).log = new ++ p.state.log) :
    p.step (.move m) = new.foldr Panel.note { p with state := p.state.step m } := by
  have hnews : p.state.news m = new := by
    unfold State.news
    rw [h, List.length_append, Nat.add_sub_cancel, List.take_left]
  show (p.state.news m).foldr Panel.note { p with state := p.state.step m } = _
  rw [hnews]

theorem taskRunning_congr {g g' : Registry} (h : g.taskRunning = g'.taskRunning) (name : String) (running : Bool) :
    (g.record (.taskRunning name running)).taskRunning = (g'.record (.taskRunning name running)).taskRunning :=
  congrArg (Registry.setTo · [name] (if running then 1 else 0)) h

/-- The start of a body that finds its task idle. -/
theorem Panel.Shows.start (h : p.Shows r) {name : String} {t : Task} {board : Board} (hfind : find r.tasks name = .ok t)
    (hfree : r.board.acquire t.name r.server.clock = some board) :
    let p' := p.step (.move (.trigger name r.server.clock))
    p'.Shows ({ r with board }.record (.taskRunning t.name true)) ∧ p'.leaving = p.leaving ∧
      p'.state.flights = p.state.flights ++ [⟨t, .manual, r.server.clock, false⟩] := by
  have hstep : p.state.step (.trigger name r.server.clock) = { p.state with
      board
      flights := p.state.flights ++ [⟨t, .manual, r.server.clock, false⟩]
      log := .attempt t .manual r.server.clock true :: p.state.log } := by
    rw [← h.tasks] at hfind
    rw [← h.board] at hfree
    show (p.state.trigger name r.server.clock).2 = _
    unfold State.trigger
    rw [hfind]
    exact congrArg Prod.snd (attempt_of_acquire hfree)
  have hlog : (p.state.step (.trigger name r.server.clock)).log =
      [.attempt t .manual r.server.clock true] ++ p.state.log := by
    rw [hstep]
    rfl
  rw [Panel.step_of_log hlog, hstep]
  exact ⟨⟨h.tasks, rfl, taskRunning_congr h.gauges t.name true⟩, rfl, rfl⟩

/-- The end of a body, with nothing between its two steps. -/
theorem Panel.Shows.release (h : p.Shows r) {i : Nat} {f : Flight} (hf : p.state.flights[i]? = some f)
    (outcome : Option TaskOutcome) :
    ((p.step (.move (.finish i outcome))).step (.clear p.leaving.length)).Shows (r.release f.task.name) := by
  have hstep : p.state.step (.finish i outcome) = { p.state with
      board := p.state.board.release f.task.name
      flights := p.state.flights.eraseIdx i
      log := .ended f outcome :: p.state.log } := by
    show p.state.finish i outcome = _
    unfold State.finish
    rw [hf]
  have hlog : (p.state.step (.finish i outcome)).log = [.ended f outcome] ++ p.state.log := by
    rw [hstep]
    rfl
  have hleaving : (p.leaving ++ [f.task.name])[p.leaving.length]? = some f.task.name := by simp
  rw [Panel.step_of_log hlog, hstep]
  show Panel.Shows (match (p.leaving ++ [f.task.name])[p.leaving.length]? with
    | none => _
    | some name => _) _
  rw [hleaving]
  exact ⟨h.tasks, congrArg (Board.release · f.task.name) h.board, taskRunning_congr h.gauges f.task.name false⟩

theorem name_of_find {tasks : List Task} {name : String} {t : Task} (h : find tasks name = .ok t) : t.name = name := by
  unfold find at h
  split at h
  · next hfound =>
    cases h
    have hname := List.find?_some hfound
    exact eq_of_beq hname
  · cases h

/-- **Adequacy.** A call that starts a task whose body ends at once, and that nothing comes between, does to the board and
the gauges what `Rehearsal.trigger` does. -/
theorem trigger_uninterrupted (h : p.Shows r) {name : String} {t : Task} {board : Board} (hfind : find r.tasks name = .ok t)
    (hfree : r.board.acquire name r.server.clock = some board)
    (hends : (Rehearsal.nextAct name r.scripts).1 ∈ [Act.succeed, .fail, .giveUp, .crash]) (outcome : Option TaskOutcome) :
    (([.move (.trigger name r.server.clock), .move (.finish p.state.flights.length outcome), .clear p.leaving.length] :
      List Turn).foldl Panel.step p).Shows (r.trigger name).2 := by
  obtain rfl : t.name = name := name_of_find hfind
  obtain ⟨hstart, hleaving, hflights⟩ := h.start hfind hfree
  have hflight : (p.step (.move (.trigger t.name r.server.clock))).state.flights[p.state.flights.length]? =
      some ⟨t, .manual, r.server.clock, false⟩ := by
    rw [hflights]
    simp
  have htrigger : (r.trigger t.name).2 = { r with board }.launch .manual r.server.clock [t] := by
    unfold Rehearsal.trigger
    rw [hfind]
    dsimp only
    rw [hfree]
  rw [htrigger, List.foldl_cons, List.foldl_cons, List.foldl_cons, List.foldl_nil, ← hleaving]
  unfold Rehearsal.launch
  simp only [List.foldl_cons, List.foldl_nil]
  -- What the body does before it ends is about neither the board nor the gauges.
  have hnoted : ∀ r', r'.tasks = r.tasks → r'.board = board →
      r'.server.registry.taskRunning = (r.server.registry.record (.taskRunning t.name true)).taskRunning →
      (p.step (.move (.trigger t.name r.server.clock))).Shows r' :=
    fun r' htasks hboard hgauges =>
      ⟨hstart.tasks.trans htasks.symm, hstart.board.trans hboard.symm, hstart.gauges.trans hgauges.symm⟩
  have hscripts : ({ r with board }.record (.taskRunning t.name true)).scripts = r.scripts := rfl
  rw [hscripts]
  generalize Rehearsal.nextAct t.name r.scripts = next at hends ⊢
  obtain ⟨act, scripts⟩ := next
  simp only [List.mem_cons, List.not_mem_nil, or_false] at hends
  rcases hends with rfl | rfl | rfl | rfl
  all_goals
    refine Panel.Shows.release (hnoted _ ?_ ?_ ?_) hflight outcome
    all_goals rfl

end Uninterrupted

/-! ## What a turn can do -/

theorem news_append {s : State} (h : Known s.tasks s.passes) (m : Move) : (s.step m).log = s.news m ++ s.log := by
  obtain ⟨new, hnew⟩ := (step_effect h m).log_suffix
  unfold State.news
  rw [← hnew, List.length_append, Nat.add_sub_cancel, List.take_left]

/-- A panel, and what a turn makes of it. -/
inductive Change (p : Panel) : Panel → Prop
  | quiet (s : State) (h : ∀ name, s.board.isRunning name ↔ p.state.board.isRunning name) : Change p { p with state := s }
  | start (s : State) (name : String) (hidle : ¬ p.state.board.isRunning name)
      (h : ∀ other, s.board.isRunning other ↔ other = name ∨ p.state.board.isRunning other) :
      Change p { p.mark (.started name) with state := s }
  | remove (s : State) (name : String)
      (h : ∀ other, s.board.isRunning other ↔ other ≠ name ∧ p.state.board.isRunning other) :
      Change p { p.mark (.removed name) with state := s, leaving := p.leaving ++ [name] }
  | clear (i : Nat) (name : String) (h : p.leaving[i]? = some name) :
      Change p { p.mark (.cleared name) with leaving := p.leaving.eraseIdx i }

/-- A move of the scheduler has at most one entry for the log. -/
theorem step_move_change {p : Panel} (h : Sound p.state) (m : Move) : Change p (p.step (.move m)) := by
  have hnews := news_append h.passes m
  have heffect := step_effect h.passes m
  show Change p ((p.state.news m).foldr Panel.note { p with state := p.state.step m })
  generalize p.state.news m = news at hnews
  generalize p.state.step m = s' at hnews heffect
  cases heffect with
  | passes passes =>
    obtain rfl : news = [] := List.append_left_eq_self.1 hnews.symm
    exact .quiet _ fun _ => Iff.rfl
  | begin i f hf =>
    obtain rfl : news = [.began f] := (List.append_left_injective p.state.log hnews).symm
    exact .quiet _ fun _ => Iff.rfl
  | finish i f outcome hf =>
    obtain rfl : news = [.ended f outcome] := (List.append_left_injective p.state.log hnews).symm
    exact .remove _ f.task.name fun other => Board.isRunning_release_iff ..
  | attempt t trigger now passes =>
    cases hacquire : p.state.board.acquire t.name now with
    | none =>
      rw [attempt_of_refused hacquire] at hnews ⊢
      obtain rfl : news = [.attempt t trigger now false] := (List.append_left_injective p.state.log hnews).symm
      exact .quiet _ fun _ => Iff.rfl
    | some c =>
      have hidle : ¬ p.state.board.isRunning t.name := by
        intro hrunning
        rw [(Board.acquire_eq_none_iff ..).2 hrunning] at hacquire
        cases hacquire
      rw [attempt_of_acquire hacquire] at hnews ⊢
      obtain rfl : news = [.attempt t trigger now true] := (List.append_left_injective p.state.log hnews).symm
      exact .start _ t.name hidle (Board.isRunning_acquire_iff hacquire)

theorem step_change {p : Panel} (h : Sound p.state) (t : Turn) : Change p (p.step t) := by
  cases t with
  | move m => exact step_move_change h m
  | clear i =>
    unfold Panel.step
    dsimp only
    cases hname : p.leaving[i]? with
    | none => exact .quiet p.state fun _ => Iff.rfl
    | some name => exact .clear i name hname

/-! ## At rest -/

/-- The steps before the latest start of a task. -/
def beforeStart (name : String) (marks : List Mark) : List Mark := (marks.dropWhile (· ≠ .started name)).tail

/-- At its latest start a task had an end that was between its two steps. -/
def Crossed (name : String) (marks : List Mark) : Prop :=
  (beforeStart name marks).count (.cleared name) < (beforeStart name marks).count (.removed name)

instance (name : String) (marks : List Mark) : Decidable (Crossed name marks) := inferInstanceAs (Decidable (_ < _))

section Marks

variable {name : String} {marks : List Mark} {m : Mark}

theorem crossed_start : Crossed name (.started name :: marks) ↔ marks.count (.cleared name) < marks.count (.removed name) := by
  unfold Crossed beforeStart
  rw [List.dropWhile_cons_of_neg (by simp), List.tail_cons]

theorem crossed_cons (h : m ≠ .started name) : Crossed name (m :: marks) ↔ Crossed name marks := by
  unfold Crossed beforeStart
  rw [List.dropWhile_cons_of_pos (by simpa using h)]

end Marks

/-- The task that a step is of. -/
def Mark.name : Mark → String
  | .started name => name
  | .removed name => name
  | .cleared name => name

/-- What the gauge of a task tells. -/
structure Tells (name : String) (running : Bool) (marks : List Mark) (leaving : List String) (gauge : Option Binary64) :
    Prop where
  pending : marks.count (.removed name) = marks.count (.cleared name) + leaving.count name
  /-- Every end of before was over when the body that runs was started. -/
  settled : running → ¬ Crossed name marks → leaving.count name = 0
  gauge : .started name ∈ marks → leaving.count name = 0 →
    gauge = some (Binary64.ofNat (if running ∧ ¬ Crossed name marks then 1 else 0))

namespace Tells

variable {name : String} {running : Bool} {marks : List Mark} {leaving leaving' : List String} {gauge : Option Binary64}

/-- A step of another task bears on nothing of this one. -/
theorem other (h : Tells name running marks leaving gauge) {m : Mark} (hne : m.name ≠ name)
    (hleaving : leaving'.count name = leaving.count name) : Tells name running (m :: marks) leaving' gauge := by
  have hstarted : m ≠ .started name := fun heq => hne (congrArg Mark.name heq)
  have hremoved : m ≠ .removed name := fun heq => hne (congrArg Mark.name heq)
  have hcleared : m ≠ .cleared name := fun heq => hne (congrArg Mark.name heq)
  constructor
  case pending =>
    rw [List.count_cons_of_ne hremoved, List.count_cons_of_ne hcleared, hleaving]
    exact h.pending
  case settled =>
    rw [crossed_cons hstarted, hleaving]
    exact h.settled
  case gauge =>
    simp only [crossed_cons hstarted, hleaving]
    intro hmem
    exact h.gauge ((List.mem_cons.1 hmem).resolve_left hstarted.symm)

theorem start (h : Tells name running marks leaving gauge) :
    Tells name true (.started name :: marks) leaving (some (Binary64.ofNat 1)) := by
  have hpending := h.pending
  constructor
  case pending =>
    rw [List.count_cons_of_ne (by simp), List.count_cons_of_ne (by simp)]
    exact hpending
  case settled =>
    intro _ hcrossed
    rw [crossed_start] at hcrossed
    omega
  case gauge =>
    intro _ hrest
    have hcrossed : ¬ Crossed name (.started name :: marks) := by
      rw [crossed_start]
      omega
    rw [if_pos ⟨rfl, hcrossed⟩]

theorem remove (h : Tells name running marks leaving gauge) :
    Tells name false (.removed name :: marks) (leaving ++ [name]) gauge := by
  have hpending := h.pending
  have hcount : (leaving ++ [name]).count name = leaving.count name + 1 := by
    rw [List.count_append, List.count_singleton_self]
  constructor
  case pending =>
    rw [List.count_cons_self, List.count_cons_of_ne (by simp), hcount]
    omega
  case settled => exact nofun
  case gauge =>
    intro _ hrest
    omega

theorem clear (h : Tells name running marks leaving gauge) (hleaving' : leaving.count name = leaving'.count name + 1) :
    Tells name running (.cleared name :: marks) leaving' (some (Binary64.ofNat 0)) := by
  have hpending := h.pending
  -- the end that clears the gauge was not over
  have hcrossed : ¬ (running ∧ ¬ Crossed name marks) := by
    rintro ⟨hrunning, hcrossed⟩
    have hnone := h.settled hrunning hcrossed
    omega
  constructor
  case pending =>
    rw [List.count_cons_of_ne (by simp), List.count_cons_self]
    omega
  case settled =>
    rw [crossed_cons (by simp)]
    exact fun hrunning hnot => absurd ⟨hrunning, hnot⟩ hcrossed
  case gauge =>
    intro _ _
    rw [← crossed_cons (show Mark.cleared name ≠ .started name by simp)] at hcrossed
    rw [if_neg hcrossed]

end Tells

/-! ## Every run -/

/-- What a panel says for itself. -/
structure Counted (p : Panel) : Prop where
  orderly : Orderly p.registry
  tells : ∀ name, Tells name (p.state.board.isRunning name) p.marks p.leaving (p.registry.taskRunning.find? [name])

theorem Mark.record_orderly {r : Registry} (h : Orderly r) (m : Mark) : Orderly (m.record r) := by
  cases m with
  | started name => exact Orderly.record h (.taskRunning name true)
  | removed => exact h
  | cleared name => exact Orderly.record h (.taskRunning name false)

theorem find?_record_of_ne {r : Registry} (h : Orderly r) {m : Mark} {name : String} (hne : m.name ≠ name) :
    (m.record r).taskRunning.find? [name] = r.taskRunning.find? [name] := by
  cases m with
  | started => exact (Registry.find?_taskRunning_record h ..).trans (if_neg hne.symm)
  | removed => rfl
  | cleared => exact (Registry.find?_taskRunning_record h ..).trans (if_neg hne.symm)

section Turns

variable {p p' : Panel}

theorem Change.counted (c : Change p p') (h : Counted p) : Counted p' := by
  cases c with
  | quiet s hrunning =>
    refine ⟨h.orderly, fun name => ?_⟩
    have hsame : s.board.isRunning name = p.state.board.isRunning name := Bool.eq_iff_iff.2 (hrunning name)
    rw [hsame]
    exact h.tells name
  | start s task hidle hrunning =>
    refine ⟨Mark.record_orderly h.orderly (.started task), fun name => ?_⟩
    have htells := h.tells name
    by_cases hname : name = task
    · subst hname
      have hnow : s.board.isRunning name = true := (hrunning name).2 (.inl rfl)
      have hgauge := Registry.find?_taskRunning_record h.orderly name true name
      rw [if_pos rfl] at hgauge
      rw [hnow]
      exact hgauge ▸ htells.start
    · have hsame : s.board.isRunning name = p.state.board.isRunning name :=
        Bool.eq_iff_iff.2 ((hrunning name).trans (or_iff_right hname))
      have hne : (Mark.started task).name ≠ name := Ne.symm hname
      rw [hsame]
      exact find?_record_of_ne h.orderly hne ▸ htells.other hne rfl
  | remove s task hrunning =>
    refine ⟨h.orderly, fun name => ?_⟩
    have htells := h.tells name
    by_cases hname : name = task
    · subst hname
      have hnow : s.board.isRunning name = false :=
        Bool.eq_false_iff.2 fun hstill => ((hrunning name).1 hstill).1 rfl
      rw [hnow]
      exact htells.remove
    · have hsame : s.board.isRunning name = p.state.board.isRunning name :=
        Bool.eq_iff_iff.2 ((hrunning name).trans (and_iff_right hname))
      have hcount : (p.leaving ++ [task]).count name = p.leaving.count name := by
        rw [List.count_append, List.count_singleton, beq_false_of_ne (Ne.symm hname)]
        rfl
      rw [hsame]
      exact htells.other (Ne.symm hname) hcount
  | clear i task htask =>
    refine ⟨Mark.record_orderly h.orderly (.cleared task), fun name => ?_⟩
    have htells := h.tells name
    obtain ⟨hi, hget⟩ := List.getElem?_eq_some_iff.1 htask
    have hcount := (List.getElem_cons_eraseIdx_perm hi).count_eq name
    rw [hget] at hcount
    by_cases hname : name = task
    · subst hname
      rw [List.count_cons_self] at hcount
      have hgauge := Registry.find?_taskRunning_record h.orderly name false name
      rw [if_pos rfl] at hgauge
      exact hgauge ▸ htells.clear hcount.symm
    · have hne : (Mark.cleared task).name ≠ name := Ne.symm hname
      rw [List.count_cons_of_ne (Ne.symm hname)] at hcount
      exact find?_record_of_ne h.orderly hne ▸ htells.other hne hcount

end Turns

theorem watch_counted (offers : List Task) (turns : List Turn) : Counted (watch offers turns) := by
  induction turns using List.reverseRecOn with
  | nil =>
    exact ⟨Orderly.start, fun name => ⟨rfl, nofun, fun hmem => absurd hmem List.not_mem_nil⟩⟩
  | append_singleton turns t ih =>
    rw [watch_concat]
    refine (step_change ?_ t).counted ih
    rw [watch_state]
    exact run_sound offers _

/-- **The gauge at rest.** Whatever passes, calls and bodies do, and whenever ends clear the gauges of the tasks that
they took off the board: let a task be one that was ever started, and none of its ends between its two steps. Then its gauge
is 1 if the task is running, except where its latest start came between the two steps of an end of it; in this case, and
if the task is not running, the gauge is 0. -/
theorem gauge_at_rest (offers : List Task) (turns : List Turn) :
    let p := watch offers turns
    p.state = run offers (turns.filterMap Turn.move?) ∧
      (∀ name, p.marks.count (.removed name) = p.marks.count (.cleared name) + p.leaving.count name) ∧
      ∀ name, .started name ∈ p.marks → name ∉ p.leaving →
        p.registry.taskRunning.find? [name] =
          some (Binary64.ofNat (if p.state.board.isRunning name ∧ ¬ Crossed name p.marks then 1 else 0)) := by
  intro p
  have hcounted : Counted p := watch_counted offers turns
  refine ⟨watch_state offers turns, fun name => (hcounted.tells name).pending, fun name hstarted hrest => ?_⟩
  exact (hcounted.tells name).gauge hstarted (List.count_eq_zero.2 hrest)

/-- A task that is started again after its gauge was cleared shows that it is running. -/
theorem gauge_after_clean_end :
    let p := watch [brisk] [.move (.trigger brisk.name default), .move (.finish 0 none), .clear 0,
      .move (.trigger brisk.name default)]
    .started brisk.name ∈ p.marks ∧ brisk.name ∉ p.leaving ∧
      p.registry.taskRunning.find? [brisk.name] = some (Binary64.ofNat 1) := by
  intro p
  have hstarted : .started brisk.name ∈ p.marks := by decide
  have hrest : brisk.name ∉ p.leaving := by decide
  have hgauge := (gauge_at_rest _ _).2.2 brisk.name hstarted hrest
  have hrunning : p.state.board.isRunning brisk.name ∧ ¬ Crossed brisk.name p.marks := by decide
  rw [if_pos hrunning] at hgauge
  exact ⟨hstarted, hrest, hgauge⟩

/-- A body of the task ends, and another one is started before the end clears the gauge. -/
def crossing : List Turn :=
  [.move (.trigger brisk.name default), .move (.begin 0), .move (.finish 0 (some (.ok ()))),
    .move (.trigger brisk.name default), .clear 0]

/-- No end is between its two steps, the task is running, and its gauge shows that it is idle. -/
theorem crossed_start_shows_idle :
    let p := watch [brisk] crossing
    p.leaving = [] ∧ .started brisk.name ∈ p.marks ∧ p.state.board.isRunning brisk.name ∧
      p.registry.taskRunning.find? [brisk.name] = some (Binary64.ofNat 0) ∧
      ¬ (p.registry.taskRunning.find? [brisk.name] = some (Binary64.ofNat 1) ↔ p.state.board.isRunning brisk.name) := by
  intro p
  have hgauge : p.registry.taskRunning.find? [brisk.name] = some (Binary64.ofNat 0) := by decide
  have hrunning : p.state.board.isRunning brisk.name := by decide
  refine ⟨by decide, by decide, hrunning, hgauge, fun htruth => ?_⟩
  have hone := htruth.2 hrunning
  rw [hgauge] at hone
  exact absurd hone (by decide)

end CatalogSync.Schedule
