import CatalogSync.Schedule.Board
import Mathlib.Data.List.Basic
import Mathlib.Data.List.Induction
import Mathlib.Data.List.Nodup

/-!
# Passes, calls and bodies side by side

A scheduler's ticker, its catch-up pass, calls of `trigger` and the bodies of tasks go on at the same
time. A pass asks the questions of `Board.isDue` one after another, and only then tries to start the
task: between any two of these steps others may move, and settings may change. `State.step` is one
such move, `run` a sequence of them, in any order.

Main statement: `pass_uninterrupted`. A pass that nothing comes between is `Board.pass`.
-/

namespace CatalogSync.Schedule

open CatalogSync.Text CatalogSync.Time

/-! ## Passes -/

/-- What a pass does next with the task it is at. -/
inductive Stage where
  | running
  | enabled
  | window
  | interval
  | start
deriving DecidableEq, Repr, Inhabited

/-- Whether the task passes the test of a stage. -/
def Stage.test (b : Board) (zone : Zone) (read : Lookup) (now : Instant) (anyTime : Bool) (t : Task) : Stage → Bool
  | .running => !b.isRunning t.name
  | .enabled => t.isEnabled read
  | .window => anyTime || t.isInWindow zone read now
  | .interval => t.isOver now (t.lastRun read (b.lastRun.find? t.name))
  | .start => true

/-- The stage after a test that was passed. -/
def Stage.next : Stage → Stage
  | .running => .enabled
  | .enabled => .window
  | .window => .interval
  | .interval => .start
  | .start => .running

/-- A pass on its way. The head of `rest` is the task it is at. -/
structure Pass where
  now : Instant
  anyTime : Bool
  stage : Stage := .running
  rest : List Task
  started : List Task := []

namespace Pass

/-- What a pass is to the bodies that it starts. -/
def trigger (p : Pass) : Trigger := if p.anyTime then .catchUp else .tick

/-- The pass at its next task. -/
def skip (p : Pass) : Pass := { p with stage := .running, rest := p.rest.tail }

/-- The pass at its next task, after an attempt to start one. -/
def tried (t : Task) (accepted : Bool) (p : Pass) : Pass :=
  { p.skip with started := if accepted then p.started ++ [t] else p.started }

end Pass

/-! ## The whole -/

/-- A body that was started and has not ended. -/
structure Flight where
  task : Task
  trigger : Trigger
  at_ : Instant
  /-- Whether the body runs already. -/
  begun : Bool := false
deriving DecidableEq, Repr, Inhabited

/-- Something that happened. -/
inductive Happening where
  | attempt (task : Task) (trigger : Trigger) (at_ : Instant) (accepted : Bool)
  | began (f : Flight)
  /-- A body ended, without an outcome if it panicked or was dropped. -/
  | ended (f : Flight) (outcome : Option TaskOutcome)

/-- A scheduler at work. -/
structure State where
  tasks : List Task
  board : Board := {}
  flights : List Flight := []
  passes : List Pass := []
  /-- All that happened, the latest first. -/
  log : List Happening := []

namespace State

/-- Tries to start a task, and tells whether it was started. -/
def attempt (t : Task) (trigger : Trigger) (now : Instant) (s : State) : Bool × State :=
  match s.board.acquire t.name now with
  | none => (false, { s with log := .attempt t trigger now false :: s.log })
  | some board =>
    (true, { s with
      board
      flights := s.flights ++ [⟨t, trigger, now, false⟩]
      log := .attempt t trigger now true :: s.log })

def openPass (now : Instant) (anyTime : Bool) (s : State) : State :=
  { s with passes := s.passes ++ [{ now, anyTime, rest := s.tasks }] }

/-- One step of a pass. -/
def look (i : Nat) (zone : Zone) (read : Lookup) (s : State) : State :=
  match s.passes[i]? with
  | none => s
  | some p =>
    match p.rest with
    | [] => s
    | t :: _ =>
      if p.stage = .start then
        let (accepted, s) := s.attempt t p.trigger p.now
        { s with passes := s.passes.set i (p.tried t accepted) }
      else if p.stage.test s.board zone read p.now p.anyTime t then
        { s with passes := s.passes.set i { p with stage := p.stage.next } }
      else { s with passes := s.passes.set i p.skip }

/-- A call that starts a task at once. -/
def trigger (name : String) (now : Instant) (s : State) : Except String Bool × State :=
  match find s.tasks name with
  | .error e => (.error e, s)
  | .ok t =>
    let (accepted, s) := s.attempt t .manual now
    (.ok accepted, s)

def begin (i : Nat) (s : State) : State :=
  match s.flights[i]? with
  | none => s
  | some f => { s with flights := s.flights.set i { f with begun := true }, log := .began f :: s.log }

/-- A body ends, however it does, and is taken off the board. -/
def finish (i : Nat) (outcome : Option TaskOutcome) (s : State) : State :=
  match s.flights[i]? with
  | none => s
  | some f =>
    { s with
      board := s.board.release f.task.name
      flights := s.flights.eraseIdx i
      log := .ended f outcome :: s.log }

end State

/-- A move of one of the parties. -/
inductive Move where
  | openPass (now : Instant) (anyTime : Bool)
  /-- The settings may answer differently at every step, and the clocks of the host may be those of another zone. -/
  | look (pass : Nat) (zone : Zone) (read : Lookup)
  | trigger (name : String) (now : Instant)
  | begin (flight : Nat)
  | finish (flight : Nat) (outcome : Option TaskOutcome)

/-- The state after a move. -/
def State.step (s : State) : Move → State
  | .openPass now anyTime => s.openPass now anyTime
  | .look i zone read => s.look i zone read
  | .trigger name now => (s.trigger name now).2
  | .begin i => s.begin i
  | .finish i outcome => s.finish i outcome

def State.steps (s : State) (moves : List Move) : State := moves.foldl State.step s

/-- The tasks that are registered of those that are offered. -/
def enroll (offers : List Task) : List Task :=
  offers.foldl (fun tasks t => (register tasks t).toOption.getD tasks) []

def run (offers : List Task) (moves : List Move) : State := State.steps { tasks := enroll offers } moves

theorem State.steps_append (s : State) (moves more : List Move) :
    s.steps (moves ++ more) = (s.steps moves).steps more := by
  unfold State.steps
  rw [List.foldl_append]

theorem enroll_concat (offers : List Task) (t : Task) :
    enroll (offers ++ [t]) = (register (enroll offers) t).toOption.getD (enroll offers) := by
  unfold enroll
  rw [List.foldl_concat]

/-- Registration rejects a name that is taken. -/
theorem nodup_enroll (offers : List Task) : ((enroll offers).map Task.name).Nodup := by
  induction offers using List.reverseRecOn with
  | nil => exact List.nodup_nil
  | append_singleton offers t ih =>
    rw [enroll_concat]
    cases hreg : register (enroll offers) t with
    | error e => exact ih
    | ok tasks =>
      obtain ⟨hnew, rfl⟩ := register_eq_ok hreg
      change ((enroll offers ++ [t]).map Task.name).Nodup
      rw [List.map_append, List.map_singleton, ← List.concat_eq_append]
      exact List.Nodup.concat hnew ih

/-! ## A pass by itself -/

/-- The stages with a test from a stage on. -/
def Stage.ahead : Stage → List Stage
  | .running => [.running, .enabled, .window, .interval]
  | .enabled => [.enabled, .window, .interval]
  | .window => [.window, .interval]
  | .interval => [.interval]
  | .start => []

theorem Stage.ahead_eq {g : Stage} (h : g ≠ .start) : g.ahead = g :: g.next.ahead := by
  cases g with
  | start => exact absurd rfl h
  | running | enabled | window | interval => rfl

theorem isDue_eq_all (b : Board) (zone : Zone) (read : Lookup) (now : Instant) (anyTime : Bool) (t : Task) :
    b.isDue zone read now anyTime t = Stage.running.ahead.all (Stage.test b zone read now anyTime t) := by
  simp [Board.isDue, Stage.ahead, Stage.test, Bool.and_assoc]

section Uninterrupted

variable {i : Nat} {zone : Zone} {read : Lookup}

/-- What a scheduler comes to if only one pass moves, and neither its settings nor its zone change. -/
def Reaches (i : Nat) (zone : Zone) (read : Lookup) (s s' : State) : Prop :=
  ∃ n, s' = s.steps (List.replicate n (.look i zone read))

theorem Reaches.refl (s : State) : Reaches i zone read s s := ⟨0, rfl⟩

theorem Reaches.look {s s' : State} (h : Reaches i zone read (s.look i zone read) s') : Reaches i zone read s s' := by
  obtain ⟨n, hn⟩ := h
  exact ⟨n + 1, hn⟩

theorem Reaches.trans {s s' s'' : State} (h : Reaches i zone read s s') (h' : Reaches i zone read s' s'') :
    Reaches i zone read s s'' := by
  obtain ⟨n, rfl⟩ := h
  obtain ⟨m, rfl⟩ := h'
  exact ⟨n + m, by rw [← State.steps_append, List.replicate_append_replicate]⟩

variable {p : Pass} {t : Task} {rest : List Task} {s : State}

theorem getElem?_set_of_some {α : Type} {l : List α} {a : α} (h : l[i]? = some a) (b : α) :
    (l.set i b)[i]? = some b := by
  obtain ⟨hlt, -⟩ := List.getElem?_eq_some_iff.1 h
  rw [List.getElem?_set_self hlt]

theorem look_test (hp : s.passes[i]? = some p) (hrest : p.rest = t :: rest) (hstage : p.stage ≠ .start) :
    s.look i zone read = { s with
      passes := s.passes.set i (if p.stage.test s.board zone read p.now p.anyTime t
        then { p with stage := p.stage.next } else p.skip) } := by
  unfold State.look
  rw [hp]
  simp only [hrest, hstage, if_false]
  split <;> rfl

/-- The tests from a stage on, asked one after another. -/
theorem tests_uninterrupted (hp : s.passes[i]? = some p) (hrest : p.rest = t :: rest) (n : Nat)
    (hn : p.stage.ahead.length = n) :
    ∃ s', Reaches i zone read s s' ∧ s'.board = s.board ∧ s'.flights = s.flights ∧
      s'.passes[i]? = some (if p.stage.ahead.all (Stage.test s.board zone read p.now p.anyTime t)
        then { p with stage := .start } else p.skip) := by
  -- on the number of tests ahead: a test that fails ends the turn of the task, one that is passed leaves fewer
  induction n generalizing s p with
  | zero =>
    have hstage : p.stage = .start := by
      cases hg : p.stage <;> simp [hg, Stage.ahead] at hn ⊢
    have hstay : ({ p with stage := .start } : Pass) = p := by
      rw [← hstage]
    refine ⟨s, .refl s, rfl, rfl, ?_⟩
    rw [hstage, hp, hstay]
    rfl
  | succ n ih =>
    have hstage : p.stage ≠ .start := by
      intro hg
      rw [hg] at hn
      cases hn
    have hlook := @look_test i zone read _ _ _ _ hp hrest hstage
    rw [Stage.ahead_eq hstage] at hn ⊢
    rw [List.all_cons]
    cases htest : p.stage.test s.board zone read p.now p.anyTime t with
    | false =>
      rw [htest] at hlook
      refine ⟨s.look i zone read, .look (.refl _), by rw [hlook], by rw [hlook], ?_⟩
      rw [hlook]
      exact getElem?_set_of_some hp p.skip
    | true =>
      rw [htest] at hlook
      have hat : (s.look i zone read).passes[i]? = some { p with stage := p.stage.next } := by
        rw [hlook]
        exact getElem?_set_of_some hp _
      obtain ⟨s', hreach, hboard, hflights, hpass⟩ := ih hat hrest (Nat.succ.inj hn)
      have hsame : (s.look i zone read).board = s.board := by rw [hlook]
      have hsame' : (s.look i zone read).flights = s.flights := by rw [hlook]
      rw [hsame] at hboard hpass
      rw [hsame'] at hflights
      exact ⟨s', hreach.look, hboard, hflights, hpass⟩

theorem look_start (hp : s.passes[i]? = some p) (hrest : p.rest = t :: rest) (hstage : p.stage = .start) :
    s.look i zone read = { (s.attempt t p.trigger p.now).2 with
      passes := (s.attempt t p.trigger p.now).2.passes.set i (p.tried t (s.attempt t p.trigger p.now).1) } := by
  unfold State.look
  rw [hp]
  simp only [hrest, hstage, if_true]

theorem attempt_of_acquire {trigger : Trigger} {now : Instant} {c : Board}
    (h : s.board.acquire t.name now = some c) :
    s.attempt t trigger now = (true, { s with
      board := c
      flights := s.flights ++ [⟨t, trigger, now, false⟩]
      log := .attempt t trigger now true :: s.log }) := by
  unfold State.attempt
  rw [h]

theorem attempt_of_refused {trigger : Trigger} {now : Instant} (h : s.board.acquire t.name now = none) :
    s.attempt t trigger now = (false, { s with log := .attempt t trigger now false :: s.log }) := by
  unfold State.attempt
  rw [h]

/-- **Adequacy.** A pass that nothing comes between starts the tasks that `Board.pass` starts: each of them has a body
in flight at its end. -/
theorem pass_uninterrupted (hp : s.passes[i]? = some p) (hstage : p.stage = .running) :
    ∃ s' p', Reaches i zone read s s' ∧ s'.passes[i]? = some p' ∧ p'.rest = [] ∧
      s'.board = (Board.pass zone read p.now p.anyTime p.rest s.board).2 ∧
      p'.started = p.started ++ (Board.pass zone read p.now p.anyTime p.rest s.board).1 ∧
      s'.flights = s.flights ++
        (Board.pass zone read p.now p.anyTime p.rest s.board).1.map fun t => ⟨t, p.trigger, p.now, false⟩ := by
  generalize hall : p.rest = tasks
  induction tasks generalizing s p with
  | nil => exact ⟨s, p, .refl s, hp, hall, rfl, (List.append_nil _).symm, (List.append_nil _).symm⟩
  | cons t rest ih =>
    obtain ⟨s₁, hreach, hboard, hflights, hpass⟩ := @tests_uninterrupted i zone read _ _ _ _ hp hall _ rfl
    rw [hstage, ← isDue_eq_all] at hpass
    unfold Board.pass
    cases hdue : s.board.isDue zone read p.now p.anyTime t with
    | false =>
      rw [hdue, if_neg Bool.false_ne_true] at hpass
      have hrest : p.skip.rest = rest := by
        unfold Pass.skip
        rw [hall, List.tail_cons]
      obtain ⟨s', p', hreach', hend⟩ := ih hpass rfl hrest
      rw [hboard, hflights] at hend
      exact ⟨s', p', hreach.trans hreach', hend⟩
    | true =>
      rw [hdue, if_pos rfl] at hpass
      -- nobody has moved since the first test, so the attempt finds the task idle still
      have hidle : s₁.board.isRunning t.name = false := by
        rw [hboard]
        unfold Board.isDue at hdue
        simp only [Bool.and_eq_true, Bool.not_eq_true'] at hdue
        exact hdue.1.1.1
      cases hacquire : s₁.board.acquire t.name p.now with
      | none =>
        rw [Board.acquire_eq_none_iff, hidle] at hacquire
        cases hacquire
      | some c =>
        have hlook := @look_start i zone read _ _ _ _ hpass hall rfl
        rw [attempt_of_acquire hacquire] at hlook
        have hat : (s₁.look i zone read).passes[i]? = some (p.tried t true) := by
          rw [hlook]
          exact getElem?_set_of_some hpass _
        have hrest : (p.tried t true).rest = rest := by
          unfold Pass.tried Pass.skip
          rw [hall, List.tail_cons]
        obtain ⟨s', p', hreach', hp', hnil, hb, hs, hf⟩ := ih hat rfl hrest
        have hc : (s₁.look i zone read).board = c := by rw [hlook]
        have hbody : (s₁.look i zone read).flights = s₁.flights ++ [⟨t, p.trigger, p.now, false⟩] := by
          rw [hlook]
          rfl
        rw [hc] at hb hs
        rw [hc, hbody, hflights] at hf
        rw [← hboard, hacquire]
        refine ⟨s', p', hreach.trans (.look hreach'), hp', hnil, hb, ?_, ?_⟩
        · rw [hs]
          exact List.append_assoc p.started [t] _
        · rw [hf]
          exact List.append_assoc s.flights [_] _

end Uninterrupted

end CatalogSync.Schedule
