import CatalogSync.Proofs.Schedule.Interleaving

/-!
# One body at a time

Whatever passes, calls and bodies do between one another's steps, a task has at most one body in
flight, and the board shows it. `Effect` says once what a move can do. `Coupled` ties the board to the
bodies and to what happened; the only moves that touch the board are attempts to start a body
(`attempt_coupled`) and ends of bodies (`finish_coupled`).

Main statement: `one_body_at_a_time`.
-/

namespace CatalogSync.Schedule

open CatalogSync.Text CatalogSync.Time

/-- The names of the tasks that have a body in flight. -/
def namesOf (flights : List Flight) : List String := flights.map fun f => f.task.name

/-- The time of the latest start of a task. -/
def lastStart? (name : String) (log : List Happening) : Option Instant :=
  log.findSome? fun
    | .attempt t _ now true => if t.name = name then some now else none
    | _ => none

/-- The board shows the bodies in flight and the latest starts. -/
structure Coupled (b : Board) (flights : List Flight) (log : List Happening) : Prop where
  one : (namesOf flights).Nodup
  running : ∀ name, b.isRunning name ↔ name ∈ namesOf flights
  lastRun : ∀ name, b.lastRun.find? name = lastStart? name log
  recorded : ∀ f ∈ flights, b.lastRun.find? f.task.name = some f.at_

/-- Passes look at registered tasks only. -/
def Known (tasks : List Task) (passes : List Pass) : Prop := ∀ p ∈ passes, ∀ t ∈ p.rest, t ∈ tasks

/-- What a state says for itself. -/
structure Sound (s : State) : Prop where
  names : (s.tasks.map Task.name).Nodup
  coupled : Coupled s.board s.flights s.log
  flights : ∀ f ∈ s.flights, f.task ∈ s.tasks
  passes : Known s.tasks s.passes

/-! ## What a move can do -/

/-- A state, and what a move makes of it. -/
inductive Effect (s : State) : State → Prop
  | passes (passes : List Pass) (h : Known s.tasks passes) : Effect s { s with passes }
  | attempt (t : Task) (trigger : Trigger) (now : Instant) (passes : List Pass) (ht : t ∈ s.tasks)
      (h : Known s.tasks passes) : Effect s { (s.attempt t trigger now).2 with passes }
  | begin (i : Nat) (f : Flight) (hf : s.flights[i]? = some f) :
      Effect s { s with flights := s.flights.set i { f with begun := true }, log := .began f :: s.log }
  | finish (i : Nat) (f : Flight) (outcome : Option TaskOutcome) (hf : s.flights[i]? = some f) :
      Effect s { s with
        board := s.board.release f.task.name
        flights := s.flights.eraseIdx i
        log := .ended f outcome :: s.log }

section Moves

variable {s : State}

theorem Known.append {tasks : List Task} {passes more : List Pass} (h : Known tasks passes)
    (h' : Known tasks more) : Known tasks (passes ++ more) := by
  intro p hp
  rcases List.mem_append.1 hp with hold | hnew
  · exact h p hold
  · exact h' p hnew

theorem Known.set {tasks : List Task} {passes : List Pass} (h : Known tasks passes) {p : Pass}
    (hp : ∀ t ∈ p.rest, t ∈ tasks) (i : Nat) : Known tasks (passes.set i p) := by
  intro q hq
  rcases List.mem_or_eq_of_mem_set hq with hold | rfl
  · exact h q hold
  · exact hp

theorem attempt_passes (t : Task) (trigger : Trigger) (now : Instant) (s : State) :
    (s.attempt t trigger now).2.passes = s.passes := by
  unfold State.attempt
  split <;> rfl

theorem look_effect (h : Known s.tasks s.passes) (i : Nat) (zone : Zone) (read : Lookup) :
    Effect s (s.look i zone read) := by
  cases hp : s.passes[i]? with
  | none =>
    unfold State.look
    rw [hp]
    exact .passes s.passes h
  | some p =>
    have hknown := h p (List.mem_of_getElem? hp)
    have htail : ∀ t ∈ p.rest.tail, t ∈ s.tasks := fun t ht => hknown t (List.mem_of_mem_tail ht)
    cases hrest : p.rest with
    | nil =>
      unfold State.look
      rw [hp]
      simp only [hrest]
      exact .passes s.passes h
    | cons t rest =>
      by_cases hstage : p.stage = .start
      · have ht : t ∈ s.tasks := hknown t (by rw [hrest]; exact List.mem_cons_self)
        rw [look_start hp hrest hstage, attempt_passes]
        exact .attempt t p.trigger p.now _ ht (h.set htail i)
      · rw [look_test hp hrest hstage]
        refine .passes _ (h.set ?_ i)
        split
        · exact hknown
        · exact htail

theorem step_effect (h : Known s.tasks s.passes) (m : Move) : Effect s (s.step m) := by
  cases m with
  | openPass now anyTime =>
    refine .passes _ (h.append fun p hp t ht => ?_)
    rw [List.mem_singleton.1 hp] at ht
    exact ht
  | look i zone read => exact look_effect h i zone read
  | trigger name now =>
    change Effect s (s.trigger name now).2
    unfold State.trigger
    cases hfind : find s.tasks name with
    | error e => exact .passes s.passes h
    | ok t =>
      have heffect := Effect.attempt t .manual now s.passes (mem_of_find hfind) h
      rw [← attempt_passes t .manual now s] at heffect
      exact heffect
  | begin i =>
    change Effect s (s.begin i)
    unfold State.begin
    cases hf : s.flights[i]? with
    | none => exact .passes s.passes h
    | some f => exact .begin i f hf
  | finish i outcome =>
    change Effect s (s.finish i outcome)
    unfold State.finish
    cases hf : s.flights[i]? with
    | none => exact .passes s.passes h
    | some f => exact .finish i f outcome hf

end Moves

/-! ## The board -/

section Coupling

variable {b : Board} {flights : List Flight} {log : List Happening}

theorem started_coupled (h : Coupled b flights log) {t : Task} {now : Instant} {c : Board}
    (hacquire : b.acquire t.name now = some c) (trigger : Trigger) :
    Coupled c (flights ++ [⟨t, trigger, now, false⟩]) (.attempt t trigger now true :: log) := by
  have hidle : t.name ∉ namesOf flights := by
    intro hmem
    rw [(Board.acquire_eq_none_iff ..).2 ((h.running t.name).2 hmem)] at hacquire
    cases hacquire
  have hnames : namesOf (flights ++ [⟨t, trigger, now, false⟩]) = namesOf flights ++ [t.name] := by
    unfold namesOf
    rw [List.map_append, List.map_singleton]
  constructor
  case one =>
    rw [hnames, ← List.concat_eq_append]
    exact List.Nodup.concat hidle h.one
  case running =>
    intro name
    rw [Board.isRunning_acquire_iff hacquire, h.running, hnames, List.mem_append, List.mem_singleton, or_comm]
  case lastRun =>
    intro name
    rw [Board.find?_lastRun_acquire hacquire, h.lastRun]
    by_cases hname : name = t.name
    · simp [lastStart?, hname]
    · simp [lastStart?, hname, Ne.symm hname]
  case recorded =>
    intro f hf
    rw [Board.find?_lastRun_acquire hacquire]
    -- the new start is not recorded under the name of another body
    rcases List.mem_append.1 hf with hold | hnew
    · have hne : f.task.name ≠ t.name := fun he => hidle (he ▸ List.mem_map_of_mem hold)
      rw [if_neg hne]
      exact h.recorded f hold
    · rw [List.mem_singleton.1 hnew, if_pos rfl]

theorem attempt_coupled {s : State} (h : Coupled s.board s.flights s.log) (t : Task) (trigger : Trigger)
    (now : Instant) : Coupled (s.attempt t trigger now).2.board (s.attempt t trigger now).2.flights
      (s.attempt t trigger now).2.log := by
  cases hacquire : s.board.acquire t.name now with
  | none =>
    rw [attempt_of_refused hacquire]
    exact ⟨h.one, h.running, h.lastRun, h.recorded⟩
  | some c =>
    rw [attempt_of_acquire hacquire]
    exact started_coupled h hacquire trigger

variable {i : Nat} {f : Flight}

/-- A body is in flight once, so with it goes its name. -/
theorem mem_namesOf_eraseIdx (h : (namesOf flights).Nodup) (hf : flights[i]? = some f) (name : String) :
    name ∈ namesOf (flights.eraseIdx i) ↔ name ≠ f.task.name ∧ name ∈ namesOf flights := by
  obtain ⟨hi, hget⟩ := List.getElem?_eq_some_iff.1 hf
  have honce : flights.Nodup := List.Nodup.of_map _ h
  have hmem : f ∈ flights := hget ▸ List.getElem_mem hi
  -- no body is in flight twice, so to erase it by its place is to erase it by its value
  rw [← honce.erase_getElem i hi, hget]
  constructor
  · intro hname
    obtain ⟨g, hg, rfl⟩ := List.mem_map.1 hname
    obtain ⟨hne, hg⟩ := honce.mem_erase_iff.1 hg
    exact ⟨fun he => hne (List.inj_on_of_nodup_map h hg hmem he), List.mem_map_of_mem hg⟩
  · rintro ⟨hne, hname⟩
    obtain ⟨g, hg, rfl⟩ := List.mem_map.1 hname
    have hother : g ≠ f := fun he => hne (he ▸ rfl)
    exact List.mem_map_of_mem (honce.mem_erase_iff.2 ⟨hother, hg⟩)

theorem finish_coupled (h : Coupled b flights log) (hf : flights[i]? = some f) (outcome : Option TaskOutcome) :
    Coupled (b.release f.task.name) (flights.eraseIdx i) (.ended f outcome :: log) where
  one := h.one.sublist ((List.eraseIdx_sublist ..).map _)
  running name := by rw [Board.isRunning_release_iff, h.running, mem_namesOf_eraseIdx h.one hf]
  lastRun := h.lastRun
  recorded g hg := h.recorded g (List.mem_of_mem_eraseIdx hg)

theorem namesOf_begun (hf : flights[i]? = some f) :
    namesOf (flights.set i { f with begun := true }) = namesOf flights := by
  obtain ⟨hi, -⟩ := List.getElem?_eq_some_iff.1 hf
  unfold namesOf
  refine List.ext_getElem? fun j => ?_
  rw [List.getElem?_map, List.getElem?_map, List.getElem?_set]
  by_cases hj : i = j
  · rw [if_pos hj, if_pos hi, ← hj, hf]
    rfl
  · rw [if_neg hj]

theorem begin_coupled (h : Coupled b flights log) (hf : flights[i]? = some f) :
    Coupled b (flights.set i { f with begun := true }) (.began f :: log) where
  one := by rw [namesOf_begun hf]; exact h.one
  running := by rw [namesOf_begun hf]; exact h.running
  lastRun := h.lastRun
  recorded g hg := by
    rcases List.mem_or_eq_of_mem_set hg with hold | rfl
    · exact h.recorded g hold
    · exact h.recorded f (List.mem_of_getElem? hf)

end Coupling

/-! ## Every run -/

theorem attempt_tasks (t : Task) (trigger : Trigger) (now : Instant) (s : State) :
    (s.attempt t trigger now).2.tasks = s.tasks := by
  unfold State.attempt
  split <;> rfl

theorem attempt_flights {s : State} (h : ∀ f ∈ s.flights, f.task ∈ s.tasks) {t : Task} (ht : t ∈ s.tasks)
    (trigger : Trigger) (now : Instant) : ∀ f ∈ (s.attempt t trigger now).2.flights, f.task ∈ s.tasks := by
  intro f hf
  unfold State.attempt at hf
  split at hf
  · exact h f hf
  · rcases List.mem_append.1 hf with hold | hnew
    · exact h f hold
    · rw [List.mem_singleton.1 hnew]
      exact ht

theorem Effect.sound {s s' : State} (e : Effect s s') (h : Sound s) : Sound s' := by
  cases e with
  | passes passes hknown => exact ⟨h.names, h.coupled, h.flights, hknown⟩
  | attempt t trigger now passes ht hknown =>
    have hcoupled := attempt_coupled h.coupled t trigger now
    have hflights := attempt_flights h.flights ht trigger now
    rw [← attempt_tasks t trigger now s] at hknown hflights
    refine ⟨?_, hcoupled, hflights, hknown⟩
    rw [attempt_tasks]
    exact h.names
  | begin i f hf =>
    refine ⟨h.names, begin_coupled h.coupled hf, fun g hg => ?_, h.passes⟩
    rcases List.mem_or_eq_of_mem_set hg with hold | rfl
    · exact h.flights g hold
    · exact h.flights f (List.mem_of_getElem? hf)
  | finish i f outcome hf =>
    refine ⟨h.names, finish_coupled h.coupled hf outcome, fun g hg => ?_, h.passes⟩
    exact h.flights g (List.mem_of_mem_eraseIdx hg)

theorem steps_sound {s : State} (h : Sound s) (moves : List Move) : Sound (s.steps moves) := by
  induction moves generalizing s with
  | nil => exact h
  | cons m moves ih => exact ih ((step_effect h.passes m).sound h)

theorem run_sound (offers : List Task) (moves : List Move) : Sound (run offers moves) := by
  have hstart : Sound { tasks := enroll offers } :=
    { names := nodup_enroll offers
      coupled :=
        { one := List.nodup_nil
          running := fun name => by simp [Board.isRunning, namesOf]
          lastRun := fun _ => rfl
          recorded := fun f hf => absurd hf List.not_mem_nil }
      flights := fun f hf => absurd hf List.not_mem_nil
      passes := fun p hp => absurd hp List.not_mem_nil }
  exact steps_sound hstart moves

/-! ## Attempts to start a body -/

/-- How an attempt to start a body turns out: it is refused just if the task has one in flight, and then
nothing changes; else the new body waits to begin, and the time of its start is on the board. -/
structure Answered (s s' : State) (t : Task) (trigger : Trigger) (now : Instant) (accepted : Bool) : Prop where
  refused_iff : accepted = false ↔ ∃ f ∈ s.flights, f.task = t
  refused : accepted = false → s'.board = s.board ∧ s'.flights = s.flights
  started : accepted = true → s'.flights = s.flights ++ [⟨t, trigger, now, false⟩] ∧
    s'.board.lastRun.find? t.name = some now ∧
    ∀ other ≠ t.name, s'.board.lastRun.find? other = s.board.lastRun.find? other

/-- An attempt to start a body is made: it is noted, and answered so. -/
structure Attempted (s s' : State) (t : Task) (trigger : Trigger) (now : Instant) (accepted : Bool) : Prop
    extends Answered s s' t trigger now accepted where
  noted : s'.log = .attempt t trigger now accepted :: s.log

section Attempts

variable {s s' : State} {t : Task} {trigger : Trigger} {now : Instant}

/-- A task is known by its name. -/
theorem running_iff_flight (h : Sound s) (ht : t ∈ s.tasks) :
    s.board.isRunning t.name ↔ ∃ f ∈ s.flights, f.task = t := by
  rw [h.coupled.running]
  constructor
  · intro hmem
    obtain ⟨f, hf, hname⟩ := List.mem_map.1 hmem
    exact ⟨f, hf, List.inj_on_of_nodup_map h.names (h.flights f hf) ht hname⟩
  · rintro ⟨f, hf, rfl⟩
    exact List.mem_map_of_mem hf

theorem attempt_answered (h : Sound s) (ht : t ∈ s.tasks) (trigger : Trigger) (now : Instant) :
    Answered s (s.attempt t trigger now).2 t trigger now (s.attempt t trigger now).1 := by
  have hrunning := running_iff_flight h ht
  rw [← Board.acquire_eq_none_iff s.board t.name now] at hrunning
  cases hacquire : s.board.acquire t.name now with
  | none =>
    rw [attempt_of_refused hacquire]
    exact ⟨⟨fun _ => hrunning.1 hacquire, fun _ => rfl⟩, fun _ => ⟨rfl, rfl⟩, nofun⟩
  | some c =>
    have hlast := Board.find?_lastRun_acquire hacquire
    rw [attempt_of_acquire hacquire]
    refine ⟨⟨nofun, fun hflight => ?_⟩, nofun, fun _ => ⟨rfl, ?_, fun other hne => ?_⟩⟩
    · rw [hrunning.2 hflight] at hacquire
      cases hacquire
    · exact (hlast t.name).trans (if_pos rfl)
    · exact (hlast other).trans (if_neg hne)

theorem attempt_log (t : Task) (trigger : Trigger) (now : Instant) (s : State) :
    (s.attempt t trigger now).2.log = .attempt t trigger now (s.attempt t trigger now).1 :: s.log := by
  unfold State.attempt
  split <;> rfl

theorem attempt_attempted (h : Sound s) (ht : t ∈ s.tasks) (trigger : Trigger) (now : Instant) :
    Attempted s (s.attempt t trigger now).2 t trigger now (s.attempt t trigger now).1 :=
  ⟨attempt_answered h ht trigger now, attempt_log t trigger now s⟩

theorem find_of_mem {tasks : List Task} (h : (tasks.map Task.name).Nodup) (ht : t ∈ tasks) :
    find tasks t.name = .ok t := by
  have hsome : (tasks.find? (·.name == t.name)).isSome := List.find?_isSome.2 ⟨t, ht, beq_self_eq_true _⟩
  obtain ⟨u, hu⟩ := Option.isSome_iff_exists.1 hsome
  have hfound : (u.name == t.name) = true := List.find?_some (p := fun x : Task => x.name == t.name) hu
  have hname : u.name = t.name := beq_iff_eq.1 hfound
  obtain rfl := List.inj_on_of_nodup_map h (List.mem_of_find?_eq_some hu) ht hname
  unfold find
  rw [hu]

/-- A call that starts a registered task makes an attempt, and returns how it went. -/
theorem trigger_attempted (h : Sound s) (ht : t ∈ s.tasks) (now : Instant) :
    ∃ accepted, (s.trigger t.name now).1 = .ok accepted ∧
      Attempted s (s.trigger t.name now).2 t .manual now accepted := by
  refine ⟨(s.attempt t .manual now).1, ?_⟩
  unfold State.trigger
  rw [find_of_mem h.names ht]
  exact ⟨rfl, attempt_attempted h ht .manual now⟩

/-- A pass that is about to start a task makes an attempt, and remembers how it went. -/
theorem look_attempted (h : Sound s) {i : Nat} {p : Pass} {rest : List Task} (hp : s.passes[i]? = some p)
    (hstage : p.stage = .start) (hrest : p.rest = t :: rest) (zone : Zone) (read : Lookup) :
    ∃ accepted, (s.look i zone read).passes[i]? = some (p.tried t accepted) ∧
      Attempted s (s.look i zone read) t p.trigger p.now accepted := by
  have ht : t ∈ s.tasks := h.passes p (List.mem_of_getElem? hp) t (by rw [hrest]; exact List.mem_cons_self)
  obtain ⟨hanswered, hnoted⟩ := attempt_attempted h ht p.trigger p.now
  refine ⟨(s.attempt t p.trigger p.now).1, ?_⟩
  rw [look_start hp hrest hstage]
  refine ⟨?_, ⟨hanswered.refused_iff, hanswered.refused, hanswered.started⟩, hnoted⟩
  rw [attempt_passes]
  exact getElem?_set_of_some hp _

/-- Whatever move attempts to start a body, it is answered so. -/
theorem Effect.answered (e : Effect s s') (h : Sound s) {accepted : Bool}
    (hlog : s'.log = .attempt t trigger now accepted :: s.log) : Answered s s' t trigger now accepted := by
  cases e with
  | passes => exact absurd hlog.symm (List.cons_ne_self _ _)
  | begin => cases hlog
  | finish => cases hlog
  | attempt t' trigger' now' passes ht =>
    have hanswered := attempt_answered h ht trigger' now'
    rw [attempt_log] at hlog
    cases hlog
    exact ⟨hanswered.refused_iff, hanswered.refused, hanswered.started⟩

end Attempts

/-- **One body at a time.** Whatever tasks are offered and whatever passes, calls and bodies do, at every
moment a task has at most one body in flight, it shows as running just if it has one, and the time on the board
is that of its latest start, the one of the body in flight. An attempt to start a body of a registered task is noted with
what it returns, be it made by a call, which returns the same, or by a pass that has come to it; it is refused just if
there is a body in flight, and then nothing changes. No other move is noted as an attempt. -/
theorem one_body_at_a_time (offers : List Task) (moves : List Move) :
    let s := run offers moves
    (s.tasks.map Task.name).Nodup ∧ (namesOf s.flights).Nodup ∧
      (∀ name, s.board.isRunning name ↔ ∃ f ∈ s.flights, f.task.name = name) ∧
      (∀ t ∈ s.tasks, s.board.isRunning t.name ↔ ∃ f ∈ s.flights, f.task = t) ∧
      (∀ name, s.board.lastRun.find? name = lastStart? name s.log) ∧
      (∀ f ∈ s.flights, s.board.lastRun.find? f.task.name = some f.at_) ∧
      (∀ t ∈ s.tasks, ∀ trigger now,
        Attempted s (s.attempt t trigger now).2 t trigger now (s.attempt t trigger now).1) ∧
      (∀ t ∈ s.tasks, ∀ now, ∃ accepted, (s.trigger t.name now).1 = .ok accepted ∧
        Attempted s (s.trigger t.name now).2 t .manual now accepted) ∧
      (∀ i zone read p t rest, s.passes[i]? = some p → p.stage = .start → p.rest = t :: rest →
        ∃ accepted, (s.look i zone read).passes[i]? = some (p.tried t accepted) ∧
          Attempted s (s.look i zone read) t p.trigger p.now accepted) ∧
      ∀ m t trigger now accepted, (s.step m).log = .attempt t trigger now accepted :: s.log →
        Answered s (s.step m) t trigger now accepted := by
  intro s
  have h : Sound s := run_sound offers moves
  have hnames : ∀ name, s.board.isRunning name ↔ ∃ f ∈ s.flights, f.task.name = name := by
    intro name
    rw [h.coupled.running]
    exact List.mem_map
  refine ⟨h.names, h.coupled.one, hnames, fun t ht => running_iff_flight h ht, h.coupled.lastRun, h.coupled.recorded,
    fun t ht trigger now => attempt_attempted h ht trigger now, fun t ht now => trigger_attempted h ht now, ?_, ?_⟩
  · intro i zone read p t rest hp hstage hrest
    exact look_attempted h hp hstage hrest zone read
  · intro m t trigger now accepted hlog
    exact (step_effect h.passes m).answered h hlog

/-! ## A task that comes and goes -/

/-- A task that runs every ten milliseconds. -/
def brisk : Task := { name := "brisk", interval := Span.ofMillis 10 }

def tenMillisLater : Instant := ⟨0, ⟨0, 10000000, (default : OfDay).second_lt, by decide⟩⟩

def noSettings : Lookup := fun _ => .ok none

/-- A pass starts the task, and its body begins. -/
def takeoff : List Move := [.openPass default true] ++ List.replicate 5 (.look 0 .utc noSettings) ++ [.begin 0]

/-- While the body that a pass has started is in flight, a call is refused, and the time of the start stays. When the body
has panicked, the next call starts another one. -/
theorem brisk_comes_and_goes :
    (run [brisk] takeoff).flights = [⟨brisk, .catchUp, default, true⟩] ∧
      ((run [brisk] takeoff).trigger brisk.name tenMillisLater).1 = .ok false ∧
      ((run [brisk] takeoff).trigger brisk.name tenMillisLater).2.board.lastRun.find? brisk.name = some default ∧
      ((run [brisk] (takeoff ++ [.finish 0 none])).trigger brisk.name tenMillisLater).1 = .ok true ∧
      ((run [brisk] (takeoff ++ [.finish 0 none])).trigger brisk.name tenMillisLater).2.board.lastRun.find? brisk.name =
        some tenMillisLater := by
  have hflights : (run [brisk] takeoff).flights = [⟨brisk, .catchUp, default, true⟩] := rfl
  have hnone : (run [brisk] (takeoff ++ [.finish 0 none])).flights = [] := rfl
  have htask : brisk ∈ (run [brisk] takeoff).tasks := List.mem_singleton_self brisk
  have htask' : brisk ∈ (run [brisk] (takeoff ++ [.finish 0 none])).tasks := List.mem_singleton_self brisk
  obtain ⟨-, -, -, -, -, hrecorded, -, hcall, -, -⟩ := one_body_at_a_time [brisk] takeoff
  obtain ⟨-, -, -, -, -, -, -, hcall', -, -⟩ := one_body_at_a_time [brisk] (takeoff ++ [.finish 0 none])
  obtain ⟨accepted, hreturns, hattempt⟩ := hcall brisk htask tenMillisLater
  obtain ⟨accepted', hreturns', hattempt'⟩ := hcall' brisk htask' tenMillisLater
  have hrefused : accepted = false := by
    rw [hattempt.refused_iff, hflights]
    exact ⟨_, List.mem_singleton_self _, rfl⟩
  have hstarted : accepted' = true := by
    rw [← Bool.not_eq_false, hattempt'.refused_iff, hnone]
    rintro ⟨f, hf, -⟩
    exact absurd hf List.not_mem_nil
  subst hrefused hstarted
  refine ⟨hflights, hreturns, ?_, hreturns', (hattempt'.started rfl).2.1⟩
  rw [(hattempt.refused rfl).1]
  exact hrecorded ⟨brisk, .catchUp, default, true⟩ (by rw [hflights]; exact List.mem_singleton_self _)

end CatalogSync.Schedule
