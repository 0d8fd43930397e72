import CatalogSync.Schedule.Task
import CatalogSync.Text.Dict

/-!
# The board of running tasks

The board knows which tasks are running and when each was last started in this process. `acquire` is
the only way onto it, and it refuses a task that is there: so at most one body of a task runs at a
time. `pass` starts every task that is due.
-/

namespace CatalogSync.Schedule

open CatalogSync.Text CatalogSync.Time

/-- Which tasks run, and when each was last started. -/
structure Board where
  running : List String := []
  lastRun : Dict Instant := []
deriving DecidableEq, Repr, Inhabited

namespace Board

def isRunning (b : Board) (name : String) : Bool := b.running.contains name

/-- Puts a task on the board, unless it is there. -/
def acquire (b : Board) (name : String) (now : Instant) : Option Board :=
  if b.isRunning name then none
  else some { running := b.running ++ [name], lastRun := b.lastRun.put name now }

def release (b : Board) (name : String) : Board := { b with running := b.running.filter (· ≠ name) }

/-- Whether a task should be started at an instant; `anyTime` says that windows of the day do not count. -/
def isDue (b : Board) (zone : Zone) (read : Lookup) (now : Instant) (anyTime : Bool) (t : Task) : Bool :=
  !b.isRunning t.name && t.isEnabled read && (anyTime || t.isInWindow zone read now) &&
    t.isOver now (t.lastRun read (b.lastRun.find? t.name))

/-- Starts the tasks that are due, in order. -/
def pass (zone : Zone) (read : Lookup) (now : Instant) (anyTime : Bool) : List Task → Board → List Task × Board
  | [], b => ([], b)
  | t :: rest, b =>
    if b.isDue zone read now anyTime t then
      match b.acquire t.name now with
      | some b =>
        let (started, b) := pass zone read now anyTime rest b
        (t :: started, b)
      | none => pass zone read now anyTime rest b
    else pass zone read now anyTime rest b

theorem acquire_eq_none_iff (b : Board) (name : String) (now : Instant) :
    b.acquire name now = none ↔ b.isRunning name := by
  cases h : b.isRunning name <;> simp [acquire, h]

theorem isRunning_acquire_iff {b c : Board} {name : String} {now : Instant} (h : b.acquire name now = some c)
    (other : String) : c.isRunning other ↔ other = name ∨ b.isRunning other := by
  unfold acquire at h
  split at h
  · cases h
  · cases h
    simp [isRunning, or_comm]

theorem find?_lastRun_acquire {b c : Board} {name : String} {now : Instant} (h : b.acquire name now = some c)
    (other : String) : c.lastRun.find? other = if other = name then some now else b.lastRun.find? other := by
  unfold acquire at h
  split at h
  · cases h
  · cases h
    split
    · next he => rw [he, Dict.find?_put_self]
    · next hne => rw [Dict.find?_put_of_ne b.lastRun now hne]

theorem isDue_acquire {b c : Board} {name : String} {now : Instant} (h : b.acquire name now = some c) (zone : Zone)
    (read : Lookup)    (at_ : Instant) (anyTime : Bool) {t : Task} (hne : t.name ≠ name) :
    c.isDue zone read at_ anyTime t = b.isDue zone read at_ anyTime t := by
  have hrunning : c.isRunning t.name = b.isRunning t.name := by
    rw [Bool.eq_iff_iff, isRunning_acquire_iff h]
    simp [hne]
  unfold isDue
  rw [hrunning, find?_lastRun_acquire h, if_neg hne]

/-- **A pass** starts those of the tasks that are due when it begins. -/
theorem pass_started (zone : Zone) (read : Lookup) (now : Instant) (anyTime : Bool) {tasks : List Task}
    (hnames : (tasks.map Task.name).Nodup) (b : Board) :
    (pass zone read now anyTime tasks b).1 = tasks.filter (b.isDue zone read now anyTime) := by
  induction tasks generalizing b with
  | nil => rfl
  | cons t rest ih =>
    rw [List.map_cons, List.nodup_cons] at hnames
    obtain ⟨hnew, hrest⟩ := hnames
    unfold pass
    by_cases hdue : b.isDue zone read now anyTime t = true
    · rw [if_pos hdue, List.filter_cons_of_pos hdue]
      cases hacquire : b.acquire t.name now with
      | none =>
        rw [acquire_eq_none_iff] at hacquire
        unfold isDue at hdue
        rw [hacquire] at hdue
        exact absurd hdue (by simp)
      | some c =>
        have hsame : rest.filter (c.isDue zone read now anyTime) = rest.filter (b.isDue zone read now anyTime) := by
          apply List.filter_congr
          intro u hu
          apply isDue_acquire hacquire
          intro hname
          exact hnew (hname ▸ List.mem_map_of_mem hu)
        rw [← hsame, ← ih hrest]
    · rw [if_neg hdue, List.filter_cons_of_neg hdue]
      exact ih hrest b

theorem isRunning_release_iff (b : Board) (name other : String) :
    (b.release name).isRunning other ↔ other ≠ name ∧ b.isRunning other := by
  simp [isRunning, release, and_comm]

end Board

/-! ## Registration -/

/-- The error over a name that is taken. -/
def takenMessage (name : String) : String := "Task " ++ name ++ " is already registered"

/-- The error over a name that no task has. -/
def unknownMessage (name : String) : String := "Unknown task " ++ name

/-- Adds a task, unless its name is taken. -/
def register (tasks : List Task) (t : Task) : Except String (List Task) :=
  if tasks.any (·.name == t.name) then .error (takenMessage t.name) else .ok (tasks ++ [t])

theorem register_eq_ok {tasks tasks' : List Task} {t : Task} (h : register tasks t = .ok tasks') :
    t.name ∉ tasks.map Task.name ∧ tasks' = tasks ++ [t] := by
  unfold register at h
  split at h
  · cases h
  · next hnew =>
    cases h
    refine ⟨fun hmem => hnew ?_, rfl⟩
    obtain ⟨u, hu, hname⟩ := List.mem_map.1 hmem
    exact List.any_eq_true.2 ⟨u, hu, beq_iff_eq.2 hname⟩

/-- The task of a name. -/
def find (tasks : List Task) (name : String) : Except String Task :=
  match tasks.find? (·.name == name) with
  | some t => .ok t
  | none => .error (unknownMessage name)

theorem mem_of_find {tasks : List Task} {name : String} {t : Task} (h : find tasks name = .ok t) : t ∈ tasks := by
  unfold find at h
  split at h
  · next hfound =>
    cases h
    exact List.mem_of_find?_eq_some hfound
  · cases h

end CatalogSync.Schedule
