import CatalogSync.Schedule.Board
import CatalogSync.Schedule.Periods
import CatalogSync.Server.Basic

/-!
# A scheduler with scripted bodies

A rehearsal runs a scheduler whose task bodies follow a script, while time passes only when it is
told to. Every start and end of a body is logged. The ticker fires once a period and the catch-up
pass once after its delay, until the scheduler is stopped or its root is cancelled.
-/

namespace CatalogSync.Schedule

open CatalogSync.Time

/-- What a body does. -/
inductive Act where
  | succeed
  | fail
  | giveUp
  /-- It ends without an outcome. -/
  | crash
  /-- It waits to be released. -/
  | block
  /-- It waits for its token to be cancelled. -/
  | untilCancelled
deriving DecidableEq, Repr, Inhabited

/-- Something that happened to a body. -/
structure Event where
  task : String
  what : String
  trigger : Trigger
  at_ : Instant
  cancelled : Bool
deriving DecidableEq, Repr, Inhabited

/-- A body at work. -/
structure Body where
  task : String
  token : Token
  trigger : Trigger
  at_ : Instant
  act : Act
deriving DecidableEq, Repr, Inhabited

/-- The two loops of a scheduler that was started: when each fires next, in nanoseconds of the rehearsal. -/
structure Loops where
  tick : Option Nat
  catchUp : Option Nat
deriving DecidableEq, Repr, Inhabited

/-- The state of a rehearsal. -/
structure Rehearsal where
  server : Server
  zone : Zone := .utc
  periods : Periods
  tasks : List Task := []
  /-- What the bodies of a task do, run by run; the last is repeated. -/
  scripts : List (String × List Act) := []
  /-- All definitions that were offered, the last one first. -/
  offered : List Task := []
  board : Board := {}
  loops : Option Loops := none
  time : Nat := 0
  /-- The token that bodies are given. -/
  taskToken : Token := ⟨0⟩
  bodies : List Body := []
  /-- The log, the last event first. -/
  log : List Event := []
deriving Inhabited

namespace Rehearsal

/-- The token that stands for the whole process. -/
def root : Token := ⟨1⟩

def lookup (r : Rehearsal) : Lookup := fun key =>
  (r.server.guarded .readSetting fun s => (.ok (s.setting? key), s)).1

def record (r : Rehearsal) (e : Metrics.Event) : Rehearsal :=
  { r with server := { r.server with registry := r.server.registry.record e } }

def note (r : Rehearsal) (b : Body) (what : String) : Rehearsal :=
  { r with log := ⟨b.task, what, b.trigger, b.at_, r.server.isCancelled b.token⟩ :: r.log }

/-- Takes a task off the board and shows it as idle. -/
def release (r : Rehearsal) (name : String) : Rehearsal :=
  { r with board := r.board.release name }.record (.taskRunning name false)

/-- Ends a body with an outcome. -/
def finish (r : Rehearsal) (b : Body) (outcome : TaskOutcome) : Rehearsal :=
  let what := match outcome with
    | .ok () => "done"
    | .error e => e.message
  ((r.note b what).record (.taskExecution b.task (statusOf outcome) ⟨0⟩)).release b.task

/-- The next act of a task's script, and the scripts after it. -/
def nextAct (name : String) : List (String × List Act) → Act × List (String × List Act)
  | [] => (.succeed, [])
  | (n, acts) :: rest =>
    if n = name then
      match acts with
      | [] => (.succeed, (n, acts) :: rest)
      | [a] => (a, (n, [a]) :: rest)
      | a :: more => (a, (n, more) :: rest)
    else
      let (a, rest) := nextAct name rest
      (a, (n, acts) :: rest)

/-- Lets a body that was just started run as far as it gets. -/
def play (r : Rehearsal) (b : Body) : Rehearsal :=
  let r := r.note b "start"
  match b.act with
  | .succeed => r.finish b (.ok ())
  | .fail => r.finish b (.error (.failed (b.task ++ " broke")))
  | .giveUp => r.finish b (.error .cancelled)
  | .crash => r.release b.task
  | .block => { r with bodies := r.bodies ++ [b] }
  | .untilCancelled =>
    if r.server.isCancelled b.token then r.finish b (.error .cancelled) else { r with bodies := r.bodies ++ [b] }

/-- Starts the bodies of tasks that are on the board already, and lets each run as far as it gets. -/
def launch (r : Rehearsal) (trigger : Trigger) (now : Instant) (started : List Task) : Rehearsal :=
  let r := started.foldl (fun r t => r.record (.taskRunning t.name true)) r
  started.foldl
    (fun r t =>
      let (act, scripts) := nextAct t.name r.scripts
      { r with scripts }.play ⟨t.name, r.taskToken, trigger, now, act⟩)
    r

/-- A pass over the tasks, and the names of those it starts. -/
def pass (r : Rehearsal) (now : Instant) (anyTime : Bool) : List String × Rehearsal :=
  let (started, board) := Board.pass r.zone r.lookup now anyTime r.tasks r.board
  let r := { r with board }.launch (if anyTime then .catchUp else .tick) now started
  (started.map (·.name), r)

/-- Starts a task at once, and tells whether it was not running already. -/
def trigger (r : Rehearsal) (name : String) : Except String Bool × Rehearsal :=
  match find r.tasks name with
  | .error e => (.error e, r)
  | .ok t =>
    match r.board.acquire name r.server.clock with
    | none => (.ok false, r)
    | some board => (.ok true, { r with board }.launch .manual r.server.clock [t])

/-- Offers a task with a script, and gives its text unless its name is taken. -/
def offer (r : Rehearsal) (t : Task) (acts : List Act) : Except String String × Rehearsal :=
  let r := { r with offered := t :: r.offered }
  match register r.tasks t with
  | .error e => (.error e, r)
  | .ok tasks => (.ok t.text, { r with tasks, scripts := r.scripts ++ [(t.name, acts)] })

/-- Whether a tick would start the task that was last offered under a name. -/
def shouldRun (r : Rehearsal) (name : String) (now : Instant) : Bool :=
  match r.offered.find? (·.name == name) with
  | some t => r.board.isDue r.zone r.lookup now false t
  | none => false

/-- Ends the waiting bodies that `here` picks. -/
def endBodies (r : Rehearsal) (here : Body → Bool) (outcome : TaskOutcome) : Rehearsal :=
  let ending := r.bodies.filter here
  ending.foldl (fun r b => r.finish b outcome) { r with bodies := r.bodies.filter (!here ·) }

/-- Lets the blocked bodies of a task go on. -/
def free (r : Rehearsal) (name : String) : Rehearsal :=
  r.endBodies (fun b => b.task = name && b.act = .block) (.ok ())

def cancelRoot (r : Rehearsal) : Rehearsal :=
  let r := { r with server := r.server.cancel root, loops := r.loops.map fun _ => ⟨none, none⟩ }
  r.endBodies (fun b => b.token = root && b.act = .untilCancelled) (.error .cancelled)

/-! ## Time -/

def fireCatchUp (r : Rehearsal) (l : Loops) : Rehearsal :=
  ({ r with loops := some { l with catchUp := none } }.pass r.server.clock true).2

def fireTick (r : Rehearsal) (l : Loops) (time : Nat) : Rehearsal :=
  let next := time + (bounded r.periods.check).nanos
  ({ r with loops := some { l with tick := some next } }.pass r.server.clock false).2

/-- The loop that fires next, not after a time; `true` stands for the ticker. -/
def nextLoop (l : Loops) (until_ : Nat) : Option (Bool × Nat) :=
  let earlier := match l.tick, l.catchUp with
    | some a, some b => if a ≤ b then some (true, a) else some (false, b)
    | some a, none => some (true, a)
    | none, some b => some (false, b)
    | none, none => none
  earlier.filter fun (_, time) => time ≤ until_

/-- Fires the loops in order until a time, at most `fuel` times. -/
def fireUntil (until_ : Nat) : Nat → Rehearsal → Rehearsal
  | 0, r => r
  | fuel + 1, r =>
    match r.loops with
    | none => r
    | some l =>
      match nextLoop l until_ with
      | none => r
      | some (true, time) => fireUntil until_ fuel (r.fireTick l time)
      | some (false, _) => fireUntil until_ fuel (r.fireCatchUp l)

/-- Lets time pass. A period is at least a nanosecond long, which bounds how often a loop fires. -/
def sleep (r : Rehearsal) (s : Span) : Rehearsal :=
  let until_ := r.time + s.nanos
  let period := max 1 (bounded r.periods.check).nanos
  { fireUntil until_ (s.nanos / period + 3) r with time := until_ }

/-- Starts the loops, unless they have been started before. From then on bodies are given the root
token. A ticker without a period fails at once. -/
def start (r : Rehearsal) : Rehearsal :=
  match r.loops with
  | some _ => r
  | none =>
    let period := (bounded r.periods.check).nanos
    let loops : Loops :=
      if r.server.isCancelled root then ⟨none, none⟩
      else
        { tick := if period = 0 then none else some (r.time + period)
          catchUp := if r.periods.catchUp then some (r.time + (bounded r.periods.delay).nanos) else none }
    { r with loops := some loops, taskToken := root }.sleep ⟨0⟩

/-- Stops the loops. Bodies at work go on. -/
def stop (r : Rehearsal) : Rehearsal := { r with loops := r.loops.map fun _ => ⟨none, none⟩ }

/-- The names of the running tasks, in the order of registration. -/
def runningNames (r : Rehearsal) : List String := (r.tasks.map (·.name)).filter r.board.isRunning

/-- The log so far, which starts anew. -/
def takeLog (r : Rehearsal) : List Event × Rehearsal := (r.log.reverse, { r with log := [] })

end Rehearsal

end CatalogSync.Schedule
