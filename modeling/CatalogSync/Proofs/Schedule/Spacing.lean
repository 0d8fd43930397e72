import CatalogSync.Proofs.Schedule.Exclusion

/-!
# The time between two starts

A pass finds that the interval of a task is over, and starts the task in a later step. In between others
may move, and the start itself asks no more than whether the task is running. So a task that was started
in between, and whose body has ended again, is started once more, however short the time since.

Main statements: `spaced_unless_overtaken` says that nothing else brings two starts closer together than the
interval. `overtaken_pass_starts_again` is a run in which this happens.
-/

namespace CatalogSync.Schedule

open CatalogSync.Text CatalogSync.Time

/-! ## Starts and ends in a log -/

/-- Whether the latest of the starts and ends of a task is a start. -/
def latest? (name : String) (log : List Happening) : Option Bool :=
  log.findSome? fun
    | .attempt t _ _ true => if t.name = name then some true else none
    | .ended f _ => if f.task.name = name then some false else none
    | _ => none

theorem latest?_append (name : String) (new old : List Happening) :
    latest? name (new ++ old) = (latest? name new).or (latest? name old) := List.findSome?_append

theorem lastStart?_append (name : String) (new old : List Happening) :
    lastStart? name (new ++ old) = (lastStart? name new).or (lastStart? name old) := List.findSome?_append

/-- A start of a task at an instant, and after it an end of its body. -/
def CameAndWent (name : String) (at_ : Instant) (log : List Happening) : Prop :=
  ∃ late f outcome early, log = late ++ .ended f outcome :: early ∧ f.task.name = name ∧
    lastStart? name early = some at_

theorem cameAndWent_of_latest {name : String} {at_ : Instant} {log : List Happening}
    (hstart : lastStart? name log = some at_) (hlatest : latest? name log ≠ some true) :
    CameAndWent name at_ log := by
  induction log with
  | nil => cases hstart
  | cons e log ih =>
    by_cases hended : ∃ f outcome, e = .ended f outcome ∧ f.task.name = name
    · obtain ⟨f, outcome, rfl, hf⟩ := hended
      exact ⟨[], f, outcome, log, rfl, hf, hstart⟩
    · -- an event that is neither a start nor an end of this task bears on neither of the two
      have hother : lastStart? name log = some at_ ∧ latest? name log ≠ some true := by
        cases e with
        | began f => exact ⟨hstart, hlatest⟩
        | ended f outcome =>
          have hne : f.task.name ≠ name := fun hf => hended ⟨f, outcome, rfl, hf⟩
          refine ⟨hstart, ?_⟩
          simpa [latest?, hne] using hlatest
        | attempt t trigger now accepted =>
          cases accepted with
          | false => exact ⟨hstart, hlatest⟩
          | true =>
            have hne : t.name ≠ name := fun ht => hlatest (by simp [latest?, ht])
            constructor
            · simpa [lastStart?, hne] using hstart
            · simpa [latest?, hne] using hlatest
      obtain ⟨late, f, outcome, early, rfl, hf, hearly⟩ := ih hother.1 hother.2
      exact ⟨e :: late, f, outcome, early, rfl, hf, hearly⟩

/-! ## The board follows the log -/

section Moves

variable {s s' : State}

/-- A task shows as running just if the latest that happened to it is a start. -/
def Follows (s : State) : Prop := ∀ name, s.board.isRunning name ↔ latest? name s.log = some true

theorem attempt_follows (h : Follows s) (t : Task) (trigger : Trigger) (now : Instant) :
    Follows (s.attempt t trigger now).2 := by
  intro name
  cases hacquire : s.board.acquire t.name now with
  | none =>
    rw [attempt_of_refused hacquire]
    exact h name
  | some c =>
    rw [attempt_of_acquire hacquire]
    show c.isRunning name ↔ latest? name (.attempt t trigger now true :: s.log) = some true
    rw [Board.isRunning_acquire_iff hacquire, h name]
    by_cases hname : name = t.name
    · simp [latest?, hname]
    · simp [latest?, hname, Ne.symm hname]

theorem Effect.follows (e : Effect s s') (h : Follows s) : Follows s' := by
  cases e with
  | passes => exact h
  | attempt t trigger now passes => exact attempt_follows h t trigger now
  | begin => exact h
  | finish i f outcome =>
    intro name
    show (s.board.release f.task.name).isRunning name ↔ latest? name (.ended f outcome :: s.log) = some true
    rw [Board.isRunning_release_iff, h name]
    by_cases hname : name = f.task.name
    · simp [latest?, hname]
    · simp [latest?, hname, Ne.symm hname]

theorem Effect.log_suffix (e : Effect s s') : s.log <:+ s'.log := by
  cases e with
  | passes => exact List.suffix_rfl
  | attempt t trigger now passes =>
    show s.log <:+ (s.attempt t trigger now).2.log
    rw [attempt_log]
    exact List.suffix_cons _ _
  | begin => exact List.suffix_cons _ _
  | finish => exact List.suffix_cons _ _

end Moves

theorem run_concat (offers : List Task) (moves : List Move) (m : Move) :
    run offers (moves ++ [m]) = (run offers moves).step m := by
  unfold run
  rw [State.steps_append]
  rfl

theorem run_follows (offers : List Task) (moves : List Move) : Follows (run offers moves) := by
  induction moves using List.reverseRecOn with
  | nil =>
    intro name
    simp [run, State.steps, Board.isRunning, latest?]
  | append_singleton moves m ih =>
    rw [run_concat]
    exact (step_effect (run_sound offers moves).passes m).follows ih

/-- What has happened stays in the log. -/
theorem run_log (offers : List Task) (moves more : List Move) :
    (run offers moves).log <:+ (run offers (moves ++ more)).log := by
  induction more using List.reverseRecOn with
  | nil => simp
  | append_singleton more m ih =>
    rw [← List.append_assoc, run_concat]
    have heffect := step_effect (run_sound offers (moves ++ more)).passes m
    exact ih.trans heffect.log_suffix

/-! ## What a pass has found -/

/-- The pass of a number has found, in one of these moves, that the interval of the task it is at is over. -/
def Found (offers : List Task) (moves : List Move) (i : Nat) (t : Task) (now : Instant) (checked : List Move) :
    Prop :=
  ∃ zone read later p rest, moves = checked ++ .look i zone read :: later ∧ (run offers checked).passes[i]? = some p ∧
    p.stage = .interval ∧ p.now = now ∧ p.rest = t :: rest ∧
    t.isOver now (t.lastRun read (lastStart? t.name (run offers checked).log)) = true

theorem Found.concat {offers : List Task} {moves checked : List Move} {i : Nat} {t : Task} {now : Instant}
    (h : Found offers moves i t now checked) (m : Move) : Found offers (moves ++ [m]) i t now checked := by
  obtain ⟨zone, read, later, p, rest, rfl, hp⟩ := h
  exact ⟨zone, read, later ++ [m], p, rest, by simp, hp⟩

section Passes

variable {s : State} {i j : Nat} {p q : Pass} {t : Task} {rest : List Task}

theorem look_of_ne (h : i ≠ j) (zone : Zone) (read : Lookup) : (s.look j zone read).passes[i]? = s.passes[i]? := by
  unfold State.look
  split
  · rfl
  · split
    · rfl
    · split
      · simp only [attempt_passes]
        exact List.getElem?_set_ne (Ne.symm h)
      · split <;> exact List.getElem?_set_ne (Ne.symm h)

/-- A pass that is about to start a task has just found that its interval is over, or was about to before. -/
theorem look_about_to_start {zone : Zone} {read : Lookup} (hq : (s.look i zone read).passes[i]? = some q)
    (hstage : q.stage = .start) (hrest : q.rest = t :: rest) :
    s.passes[i]? = some q ∨ ∃ p, s.passes[i]? = some p ∧ p.stage = .interval ∧ p.now = q.now ∧ p.rest = t :: rest ∧
      t.isOver q.now (t.lastRun read (s.board.lastRun.find? t.name)) = true := by
  cases hp : s.passes[i]? with
  | none =>
    have hsame : s.look i zone read = s := by
      unfold State.look
      rw [hp]
    rw [hsame, hp] at hq
    cases hq
  | some p =>
    cases hprest : p.rest with
    | nil =>
      have hsame : s.look i zone read = s := by
        unfold State.look
        rw [hp]
        simp only [hprest]
      rw [hsame, hp] at hq
      exact .inl hq
    | cons u more =>
      by_cases hpstage : p.stage = .start
      · -- the start has been tried, and the pass is at the first test of its next task
        rw [look_start hp hprest hpstage, attempt_passes] at hq
        rw [getElem?_set_of_some hp] at hq
        cases hq
        cases hstage
      · rw [look_test hp hprest hpstage] at hq
        change (s.passes.set i _)[i]? = some q at hq
        rw [getElem?_set_of_some hp] at hq
        by_cases htest : p.stage.test s.board zone read p.now p.anyTime u
        · rw [if_pos htest] at hq
          cases hq
          right
          have hinterval : p.stage = .interval := by
            cases hg : p.stage <;> simp [hg, Stage.next] at hstage ⊢
          obtain ⟨rfl, rfl⟩ := List.cons.inj (hprest.symm.trans hrest)
          rw [hinterval] at htest
          exact ⟨p, rfl, hinterval, rfl, hprest, htest⟩
        · rw [if_neg htest] at hq
          cases hq
          cases hstage

end Passes

/-- A pass that is about to start a task has found before that its interval is over. -/
theorem about_to_start_found {offers : List Task} {moves : List Move} {i : Nat} {p : Pass} {t : Task} {rest : List Task}
    (hp : (run offers moves).passes[i]? = some p) (hstage : p.stage = .start) (hrest : p.rest = t :: rest) :
    ∃ checked, Found offers moves i t p.now checked := by
  induction moves using List.reverseRecOn with
  | nil => cases hp
  | append_singleton moves m ih =>
    have hbefore : (run offers moves).passes[i]? = some p → ∃ checked, Found offers (moves ++ [m]) i t p.now checked := by
      intro hold
      obtain ⟨checked, hfound⟩ := ih hold
      exact ⟨checked, hfound.concat m⟩
    rw [run_concat] at hp
    cases m with
    | openPass now anyTime =>
      change ((run offers moves).passes ++ [_])[i]? = some p at hp
      rw [List.getElem?_append] at hp
      split at hp
      · exact hbefore hp
      · have hnew := List.mem_singleton.1 (List.mem_of_getElem? hp)
        rw [hnew] at hstage
        cases hstage
    | look j zone read =>
      by_cases hij : i = j
      · subst hij
        obtain hsame | ⟨p₀, hp₀, hinterval, hnow, hrest₀, hover⟩ := look_about_to_start hp hstage hrest
        · exact hbefore hsame
        · refine ⟨moves, zone, read, [], p₀, rest, rfl, hp₀, hinterval, hnow, hrest₀, ?_⟩
          rwa [(run_sound offers moves).coupled.lastRun] at hover
      · exact hbefore (look_of_ne hij zone read ▸ hp)
    | trigger name now =>
      apply hbefore
      rw [← hp]
      show _ = (State.trigger name now _).2.passes[i]?
      unfold State.trigger
      split
      · rfl
      · simp only [attempt_passes]
    | begin k =>
      apply hbefore
      rw [← hp]
      show _ = (State.begin k _).passes[i]?
      unfold State.begin
      split <;> rfl
    | finish k outcome =>
      apply hbefore
      rw [← hp]
      show _ = (State.finish k outcome _).passes[i]?
      unfold State.finish
      split <;> rfl

/-! ## Starts -/

section Starts

variable {s : State} {m : Move} {t : Task} {trigger : Trigger} {now : Instant} {accepted : Bool}

/-- An attempt that is no call of `trigger` is made by a pass that is about to start the task. -/
theorem attempt_of_pass (h : (s.step m).log = .attempt t trigger now accepted :: s.log) (hmanual : trigger ≠ .manual) :
    ∃ i zone read p rest, m = .look i zone read ∧ s.passes[i]? = some p ∧ p.stage = .start ∧ p.rest = t :: rest ∧
      p.now = now ∧ p.trigger = trigger ∧ accepted = (s.attempt t trigger now).1 := by
  cases m with
  | openPass => exact absurd h.symm (List.cons_ne_self _ _)
  | begin k =>
    change (s.begin k).log = _ at h
    unfold State.begin at h
    split at h
    · exact absurd h.symm (List.cons_ne_self _ _)
    · cases h
  | finish k outcome =>
    change (s.finish k outcome).log = _ at h
    unfold State.finish at h
    split at h
    · exact absurd h.symm (List.cons_ne_self _ _)
    · cases h
  | trigger name now' =>
    change (s.trigger name now').2.log = _ at h
    unfold State.trigger at h
    split at h
    · exact absurd h.symm (List.cons_ne_self _ _)
    · simp only [attempt_log] at h
      cases h
      exact absurd rfl hmanual
  | look i zone read =>
    change (s.look i zone read).log = _ at h
    cases hp : s.passes[i]? with
    | none =>
      have hsame : s.look i zone read = s := by
        unfold State.look
        rw [hp]
      rw [hsame] at h
      exact absurd h.symm (List.cons_ne_self _ _)
    | some p =>
      cases hrest : p.rest with
      | nil =>
        have hsame : s.look i zone read = s := by
          unfold State.look
          rw [hp]
          simp only [hrest]
        rw [hsame] at h
        exact absurd h.symm (List.cons_ne_self _ _)
      | cons u rest =>
        by_cases hstage : p.stage = .start
        · rw [look_start hp hrest hstage] at h
          change (s.attempt u p.trigger p.now).2.log = _ at h
          rw [attempt_log] at h
          cases h
          exact ⟨i, zone, read, p, rest, rfl, hp, hstage, hrest, rfl, rfl, rfl⟩
        · rw [look_test hp hrest hstage] at h
          exact absurd h.symm (List.cons_ne_self _ _)

theorem idle_of_started (h : (s.attempt t trigger now).1 = true) : s.board.isRunning t.name = false := by
  cases hacquire : s.board.acquire t.name now with
  | none =>
    rw [attempt_of_refused hacquire] at h
    cases h
  | some c =>
    by_contra hrunning
    have hrefused := (Board.acquire_eq_none_iff s.board t.name now).2 (Bool.not_eq_false _ ▸ hrunning)
    rw [hrefused] at hacquire
    cases hacquire

end Starts

/-- **The time between two starts.** Whatever passes, calls and bodies do, and whatever the settings answer, let a
pass start a task at its `now`. The same pass had found before that the interval of the task was over. If the
previous start of the task in this process is less than the interval before `now`, the pass was overtaken: that start, and
after it the end of the body, came between the finding and the start. -/
theorem spaced_unless_overtaken {offers : List Task} {moves : List Move} {m : Move} {t : Task} {trigger : Trigger}
    {now : Instant} (hpass : trigger ≠ .manual)
    (hstart : ((run offers moves).step m).log = .attempt t trigger now true :: (run offers moves).log) :
    ∃ i zone read checked since, m = .look i zone read ∧ Found offers moves i t now checked ∧
      (run offers moves).log = since ++ (run offers checked).log ∧
      ∀ previous, lastStart? t.name (run offers moves).log = some previous →
        t.interval.nanos ≤ now.since previous ∨ CameAndWent t.name previous since := by
  obtain ⟨i, zone, read, p, rest, rfl, hp, hstage, hrest, rfl, rfl, haccepted⟩ := attempt_of_pass hstart hpass
  obtain ⟨checked, hfound⟩ := about_to_start_found hp hstage hrest
  obtain ⟨since, hsince⟩ : (run offers checked).log <:+ (run offers moves).log := by
    obtain ⟨zone', read', later, p', rest', rfl, -⟩ := hfound
    exact run_log offers checked _
  refine ⟨i, zone, read, checked, since, rfl, hfound, hsince.symm, fun previous hprevious => ?_⟩
  have hidle : latest? t.name (run offers moves).log ≠ some true := by
    intro hlatest
    have hrunning := (run_follows offers moves t.name).2 hlatest
    rw [idle_of_started haccepted.symm] at hrunning
    cases hrunning
  rw [← hsince] at hprevious hidle
  rw [lastStart?_append] at hprevious
  rw [latest?_append] at hidle
  cases hnew : lastStart? t.name since with
  | none =>
    -- no start since the finding, which therefore was about the same previous start
    left
    rw [hnew, Option.none_or] at hprevious
    obtain ⟨zone', read', later, p', rest', -, -, -, -, -, hover⟩ := hfound
    rw [hprevious] at hover
    exact of_decide_eq_true hover
  | some at_ =>
    right
    rw [hnew, Option.some_or] at hprevious
    cases hprevious
    refine cameAndWent_of_latest hnew fun hlatest => hidle ?_
    rw [hlatest, Option.some_or]

/-! ## A pass that is overtaken -/

/-- The first pass finds the interval over, and the second one starts the task, whose body ends. -/
def overtaking : List Move :=
  [.openPass default true] ++ List.replicate 4 (.look 0 .utc noSettings) ++
    [.openPass tenMillisLater false] ++ List.replicate 5 (.look 1 .utc noSettings) ++ [.begin 0, .finish 0 (some (.ok ()))]

theorem brisk_pass_was_overtaken :
    ∃ since, CameAndWent brisk.name tenMillisLater since ∧
      ((run [brisk] overtaking).step (.look 0 .utc noSettings)).log =
        .attempt brisk .catchUp default true :: (run [brisk] overtaking).log := by
  have hstart : ((run [brisk] overtaking).step (.look 0 .utc noSettings)).log =
      .attempt brisk .catchUp default true :: (run [brisk] overtaking).log := rfl
  obtain ⟨i, zone, read, checked, since, -, -, -, hspaced⟩ := spaced_unless_overtaken (by decide) hstart
  have hprevious : lastStart? brisk.name (run [brisk] overtaking).log = some tenMillisLater := rfl
  obtain hfar | hovertaken := hspaced tenMillisLater hprevious
  · exact absurd hfar (by decide)
  · exact ⟨since, hovertaken, hstart⟩

/-- The first pass starts the task although it was started less than ten milliseconds before. -/
theorem overtaken_pass_starts_again :
    ((run [brisk] overtaking).step (.look 0 .utc noSettings)).log =
        .attempt brisk .catchUp default true :: (run [brisk] overtaking).log ∧
      lastStart? brisk.name (run [brisk] overtaking).log = some tenMillisLater ∧
      ¬ (brisk.interval.nanos : Int) ≤ (default : Instant).since tenMillisLater := by
  refine ⟨rfl, rfl, ?_⟩
  decide

end CatalogSync.Schedule
