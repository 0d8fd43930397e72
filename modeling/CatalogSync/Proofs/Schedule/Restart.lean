import CatalogSync.Proofs.Import.Settling
import CatalogSync.Proofs.Import.Status
import CatalogSync.Proofs.Import.Success
import CatalogSync.Proofs.Program.Alone
import CatalogSync.Proofs.Time.Reading
import CatalogSync.Server.Host
import Mathlib.Data.List.Nodup

/-!
# Refreshes after a restart

A scheduler that has just begun knows of earlier runs only what the settings tell. `written` are the values that a
history of imports has written to a setting: of the time of the last success these are the times at which a call
succeeded, one for each such call (`call_notes`), and a restart finds the last of them.

A call reads the clock when it has given the lock back, and writes in a later step. In between another call may come, read
the clock and write: so the time that is written last need not be the latest.

Main statements: `refresh_after_restart` says that nothing else lets a refresh begin early. `overtaken_success_repeated` is
a run in which this happens.
-/

namespace CatalogSync.Schedule

open CatalogSync.Import CatalogSync.Program CatalogSync.Text CatalogSync.Time

/-! ## Settings that are written -/

def written? (key : String) : CatalogSync.Event → Option String
  | ⟨.writeSetting k value, _⟩ => if k = key then some value else none
  | _ => none

def written (key : String) (t : List CatalogSync.Event) : List String := t.filterMap (written? key)

/-- Settings that take what they are told. Others may write to them, but for one. -/
def settingsWorld (key : String) : World (Dict String) where
  stirs d d' := d'.find? key = d.find? key
  answers d q a d' :=
    match q with
    | .writeSetting k value => a = Except.ok () ∧ d' = d.put k value
    | _ => d' = d

section Written

variable {key : String} {t : List CatalogSync.Event} {q : Ask}

theorem written?_of_ne (hq : ∀ value, q ≠ .writeSetting key value) (a : q.Answer) : written? key ⟨q, a⟩ = none := by
  cases q with
  | writeSetting k value =>
    apply if_neg
    rintro rfl
    exact hq value rfl
  | _ => rfl

theorem written_snoc (e : CatalogSync.Event) : written key (t ++ [e]) = written key t ++ (written? key e).toList := by
  unfold written
  rw [List.filterMap_append]
  cases h : written? key e <;> simp [h]

theorem answers_of_ne {d d' : Dict String} (hq : ∀ value, q ≠ .writeSetting key value) {a : q.Answer}
    (hans : (settingsWorld key).answers d q a d') : d'.find? key = d.find? key := by
  cases q with
  | writeSetting k value =>
    obtain ⟨-, rfl⟩ := hans
    apply Dict.find?_put_of_ne
    rintro rfl
    exact hq value rfl
  | _ => exact congrArg (Dict.find? · key) hans

/-- The last value written is the one that is found. -/
theorem find?_of_written {d d' : Dict String} (h : (settingsWorld key).Takes d t d') :
    d'.find? key = ((written key t).getLast?).or (d.find? key) := by
  induction h with
  | start => rfl
  | stir h _ ih => rw [ih, h]
  | @answer d m d' q a t hans _ ih =>
    have hcons : written key (⟨q, a⟩ :: t) = (written? key ⟨q, a⟩).toList ++ written key t := by
      unfold written
      cases h : written? key ⟨q, a⟩ <;> simp [h]
    rw [ih, hcons, List.getLast?_append]
    by_cases hq : ∃ value, q = .writeSetting key value
    · obtain ⟨value, rfl⟩ := hq
      obtain ⟨-, rfl⟩ := hans
      rw [Dict.find?_put_self]
      simp [written?]
    · have hne : ∀ value, q ≠ .writeSetting key value := fun value h => hq ⟨value, h⟩
      rw [written?_of_ne hne, answers_of_ne hne hans]
      simp

variable {ι : Type} [DecidableEq ι] {u : List (ι × CatalogSync.Event)}

theorem mem_written_iff {value : String} :
    value ∈ written key (u.map Prod.snd) ↔ ∃ i, value ∈ written key (own i u) := by
  unfold written
  simp only [List.mem_filterMap, List.mem_map, mem_own_iff]
  constructor
  · rintro ⟨e, ⟨⟨i, e⟩, hmem, rfl⟩, hvalue⟩
    exact ⟨i, e, hmem, hvalue⟩
  · rintro ⟨i, e, hmem, hvalue⟩
    exact ⟨e, ⟨(i, e), hmem, rfl⟩, hvalue⟩

end Written

/-! ## What a call notes -/

section Call

variable {dataset : Dataset} {job : Int} {token : Token} {setup : Setup} {t : List CatalogSync.Event}

/-- Whether a setting is written as it is told, if one is. -/
def isAccepted : CatalogSync.Event → Bool
  | ⟨.writeSetting _ _, answer⟩ => Except.isOk (answer : Stored Unit)
  | _ => true

/-- Settings are written as they are told. -/
abbrev Accepted (e : CatalogSync.Event) : Prop := isAccepted e = true

/-- What a call has written as the time of the last success: when it succeeded, and else nothing. -/
def Noted (dataset : Dataset) (outcome : Except Failure Summary) (t : List CatalogSync.Event) : Prop :=
  match outcome with
  | .ok _ => ∃ now, Stamped dataset now t ∧ written (Settings.lastUpdateKey dataset.key) t = [now.text]
  | .error _ => written (Settings.lastUpdateKey dataset.key) t = []

/-- The questions that do not write the time of the last success. -/
def LeavesTime (dataset : Dataset) (q : Ask) : Prop :=
  ∀ value, q ≠ .writeSetting (Settings.lastUpdateKey dataset.key) value

theorem leavesTime_status (dataset : Dataset) (value : String) :
    LeavesTime dataset (.writeSetting (Settings.lastUpdateStatusKey dataset.key) value) := by
  intro time h
  cases dataset <;> cases h

theorem leavesTime_of_isOfRun {q : Ask} (hq : isOfRun job q = true) : LeavesTime dataset q := by
  rintro value rfl
  cases hq

theorem written_of_leavesTime {q : Ask} (hq : LeavesTime dataset q) (a : q.Answer) :
    written (Settings.lastUpdateKey dataset.key) (t ++ [⟨q, a⟩]) = written (Settings.lastUpdateKey dataset.key) t := by
  rw [written_snoc, written?_of_ne hq, Option.toList_none, List.append_nil]

/-- What has been written when and what has been stamped stays so under other questions. -/
theorem all_leavesTime {α : Type} {gives : α → Prop} {p : Program α} (hp : p.All (LeavesTime dataset) gives)
    {A : List CatalogSync.Event → Prop} (hsnoc : ∀ t q a, LeavesTime dataset q → A t → A (t ++ [⟨q, a⟩])) (hA : A t) :
    p.Safe (World.free Accepted) (fun _ _ => True) (fun a t _ => gives a ∧ A t) t () := by
  refine hp.safe (fun t _ => A t) ?_ ?_ ?_ hA
  · intro t _ _ hA _
    exact hA
  · intro q hq t _ a _ hA _
    exact hsnoc t q a hq hA
  · intros
    trivial

theorem all_stamped {α : Type} {p : Program α} {now : Instant} (hp : p.All (LeavesTime dataset) fun _ => True)
    (hstamped : Stamped dataset now t) (hnoted : written (Settings.lastUpdateKey dataset.key) t = [now.text]) :
    p.Safe (World.free Accepted) (fun _ _ => True)
      (fun _ t _ => ∃ now, Stamped dataset now t ∧ written (Settings.lastUpdateKey dataset.key) t = [now.text]) t () := by
  have hsafe := all_leavesTime hp
    (A := fun t => Stamped dataset now t ∧ written (Settings.lastUpdateKey dataset.key) t = [now.text]) ?_
    ⟨hstamped, hnoted⟩
  · exact hsafe.mono fun _ _ _ hdone => ⟨now, hdone.2⟩
  · rintro t q a hq ⟨hstamped, hnoted⟩
    exact ⟨hstamped.snoc _, (written_of_leavesTime hq a).trans hnoted⟩

/-- Nothing has been written as the time of the last success. -/
def Unnoted (dataset : Dataset) (t : List CatalogSync.Event) : Prop := written (Settings.lastUpdateKey dataset.key) t = []

theorem Unnoted.snoc {q : Ask} (h : Unnoted dataset t) (hq : LeavesTime dataset q) (a : q.Answer) :
    Unnoted dataset (t ++ [⟨q, a⟩]) := (written_of_leavesTime hq a).trans h

theorem underLock_unnoted (dataset : Dataset) (job : Int) (setup : Setup) (token : Token) :
    (underLock dataset (importNow setup dataset job token)).All (LeavesTime dataset) fun _ => True := by
  refine .call (fun _ => Ask.noConfusion) fun free => ?_
  cases free with
  | false => exact .pure trivial
  | true =>
    refine .bind (importNow_all (fun q => leavesTime_of_isOfRun) (leavesTime_status dataset _)
      (fun _ => Ask.noConfusion) setup token) ?_
    intro outcome _
    exact .call (fun _ => Ask.noConfusion) fun _ => .pure trivial

/-- The settlement of a success notes the time, and no other does. -/
theorem settle_notes (h : Unnoted dataset t) (outcome : Except Failure Summary) (elapsed : Span) :
    (settle dataset job outcome elapsed).Safe (World.free Accepted) (fun _ _ => True)
      (fun _ t _ => Noted dataset outcome t) t () := by
  cases outcome with
  | ok summary =>
    refine .ask trivial fun completed _ => .ask trivial fun now _ => .ask trivial fun answer haccepted => ?_
    obtain rfl : answer = .ok () := by
      cases answer with
      | error e => cases haccepted
      | ok u => rfl
    have hbefore : Unnoted dataset (t ++ [⟨.completeJob job, completed⟩] ++ [⟨.now, now⟩]) := by
      have hcompleted := h.snoc (q := .completeJob job) (fun _ => Ask.noConfusion) completed
      exact hcompleted.snoc (q := .now) (fun _ => Ask.noConfusion) now
    have hnoted : written (Settings.lastUpdateKey dataset.key) (t ++ [⟨.completeJob job, completed⟩] ++ [⟨.now, now⟩] ++
        [⟨.writeSetting (Settings.lastUpdateKey dataset.key) now.text, .ok ()⟩]) = [now.text] := by
      rw [written_snoc, hbefore]
      simp [written?]
    have hstamped : Stamped dataset now (t ++ [⟨.completeJob job, completed⟩] ++ [⟨.now, now⟩] ++
        [⟨.writeSetting (Settings.lastUpdateKey dataset.key) now.text, .ok ()⟩]) := by
      refine ⟨t ++ [⟨.completeJob job, completed⟩], [], ?_⟩
      simp
    -- What comes after the stamp writes another setting.
    refine all_stamped ?_ hstamped hnoted
    refine .call (leavesTime_status dataset _) fun _ => ?_
    refine .call (fun _ => Ask.noConfusion) fun _ => .call (fun _ => Ask.noConfusion) fun count => ?_
    cases count with
    | error e => exact .pure trivial
    | ok n => exact .last (fun _ => Ask.noConfusion) fun _ => trivial
  | error e =>
    have hasks : (settle dataset job (.error e) elapsed).All (LeavesTime dataset) fun _ => True := by
      refine .call (fun _ => Ask.noConfusion) fun _ => .ite (fun _ => ?_) fun _ => ?_
      · exact .call (leavesTime_status dataset _) fun _ => .last (fun _ => Ask.noConfusion) fun _ => trivial
      · exact .last (fun _ => Ask.noConfusion) fun _ => trivial
    refine (all_leavesTime hasks (A := Unnoted dataset) ?_ h).mono fun _ _ _ hdone => hdone.2
    intro t q a hq h
    exact h.snoc hq a

/-- **What a call notes.** A success notes the time at which it is settled, and nothing else notes a time. -/
theorem call_notes (dataset : Dataset) (job : Int) (setup : Setup) (token : Token) :
    (downloadAndImport setup dataset job token).Safe (World.free Accepted) (fun _ _ => True)
      (fun outcome t _ => Noted dataset outcome t) [] () := by
  refine .ask trivial fun started _ => ?_
  have hstart : Unnoted dataset ([] ++ [⟨.now, started⟩]) := rfl
  have hsnoc : ∀ t q a, LeavesTime dataset q → Unnoted dataset t → Unnoted dataset (t ++ [⟨q, a⟩]) :=
    fun t q a hq h => h.snoc hq a
  refine (all_leavesTime (underLock_unnoted dataset job setup token) hsnoc hstart).bind ?_
  rintro outcome t _ ⟨-, h⟩
  refine .ask trivial fun stopped _ => ?_
  refine (settle_notes (h.snoc (q := .now) (fun _ => Ask.noConfusion) stopped) outcome _).bind fun _ t _ hnoted => ?_
  exact .end trivial hnoted

end Call

/-! ## A pass of a fresh scheduler -/

section Pass

variable {dataset : Dataset} {h : Host} {now : Instant}

theorem tasks_names : (tasks.map Task.name).Nodup := by decide

/-- A pass starts the refresh of a dataset if it is due. -/
theorem pass_starts_iff :
    dataset.taskName ∈ (h.pass now true).1 ↔
      h.board.isDue h.zone h.lookup now true (refreshTask dataset) = true := by
  have hstarted : (h.pass now true).1 = (tasks.filter (h.board.isDue h.zone h.lookup now true)).map Task.name := by
    rw [← Board.pass_started h.zone h.lookup now true tasks_names]
    rfl
  have hmem : refreshTask dataset ∈ tasks := by
    cases dataset <;> simp [tasks]
  rw [hstarted, List.mem_map]
  constructor
  · rintro ⟨t, ht, hname⟩
    obtain ⟨ht, hdue⟩ := List.mem_filter.1 ht
    obtain rfl := List.inj_on_of_nodup_map tasks_names ht hmem hname
    exact hdue
  · intro hdue
    exact ⟨refreshTask dataset, List.mem_filter.2 ⟨hmem, hdue⟩, rfl⟩

/-- On a fresh board, only the settings count. -/
theorem fresh_isDue_iff {zone : Zone} {read : Lookup} :
    Board.isDue {} zone read now true (refreshTask dataset) = true ↔
      (read (Settings.autoUpdateKey dataset.key)).bool false = true ∧
        ∀ last, (read (Settings.lastUpdateKey dataset.key)).time? = some last →
          ((refreshTask dataset).interval.nanos : Int) ≤ now.since last := by
  have hdue : Board.isDue {} zone read now true (refreshTask dataset) =
      ((read (Settings.autoUpdateKey dataset.key)).bool false &&
        (refreshTask dataset).isOver now (read (Settings.lastUpdateKey dataset.key)).time?) := by
    rw [← Bool.true_and (Settings.Answer.bool _ _), ← Bool.and_true (true && _)]
    rfl
  rw [hdue, Bool.and_eq_true]
  apply and_congr_right
  intro _
  cases hlast : (read (Settings.lastUpdateKey dataset.key)).time? with
  | none => simp [Task.isOver]
  | some last => simp [Task.isOver]

end Pass

/-! ## The times of success -/

section Times

variable {ι : Type} {dataset : Dataset} {key : String} {t : List (ι × CatalogSync.Event)}

/-- The times of success that a history has written, in the order of writing. -/
def successTimes (dataset : Dataset) (t : List (ι × CatalogSync.Event)) : List Instant :=
  (written (Settings.lastUpdateKey dataset.key) (t.map Prod.snd)).filterMap Settings.parseTime

/-- The time of success that a history has written last. -/
def lastNoted (dataset : Dataset) (t : List (ι × CatalogSync.Event)) : Option Instant := (successTimes dataset t).getLast?

def readings (t : List (ι × CatalogSync.Event)) : List Instant :=
  t.filterMap fun e => match e with
    | (_, ⟨.now, time⟩) => some time
    | _ => none

theorem mem_readings {i : ι} {time : Instant} (h : (i, ⟨.now, time⟩) ∈ t) : time ∈ readings t :=
  List.mem_filterMap.2 ⟨_, h, rfl⟩

/-- Where the clock never goes back, an earlier time is read before a later one. -/
theorem read_before {u v : List (ι × CatalogSync.Event)} {i j : ι} {time earlier : Instant}
    (hclock : (readings (u ++ (i, ⟨.now, time⟩) :: v)).Pairwise fun a b => a.le b = true)
    (hj : (j, ⟨.now, earlier⟩) ∈ u ++ (i, ⟨.now, time⟩) :: v) (hlater : ¬ time.le earlier = true) :
    (j, ⟨.now, earlier⟩) ∈ u := by
  have hsplit : readings (u ++ (i, ⟨.now, time⟩) :: v) = readings u ++ time :: readings v := List.filterMap_append
  rw [hsplit, List.pairwise_append, List.pairwise_cons] at hclock
  obtain ⟨-, ⟨hrest, -⟩, -⟩ := hclock
  rcases List.mem_append.1 hj with hbefore | hafter
  · exact hbefore
  · rcases List.mem_cons.1 hafter with hsame | hlast
    · cases hsame
      exact absurd (Instant.le_refl time) hlater
    · exact absurd (hrest earlier (mem_readings hlast)) hlater

/-- Where the last value of a setting is written, nothing is written to it afterwards. -/
theorem split_written {values : List String} {value : String}
    (h : written key (t.map Prod.snd) = values ++ [value]) :
    ∃ u j a v, t = u ++ (j, ⟨.writeSetting key value, a⟩) :: v ∧ written key (v.map Prod.snd) = [] := by
  obtain ⟨x, y, hsplit, -, hlast⟩ := List.filterMap_eq_append_iff.1 h
  obtain ⟨w, e, z, rfl, -, hvalue, hrest⟩ := List.filterMap_eq_cons_iff.1 hlast
  obtain ⟨u, y, rfl, -, hy⟩ := List.map_eq_append_iff.1 hsplit
  obtain ⟨w', y, rfl, -, hy⟩ := List.map_eq_append_iff.1 hy
  obtain ⟨⟨j, e⟩, v, rfl, rfl, rfl⟩ := List.map_eq_cons_iff.1 hy
  obtain ⟨q, a⟩ := e
  by_cases hq : ∃ value, q = .writeSetting key value
  · obtain ⟨value', rfl⟩ := hq
    obtain rfl : value' = value := Option.some.inj ((if_pos rfl).symm.trans hvalue)
    exact ⟨u ++ w', j, a, v, by simp, hrest⟩
  · rw [written?_of_ne fun value hwrite => hq ⟨value, hwrite⟩] at hvalue
    cases hvalue

/-- Two events in this order, the second of which does not come later, come before. -/
theorem sublist_of_not_mem {α : Type} {a b : α} {u v : List α} (h : [a, b].Sublist (u ++ v)) (hb : b ∉ v) :
    [a, b].Sublist u := by
  obtain ⟨x, y, hxy, hx, hy⟩ := List.sublist_append_iff.1 h
  cases y using List.reverseRecOn with
  | nil =>
    rw [List.append_nil] at hxy
    rwa [hxy]
  | append_singleton y c =>
    have hlast : b = c := by
      have hends := congrArg List.getLast? hxy
      rw [← List.append_assoc, List.getLast?_concat] at hends
      exact Option.some.inj hends
    exact absurd (hy.subset (by simp [hlast])) hb

end Times

/-! ## The history decides -/

section History

variable {ι : Type} [DecidableEq ι] {dataset : Dataset} {setup : Setup} {jobs : ι → Int} {tokens : ι → Token}
  {d d' : Dict String} {t u v : List (ι × CatalogSync.Event)} {rs : ι → Program (Except Failure Summary)}
  {now last time : Instant} {i j : ι}

/-- A call has returned with success, and was settled at this time. -/
def SucceededAt (dataset : Dataset) (rs : ι → Program (Except Failure Summary)) (t : List (ι × CatalogSync.Event)) (i : ι)
    (time : Instant) : Prop :=
  ∃ summary, rs i = .done (.ok summary) ∧ Stamped dataset time (own i t)

/-- A call that writes its time of success is overtaken: another one has read the clock before it, and writes what it has
read after it. -/
def Overtaken (dataset : Dataset) (t : List (ι × CatalogSync.Event)) (i : ι) (time : Instant) : Prop :=
  ∃ j ≠ i, ∃ earlier : Instant, time.le earlier = false ∧
    List.Sublist
      [(j, ⟨.now, earlier⟩), (i, ⟨.now, time⟩),
        (i, ⟨.writeSetting (Settings.lastUpdateKey dataset.key) time.text, .ok ()⟩),
        (j, ⟨.writeSetting (Settings.lastUpdateKey dataset.key) earlier.text, .ok ()⟩)] t

theorem accepted_of_answers {key : String} {m m' : Dict String} {q : Ask} {a : q.Answer}
    (hans : (settingsWorld key).answers m q a m') : Accepted ⟨q, a⟩ := by
  cases q with
  | writeSetting k value =>
    obtain ⟨rfl, -⟩ := hans
    rfl
  | _ => rfl

theorem calls_noted
    (hrun : Together (settingsWorld (Settings.lastUpdateKey dataset.key)) (calls setup dataset jobs tokens) d t rs d')
    {outcome : Except Failure Summary} (hi : rs i = .done outcome) : Noted dataset outcome (own i t) := by
  have hpath := hrun.path i
  have haccepted : ∀ e ∈ own i t, Accepted e := by
    intro e he
    obtain ⟨m, m', hans⟩ := hrun.takes.answered (List.mem_map.2 ⟨_, mem_own_iff.1 he, rfl⟩)
    exact accepted_of_answers hans
  have hsafe := hpath.safe haccepted (call_notes dataset (jobs i) setup (tokens i))
  rw [hi] at hsafe
  exact hsafe.done

/-- A time of success was read off the clock and then written. -/
theorem SucceededAt.sublist (h : SucceededAt dataset rs t i time) :
    List.Sublist [(i, ⟨.now, time⟩), (i, ⟨.writeSetting (Settings.lastUpdateKey dataset.key) time.text, .ok ()⟩)] t := by
  obtain ⟨summary, -, hstamped⟩ := h
  exact (hstamped.sublist.map fun e => (i, e)).trans (own_sublist i t)

theorem SucceededAt.read (h : SucceededAt dataset rs t i time) : (i, ⟨.now, time⟩) ∈ t := h.sublist.subset (by simp)

theorem SucceededAt.written (h : SucceededAt dataset rs t i time) :
    time.text ∈ written (Settings.lastUpdateKey dataset.key) (t.map Prod.snd) := by
  have hwrite : (i, ⟨.writeSetting (Settings.lastUpdateKey dataset.key) time.text, .ok ()⟩) ∈ t := h.sublist.subset (by simp)
  exact List.mem_filterMap.2 ⟨_, List.mem_map.2 ⟨_, hwrite, rfl⟩, if_pos rfl⟩

/-- Who writes a time of success has succeeded at that time. -/
theorem succeededAt_of_write
    (hrun : Together (settingsWorld (Settings.lastUpdateKey dataset.key)) (calls setup dataset jobs tokens) d t rs d')
    (hdone : ∀ i, ∃ outcome, rs i = .done outcome) {value : String}
    {a : (Ask.writeSetting (Settings.lastUpdateKey dataset.key) value).Answer}
    (h : (i, ⟨.writeSetting (Settings.lastUpdateKey dataset.key) value, a⟩) ∈ t) :
    ∃ time, SucceededAt dataset rs t i time ∧ value = time.text := by
  have hvalue : value ∈ Schedule.written (Settings.lastUpdateKey dataset.key) (own i t) :=
    List.mem_filterMap.2 ⟨_, mem_own_iff.2 h, if_pos rfl⟩
  obtain ⟨outcome, hi⟩ := hdone i
  have hnoted := calls_noted hrun hi
  cases outcome with
  | ok summary =>
    obtain ⟨time, hstamped, hwritten⟩ := hnoted
    rw [hwritten, List.mem_singleton] at hvalue
    exact ⟨time, ⟨summary, hi, hstamped⟩, hvalue⟩
  | error e =>
    have hwritten : Schedule.written (Settings.lastUpdateKey dataset.key) (own i t) = [] := hnoted
    rw [hwritten] at hvalue
    exact absurd hvalue List.not_mem_nil

section Done

variable
  (hrun : Together (settingsWorld (Settings.lastUpdateKey dataset.key)) (calls setup dataset jobs tokens) d t rs d')
  (hdone : ∀ i, ∃ outcome, rs i = .done outcome) (hcivil : ∀ i (time : Instant), (i, ⟨.now, time⟩) ∈ t → time.Civil)
include hrun hdone hcivil

/-- The times that are written are those of the successes. -/
theorem mem_successTimes : time ∈ successTimes dataset t ↔ ∃ i, SucceededAt dataset rs t i time := by
  constructor
  · intro h
    obtain ⟨value, hvalue, htime⟩ := List.mem_filterMap.1 h
    obtain ⟨i, hwrite⟩ := mem_written_iff.1 hvalue
    obtain ⟨⟨q, a⟩, hmem, hq⟩ := List.mem_filterMap.1 hwrite
    by_cases hask : ∃ value, q = .writeSetting (Settings.lastUpdateKey dataset.key) value
    · obtain ⟨value', rfl⟩ := hask
      obtain rfl : value' = value := Option.some.inj ((if_pos rfl).symm.trans hq)
      obtain ⟨time', hsucceeded, rfl⟩ := succeededAt_of_write hrun hdone (mem_own_iff.1 hmem)
      rw [parseTime_text (hcivil i time' hsucceeded.read)] at htime
      cases htime
      exact ⟨i, hsucceeded⟩
    · rw [written?_of_ne fun value h => hask ⟨value, h⟩] at hq
      cases hq
  · rintro ⟨i, h⟩
    exact List.mem_filterMap.2 ⟨_, h.written, parseTime_text (hcivil i time h.read)⟩

/-- The value that was written last is the time of a success. -/
theorem last_of_written {values : List String} {value : String}
    (h : written (Settings.lastUpdateKey dataset.key) (t.map Prod.snd) = values ++ [value]) :
    ∃ u j v time, t = u ++ (j, ⟨.writeSetting (Settings.lastUpdateKey dataset.key) time.text, .ok ()⟩) :: v ∧
      written (Settings.lastUpdateKey dataset.key) (v.map Prod.snd) = [] ∧ SucceededAt dataset rs t j time ∧
      value = time.text ∧ lastNoted dataset t = some time := by
  obtain ⟨u, j, a, v, rfl, hv⟩ := split_written h
  have hmem : (j, ⟨.writeSetting (Settings.lastUpdateKey dataset.key) value, a⟩) ∈
      u ++ (j, ⟨.writeSetting (Settings.lastUpdateKey dataset.key) value, a⟩) :: v := by simp
  obtain ⟨time, hsucceeded, rfl⟩ := succeededAt_of_write hrun hdone hmem
  obtain ⟨m, m', rfl, -⟩ := hrun.takes.answered (List.mem_map.2 ⟨_, hmem, rfl⟩)
  refine ⟨u, j, v, time, rfl, hv, hsucceeded, rfl, ?_⟩
  unfold lastNoted successTimes
  rw [h, List.filterMap_append, List.filterMap_cons_some (parseTime_text (hcivil j time hsucceeded.read)),
    List.filterMap_nil, List.getLast?_concat]

/-- What the setting says at the end. -/
theorem last_success (hnew : d.find? (Settings.lastUpdateKey dataset.key) = none) :
    (d'.find? (Settings.lastUpdateKey dataset.key)).bind Settings.parseTime = lastNoted dataset t := by
  rw [find?_of_written hrun.takes, hnew, Option.or_none]
  cases hwritten : written (Settings.lastUpdateKey dataset.key) (t.map Prod.snd) using List.reverseRecOn with
  | nil =>
    unfold lastNoted successTimes
    rw [hwritten]
    rfl
  | append_singleton values value =>
    obtain ⟨u, j, v, time, -, -, hsucceeded, rfl, hlast⟩ := last_of_written hrun hdone hcivil hwritten
    rw [List.getLast?_concat, Option.bind_some, hlast]
    exact parseTime_text (hcivil j time hsucceeded.read)

omit hdone in
/-- A call succeeds once. -/
theorem SucceededAt.unique (h : SucceededAt dataset rs t i time) (h' : SucceededAt dataset rs t i last) :
    time = last := by
  have hwrites : ∀ {x}, SucceededAt dataset rs t i x →
      x.text ∈ Schedule.written (Settings.lastUpdateKey dataset.key) (own i t) := by
    rintro x ⟨-, -, hstamped⟩
    exact List.mem_filterMap.2 ⟨_, hstamped.subset (List.mem_cons_of_mem _ List.mem_cons_self), if_pos rfl⟩
  obtain ⟨summary, hi, -⟩ := id h
  obtain ⟨x, -, hwritten⟩ := calls_noted hrun hi
  have htime := hwrites h
  have hlast := hwrites h'
  rw [hwritten, List.mem_singleton] at htime hlast
  have hparse := parseTime_text (hcivil i time h.read)
  rw [htime, ← hlast, parseTime_text (hcivil i last h'.read)] at hparse
  exact (Option.some.inj hparse).symm

/-- A success later than the one that was written last has been overtaken by it. -/
theorem overtaken_of_later (hclock : (readings t).Pairwise fun a b => a.le b = true)
    (hlast : lastNoted dataset t = some last) (h : SucceededAt dataset rs t i time) (hlater : ¬ time.le last = true) :
    Overtaken dataset t i time := by
  cases hwritten : written (Settings.lastUpdateKey dataset.key) (t.map Prod.snd) using List.reverseRecOn with
  | nil =>
    have hmem := h.written
    rw [hwritten] at hmem
    exact absurd hmem List.not_mem_nil
  | append_singleton values value =>
    obtain ⟨u, j, v, time', ht, hv, hsucceeded, -, hlast'⟩ := last_of_written hrun hdone hcivil hwritten
    obtain rfl : time' = last := Option.some.inj (hlast'.symm.trans hlast)
    have hdifferent : time ≠ time' := by
      rintro rfl
      exact hlater (Instant.le_refl time)
    have hother : j ≠ i := by
      rintro rfl
      exact hdifferent (h.unique hrun hcivil hsucceeded)
    -- The call has written before the last write, for it writes neither then nor later.
    have hbefore : (i, ⟨.writeSetting (Settings.lastUpdateKey dataset.key) time.text, .ok ()⟩) ∉
        (j, ⟨.writeSetting (Settings.lastUpdateKey dataset.key) time'.text, .ok ()⟩) :: v := by
      rw [List.mem_cons]
      rintro (hsame | hlate)
      · exact hother (congrArg Prod.fst hsame).symm
      · have hmem : time.text ∈ written (Settings.lastUpdateKey dataset.key) (v.map Prod.snd) :=
          List.mem_filterMap.2 ⟨_, List.mem_map.2 ⟨_, hlate, rfl⟩, if_pos rfl⟩
        rw [hv] at hmem
        exact absurd hmem List.not_mem_nil
    obtain ⟨x, y, rfl, hread, hwrite⟩ := List.cons_sublist_iff.1 (sublist_of_not_mem (ht ▸ h.sublist) hbefore)
    obtain ⟨x, w, rfl⟩ := List.append_of_mem hread
    rw [List.append_assoc, List.append_assoc, List.cons_append] at ht
    subst ht
    -- By the clock, the other one has read before it.
    have hfirst := read_before hclock hsucceeded.read hlater
    refine ⟨j, hother, time', Bool.eq_false_iff.2 hlater, ?_⟩
    have hlast := hwrite.append (List.Sublist.cons_cons
      (j, ⟨.writeSetting (Settings.lastUpdateKey dataset.key) time'.text, .ok ()⟩) (List.nil_sublist v))
    exact (List.singleton_sublist.2 hfirst).append ((hlast.trans (List.sublist_append_right w _)).cons_cons _)

end Done

/-- Settings that are read at all are read as they are. -/
theorem lookup_of_bool {h : Host} {key : String} (hread : (h.lookup key).bool false = true) (other : String) :
    h.lookup other = .ok (h.server.settings.find? other) := by
  unfold Host.lookup Server.guarded at hread ⊢
  by_cases hrefused : h.server.faults.refused.contains Call.readSetting = true
  · rw [if_pos hrefused] at hread
    exact absurd hread Bool.false_ne_true
  · rw [if_neg hrefused]
    rfl

/-- **Refreshes after a restart.** Let calls of one dataset run side by side, in any order and however they end, where
settings are written as they are told, nobody else writes when the dataset was last imported with success, and the clock,
which tells civil times and no leap seconds, never goes back. The times that are written are those of the successes: calls
that failed, were cancelled or were turned away have no part in them. Then a fresh scheduler with these settings starts the
refresh of the dataset in its catch-up pass if and only if the dataset is to be kept up to date and the success that was
written last is an interval of the refresh old. So it does if all successes are; and if it does, all are but those that
were overtaken by an earlier one. -/
theorem refresh_after_restart {h : Host}
    (hrun : Together (settingsWorld (Settings.lastUpdateKey dataset.key)) (calls setup dataset jobs tokens) d t rs d')
    (hdone : ∀ i, ∃ outcome, rs i = .done outcome) (hnew : d.find? (Settings.lastUpdateKey dataset.key) = none)
    (hclock : (readings t).Pairwise fun a b => a.le b = true)
    (hcivil : ∀ i time, (i, ⟨.now, time⟩) ∈ t → time.Civil ∧ time.IsPlain) (hnow : now.IsPlain)
    (hboard : h.board = {}) (hsettings : h.server.settings = d') :
    let starts := dataset.taskName ∈ (h.pass now true).1
    let keptUp := (h.lookup (Settings.autoUpdateKey dataset.key)).bool false = true
    let isOld := fun time => ((refreshTask dataset).interval.nanos : Int) ≤ now.since time
    (∀ time, time ∈ successTimes dataset t ↔ ∃ i, SucceededAt dataset rs t i time) ∧
      (starts ↔ keptUp ∧ ∀ last, lastNoted dataset t = some last → isOld last) ∧
      (keptUp → (∀ i time, SucceededAt dataset rs t i time → isOld time) → starts) ∧
      (starts → ∀ i time, SucceededAt dataset rs t i time → isOld time ∨ Overtaken dataset t i time) := by
  intro starts keptUp isOld
  have hcivil' : ∀ i (time : Instant), (i, ⟨.now, time⟩) ∈ t → time.Civil := fun i time h => (hcivil i time h).1
  have hplain : ∀ {i time}, SucceededAt dataset rs t i time → time.IsPlain := fun h => (hcivil _ _ h.read).2
  have hstarts : starts ↔ keptUp ∧ ∀ last, lastNoted dataset t = some last → isOld last := by
    unfold starts
    rw [pass_starts_iff, hboard, fresh_isDue_iff]
    -- Where the setting that asks for refreshes can be read, so can the time of the last success.
    apply and_congr_right
    intro hauto
    have htime : (h.lookup (Settings.lastUpdateKey dataset.key)).time? = lastNoted dataset t := by
      rw [lookup_of_bool hauto, hsettings]
      exact last_success hrun hdone hcivil' hnew
    rw [htime]
  have hsuccess : ∀ {last}, lastNoted dataset t = some last → ∃ i, SucceededAt dataset rs t i last := fun hlast =>
    (mem_successTimes hrun hdone hcivil').1 (List.mem_of_getLast? hlast)
  refine ⟨fun time => mem_successTimes hrun hdone hcivil', hstarts, fun hauto hold => ?_, fun h i time htime => ?_⟩
  · refine hstarts.2 ⟨hauto, fun last hlast => ?_⟩
    obtain ⟨i, hsucceeded⟩ := hsuccess hlast
    exact hold i last hsucceeded
  · have hwritten := (mem_successTimes hrun hdone hcivil').2 ⟨i, htime⟩
    obtain ⟨last, hlast⟩ : ∃ last, lastNoted dataset t = some last :=
      ⟨_, List.getLast?_eq_some_getLast (List.ne_nil_of_mem hwritten)⟩
    by_cases hle : time.le last = true
    · left
      obtain ⟨j, hsucceeded⟩ := hsuccess hlast
      have hsince := Instant.since_le_since (hplain htime) (hplain hsucceeded) hnow hle
      have hinterval := (hstarts.1 h).2 last hlast
      unfold isOld at hinterval ⊢
      omega
    · exact .inr (overtaken_of_later hrun hdone hcivil' hclock hlast htime hle)

end History

/-! ## One success and one refusal -/

/-- Settings after events, if each is written as it is told. -/
def afterWrites (d : Dict String) (t : List CatalogSync.Event) : Dict String :=
  t.foldl (fun d e => match e with
    | ⟨.writeSetting k value, _⟩ => d.put k value
    | _ => d) d

theorem takes_accepted (key : String) {t : List CatalogSync.Event} (h : t.all isAccepted = true) (d : Dict String) :
    (settingsWorld key).Takes d t (afterWrites d t) := by
  induction t generalizing d with
  | nil => exact .start d
  | cons e t ih =>
    rw [List.all_cons, Bool.and_eq_true] at h
    obtain ⟨q, a⟩ := e
    refine .answer ?_ (ih h.2 _)
    cases q with
    | writeSetting k value =>
      cases a with
      | error e => cases h.1
      | ok u => exact ⟨rfl, rfl⟩
    | _ => rfl

/-- The settings of a server that keeps cards up to date. -/
def automatic : Dict String := [("card_data_auto_update", "true")]

/-- What a host with these settings and an empty board looks up. -/
theorem lookup_of_settings {h : Host} {d : Dict String} (hsettings : h.server.settings = d)
    (hrefused : h.server.faults.refused = []) (key : String) : h.lookup key = .ok (d.find? key) := by
  unfold Host.lookup Server.guarded
  rw [hrefused, ← hsettings]
  rfl

/-- The events of a call that succeeds and of one that is turned away. -/
def twoEvents : List (Fin 2 × CatalogSync.Event) :=
  (mixedEvents 1 0 default).map (fun e => (⟨0, Nat.zero_lt_two⟩, e)) ++
    (refusedEvents .cards 2 default).map fun e => (⟨1, Nat.one_lt_two⟩, e)

def twoEnds : Fin 2 → Program (Except Failure Summary)
  | 0 => .done (.ok (.ofProgress mixedProgress))
  | 1 => .done (.error .alreadyRunning)

theorem two_calls : Together (settingsWorld (Settings.lastUpdateKey Dataset.cards.key))
    (calls lenient .cards jobOf fun _ => ⟨0⟩) automatic twoEvents twoEnds
    (afterWrites automatic (twoEvents.map Prod.snd)) := by
  refine together_iff.2 ⟨fun i => ?_, takes_accepted _ rfl automatic⟩
  match i with
  | 0 => exact mixedEvents_path 1 0 default
  | 1 => exact refusedEvents_path lenient .cards 2 ⟨0⟩ default

theorem twoEnds_done (i : Fin 2) : ∃ outcome, twoEnds i = .done outcome := by
  match i with
  | 0 => exact ⟨_, rfl⟩
  | 1 => exact ⟨_, rfl⟩

theorem readings_twoEvents : readings twoEvents = List.replicate 5 default := rfl

theorem reading_twoEvents {i : Fin 2} {time : Instant} (h : (i, ⟨.now, time⟩) ∈ twoEvents) : time = default := by
  have hread := mem_readings h
  rw [readings_twoEvents] at hread
  exact List.eq_of_mem_replicate hread

theorem lastNoted_twoEvents : lastNoted .cards twoEvents = some default := by
  have hcivil : (default : Instant).Civil := ⟨by decide, by decide, by decide⟩
  have htimes : successTimes .cards twoEvents = [(default : Instant).text].filterMap Settings.parseTime := rfl
  unfold lastNoted
  rw [htimes]
  simp [parseTime_text hcivil]

/-- A day after it has succeeded an import of cards is repeated, and no earlier, although a call was turned away. -/
theorem refresh_a_day_after_success :
    ∃ t rs d', Together (settingsWorld (Settings.lastUpdateKey Dataset.cards.key))
        (calls lenient .cards jobOf fun _ => ⟨0⟩) automatic t rs d' ∧
      (∃ summary, rs 0 = .done (.ok summary)) ∧ rs 1 = .done (.error .alreadyRunning) ∧
      ∀ h : Host, h.board = {} → h.server.settings = d' → h.server.faults.refused = [] →
        Dataset.cards.taskName ∈ (h.pass ⟨1, ⟨0, 0, by decide, by decide⟩⟩ true).1 ∧
          Dataset.cards.taskName ∉ (h.pass ⟨0, ⟨86399, 999999999, by decide, by decide⟩⟩ true).1 := by
  refine ⟨twoEvents, twoEnds, _, two_calls, ⟨_, rfl⟩, rfl, fun h hboard hsettings hrefused => ?_⟩
  have hreading : ∀ i (time : Instant), (i, ⟨.now, time⟩) ∈ twoEvents → time.Civil ∧ time.IsPlain := by
    intro i time hmem
    obtain rfl := reading_twoEvents hmem
    exact ⟨⟨by decide, by decide, by decide⟩, Nat.zero_lt_succ _⟩
  have hclock : (readings twoEvents).Pairwise fun a b => a.le b = true := by
    rw [readings_twoEvents]
    exact List.pairwise_replicate.2 (.inr (Instant.le_refl _))
  have hkept : (h.lookup (Settings.autoUpdateKey Dataset.cards.key)).bool false = true := by
    rw [lookup_of_settings hsettings hrefused]
    rfl
  have hday : (⟨1, ⟨0, 0, by decide, by decide⟩⟩ : Instant).IsPlain := by unfold Instant.IsPlain; decide
  have hearly : (⟨0, ⟨86399, 999999999, by decide, by decide⟩⟩ : Instant).IsPlain := by unfold Instant.IsPlain; decide
  obtain ⟨htimes, -, hafter, -⟩ :=
    refresh_after_restart two_calls twoEnds_done rfl hclock hreading hday hboard hsettings
  obtain ⟨-, hbefore, -⟩ := refresh_after_restart two_calls twoEnds_done rfl hclock hreading hearly hboard hsettings
  constructor
  · refine hafter hkept fun i time hsucceeded => ?_
    obtain rfl := reading_twoEvents hsucceeded.read
    decide
  · intro hstarts
    exact absurd ((hbefore.1 hstarts).2 default lastNoted_twoEvents) (by decide)

/-! ## Two successes -/

theorem one_lt_day : 1 < 86400 := by decide

def secondLater : Instant := ⟨0, ⟨1, 0, one_lt_day, (default : OfDay).nano_lt⟩⟩

/-- A call succeeds, gives the lock back and reads the clock to note when it succeeded. -/
def firstPart : List (Fin 2 × CatalogSync.Event) :=
  ((mixedEvents 1 0 default).take 23).map fun e => (⟨0, Nat.zero_lt_two⟩, e)

/-- Before it has noted the time, another call comes and goes. -/
def secondCall : List (Fin 2 × CatalogSync.Event) :=
  (mixedEvents 2 1 secondLater).map fun e => (⟨1, Nat.one_lt_two⟩, e)

/-- Then it notes the time. -/
def lastPart : List (Fin 2 × CatalogSync.Event) :=
  ((mixedEvents 1 0 default).drop 23).map fun e => (⟨0, Nat.zero_lt_two⟩, e)

/-- The cards are imported once more although a call has succeeded less than a day before: that call was overtaken. -/
theorem overtaken_success_repeated :
    ∃ d', Together (settingsWorld (Settings.lastUpdateKey Dataset.cards.key))
        (calls lenient .cards jobOf fun _ => ⟨0⟩) automatic (firstPart ++ secondCall ++ lastPart)
        (fun _ => .done (.ok (.ofProgress mixedProgress))) d' ∧
      (0, ⟨.unlock .cards, ()⟩) ∈ firstPart ∧
      (readings (firstPart ++ secondCall ++ lastPart)).Pairwise (fun a b => a.le b = true) ∧
      SucceededAt .cards (fun _ => .done (.ok (.ofProgress mixedProgress))) (firstPart ++ secondCall ++ lastPart) 1
        secondLater ∧
      ∀ h : Host, h.board = {} → h.server.settings = d' → h.server.faults.refused = [] →
        let now : Instant := ⟨1, ⟨0, 0, by decide, by decide⟩⟩
        (h.lookup (Settings.autoUpdateKey Dataset.cards.key)).bool false = true ∧
          now.since secondLater < (refreshTask .cards).interval.nanos ∧ Dataset.cards.taskName ∈ (h.pass now true).1 := by
  have hfirst : own 0 (firstPart ++ secondCall ++ lastPart) = mixedEvents 1 0 default := rfl
  have hsecond : own 1 (firstPart ++ secondCall ++ lastPart) = mixedEvents 2 1 secondLater := rfl
  refine ⟨_, together_iff.2 ⟨fun i => ?_, takes_accepted _ rfl automatic⟩, ?_, ?_, ⟨_, rfl, ?_⟩, ?_⟩
  · match i with
    | 0 =>
      rw [hfirst]
      exact mixedEvents_path 1 0 default
    | 1 =>
      rw [hsecond]
      exact mixedEvents_path 2 1 secondLater
  · exact List.mem_of_getElem? (i := 19) rfl
  · have hreadings : readings (firstPart ++ secondCall ++ lastPart) =
        [default, default, default, secondLater, secondLater, secondLater] := rfl
    rw [hreadings]
    decide
  · rw [hsecond]
    exact ⟨(mixedEvents 2 1 secondLater).take 22, (mixedEvents 2 1 secondLater).drop 24, rfl⟩
  · intro h hboard hsettings hrefused now
    have hcivil : (default : Instant).Civil := ⟨by decide, by decide, by decide⟩
    have hkept : (h.lookup (Settings.autoUpdateKey Dataset.cards.key)).bool false = true := by
      rw [lookup_of_settings hsettings hrefused]
      rfl
    have htime : (h.lookup (Settings.lastUpdateKey Dataset.cards.key)).time? = some default := by
      rw [lookup_of_settings hsettings hrefused]
      exact parseTime_text hcivil
    refine ⟨hkept, by decide, ?_⟩
    rw [pass_starts_iff, hboard, fresh_isDue_iff]
    refine ⟨hkept, fun last hlast => ?_⟩
    rw [htime] at hlast
    cases hlast
    decide

end CatalogSync.Schedule
