import CatalogSync.Proofs.Schedule.Interleaving
import CatalogSync.Proofs.Time.Windows

/-!
# What a pass starts

A task is due for what the board, the settings and the clock say when the pass begins (`Due`): it is idle, the setting
that gates it reads true, the time is in its window, and its interval is over since its last known start. A setting
that is absent, unreadable or not answered at all counts as none. A pass by itself starts the tasks that are due, in
the order of registration, whatever else it starts on the way.

Main statement: `pass_starts_what_is_due`.
-/

namespace CatalogSync.Schedule

open CatalogSync.Text CatalogSync.Time

/-! ## What makes a task due -/

/-- A setting reads true: it is there, its store answers, and its text spells `true`. -/
def ReadsTrue (read : Lookup) (key : String) : Prop :=
  ∃ text, read key = .ok (some text) ∧ Settings.parseBool text = some true

/-- The last known start of a task: the latest of this process, or else the one that its setting tells, if that can be
read. -/
inductive LastKnown (b : Board) (read : Lookup) (t : Task) : Instant → Prop
  | inProcess {last : Instant} (h : b.lastRun.find? t.name = some last) : LastKnown b read t last
  | persisted {last : Instant} {key text : String} (hnone : b.lastRun.find? t.name = none)
      (hkey : t.lastRunKey = some key) (hread : read key = .ok (some text))
      (htime : Settings.parseTime text = some last) : LastKnown b read t last

/-- What makes a task due, with what is asked of its window. -/
structure Due (b : Board) (read : Lookup) (now : Instant) (t : Task) (window : Prop) : Prop where
  idle : ¬ b.isRunning t.name
  enabled : ∀ key, t.enabledKey = some key → ReadsTrue read key
  window : window
  interval : ∀ last, LastKnown b read t last → t.interval.nanos ≤ now.since last

/-- The window of a task is open on the clocks of a zone, as it is counted in whole seconds. -/
def Task.Opens (zone : Zone) (read : Lookup) (now : Instant) (t : Task) : Prop :=
  ∀ w, t.timeOfDay = some w → Window.isOpen (w.resolve read) (zone.timeOfDay now) = true

/-- The window of a task contains the time of day. -/
def Task.Contains (zone : Zone) (read : Lookup) (now : Instant) (t : Task) : Prop :=
  ∀ w, t.timeOfDay = some w → ∃ start, Window.Names (w.resolve read) start ∧ Window.Contains start (zone.timeOfDay now)

/-- Whole seconds do not put the time of day on the wrong side of an end of the window of a task. -/
def Task.Placed (zone : Zone) (read : Lookup) (now : Instant) (t : Task) : Prop :=
  ∀ w, t.timeOfDay = some w → now.time.nano < perSecond ∧
    ∀ start, Window.Names (w.resolve read) start → ¬ Window.Misplaced start (zone.timeOfDay now)

section Tests

variable {b : Board} {zone : Zone} {read : Lookup} {now : Instant} {t : Task}

theorem text?_eq_some_iff {a : Settings.Answer} {text : String} : a.text? = some text ↔ a = .ok (some text) := by
  cases a with
  | error e => exact ⟨nofun, nofun⟩
  | ok value => exact ⟨fun h => congrArg Except.ok h, fun h => Except.ok.inj h⟩

theorem bool_false_iff {key : String} : (read key).bool false = true ↔ ReadsTrue read key := by
  unfold Settings.Answer.bool ReadsTrue
  cases htext : (read key).text? with
  | none =>
    refine ⟨fun h => absurd h (by decide), fun ⟨text, hread, _⟩ => ?_⟩
    rw [text?_eq_some_iff.2 hread] at htext
    cases htext
  | some text =>
    have hread := text?_eq_some_iff.1 htext
    rw [Option.bind_some]
    constructor
    · intro h
      cases hbool : Settings.parseBool text with
      | none =>
        rw [hbool] at h
        exact absurd h (by decide)
      | some value =>
        rw [hbool, Option.getD_some] at h
        exact ⟨text, hread, by rw [hbool, h]⟩
    · rintro ⟨text', hread', hbool⟩
      rw [hread] at hread'
      cases hread'
      rw [hbool, Option.getD_some]

theorem isEnabled_iff : t.isEnabled read = true ↔ ∀ key, t.enabledKey = some key → ReadsTrue read key := by
  unfold Task.isEnabled
  cases t.enabledKey with
  | none => exact ⟨fun _ => nofun, fun _ => rfl⟩
  | some key =>
    rw [bool_false_iff]
    exact ⟨fun h key' hkey => Option.some.inj hkey ▸ h, fun h => h key rfl⟩

theorem isInWindow_iff : t.isInWindow zone read now = true ↔ t.Opens zone read now := by
  unfold Task.isInWindow Task.Opens
  cases t.timeOfDay with
  | none => exact ⟨fun _ => nofun, fun _ => rfl⟩
  | some w => exact ⟨fun h w' hw => Option.some.inj hw ▸ h, fun h => h w rfl⟩

theorem lastRun_eq_some_iff {last : Instant} :
    t.lastRun read (b.lastRun.find? t.name) = some last ↔ LastKnown b read t last := by
  unfold Task.lastRun
  cases hfind : b.lastRun.find? t.name with
  | some inProcess =>
    refine ⟨fun h => .inProcess (hfind.trans h), fun h => ?_⟩
    cases h with
    | inProcess h => exact hfind.symm.trans h
    | persisted hnone => cases hfind.symm.trans hnone
  | none =>
    change (t.lastRunKey.bind fun key => (read key).time?) = some last ↔ _
    constructor
    · intro h
      obtain ⟨key, hkey, htime⟩ := Option.bind_eq_some_iff.1 h
      obtain ⟨text, htext, htime⟩ := Option.bind_eq_some_iff.1 htime
      exact .persisted hfind hkey (text?_eq_some_iff.1 htext) htime
    · intro h
      cases h with
      | inProcess h => cases hfind.symm.trans h
      | persisted _ hkey hread htime =>
        refine Option.bind_eq_some_iff.2 ⟨_, hkey, ?_⟩
        exact Option.bind_eq_some_iff.2 ⟨_, text?_eq_some_iff.2 hread, htime⟩

theorem isOver_iff : t.isOver now (t.lastRun read (b.lastRun.find? t.name)) = true ↔
    ∀ last, LastKnown b read t last → t.interval.nanos ≤ now.since last := by
  have hknown := fun last => @lastRun_eq_some_iff b read t last
  cases hlast : t.lastRun read (b.lastRun.find? t.name) with
  | none =>
    rw [hlast] at hknown
    refine ⟨fun _ last h => ?_, fun _ => rfl⟩
    cases (hknown last).2 h
  | some last =>
    rw [hlast] at hknown
    unfold Task.isOver
    rw [decide_eq_true_eq]
    exact ⟨fun h last' hlast' => Option.some.inj ((hknown last').2 hlast') ▸ h, fun h => h last ((hknown last).1 rfl)⟩

theorem isDue_iff {anyTime : Bool} :
    b.isDue zone read now anyTime t = true ↔ Due b read now t (anyTime = true ∨ t.Opens zone read now) := by
  unfold Board.isDue
  simp only [Bool.and_eq_true, Bool.or_eq_true, Bool.not_eq_true', isEnabled_iff, isInWindow_iff, isOver_iff]
  constructor
  · rintro ⟨⟨⟨hidle, henabled⟩, hwindow⟩, hinterval⟩
    exact ⟨by rw [hidle]; decide, henabled, hwindow, hinterval⟩
  · rintro ⟨hidle, henabled, hwindow, hinterval⟩
    exact ⟨⟨⟨Bool.eq_false_iff.2 hidle, henabled⟩, hwindow⟩, hinterval⟩

theorem opens_iff_contains (h : t.Placed zone read now) : t.Opens zone read now ↔ t.Contains zone read now := by
  refine forall_congr' fun w => forall_congr' fun hw => ?_
  obtain ⟨hplain, hplaced⟩ := h w hw
  rw [← zone.nano_timeOfDay] at hplain
  constructor
  · intro hopen
    obtain ⟨start, hnames, hright⟩ := (Window.isOpen_iff hplain).1 hopen
    exact ⟨start, hnames, hright.2 (hplaced start hnames)⟩
  · rintro ⟨start, hnames, hcontains⟩
    exact (Window.isOpen_iff hplain).2 ⟨start, hnames, fun _ => hplaced start hnames, fun _ => hcontains⟩

end Tests

theorem Due.imp {b : Board} {read : Lookup} {now : Instant} {t : Task} {window window' : Prop}
    (h : Due b read now t window) (himp : window → window') : Due b read now t window' :=
  ⟨h.idle, h.enabled, himp h.window, h.interval⟩

/-- **What a pass starts.** Whatever is registered, whatever the board shows and the settings answer, and in whatever
zone the clocks of the host are, a pass by itself starts, in the order of registration, just the tasks that are due when
it begins, and each has a body in flight then. Where the window counts, it is open on those clocks as counted in whole
seconds, which is to contain the time of day unless that is misplaced. What a tick starts, a catch-up pass starts too. -/
theorem pass_starts_what_is_due (offers : List Task) (before : State) (zone : Zone) (read : Lookup)
    (now : Instant) :
    let s : State := { before with tasks := enroll offers }
    let started := fun anyTime => (Board.pass zone read now anyTime s.tasks s.board).1
    (∀ anyTime, ∃ s' p, Reaches s.passes.length zone read (s.openPass now anyTime) s' ∧
      s'.passes[s.passes.length]? = some p ∧ p.rest = [] ∧ p.started = started anyTime ∧
      s'.flights = s.flights ++
        (started anyTime).map fun t => ⟨t, if anyTime then .catchUp else .tick, now, false⟩) ∧
    (∀ anyTime, (started anyTime).Sublist s.tasks) ∧
    (∀ anyTime, ∀ t ∈ s.tasks,
      (t ∈ started anyTime ↔ Due s.board read now t (anyTime = true ∨ t.Opens zone read now)) ∧
      (anyTime = true ∨ t.Placed zone read now →
        (t ∈ started anyTime ↔ Due s.board read now t (anyTime = true ∨ t.Contains zone read now)))) ∧
    ∀ t ∈ started false, t ∈ started true := by
  intro s started
  have hstarted : ∀ anyTime, started anyTime = s.tasks.filter (s.board.isDue zone read now anyTime) :=
    fun anyTime => Board.pass_started zone read now anyTime (nodup_enroll offers) s.board
  have hdue : ∀ anyTime, ∀ t ∈ s.tasks,
      (t ∈ started anyTime ↔ Due s.board read now t (anyTime = true ∨ t.Opens zone read now)) := by
    intro anyTime t ht
    rw [hstarted, List.mem_filter, isDue_iff]
    exact and_iff_right ht
  have hsub : ∀ anyTime, (started anyTime).Sublist s.tasks := by
    intro anyTime
    rw [hstarted]
    exact List.filter_sublist
  refine ⟨fun anyTime => ?_, hsub, fun anyTime t ht => ⟨hdue anyTime t ht, fun hplaced => ?_⟩, fun t ht => ?_⟩
  · have hopened : (s.openPass now anyTime).passes[s.passes.length]? = some { now, anyTime, rest := s.tasks } :=
      List.getElem?_concat_length
    obtain ⟨s', p, hreach, hp, hrest, -, hall, hflights⟩ := @pass_uninterrupted _ zone read _ _ hopened rfl
    exact ⟨s', p, hreach, hp, hrest, hall, hflights⟩
  · rw [hdue anyTime t ht]
    rcases hplaced with hany | hplaced
    · exact ⟨fun h => h.imp fun _ => .inl hany, fun h => h.imp fun _ => .inl hany⟩
    · rw [opens_iff_contains hplaced]
  · have hmem := (hsub false).subset ht
    rw [hdue true t hmem]
    exact ((hdue false t hmem).1 ht).imp fun _ => .inl rfl

/-- Half a second before its window a task is started by a tick. -/
theorem starts_half_a_second_early :
    let early : Task := { name := "early", interval := .ofSeconds 3600, timeOfDay := some (.fixed "14:00") }
    let now : Instant := ⟨21915, ⟨50399, 500000000, by decide, by decide⟩⟩
    let read : Lookup := fun _ => .ok none
    (Board.pass .utc read now false (enroll [early]) {}).1 = [early] ∧ ¬ early.Contains .utc read now := by
  intro early now read
  refine ⟨by decide, fun h => ?_⟩
  have hafternoon : Window.Names "14:00" ⟨50400, 0, by decide, by decide⟩ := Window.start?_sound (by decide)
  obtain ⟨start, hnames, hcontains⟩ := h (.fixed "14:00") rfl
  obtain rfl := hnames.unique hafternoon
  exact absurd hcontains (by decide)

end CatalogSync.Schedule
