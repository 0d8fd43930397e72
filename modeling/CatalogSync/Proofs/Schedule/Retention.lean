import CatalogSync.Proofs.Binary64.Counting
import CatalogSync.Proofs.Ledger.Cleaning
import CatalogSync.Proofs.Settings.Meanings
import CatalogSync.Schedule.Tasks
import CatalogSync.Server.Basic

/-!
# How long jobs are kept

The task that removes old jobs runs on a server where time goes on and any call may fail, and where nobody else works on
jobs, settings or metrics (`Server.tended`). It keeps jobs for the days that a setting tells, and for one day at least. Each
step of it is taken from the state that the server is in then (`Tended`), which differs from the one at the start by what
the task itself has done.

Main statement: `cleanup_keeps_young_jobs`.
-/

namespace CatalogSync.Server

open CatalogSync.Time

/-- What may happen to a server meanwhile. Calls may begin to fail or cease to, and tokens may be cancelled. -/
structure Tended (s s' : Server) : Prop where
  clock : s.clock.le s'.clock = true
  civil : s'.clock.Civil
  settings : s'.settings = s.settings
  ledger : s'.ledger = s.ledger
  registry : s'.registry = s.registry
  cancelled : ∀ token, s.isCancelled token = true → s'.isCancelled token = true

/-- A server that only the program works on. -/
def tended : World Server where
  stirs := Tended
  answers s q a s' := answer q s = some (a, s')

variable {s m s' : Server}

theorem Tended.refl (h : s.clock.Civil) : Tended s s := ⟨Instant.le_refl _, h, rfl, rfl, rfl, fun _ => id⟩

theorem Tended.trans (h : Tended s m) (h' : Tended m s') : Tended s s' where
  clock := Instant.le_trans h.clock h'.clock
  civil := h'.civil
  settings := h'.settings.trans h.settings
  ledger := h'.ledger.trans h.ledger
  registry := h'.registry.trans h.registry
  cancelled token htoken := h'.cancelled token (h.cancelled token htoken)

theorem Tended.lasts {b : Server} (m m' : Server) (h : Tended b m) (h' : tended.stirs m m') : Tended b m' := h.trans h'

/-- A store call is refused and leaves everything as it is, or it is carried out. -/
theorem guarded_eq {α : Type} {call : Call} {f : Server → Stored α × Server} {a : Stored α}
    (h : some (s.guarded call f) = some (a, s')) : (∃ e, a = .error e) ∧ s' = s ∨ f s = (a, s') := by
  unfold guarded at h
  split at h
  · cases h
    exact .inl ⟨⟨_, rfl⟩, rfl⟩
  · exact .inr (Option.some.inj h)

end CatalogSync.Server

namespace CatalogSync.Schedule

open CatalogSync.Ledger CatalogSync.Program CatalogSync.Server CatalogSync.Settings CatalogSync.Time

/-! ## What a run does -/

/-- The number of days that a run has read. The setting may be missing, its text may be any and the call may fail. -/
def DaysRead (s : Server) (t : List CatalogSync.Event) (d : Int) : Prop :=
  ∃ a : Answer, ⟨.readSetting retentionDaysKey, a⟩ ∈ t ∧ (a = .ok (s.setting? retentionDaysKey) ∨ ∃ e, a = .error e) ∧
    Reads Numeral a 30 d

/-- The jobs of a server that are older than some days at an instant. -/
def oldJobs (s : Server) (now : Instant) (days : Int) : Nat := s.ledger.rows.countP fun r => isOld now days (r.job now)

/-- The settings after a call that was to note an instant. -/
def noted (settings : Text.Dict String) (last : Instant) : Stored Unit → Text.Dict String
  | .ok _ => settings.put cleanupLastRunKey last.text
  | .error _ => settings

/-- A clean-up at an instant: the jobs that are older than the days, and than one day, are removed and counted, and a later
instant is noted unless the call fails. -/
structure CleanedUp (s : Server) (days : Int) (now : Instant) (t : List CatalogSync.Event) (s' : Server) : Prop where
  began : s.clock.le now = true
  removed : s'.ledger.rows = s.ledger.rows.filter fun r => !isOld now (max days 1) (r.job now)
  recorded : s'.registry = s.registry.record (.jobsCleaned (oldJobs s now (max days 1)))
  noted : ∃ last a, now.le last = true ∧ last.le s'.clock = true ∧ ⟨.writeSetting cleanupLastRunKey last.text, a⟩ ∈ t ∧
    s'.settings = noted s.settings last a

/-- The same jobs, settings and metrics. -/
structure Untouched (s s' : Server) : Prop where
  ledger : s'.ledger = s.ledger
  settings : s'.settings = s.settings
  registry : s'.registry = s.registry

theorem Untouched.of_tended {s s' : Server} (h : Tended s s') : Untouched s s' := ⟨h.ledger, h.settings, h.registry⟩

section Runs

variable {s : Server} {t : List CatalogSync.Event}

theorem retentionDays_ends (hclock : s.clock.Civil) :
    Ends tended True (fun days u s' => Tended s s' ∧ ∃ (a : Answer) (d : Int), u = t ++ [⟨.readSetting retentionDaysKey, a⟩] ∧
      (a = .ok (s.setting? retentionDaysKey) ∨ ∃ e, a = .error e) ∧ Reads Numeral a 30 d ∧ days = max d 1)
      retentionDays t s := by
  refine Ends.call (Tended s) (.refl hclock) Tended.lasts ?_ ?_
  · exact fun _ m _ => ⟨m, _, _, .refl m, rfl⟩
  intro m a m' hm hread
  have ha : (a = .ok (s.setting? retentionDaysKey) ∨ ∃ e, a = .error e) ∧ m' = m := by
    rcases guarded_eq hread with ⟨herror, hm'⟩ | hok
    · exact ⟨.inr herror, hm'⟩
    · cases hok
      unfold setting?
      rw [hm.settings]
      exact ⟨.inl rfl, rfl⟩
  obtain ⟨ha, rfl⟩ := ha
  refine Ends.pure (Tended s) hm Tended.lasts fun s' hs' => ?_
  exact ⟨hs', a, Answer.int a 30, rfl, ha, (int_eq_iff a 30 _).1 rfl, rfl⟩

/-- The last steps of a run: an instant is noted, unless the call fails. -/
theorem note_ends (hclock : s.clock.Civil) :
    Ends tended True (fun r u s' => r = .ok () ∧ s'.ledger = s.ledger ∧ s'.registry = s.registry ∧
      ∃ last a, s.clock.le last = true ∧ last.le s'.clock = true ∧ s'.settings = noted s.settings last a ∧
        u = t ++ [⟨.now, last⟩, ⟨.writeSetting cleanupLastRunKey last.text, a⟩])
      (do
        let now : Instant ← Program.call .now
        let _ ← Settings.setTime cleanupLastRunKey now
        return .ok () : Program TaskOutcome) t s := by
  refine Ends.call (Tended s) (.refl hclock) Tended.lasts ?_ ?_
  · exact fun _ m _ => ⟨m, _, _, .refl m, rfl⟩
  intro m last m' hm hnow
  cases hnow
  refine Ends.call (Tended m) (.refl hm.civil) Tended.lasts ?_ ?_
  · exact fun _ m' _ => ⟨m', _, _, .refl m', rfl⟩
  intro m₁ a m₂ hm₁ hwrite
  have hm₂ : Tended m₂ m₂ ∧ m₂.clock = m₁.clock ∧ m₂.ledger = m₁.ledger ∧ m₂.registry = m₁.registry ∧
      m₂.settings = noted m₁.settings m.clock a := by
    rcases guarded_eq hwrite with ⟨⟨e, rfl⟩, rfl⟩ | hok
    · exact ⟨.refl hm₁.civil, rfl, rfl, rfl, rfl⟩
    · cases hok
      exact ⟨.refl hm₁.civil, rfl, rfl, rfl, rfl⟩
  obtain ⟨hrefl, hclock₂, hledger₂, hregistry₂, hsettings₂⟩ := hm₂
  have hbefore := hm.trans hm₁
  refine Ends.pure (Tended m₂) hrefl Tended.lasts fun s' hs' => ⟨rfl, ?_, ?_, m.clock, a, hm.clock, ?_, ?_, ?_⟩
  · rw [hs'.ledger, hledger₂, hbefore.ledger]
  · rw [hs'.registry, hregistry₂, hbefore.registry]
  · exact Instant.le_trans (hclock₂ ▸ hm₁.clock) hs'.clock
  · rw [hs'.settings, hsettings₂, hbefore.settings]
  · exact List.append_assoc _ _ _

/-- What a clean-up makes of a server. -/
theorem cleanJobs_eq {h : History} (hh : h.Civil) {m m' : Server} (hledger : m.ledger = replay h) (hclock : m.clock.Civil)
    {days : Int} {a : Stored Nat} (hok : (let (n, s) := cleanJobs days m; (Except.ok n, s)) = (a, m')) :
    ∃ n, a = .ok n ∧ n = oldJobs m m.clock days ∧
      m'.ledger.rows = (m.ledger.rows.filter fun r => !isOld m.clock days (r.job m.clock)) ∧
      m'.clock = m.clock ∧ m'.settings = m.settings ∧ m'.registry = m.registry := by
  have hrows := rows_clean_eq hh hclock days
  have hcount := count_clean_eq hh hclock days
  rw [← hledger] at hrows hcount
  cases hok
  exact ⟨_, rfl, hcount, hrows, rfl, rfl, rfl⟩

/-- The steps of a run that knows for how many days to keep jobs. -/
theorem clean_ends {h : History} (hh : h.Civil) (hledger : s.ledger = replay h) (hclock : s.clock.Civil) {d days : Int}
    (hdays : days = max d 1) :
    Ends tended True (fun r u s' =>
      (∃ now, r = .ok () ∧ CleanedUp s d now u s' ∧ ∀ n e, ⟨.cleanJobs n, .error e⟩ ∉ u) ∨
        ∃ e : StoreError, ⟨.cleanJobs days, .error e⟩ ∈ u ∧ r = .error (.failed e.message) ∧ Untouched s s')
      (do
        match ← Program.call (.cleanJobs days) with
        | .error e => return .error (.failed e.message)
        | .ok n =>
          Program.call (.record (.jobsCleaned n))
          let now : Instant ← Program.call .now
          let _ ← Settings.setTime cleanupLastRunKey now
          return .ok () : Program TaskOutcome) [] s := by
  refine Ends.call (Tended s) (.refl hclock) Tended.lasts ?_ ?_
  · exact fun _ m _ => ⟨m, _, _, .refl m, rfl⟩
  intro m a m' hm hclean
  rcases guarded_eq hclean with ⟨⟨e, rfl⟩, rfl⟩ | hok
  · refine Ends.pure (Tended s) hm Tended.lasts fun s' hs' => .inr ⟨e, ?_, rfl, .of_tended hs'⟩
    exact List.mem_append_right _ List.mem_cons_self
  obtain ⟨n, rfl, hn, hrows, hclock', hsettings', hregistry'⟩ := cleanJobs_eq hh (hm.ledger.trans hledger) hm.civil hok
  rw [hm.ledger] at hrows
  subst hdays
  refine Ends.call (Tended m') (.refl (hclock' ▸ hm.civil)) Tended.lasts ?_ ?_
  · exact fun _ m _ => ⟨m, _, _, .refl m, rfl⟩
  intro m₁ a m₂ hm₁ hrecord
  have hm₂ : m₂.clock = m₁.clock ∧ m₂.settings = m₁.settings ∧ m₂.ledger = m₁.ledger ∧
      m₂.registry = m₁.registry.record (.jobsCleaned n) := by
    cases hrecord
    exact ⟨rfl, rfl, rfl, rfl⟩
  obtain ⟨hclock₂, hsettings₂, hledger₂, hregistry₂⟩ := hm₂
  refine (note_ends (hclock₂ ▸ hm₁.civil)).mono ?_
  rintro r u s' ⟨rfl, hledger', hregistry'', last, a, hfrom, hto, hsettings, rfl⟩
  refine .inl ⟨m.clock, rfl, ⟨hm.clock, ?_, ?_, last, a, ?_, hto, ?_, ?_⟩, ?_⟩
  · rw [hledger', hledger₂, hm₁.ledger, hrows]
  · rw [hregistry'', hregistry₂, hm₁.registry, hregistry', hm.registry, hn]
    unfold oldJobs
    rw [hm.ledger]
  · rw [hclock₂] at hfrom
    exact Instant.le_trans (hclock' ▸ hm₁.clock) hfrom
  · simp
  · rw [hsettings, hsettings₂, hm₁.settings, hsettings', hm.settings]
  · intro k e he
    simp only [List.mem_append, List.mem_cons, List.not_mem_nil, or_false, false_or, or_assoc] at he
    rcases he with he | he | he | he
    all_goals cases he

end Runs

/-! ## Main theorem -/

/-- A clean-up after some other steps. -/
theorem CleanedUp.after {s m s' : Server} {d : Int} {now : Instant} {t : List CatalogSync.Event} (hm : Tended s m)
    (h : CleanedUp m d now t s') (u : List CatalogSync.Event) : CleanedUp s d now (u ++ t) s' where
  began := Instant.le_trans hm.clock h.began
  removed := by rw [h.removed, hm.ledger]
  recorded := by
    rw [h.recorded, hm.registry]
    unfold oldJobs
    rw [hm.ledger]
  noted := by
    obtain ⟨last, a, hfrom, hto, hevent, hsettings⟩ := h.noted
    rw [hm.settings] at hsettings
    exact ⟨last, a, hfrom, hto, List.mem_append_right u hevent, hsettings⟩

/-- What is older than some days is older than fewer. -/
theorem isOld_of_le {now : Instant} {d d' : Int} (h : d ≤ d') {j : Job} (hold : isOld now d' j = true) :
    isOld now d j = true := by
  unfold isOld at *
  rw [Bool.not_eq_true'] at *
  by_contra hyoung
  rw [Bool.not_eq_false] at hyoung
  have hcutoff : (cutoff now d').toMillis.le (cutoff now d).toMillis = true := by
    rw [Instant.le_iff]
    unfold cutoff Instant.toMillis
    dsimp only
    omega
  rw [Instant.le_trans hcutoff hyoung] at hold
  cases hold

/-- The counter of the jobs that have been removed. -/
theorem CleanedUp.counter {s s' : Server} {d : Int} {now : Instant} {t : List CatalogSync.Event} (h : CleanedUp s d now t s')
    {n : Nat} (hn : s.registry.jobsCleaned = Binary64.ofNat n) (hsum : n + oldJobs s now (max d 1) < 2 ^ 53) :
    s'.registry.jobsCleaned = Binary64.ofNat (n + oldJobs s now (max d 1)) := by
  rw [h.recorded, ← Binary64.add_ofNat hsum, ← hn]
  rfl

/-- A job that is removed was made more than a day before. -/
theorem CleanedUp.old {s s' : Server} {d : Int} {now : Instant} {t : List CatalogSync.Event} (h : CleanedUp s d now t s')
    {row : Row} (hrow : row ∈ s.ledger.rows) (hgone : row ∉ s'.ledger.rows) :
    s.clock.le now = true ∧ now.le s'.clock = true ∧ isOld now 1 (row.job now) = true := by
  obtain ⟨last, -, hfrom, hto, -, -⟩ := h.noted
  refine ⟨h.began, Instant.le_trans hfrom hto, ?_⟩
  by_contra hyoung
  rw [h.removed, List.mem_filter] at hgone
  refine hgone ⟨hrow, ?_⟩
  rw [Bool.not_eq_true', ← Bool.not_eq_true]
  exact mt (isOld_of_le (le_max_right d 1)) hyoung

/-- **Young jobs are kept.** Let a ledger come from any history of calls, and let a setting tell the days to keep jobs for,
in any text or in none. Whichever calls fail, the task comes to an end. If it succeeds, it has removed exactly the jobs that
were made, to the millisecond, more than so many days before an instant of its run, and more than one day; the days are the
integer that was read, or 30 where none could be. The jobs are added to the counter, which is exact below `2 ^ 53`, and an
instant is noted unless that call fails. If the task is cancelled before or the call to remove jobs fails, then no job,
setting or metric has changed. So no job goes that is not older than a day. -/
theorem cleanup_keeps_young_jobs {s : Server} {h : History} (hh : h.Civil) (hledger : s.ledger = replay h)
    (hclock : s.clock.Civil) (token : Token) :
    Ends tended True (fun r t s' =>
      (r = .ok () → ∃ d now, DaysRead s t d ∧ CleanedUp s d now t s' ∧
        ∀ n, s.registry.jobsCleaned = Binary64.ofNat n → n + oldJobs s now (max d 1) < 2 ^ 53 →
          s'.registry.jobsCleaned = Binary64.ofNat (n + oldJobs s now (max d 1))) ∧
      (∀ e, r = .error e → Untouched s s' ∧ (e = .cancelled ∧ ⟨.isCancelled token, true⟩ ∈ t ∨
        ∃ days c, ⟨.cleanJobs days, .error c⟩ ∈ t ∧ e = .failed c.message)) ∧
      (s.isCancelled token = true → r = .error .cancelled) ∧
      (∀ days c, ⟨.cleanJobs days, .error c⟩ ∈ t → ∃ e, r = .error e) ∧
      ∀ row ∈ s.ledger.rows, row ∉ s'.ledger.rows →
        ∃ now, s.clock.le now = true ∧ now.le s'.clock = true ∧ isOld now 1 (row.job now) = true)
      (cleanup token) [] s := by
  refine Ends.call (Tended s) (.refl hclock) Tended.lasts ?_ ?_
  · exact fun _ m _ => ⟨m, _, _, .refl m, rfl⟩
  intro m cancelled m' hm hasked
  cases hasked
  cases hcancelled : m.isCancelled token with
  | true =>
    refine Ends.pure (Tended s) hm Tended.lasts fun s' hs' => ⟨nofun, ?_, fun _ => rfl, ?_, ?_⟩
    · rintro e ⟨⟩
      exact ⟨.of_tended hs', .inl ⟨rfl, List.mem_singleton_self _⟩⟩
    · exact fun days c _ => ⟨_, rfl⟩
    · intro row hrow hgone
      rw [hs'.ledger] at hgone
      exact absurd hrow hgone
  | false =>
    have hfree : s.isCancelled token ≠ true := by
      intro htoken
      rw [hm.cancelled token htoken] at hcancelled
      cases hcancelled
    refine (retentionDays_ends hm.civil).bind ?_
    rintro days u m₁ ⟨hm₁, a, d, rfl, ha, hd, hdays⟩
    have hm₁' := hm.trans hm₁
    rw [setting?, hm.settings] at ha
    refine ((clean_ends hh (hm₁'.ledger.trans hledger) hm₁.civil hdays).behind
      [⟨.isCancelled token, false⟩, ⟨.readSetting retentionDaysKey, a⟩]).mono ?_
    rintro r t s' ⟨v, rfl, ⟨now, rfl, hdone, hnone⟩ | ⟨c, hevent, rfl, hsame⟩⟩
    · have hcleaned := hdone.after hm₁' [⟨.isCancelled token, false⟩, ⟨.readSetting retentionDaysKey, a⟩]
      refine ⟨fun _ => ⟨d, now, ⟨a, by simp, ha, hd⟩, hcleaned, fun n => hcleaned.counter⟩, nofun, fun h => absurd h hfree, ?_,
        fun row hrow hgone => ⟨now, hcleaned.old hrow hgone⟩⟩
      intro n c he
      rcases List.mem_append.1 he with he | he
      · rw [List.mem_cons, List.mem_singleton] at he
        rcases he with he | he
        all_goals cases he
      · exact absurd he (hnone n c)
    · have hsame' : Untouched s s' :=
        ⟨hsame.ledger.trans hm₁'.ledger, hsame.settings.trans hm₁'.settings, hsame.registry.trans hm₁'.registry⟩
      refine ⟨nofun, ?_, fun h => absurd h hfree, fun _ _ _ => ⟨_, rfl⟩, ?_⟩
      · rintro e ⟨⟩
        exact ⟨hsame', .inr ⟨_, c, List.mem_append_right _ hevent, rfl⟩⟩
      · intro row hrow hgone
        rw [hsame'.ledger] at hgone
        exact absurd hrow hgone

/-- A job of forty days is removed, whether the days are read or not. -/
theorem job_of_forty_days_is_removed :
    let t (day : Int) : Instant := ⟨day, default⟩
    let h : History := [(t 0, .create .cardImport .null)]
    let s : Server := { clock := t 40, ledger := replay h, settings := [(retentionDaysKey, " -2")] }
    h.Civil ∧ s.ledger = replay h ∧ s.clock.Civil ∧
      Ends tended True (fun r _ s' => r = .ok () → s'.ledger.rows = [] ∧ s'.registry.jobsCleaned = Binary64.ofNat 1)
        (cleanup ⟨0⟩) [] s := by
  intro t h s
  have hclock : s.clock.Civil := ⟨by decide, by decide, by decide⟩
  have hh : h.Civil := by
    intro call hcall
    rw [List.mem_singleton.1 hcall]
    exact ⟨by decide, by decide, by decide⟩
  have hold : ∀ row ∈ s.ledger.rows, ∀ now days, (t 40).le now = true → days ≤ 30 → isOld now days (row.job now) = true := by
    intro row hrow now days hnow hdays
    rw [List.mem_singleton.1 (show row ∈ [Row.fresh (t 0) 1 .cardImport .null] from hrow)]
    have htype : (Row.fresh (t 0) 1 .cardImport .null).jobType = JobType.cardImport.name := rfl
    have hstatus : (Row.fresh (t 0) 1 .cardImport .null).status = JobStatus.pending.name := rfl
    have hmade := (Row.toJob_of_names htype hstatus now).2.2.2.2
    have hread : read? (Row.fresh (t 0) 1 .cardImport .null).createdAt = some (t 0) := by decide +kernel
    rw [hread, Option.getD_some] at hmade
    have hlate : ¬ (cutoff now days).toMillis.le (t 0) = true := by
      rw [Instant.le_iff] at hnow ⊢
      simp only [cutoff, Instant.toMillis, t] at hnow ⊢
      omega
    rw [isOld, hmade, Bool.not_eq_true', Bool.eq_false_iff]
    exact hlate
  refine ⟨hh, rfl, hclock, (cleanup_keeps_young_jobs hh rfl hclock ⟨0⟩).mono ?_⟩
  rintro r u s' ⟨hok, -⟩ hr
  obtain ⟨d, now, ⟨a, -, ha, hd⟩, hdone, hcounter⟩ := hok hr
  have hdays : max d 1 ≤ 30 := by
    have hint := (int_eq_iff a 30 d).2 hd
    rcases ha with rfl | ⟨e, rfl⟩
    · have hvalue : Answer.int (.ok (s.setting? retentionDaysKey)) 30 = -2 := by decide
      omega
    · have hvalue : Answer.int (.error e) 30 = 30 := rfl
      omega
  have hcount : oldJobs s now (max d 1) = 1 :=
    List.countP_eq_length.2 fun row hrow => hold row hrow now _ hdone.began hdays
  rw [hcount] at hcounter
  refine ⟨?_, hcounter 0 rfl (by decide)⟩
  rw [hdone.removed, List.filter_eq_nil_iff]
  intro row hrow
  rw [hold row hrow now _ hdone.began hdays]
  exact Bool.false_ne_true

end CatalogSync.Schedule
