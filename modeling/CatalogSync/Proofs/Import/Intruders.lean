import CatalogSync.Proofs.Import.Status
import CatalogSync.Proofs.Import.Success
import CatalogSync.Proofs.Program.Alone
import CatalogSync.Proofs.Server.Deeds

/-!
# Imports that find the lock taken

Calls that ask for an import of a dataset while another has the lock are turned away. They do so little that they can be
left out of a run: the one that has the lock goes the same way without them, on a server that differs in nothing but
their jobs and the metrics.

Main statement: `intruders_touch_only_their_jobs`.
-/

namespace CatalogSync.Import

open CatalogSync.Ledger CatalogSync.Program CatalogSync.Server CatalogSync.Time

/-! ## A call that is turned away -/

/-- What a call with a job does if it is turned away. -/
def Dismissive (job : Int) : Event → Prop
  | ⟨.now, _⟩ => True
  | ⟨.lock _, free⟩ => free = false
  | ⟨.failJob id message, _⟩ => id = job ∧ message = Failure.alreadyRunning.message
  | ⟨.record _, _⟩ => True
  | _ => False

/-- What a call with a job asks when it has been turned away. -/
def AsksAfter (job : Int) : Ask → Prop
  | .now => True
  | .failJob id message => id = job ∧ message = Failure.alreadyRunning.message
  | .record _ => True
  | _ => False

section Call

variable {setup : Setup} {dataset : Dataset} {job : Int} {token : Token} {t : List Event}
  {r : Program (Except Failure Summary)}

theorem dismissive_snoc (h : ∀ e ∈ t, Dismissive job e) {e : Event} (he : Dismissive job e) :
    ∀ d ∈ t ++ [e], Dismissive job d := by
  intro d hd
  rcases List.mem_append.1 hd with hold | hnew
  · exact h d hold
  · rw [List.mem_singleton.1 hnew]
    exact he

/-- A call that has not been given the lock does as one that is turned away, and if it has ended it has failed its job and
returned that another import is running. -/
theorem path_dismissed (h : Path (downloadAndImport setup dataset job token) t r) (hlock : ⟨.lock dataset, true⟩ ∉ t) :
    (∀ e ∈ t, Dismissive job e) ∧ ∀ outcome, r = .done outcome →
      outcome = .error .alreadyRunning ∧ ∃ a, ⟨.failJob job Failure.alreadyRunning.message, a⟩ ∈ t := by
  -- In a world that never gives the lock, the call is followed question by question.
  have hsafe : (downloadAndImport setup dataset job token).Safe (World.free (· ≠ ⟨.lock dataset, true⟩))
      (fun t _ => ∀ e ∈ t, Dismissive job e)
      (fun outcome t _ => outcome = .error .alreadyRunning ∧ ∃ a, ⟨.failJob job Failure.alreadyRunning.message, a⟩ ∈ t)
      [] () := by
    have hstart : ∀ e ∈ ([] : List Event), Dismissive job e := fun e he => absurd he List.not_mem_nil
    refine .ask hstart fun started _ => ?_
    have hstarted := dismissive_snoc (e := ⟨.now, started⟩) hstart trivial
    have hrefused : (underLock dataset (importNow setup dataset job token)).Safe (World.free (· ≠ ⟨.lock dataset, true⟩))
        (fun t _ => ∀ e ∈ t, Dismissive job e)
        (fun outcome t _ => outcome = .error .alreadyRunning ∧ ∀ e ∈ t, Dismissive job e) ([] ++ [⟨.now, started⟩]) () := by
      refine .ask hstarted fun free hfree => ?_
      cases free with
      | true => exact absurd rfl hfree
      | false =>
        have hlocked := dismissive_snoc (e := ⟨.lock dataset, false⟩) hstarted rfl
        exact .end hlocked ⟨rfl, hlocked⟩
    refine hrefused.bind ?_
    rintro _ t - ⟨rfl, ht⟩
    refine .ask ht fun stopped _ => ?_
    have hstopped := dismissive_snoc (e := ⟨.now, stopped⟩) ht trivial
    refine .ask hstopped fun failed _ => ?_
    have hfailed := dismissive_snoc (e := ⟨.failJob job Failure.alreadyRunning.message, failed⟩) hstopped ⟨rfl, rfl⟩
    refine .ask hfailed fun _ _ => ?_
    exact .end (dismissive_snoc hfailed trivial) ⟨rfl, failed, by simp⟩
  have hpossible : ∀ e ∈ t, e ≠ ⟨.lock dataset, true⟩ := by
    rintro e he rfl
    exact hlock he
  have hdone := h.safe hpossible hsafe
  refine ⟨hdone.holds, ?_⟩
  rintro outcome rfl
  exact hdone.done

/-- What is left of a call that has asked for the lock and has not been given it. -/
theorem rest_dismissed (h : Path (downloadAndImport setup dataset job token) t r) (hlock : ⟨.lock dataset, true⟩ ∉ t)
    (hasked : ⟨.lock dataset, false⟩ ∈ t) : r.All (AsksAfter job) fun outcome => outcome = .error .alreadyRunning := by
  change Path (.ask .now _) t r at h
  cases h with
  | here => cases hasked
  | @step _ _ started _ u hnext =>
    change Path (.ask (.lock dataset) _) u r at hnext
    have hasked' : ⟨.lock dataset, false⟩ ∈ u := by
      rcases List.mem_cons.1 hasked with hfirst | hlater
      · cases hfirst
      · exact hlater
    cases hnext with
    | here => cases hasked'
    | @step _ _ free _ v hrest =>
      cases free with
      | true => exact absurd (by simp) hlock
      | false =>
        have hall : (do
            let stopped : Instant ← Program.call .now
            settle dataset job (.error .alreadyRunning) ⟨(stopped.since started).toNat⟩
            return .error .alreadyRunning : Program (Except Failure Summary)).All (AsksAfter job)
              fun outcome => outcome = .error .alreadyRunning := by
          refine .call trivial fun stopped => .call ⟨rfl, rfl⟩ fun failed => ?_
          exact .call trivial fun _ => .pure rfl
        exact (Path.all hrest hall).2

theorem asksAfter_answered {q : Ask} (hq : AsksAfter job q) (s : Server) : ∃ a s', alone.answers s q a s' := by
  cases q with
  | now => exact ⟨s.clock, s, .inl rfl⟩
  | failJob id message => exact ⟨_, _, .inl rfl⟩
  | record event => exact ⟨(), _, .inl rfl⟩
  | _ => cases hq

end Call

/-! ## Calls while another has the lock -/

section Lock

variable {ι : Type} {setup : Setup} {dataset : Dataset} {jobs : ι → Int} {tokens : ι → Token} {s s' : Server}
  {t u v : List (ι × Event)} {rs : ι → Program (Except Failure Summary)} {i j : ι}

/-- A call has been given the lock, and has not given it back. -/
def HasLock (dataset : Dataset) (j : ι) (t : List (ι × Event)) : Prop :=
  (j, ⟨.lock dataset, true⟩) ∈ t ∧ (j, ⟨.unlock dataset, ()⟩) ∉ t

/-- Whoever else asks for the lock does so while a call has it. -/
def OthersIntrude (dataset : Dataset) (j : ι) (t : List (ι × Event)) : Prop :=
  ∀ u v i free, t = u ++ (i, ⟨.lock dataset, free⟩) :: v → i ≠ j → HasLock dataset j u

theorem OthersIntrude.left (h : OthersIntrude dataset j (u ++ v)) : OthersIntrude dataset j u := by
  rintro w x i free rfl hi
  exact h w (x ++ v) i free (by simp) hi

variable [DecidableEq ι]

/-- The lock is not given to others. By induction on the end of the run: up to there nobody else has had it, so that
nobody else has given it back. -/
theorem intruders_refused (hrun : Together alone (calls setup dataset jobs tokens) s t rs s')
    (h : OthersIntrude dataset j t) (hi : i ≠ j) : (i, ⟨.lock dataset, true⟩) ∉ t := by
  induction t using List.reverseRecOn generalizing i rs s' with
  | nil => exact List.not_mem_nil
  | append_singleton u e ih =>
    obtain ⟨qs, m, hfirst, hlast⟩ := hrun.split
    intro hmem
    rcases List.mem_append.1 hmem with hold | hnew
    · exact ih hfirst h.left hi hold
    · obtain rfl : (i, ⟨.lock dataset, true⟩) = e := List.mem_singleton.1 hnew
      -- The one that was given the lock has not given it back, and by the induction nobody else could.
      obtain ⟨hgranted, hkept⟩ := h u [] i true rfl hi
      have hunlock : ∀ e ∈ u.map Prod.snd, e.1 ≠ .unlock dataset := by
        intro e he hq
        obtain ⟨⟨k, q, a⟩, hk, rfl⟩ := List.mem_map.1 he
        obtain rfl : q = .unlock dataset := hq
        by_cases hkj : k = j
        · subst hkj
          exact hkept hk
        · have hnone : ⟨.lock dataset, true⟩ ∉ own k u := fun hown => ih hfirst h.left hkj (mem_own_iff.1 hown)
          have hturned := (path_dismissed (hfirst.path k) hnone).1 _ (mem_own_iff.2 hk)
          exact hturned
      have hlocked := locked_of_granted hfirst.takes (List.mem_map.2 ⟨_, hgranted, rfl⟩) hunlock
      exact Bool.noConfusion (refused_of_locked hlast.takes hlocked)

/-- Every other call does as one that is turned away. -/
theorem intruders_dismissed (hrun : Together alone (calls setup dataset jobs tokens) s t rs s')
    (h : OthersIntrude dataset j t) (hi : i ≠ j) {e : Event} (he : (i, e) ∈ t) : Dismissive (jobs i) e := by
  have hnone : ⟨.lock dataset, true⟩ ∉ own i t := fun hown => intruders_refused hrun h hi (mem_own_iff.1 hown)
  exact (path_dismissed (hrun.path i) hnone).1 e (mem_own_iff.2 he)

end Lock

/-! ## Rows of jobs -/

/-- The questions that are about jobs are about such jobs. -/
def OfJobs (P : Int → Prop) : Ask → Prop
  | .createJob _ _ => False
  | .cleanJobs _ => False
  | .startJob id => P id
  | .completeJob id => P id
  | .failJob id _ => P id
  | .publish id _ => P id
  | _ => True

/-- The questions that are about jobs are about one job. -/
abbrev OwnJob (job : Int) (q : Ask) : Prop := OfJobs (· = job) q

/-- A row as its job fails because another import is running. -/
def refusedRow (now : Instant) (r : Row) : Row :=
  { r with
    status := JobStatus.failed.name
    error := some Failure.alreadyRunning.message
    completedAt := some now.stamp
    updatedAt := now.stamp }

section Rows

variable {setup : Setup} {dataset : Dataset} {job other : Int} {token : Token} {s s' : Server} {q : Ask} {a : q.Answer}

theorem ownJob_of_isOfRun (hq : isOfRun job q = true) : OwnJob job q := by
  cases q with
  | publish id metadata => exact (of_decide_eq_true hq : id = job)
  | _ => first | exact trivial | exact Bool.noConfusion hq

theorem import_ownJob (setup : Setup) (dataset : Dataset) (job : Int) (token : Token) :
    (downloadAndImport setup dataset job token).All (OwnJob job) fun _ => True := by
  refine .call trivial fun started => .bind (.call trivial fun free => ?_) fun outcome (_ : True) => ?_
  · cases free with
    | false => exact .pure trivial
    | true =>
      refine .bind (importNow_all (fun q => ownJob_of_isOfRun) trivial rfl setup token) fun _ _ => ?_
      exact .call trivial fun _ => .pure trivial
  · have hsettle : ∀ elapsed, (settle dataset job outcome elapsed).All (OwnJob job) fun _ => True := by
      intro elapsed
      apply settle_all <;> intros <;> first | rfl | trivial
    exact .call trivial fun stopped => .bind (hsettle _) fun _ _ => .pure trivial

theorem keepsJobs_of_ownJob (hq : OwnJob job q) : keepsJobs q = true := by
  cases q <;> first | rfl | exact False.elim hq

theorem OfJobs.mono {P Q : Int → Prop} (hq : OfJobs P q) (h : ∀ id, P id → Q id) : OfJobs Q q := by
  cases q <;> first | trivial | exact h _ hq

/-- A row is left alone by questions about other jobs. -/
theorem row_of_others (hq : OfJobs (other ≠ ·) q) (h : alone.answers s q a s') :
    s'.ledger.find? other = s.ledger.find? other := by
  by_cases hnote : isNote q = true
  · rcases alone_note hnote h with ⟨-, rfl⟩ | ⟨n, hanswer, rfl, -⟩
    · rfl
    · cases q with
      | createJob | cleanJobs => cases hq
      | startJob id =>
        cases hanswer
        exact find?_modify_of_ne (fun r => (Row.start_becomes s.clock r).id) s.ledger hq
      | completeJob id =>
        cases hanswer
        exact find?_modify_of_ne (fun r => (Row.finish_becomes s.clock rfl none r).id) s.ledger hq
      | failJob id message =>
        cases hanswer
        exact find?_modify_of_ne (fun r => (Row.finish_becomes s.clock rfl (some message) r).id) s.ledger hq
      | publish id metadata =>
        cases hanswer
        exact find?_modify_of_ne (fun r => (Row.publish_becomes s.clock metadata r).id) s.ledger hq
      | readSetting | writeSetting | record =>
        cases hanswer
        rfl
      | _ => cases hnote
  · have hnotes := (alone_withNotes (Bool.eq_false_iff.2 hnote) h s.notes).2
    exact congrArg (fun n => n.ledger.find? other) hnotes

/-- What an event of a call that is turned away does: nothing but to its own job and to the metrics. -/
theorem alone_dismissive (hq : Dismissive job ⟨q, a⟩) (h : alone.answers s q a s') :
    ∃ l registry, s' = s.withNotes { s.notes with ledger := l, registry } ∧
      ∀ other, other ≠ job → l.find? other = s.ledger.find? other := by
  have hwhole : s = s.withNotes { s.notes with ledger := s.ledger, registry := s.registry } := rfl
  cases q with
  | now =>
    rcases h with h | ⟨hrefuses, -⟩
    · cases h
      exact ⟨_, _, hwhole, fun _ _ => rfl⟩
    · cases hrefuses
  | lock d =>
    obtain rfl : a = false := hq
    rcases h with h | ⟨hrefuses, -⟩
    · obtain ⟨-, rfl⟩ := answer_lock h
      exact ⟨_, _, hwhole, fun _ _ => rfl⟩
    · cases hrefuses
  | failJob id message =>
    obtain ⟨rfl, rfl⟩ := hq
    have hrow : ∀ other, other ≠ id → s'.ledger.find? other = s.ledger.find? other := by
      intro other hne
      have hothers : OfJobs (other ≠ ·) (.failJob id Failure.alreadyRunning.message) := hne
      exact row_of_others hothers h
    rcases alone_note rfl h with ⟨-, rfl⟩ | ⟨n, hanswer, rfl, -⟩
    · exact ⟨_, _, hwhole, fun _ _ => rfl⟩
    · cases hanswer
      exact ⟨_, s.registry, rfl, hrow⟩
  | record event =>
    rcases h with h | ⟨hrefuses, -⟩
    · cases h
      exact ⟨s.ledger, _, rfl, fun _ _ => rfl⟩
    · cases hrefuses
  | _ => cases hq

/-- A pending job fails, and stays failed. -/
theorem finish_pending {r : Row} (hr : r.status = JobStatus.pending.name) (now : Instant) :
    r.finish now .failed (some Failure.alreadyRunning.message) = refusedRow now r := by
  have hopen : r.isOpen = true := by
    unfold Row.isOpen
    rw [hr]
    rfl
  unfold Row.finish
  rw [if_pos hopen]
  rfl

theorem finish_refusedRow (now later : Instant) (r : Row) :
    (refusedRow now r).finish later .failed (some Failure.alreadyRunning.message) = refusedRow now r := by
  have hopen : (refusedRow now r).isOpen = false := by
    show (decide (JobStatus.failed.name = JobStatus.pending.name) ||
      decide (JobStatus.failed.name = JobStatus.inProgress.name)) = false
    decide
  unfold Row.finish
  rw [hopen]
  rfl

/-- But for the event by which its job fails, a call that is turned away has nothing to do with jobs. -/
theorem ofJobs_of_dismissive {P : Int → Prop} (h : Dismissive job ⟨q, a⟩)
    (hne : q ≠ .failJob job Failure.alreadyRunning.message) : OfJobs P q := by
  cases q with
  | failJob id message =>
    obtain ⟨rfl, rfl⟩ := h
    exact absurd rfl hne
  | _ => first | exact trivial | exact False.elim h

theorem find?_fail (h : alone.answers s (.failJob job Failure.alreadyRunning.message) (.ok ()) s') :
    ∃ now, s'.ledger.find? job =
      (s.ledger.find? job).map (Row.finish now .failed (some Failure.alreadyRunning.message)) := by
  rcases alone_note rfl h with ⟨⟨_, hno⟩, -⟩ | ⟨n, hanswer, rfl, -⟩
  · cases hno
  · cases hanswer
    exact ⟨s.clock, find?_modify (fun r => (Row.finish_becomes s.clock rfl _ r).id) s.ledger job⟩

end Rows

section Failed

variable {ι : Type} {jobs : ι → Int} {s s' : Server} {t : List (ι × Event)} {i : ι}

/-- The row of a call that is turned away, while it fails its job: as it was until then, and failed from then on. -/
theorem takes_refusedRow (h : alone.Takes s (t.map Prod.snd) s') (hjobs : ∀ k ≠ i, jobs i ≠ jobs k)
    (hothers : ∀ k ≠ i, ∀ e, (k, e) ∈ t → OwnJob (jobs k) e.1) (hown : ∀ e, (i, e) ∈ t → Dismissive (jobs i) e)
    (hstored : ∀ e, (i, ⟨.failJob (jobs i) Failure.alreadyRunning.message, .error e⟩) ∉ t) {r : Row}
    (hr : r.status = JobStatus.pending.name)
    (hrow : (∃ now, s.ledger.find? (jobs i) = some (refusedRow now r)) ∨ (s.ledger.find? (jobs i) = some r ∧
      ∃ a, (i, ⟨.failJob (jobs i) Failure.alreadyRunning.message, a⟩) ∈ t)) :
    ∃ now, s'.ledger.find? (jobs i) = some (refusedRow now r) := by
  generalize hu : t.map Prod.snd = u at h
  induction h generalizing t with
  | start =>
    obtain rfl := List.map_eq_nil_iff.1 hu
    rcases hrow with hrow | ⟨-, a, hmem⟩
    · exact hrow
    · cases hmem
  | @stir s m _ _ hstir _ ih =>
    have hledger : m.ledger = s.ledger := congrArg Notes.ledger (Meantime.notes hstir)
    refine ih hothers hown hstored ?_ hu
    rw [hledger]
    exact hrow
  | @answer s m s' q a u hans _ ih =>
    obtain ⟨⟨k, e⟩, t, rfl, he, rfl⟩ := List.map_eq_cons_iff.1 hu
    obtain rfl : e = ⟨q, a⟩ := he
    refine ih (fun k hk e he => hothers k hk e (List.mem_cons_of_mem _ he)) (fun e he => hown e (List.mem_cons_of_mem _ he))
      (fun e he => hstored e (List.mem_cons_of_mem _ he)) ?_ rfl
    by_cases hfails : k = i ∧ q = .failJob (jobs i) Failure.alreadyRunning.message
    · -- the event by which the job fails
      obtain ⟨rfl, rfl⟩ := hfails
      cases a with
      | error e => exact absurd List.mem_cons_self (hstored e)
      | ok =>
        obtain ⟨now, hfailed⟩ := find?_fail hans
        left
        rcases hrow with ⟨before, hbefore⟩ | ⟨hbefore, -⟩
        · rw [hbefore, Option.map_some, finish_refusedRow] at hfailed
          exact ⟨before, hfailed⟩
        · rw [hbefore, Option.map_some, finish_pending hr] at hfailed
          exact ⟨now, hfailed⟩
    · have hquestion : OfJobs (jobs i ≠ ·) q := by
        by_cases hk : k = i
        · subst hk
          exact ofJobs_of_dismissive (hown _ List.mem_cons_self) fun hq => hfails ⟨rfl, hq⟩
        · exact (hothers k hk _ List.mem_cons_self).mono fun id hid => by rw [hid]; exact hjobs k hk
      have hsame := row_of_others hquestion hans
      rw [hsame]
      rcases hrow with hrow | ⟨hbefore, b, hmem⟩
      · exact .inl hrow
      · right
        refine ⟨hbefore, b, ?_⟩
        rcases List.mem_cons.1 hmem with hfirst | hlater
        · cases hfirst
          exact absurd ⟨rfl, rfl⟩ hfails
        · exact hlater

end Failed

/-! ## The run without the others -/

/-- The same notes but for the metrics and the rows of some jobs. -/
structure Apart (spared : Int → Prop) (n m : Notes) : Prop where
  settings : m.settings = n.settings
  published : m.published = n.published
  rows : ∀ id, ¬ spared id → m.ledger.find? id = n.ledger.find? id

section Without

variable {spared : Int → Prop} {n m : Notes}

theorem Apart.modify (h : Apart spared n m) {f : Row → Row} (hf : ∀ r, (f r).id = r.id) (job : Int) :
    Apart spared { n with ledger := n.ledger.modify job f } { m with ledger := m.ledger.modify job f } := by
  refine ⟨h.settings, h.published, fun id hid => ?_⟩
  show (m.ledger.modify job f).find? id = (n.ledger.modify job f).find? id
  by_cases hjob : id = job
  · subst hjob
    rw [find?_modify hf, find?_modify hf, h.rows id hid]
  · rw [find?_modify_of_ne hf _ hjob, find?_modify_of_ne hf _ hjob, h.rows id hid]

theorem Apart.answer (h : Apart spared n m) {q : Ask} {a : q.Answer} (hq : keepsJobs q = true) {now : Instant} {n' : Notes}
    (hanswer : n.answer now q = some (a, n')) : ∃ m', m.answer now q = some (a, m') ∧ Apart spared n' m' := by
  cases q with
  | createJob | cleanJobs => cases hq
  | readSetting key =>
    obtain ⟨rfl, hread⟩ := Notes.answer_readSetting (congrArg (Text.Dict.find? · key) h.settings) hanswer
    exact ⟨m, hread, h⟩
  | writeSetting key value =>
    cases hanswer
    exact ⟨_, rfl, congrArg (Text.Dict.put · key value) h.settings, h.published, h.rows⟩
  | startJob id =>
    cases hanswer
    exact ⟨_, rfl, h.modify (fun r => (Row.start_becomes now r).id) id⟩
  | completeJob id =>
    cases hanswer
    exact ⟨_, rfl, h.modify (fun r => (Row.finish_becomes now rfl none r).id) id⟩
  | failJob id message =>
    cases hanswer
    exact ⟨_, rfl, h.modify (fun r => (Row.finish_becomes now rfl (some message) r).id) id⟩
  | publish id metadata =>
    cases hanswer
    have hrows := h.modify (fun r => (Row.publish_becomes now metadata r).id) id
    exact ⟨_, rfl, h.settings, congrArg (List.cons metadata) h.published, hrows.rows⟩
  | record event =>
    cases hanswer
    exact ⟨_, rfl, h.settings, h.published, h.rows⟩
  | _ => cases hanswer

theorem Apart.dismissive {s s' : Server} {job : Int} {q : Ask} {a : q.Answer} (h : Apart spared s.notes n)
    (hjob : spared job) (hq : Dismissive job ⟨q, a⟩) (hans : alone.answers s q a s') :
    s'.withNotes n = s.withNotes n ∧ Apart spared s'.notes n := by
  obtain ⟨l, registry, rfl, hrows⟩ := alone_dismissive hq hans
  refine ⟨rfl, h.settings, h.published, fun id hid => ?_⟩
  have hne : id ≠ job := by
    rintro rfl
    exact hid hjob
  show n.ledger.find? id = l.find? id
  rw [hrows id hne]
  exact h.rows id hid

variable {ι : Type} [DecidableEq ι] {jobs : ι → Int} {s s' : Server} {t : List (ι × Event)} {j : ι}

/-- **Leaving the others out.** What is left is again a run of the server, which differs in nothing but what the others
have done to their jobs and the metrics. -/
theorem takes_own (h : alone.Takes s (t.map Prod.snd) s') (hown : ∀ e, (j, e) ∈ t → keepsJobs e.1 = true)
    (hothers : ∀ i ≠ j, ∀ e, (i, e) ∈ t → spared (jobs i) ∧ Dismissive (jobs i) e) (hn : Apart spared s.notes n) :
    ∃ n', alone.Takes (s.withNotes n) (own j t) (s'.withNotes n') ∧ Apart spared s'.notes n' := by
  generalize hu : t.map Prod.snd = u at h
  induction h generalizing t n with
  | start =>
    obtain rfl := List.map_eq_nil_iff.1 hu
    exact ⟨n, .start _, hn⟩
  | stir hstir _ ih =>
    rw [← Meantime.notes hstir] at hn
    obtain ⟨n', htakes, hapart⟩ := ih hown hothers hn hu
    exact ⟨n', .stir (Meantime.withNotes hstir n) htakes, hapart⟩
  | @answer s m s' q a u hans _ ih =>
    obtain ⟨⟨i, e⟩, t, rfl, he, rfl⟩ := List.map_eq_cons_iff.1 hu
    obtain rfl : e = ⟨q, a⟩ := he
    -- An event of the one that is left happens again; one of another is passed over, as it changed no more than is spared.
    have hown' : ∀ e, (j, e) ∈ t → keepsJobs e.1 = true := fun e he => hown e (List.mem_cons_of_mem _ he)
    have hothers' : ∀ i ≠ j, ∀ e, (i, e) ∈ t → spared (jobs i) ∧ Dismissive (jobs i) e :=
      fun i hi e he => hothers i hi e (List.mem_cons_of_mem _ he)
    by_cases hi : i = j
    · subst hi
      obtain ⟨k, hans', hk⟩ := alone_again (fun _ _ _ _ hapart => hapart.answer (hown _ List.mem_cons_self)) hans hn
      obtain ⟨n', htakes, hapart⟩ := ih hown' hothers' hk rfl
      rw [own_cons_self]
      exact ⟨n', .answer hans' htakes, hapart⟩
    · obtain ⟨hspared, hdismissive⟩ := hothers i hi _ List.mem_cons_self
      obtain ⟨hsame, hk⟩ := hn.dismissive hspared hdismissive hans
      obtain ⟨n', htakes, hapart⟩ := ih hown' hothers' hk rfl
      rw [own_cons_of_ne hi, ← hsame]
      exact ⟨n', htakes, hapart⟩

/-- What is done is done by the one who is left. -/
theorem deeds_own {job : Int} (hothers : ∀ i ≠ j, ∀ e, (i, e) ∈ t → jobs i ≠ job ∧ Dismissive (jobs i) e) (d : Deeds) :
    (t.map Prod.snd).foldl (Deeds.after job) d = (own j t).foldl (Deeds.after job) d := by
  induction t generalizing d with
  | nil => rfl
  | cons e t ih =>
    obtain ⟨i, q, a⟩ := e
    have hrest := ih fun i hi e he => hothers i hi e (List.mem_cons_of_mem _ he)
    rw [List.map_cons, List.foldl_cons, hrest]
    by_cases hi : i = j
    · subst hi
      rw [own_cons_self, List.foldl_cons]
    · obtain ⟨hne, hdismissive⟩ := hothers i hi _ List.mem_cons_self
      have hnothing : d.after job ⟨q, a⟩ = d := by
        cases q with
        | failJob id message =>
          obtain ⟨rfl, -⟩ := hdismissive
          cases a with
          | error e => rfl
          | ok =>
            show d.changeRow (decide (jobs i = job)) _ = d
            rw [decide_eq_false hne]
            rfl
        | _ => first | rfl | exact False.elim hdismissive
      rw [own_cons_of_ne hi]
      exact congrArg (fun d => (own j t).foldl (Deeds.after job) d) hnothing

end Without

/-! ## Intruders -/

section Main

variable {ι : Type} [DecidableEq ι] {setup : Setup} {dataset : Dataset} {jobs : ι → Int} {tokens : ι → Token}
  {s s' : Server} {t : List (ι × Event)} {rs : ι → Program (Except Failure Summary)} {i j : ι}

theorem calls_ownJob (hrun : Together alone (calls setup dataset jobs tokens) s t rs s') {e : Event} (he : (i, e) ∈ t) :
    OwnJob (jobs i) e.1 :=
  ((hrun.path i).all (import_ownJob setup dataset (jobs i) (tokens i))).1 e (mem_own_iff.2 he)

/-- What becomes of a call that asks for the lock while another has it: once it has asked it can be brought to its end, and
whenever it has ended it has returned that another import is running and, if the ledger took it, has failed its pending
job with the text of this error. -/
structure Repelled (dataset : Dataset) (jobs : ι → Int) (s : Server) (t : List (ι × Event))
    (rs : ι → Program (Except Failure Summary)) (s' : Server) (i : ι) : Prop where
  ends : (∃ free, (i, ⟨.lock dataset, free⟩) ∈ t) → ∃ v qs s'', Together alone rs s' v qs s'' ∧
    (∀ e ∈ v, e.1 = i) ∧ qs i = .done (.error .alreadyRunning)
  outcome : ∀ outcome, rs i = .done outcome → outcome = .error .alreadyRunning
  row : ∀ outcome, rs i = .done outcome → ∀ r, s.ledger.find? (jobs i) = some r →
    r.status = JobStatus.pending.name →
    (∀ e, (i, ⟨.failJob (jobs i) Failure.alreadyRunning.message, .error e⟩) ∉ t) →
    ∃ now, s'.ledger.find? (jobs i) = some (refusedRow now r)

theorem intruders_repelled (hjobs : jobs.Injective)
    (hrun : Together alone (calls setup dataset jobs tokens) s t rs s') (hintrude : OthersIntrude dataset j t)
    (hi : i ≠ j) : Repelled dataset jobs s t rs s' i := by
  have hnone : ⟨.lock dataset, true⟩ ∉ own i t := fun hown => intruders_refused hrun hintrude hi (mem_own_iff.1 hown)
  have hpath := hrun.path i
  constructor
  · rintro ⟨free, hasked⟩
    have hfree : free = false := intruders_dismissed hrun hintrude hi hasked
    subst hfree
    have hall := rest_dismissed hpath hnone (mem_own_iff.2 hasked)
    obtain ⟨u, outcome, s'', hreaches, rfl⟩ := hall.finishes (fun q => asksAfter_answered) s'
    refine ⟨u.map fun e => (i, e), Function.update rs i (.done (.error .alreadyRunning)), s'',
      Together.of_reaches rs i hreaches rfl, ?_, Function.update_self ..⟩
    intro e he
    obtain ⟨d, -, rfl⟩ := List.mem_map.1 he
    rfl
  · intro outcome hdone
    exact ((path_dismissed hpath hnone).2 outcome hdone).1
  · intro outcome hdone r hr hpending hstored
    obtain ⟨-, a, hfailed⟩ := (path_dismissed hpath hnone).2 outcome hdone
    have hne : ∀ k ≠ i, jobs i ≠ jobs k := fun k hk hsame => hk (hjobs hsame).symm
    have hrow : s.ledger.find? (jobs i) = some r ∧
        ∃ a, (i, ⟨.failJob (jobs i) Failure.alreadyRunning.message, a⟩) ∈ t := ⟨hr, a, mem_own_iff.1 hfailed⟩
    exact takes_refusedRow hrun.takes hne (fun k _ e he => calls_ownJob hrun he)
      (fun e he => intruders_dismissed hrun hintrude hi he) hstored hpending (.inr hrow)

/-- **Intruders touch only their jobs.** Let calls of one dataset run side by side, each with a job of its own, and let
whoever asks for the lock besides one of them do so while that one has it. However many these are, and whenever they come:
each is repelled, and the one goes the same way without them. There is a run of it by itself, with the same questions and
answers and to the same result, after which the server differs in nothing but the metrics and the rows of the others'
jobs; and however a run of it by itself with these questions and answers goes, it comes to the same result and leaves the
same catalog, files, settings, published metadata and row of its job, but for the clock readings. -/
theorem intruders_touch_only_their_jobs (hjobs : jobs.Injective)
    (hrun : Together alone (calls setup dataset jobs tokens) s t rs s') (hintrude : OthersIntrude dataset j t) :
    (∀ i ≠ j, Repelled dataset jobs s t rs s' i) ∧
      (∃ n, Reaches alone (downloadAndImport setup dataset (jobs j) (tokens j)) s (own j t) (rs j) (s'.withNotes n) ∧
        Apart (fun id => ∃ i ≠ j, id = jobs i) s'.notes n) ∧
      ∀ r s'', Reaches alone (downloadAndImport setup dataset (jobs j) (tokens j)) s (own j t) r s'' →
        r = rs j ∧ s''.deeds (jobs j) = s'.deeds (jobs j) := by
  have hown : ∀ e, (j, e) ∈ t → keepsJobs e.1 = true := fun e he => keepsJobs_of_ownJob (calls_ownJob hrun he)
  refine ⟨fun i hi => intruders_repelled hjobs hrun hintrude hi, ?_, ?_⟩
  · have hothers : ∀ i ≠ j, ∀ e, (i, e) ∈ t → (∃ k ≠ j, jobs i = jobs k) ∧ Dismissive (jobs i) e :=
      fun i hi e he => ⟨⟨i, hi, rfl⟩, intruders_dismissed hrun hintrude hi he⟩
    have hsame : Apart (fun id => ∃ i ≠ j, id = jobs i) s.notes s.notes := ⟨rfl, rfl, fun _ _ => rfl⟩
    obtain ⟨n, htakes, hapart⟩ := takes_own hrun.takes hown hothers hsame
    exact ⟨n, reaches_iff.2 ⟨hrun.path j, htakes⟩, hapart⟩
  · intro r s'' hreaches
    obtain ⟨hpath, htakes⟩ := reaches_iff.1 hreaches
    have hothers : ∀ i ≠ j, ∀ e, (i, e) ∈ t → jobs i ≠ jobs j ∧ Dismissive (jobs i) e :=
      fun i hi e he => ⟨fun hsame => hi (hjobs hsame), intruders_dismissed hrun hintrude hi he⟩
    have hkeeps : ∀ e ∈ t.map Prod.snd, keepsJobs e.1 = true := by
      intro e he
      obtain ⟨⟨i, d⟩, hmem, rfl⟩ := List.mem_map.1 he
      exact keepsJobs_of_ownJob (calls_ownJob hrun hmem)
    refine ⟨(hrun.path j).unique hpath, ?_⟩
    rw [takes_deeds hrun.takes hkeeps, takes_deeds htakes fun e he => hown e (mem_own_iff.1 he), deeds_own hothers]

end Main

/-! ## One intruder -/

theorem othersIntrude_of_parts {ι : Type} {dataset : Dataset} {j : ι} {a m c : List (ι × Event)}
    (hgranted : (j, ⟨.lock dataset, true⟩) ∈ a) (hkept : (j, ⟨.unlock dataset, ()⟩) ∉ a ++ m)
    (ha : ∀ e ∈ a, e.1 = j) (hc : ∀ e ∈ c, e.1 = j) : OthersIntrude dataset j (a ++ (m ++ c)) := by
  intro u v i free hsplit hi
  rcases List.append_eq_append_iff.1 hsplit with ⟨w, rfl, hrest⟩ | ⟨w, rfl, hrest⟩
  · refine ⟨List.mem_append_left w hgranted, fun hmem => hkept ?_⟩
    rcases List.append_eq_append_iff.1 hrest with ⟨x, rfl, hlast⟩ | ⟨x, rfl, -⟩
    · exact absurd (hc (i, ⟨.lock dataset, free⟩) (by rw [hlast]; simp)) hi
    · rw [← List.append_assoc]
      exact List.mem_append_left x hmem
  · cases w with
    | nil =>
      rw [List.append_nil] at hgranted
      refine ⟨hgranted, fun hmem => hkept ?_⟩
      rw [List.append_nil]
      exact List.mem_append_left m hmem
    | cons e w =>
      obtain ⟨rfl, -⟩ := List.cons.inj hrest
      exact absurd (ha (i, ⟨.lock dataset, free⟩) (by simp)) hi

/-- A server with two pending jobs for cards, that knows a directory of feeds. -/
def twoPending : Server :=
  { busyServer ⟨[Row.fresh default 1 .cardImport (Progress.start .cards).toJson,
      Row.fresh default 2 .cardImport (Progress.start .cards).toJson]⟩ {} with locked := [] }

/-- The first call takes the lock, and the second is turned away before the first goes on. -/
def intrusion : List (Fin 2 × Event) :=
  ((mixedEvents 1 0 default).take 2).map (fun e => (0, e)) ++ ((refusedEvents .cards 2 default).map (fun e => (1, e)) ++
    ((mixedEvents 1 0 default).drop 2).map fun e => (0, e))

def intrusionEnds : Fin 2 → Program (Except Failure Summary)
  | 0 => .done (.ok (.ofProgress mixedProgress))
  | 1 => .done (.error .alreadyRunning)

theorem intrusion_runs :
    ∃ s', Together alone (calls lenient .cards jobOf fun _ => ⟨0⟩) twoPending intrusion intrusionEnds s' := by
  obtain ⟨s', hrest⟩ := mixedEvents_rest (Ledger.fail default 2 Failure.alreadyRunning.message twoPending.ledger)
    (Metrics.Registry.record {} (.importRun Dataset.cards.key Failure.alreadyRunning.kind ⟨0⟩))
  refine ⟨s', together_iff.2 ⟨fun i => ?_, ?_⟩⟩
  · match i with
    | 0 => exact mixedEvents_path 1 0 default
    | 1 => exact refusedEvents_path lenient .cards 2 ⟨0⟩ default
  · exact .answer (q := .now) (.inl rfl) <| .answer (q := .lock _) (.inl rfl) <| .answer (q := .now) (.inl rfl) <|
      .answer (q := .lock _) (.inl rfl) <| .answer (q := .now) (.inl rfl) <| .answer (q := .failJob _ _) (.inl rfl) <|
      .answer (q := .record _) (.inl rfl) hrest

theorem intrusion_intrudes : OthersIntrude .cards 0 intrusion := by
  apply othersIntrude_of_parts
  · exact .tail _ (.head _)
  · intro hmem
    rcases List.mem_append.1 hmem with hfirst | hsecond
    · obtain ⟨e, hmem, he⟩ := List.mem_map.1 hfirst
      cases he
      rcases List.mem_pair.1 hmem with h | h
      · cases h
      · cases h
    · obtain ⟨e, -, he⟩ := List.mem_map.1 hsecond
      cases he
  · intro e he
    obtain ⟨d, -, rfl⟩ := List.mem_map.1 he
    rfl
  · intro e he
    obtain ⟨d, -, rfl⟩ := List.mem_map.1 he
    rfl

theorem intrusion_stored (e : StoreError) :
    (1, ⟨.failJob 2 Failure.alreadyRunning.message, .error e⟩) ∉ intrusion := by
  intro hmem
  have hown : own 1 intrusion = refusedEvents .cards 2 default := rfl
  have hrefused := mem_own_iff.2 hmem
  rw [hown] at hrefused
  unfold refusedEvents at hrefused
  simp only [List.mem_cons, List.not_mem_nil, or_false] at hrefused
  rcases hrefused with h | h | h | h | h
  all_goals cases h

/-- The second call fails its job, and the first goes to the same success without it. -/
theorem success_despite_intruder :
    ∃ s' n, Together alone (calls lenient .cards jobOf fun _ => ⟨0⟩) twoPending intrusion intrusionEnds s' ∧
      (∃ now, s'.ledger.find? 2 =
        some (refusedRow now (Row.fresh default 2 .cardImport (Progress.start .cards).toJson))) ∧
      Reaches alone (downloadAndImport lenient .cards 1 ⟨0⟩) twoPending (mixedEvents 1 0 default)
        (.done (.ok (.ofProgress mixedProgress))) (s'.withNotes n) ∧
      n.settings = s'.settings ∧ n.ledger.find? 1 = s'.ledger.find? 1 := by
  obtain ⟨s', hrun⟩ := intrusion_runs
  have hjobs : ∀ i j, jobOf i = jobOf j → i = j := by decide
  obtain ⟨hothers, ⟨n, hreaches, hapart⟩, -⟩ :=
    intruders_touch_only_their_jobs (fun i j h => hjobs i j h) hrun intrusion_intrudes
  have hfailed := (hothers 1 (by decide)).row (.error .alreadyRunning) rfl _ rfl rfl intrusion_stored
  exact ⟨s', n, hrun, hfailed, hreaches, hapart.settings, hapart.rows 1 (by decide)⟩

end CatalogSync.Import
