import CatalogSync.Proofs.Import.Asks
import CatalogSync.Proofs.Program.Together
import CatalogSync.Proofs.Server.World
import CatalogSync.Import.Tracked

/-!
# Who writes the status of a dataset

Imports of one dataset that run side by side contend for its lock and write its status. A `Stage` says how far
a call of `downloadAndImport` has come with the two. A call settles its books after it has given the
lock back, and writes the status then: so another call may hold the lock by that time.

Main statements: `status_written_by` says who may write the status when, and when the one who holds the
lock can rely on it. `settling_overwrites_status` is a run in which it cannot.
-/

namespace CatalogSync.Import

open CatalogSync.Program CatalogSync.Time

/-- The setting with the status of a dataset. -/
abbrev statusKey (dataset : Dataset) : String := Settings.lastUpdateStatusKey dataset.key

/-! ## The stages of a call -/

/-- How far a call has come with the lock and the status. -/
inductive Stage where
  | waiting
  /-- It has the lock, and has not written the status yet. -/
  | granted
  /-- It has the lock, and has written that it is in progress. -/
  | running
  /-- It has given the lock back, and has not written how it ended. -/
  | settling
  | settled
  | refused
deriving DecidableEq, Repr, Inhabited

namespace Stage

def Holds (st : Stage) : Prop := st = granted ∨ st = running

/-- The stage after the lock was asked for. -/
def ofLock (free : Bool) : Stage := if free then granted else refused

/-- What a call may do at a stage, and the stage after it. -/
def next (dataset : Dataset) (st : Stage) : Event → Option Stage
  | ⟨.lock d, free⟩ =>
    if d = dataset ∧ st = waiting then some (ofLock free) else none
  | ⟨.unlock d, _⟩ => if d = dataset ∧ st = running then some settling else none
  | ⟨.writeSetting key value, _⟩ =>
    if key ≠ statusKey dataset then some st
    else if st = granted ∧ value = inProgressStatus then some running
    else if st = settling ∧ (value = successStatus ∨ value = failedStatus) then some settled
    else none
  | _ => some st

/-- What can be done, one case for each. -/
inductive Step (dataset : Dataset) : Stage → Event → Stage → Prop
  | grant : Step dataset waiting ⟨.lock dataset, true⟩ granted
  | refuse : Step dataset waiting ⟨.lock dataset, false⟩ refused
  | begin (a : Stored Unit) : Step dataset granted ⟨.writeSetting (statusKey dataset) inProgressStatus, a⟩ running
  | release : Step dataset running ⟨.unlock dataset, ()⟩ settling
  | settle (value : String) (a : Stored Unit) (hvalue : value = successStatus ∨ value = failedStatus) :
      Step dataset settling ⟨.writeSetting (statusKey dataset) value, a⟩ settled
  | otherSetting (st : Stage) (key value : String) (a : Stored Unit) (hkey : key ≠ statusKey dataset) :
      Step dataset st ⟨.writeSetting key value, a⟩ st
  | aside (st : Stage) (q : Ask) (a : q.Answer) (hq : Server.isAside q = true) : Step dataset st ⟨q, a⟩ st

theorem step_of_next {dataset : Dataset} {st x : Stage} {q : Ask} {a : q.Answer} (h : next dataset st ⟨q, a⟩ = some x) :
    Step dataset st ⟨q, a⟩ x := by
  cases q with
  | lock d =>
    unfold next at h
    dsimp only at h
    split at h
    · next hd =>
      obtain ⟨rfl, rfl⟩ := hd
      cases a with
      | true => cases h; exact .grant
      | false => cases h; exact .refuse
    · cases h
  | unlock d =>
    unfold next at h
    dsimp only at h
    split at h
    · next hd =>
      obtain ⟨rfl, rfl⟩ := hd
      cases h
      exact .release
    · cases h
  | writeSetting key value =>
    unfold next at h
    dsimp only at h
    split at h
    · next hkey =>
      cases h
      exact .otherSetting _ key value a hkey
    · next hkey =>
      obtain rfl := not_not.1 hkey
      split at h
      · next hbegin =>
        obtain ⟨rfl, rfl⟩ := hbegin
        cases h
        exact .begin a
      · split at h
        · next hsettle =>
          obtain ⟨rfl, hvalue⟩ := hsettle
          cases h
          exact .settle value a hvalue
        · cases h
  | _ =>
    cases h
    exact .aside _ _ a rfl

theorem next_aside {dataset : Dataset} (st : Stage) {q : Ask} (a : q.Answer) (hq : Server.isAside q = true) :
    next dataset st ⟨q, a⟩ = some st := by
  cases q <;> first | rfl | exact Bool.noConfusion hq

theorem next_writeSetting {dataset : Dataset} (st : Stage) {key : String} (value : String) (a : Stored Unit)
    (hkey : key ≠ statusKey dataset) : next dataset st ⟨.writeSetting key value, a⟩ = some st := if_pos hkey

theorem next_begin (dataset : Dataset) (a : Stored Unit) :
    next dataset granted ⟨.writeSetting (statusKey dataset) inProgressStatus, a⟩ = some running := by
  simp [next]

theorem next_settle (dataset : Dataset) {value : String} (hvalue : value = successStatus ∨ value = failedStatus)
    (a : Stored Unit) : next dataset settling ⟨.writeSetting (statusKey dataset) value, a⟩ = some settled := by
  simp [next, hvalue]

end Stage

/-! ## What a call does -/

section Call

variable {dataset : Dataset} {job : Int} {st : Stage}

/-- Where a call is after its import: it has given the lock back, or was refused it. -/
def Returned (outcome : Except Failure Summary) (st : Stage) : Prop :=
  (Admitted outcome ∧ st = .settling) ∨ (outcome = .error .alreadyRunning ∧ st = .refused)

theorem isAside_of_isOfRun {q : Ask} (h : isOfRun job q = true) : Server.isAside q = true := by
  cases q <;> first | rfl | exact Bool.noConfusion h

theorem ofRun_follows {α : Type} {gives : α → Prop} {p : Program α} (h : OfRun job gives p) :
    Follows (Stage.next dataset) (fun a st' => gives a ∧ st' = st) p st :=
  All.follows h fun _ a hq => Stage.next_aside st a (isAside_of_isOfRun hq)

theorem aside_follows {α : Type} {post : α → Stage → Prop} {q : Ask} {f : q.Answer → Program α}
    (hq : Server.isAside q = true) (h : ∀ a, Follows (Stage.next dataset) post (f a) st) :
    Follows (Stage.next dataset) post (Program.call q >>= f) st :=
  .aside (fun a => Stage.next_aside st a hq) h

theorem setStatus_follows {α : Type} {post : α → Stage → Prop} {value : String} {st' : Stage} {f : Unit → Program α}
    (hnext : ∀ a : Stored Unit, Stage.next dataset st ⟨.writeSetting (statusKey dataset) value, a⟩ = some st')
    (h : Follows (Stage.next dataset) post (f ()) st') :
    Follows (Stage.next dataset) post (setStatus dataset value >>= f) st :=
  fun a => ⟨st', hnext a, h⟩

theorem run_follows (setup : Setup) (token : Token) :
    Follows (Stage.next dataset) (fun outcome st' => Admitted outcome ∧ st' = st) (run setup dataset job token) st := by
  refine (ofRun_follows (phases_asks setup dataset token)).bind ?_
  rintro ⟨outcome, p⟩ st' ⟨hjudged, rfl⟩
  refine (ofRun_follows (publish_asks job _)).bind ?_
  rintro u st'' ⟨-, rfl⟩
  exact aside_follows rfl fun _ => .pure ⟨hjudged.admitted, rfl⟩

theorem importNow_follows (setup : Setup) (token : Token) :
    Follows (Stage.next dataset) (fun outcome st => Admitted outcome ∧ st = .running)
      (importNow setup dataset job token) .granted := by
  refine setStatus_follows (Stage.next_begin dataset) (aside_follows rfl fun started => ?_)
  cases started with
  | error e => exact .pure ⟨nofun, rfl⟩
  | ok u => exact run_follows setup token

theorem underLock_follows (setup : Setup) (token : Token) :
    Follows (Stage.next dataset) Returned (underLock dataset (importNow setup dataset job token)) .waiting := by
  refine .call fun free => ?_
  cases free with
  | false => exact ⟨.refused, by simp [Stage.next, Stage.ofLock], .pure (.inr ⟨rfl, rfl⟩)⟩
  | true =>
    refine ⟨.granted, by simp [Stage.next, Stage.ofLock], ?_⟩
    refine (importNow_follows setup token).bind ?_
    rintro outcome st ⟨hadmitted, rfl⟩
    exact .call fun _ => ⟨.settling, by simp [Stage.next], .pure (.inl ⟨hadmitted, rfl⟩)⟩

/-- A call that has given the lock back writes how it ended; one that was refused it does not. -/
theorem settle_follows {outcome : Except Failure Summary} (h : Returned outcome st) (elapsed : Span) :
    Follows (Stage.next dataset) (fun _ st => st = .settled ∨ st = .refused) (settle dataset job outcome elapsed)
      st := by
  cases outcome with
  | ok summary =>
    obtain ⟨-, rfl⟩ | ⟨he, -⟩ := h
    · have hkey : Settings.lastUpdateKey dataset.key ≠ statusKey dataset := by
        cases dataset <;> decide
      refine aside_follows rfl fun _ => aside_follows rfl fun now => ?_
      refine .aside (fun a => Stage.next_writeSetting _ now.text a hkey) fun _ => ?_
      refine setStatus_follows (Stage.next_settle dataset (.inl rfl)) (aside_follows rfl fun _ => ?_)
      refine aside_follows rfl fun count => ?_
      cases count with
      | error e => exact .pure (.inl rfl)
      | ok n => exact aside_follows (f := Pure.pure) rfl fun _ => .pure (.inl rfl)
    · cases he
  | error e =>
    refine aside_follows rfl fun _ => .ite (fun hne => ?_) fun he => ?_
    · obtain ⟨-, rfl⟩ | ⟨he, -⟩ := h
      · refine setStatus_follows (Stage.next_settle dataset (.inr rfl)) ?_
        exact aside_follows (f := Pure.pure) rfl fun _ => .pure (.inl rfl)
      · cases he
        exact absurd rfl hne
    · obtain ⟨hadmitted, -⟩ | ⟨-, rfl⟩ := h
      · exact absurd (congrArg _ (not_not.1 he)) hadmitted
      · exact aside_follows (f := Pure.pure) rfl fun _ => .pure (.inr rfl)

theorem downloadAndImport_follows (setup : Setup) (dataset : Dataset) (job : Int) (token : Token) :
    Follows (Stage.next dataset) (fun _ st => st = .settled ∨ st = .refused)
      (downloadAndImport setup dataset job token) .waiting := by
  refine aside_follows rfl fun started => (underLock_follows setup token).bind fun outcome st hreturned => ?_
  exact aside_follows rfl fun stopped => (settle_follows hreturned _).bind fun _ st hend => .pure hend

end Call

/-! ## Calls side by side -/

section Together

variable {ι : Type} [DecidableEq ι] {dataset : Dataset}

abbrev stagesAfter (dataset : Dataset) (t : List (ι × Event)) : ι → Stage :=
  track (Stage.next dataset) (fun _ => .waiting) t

/-- The calls of one dataset, each with a job and a token of its own. -/
abbrev calls (setup : Setup) (dataset : Dataset) (jobs : ι → Int) (tokens : ι → Token) (i : ι) :
    Program (Except Failure Summary) :=
  downloadAndImport setup dataset (jobs i) (tokens i)

/-- At most one call has the lock, and the server knows that it is taken. -/
structure Exclusive (dataset : Dataset) (st : ι → Stage) (s : Server) : Prop where
  locked : ∀ i, (st i).Holds → dataset ∈ s.locked
  one : ∀ i j, (st i).Holds → (st j).Holds → i = j
  writes : Call.writeSetting ∉ s.faults.refused

omit [DecidableEq ι] in
theorem Exclusive.kept {st : ι → Stage} {s s' : Server} (h : Exclusive dataset st s) (hkept : s.Kept s') :
    Exclusive dataset st s' where
  locked i hi := by rw [hkept.locked]; exact h.locked i hi
  one := h.one
  writes := by rw [hkept.refused]; exact h.writes

omit [DecidableEq ι] in
theorem Exclusive.putSetting {st : ι → Stage} {s : Server} (h : Exclusive dataset st s) (key value : String) :
    Exclusive dataset st (s.putSetting key value) := ⟨h.locked, h.one, h.writes⟩

/-- A call that comes no closer to the lock takes nobody's place. -/
theorem Exclusive.update {st : ι → Stage} {s : Server} (h : Exclusive dataset st s) {i : ι} {x : Stage}
    (hx : x.Holds → (st i).Holds) : Exclusive dataset (Function.update st i x) s := by
  have hold : ∀ j, (Function.update st i x j).Holds → (st j).Holds := by
    intro j hj
    by_cases hji : j = i
    · subst hji
      rw [Function.update_self] at hj
      exact hx hj
    · rwa [Function.update_of_ne hji] at hj
  exact ⟨fun j hj => h.locked j (hold j hj), fun j k hj hk => h.one j k (hold j hj) (hold k hk), h.writes⟩

theorem Exclusive.step {st : ι → Stage} {s s' : Server} (h : Exclusive dataset st s) {i : ι} {q : Ask} {a : q.Answer}
    {x : Stage} (hnext : (st i).next dataset ⟨q, a⟩ = some x) (hans : Server.answer q s = some (a, s')) :
    Exclusive dataset (Function.update st i x) s' := by
  have hstep := Stage.step_of_next hnext
  generalize hst : st i = y at hstep
  cases hstep with
  | grant =>
    -- the lock was free, and a call that has it would have it taken
    obtain ⟨hfree, rfl⟩ := Server.answer_lock hans
    have hnobody : ∀ j, ¬ (st j).Holds := fun j hj => hfree (h.locked j hj)
    have honly : ∀ j, (Function.update st i Stage.granted j).Holds → j = i := by
      intro j hj
      by_contra hji
      rw [Function.update_of_ne hji] at hj
      exact hnobody j hj
    refine ⟨fun j _ => List.mem_cons_self, fun j k hj hk => ?_, h.writes⟩
    rw [honly j hj, honly k hk]
  | refuse =>
    obtain ⟨-, rfl⟩ := Server.answer_lock hans
    exact h.update nofun
  | begin =>
    obtain rfl := Server.answer_writeSetting h.writes hans
    exact (h.update fun _ => .inl hst).putSetting _ _
  | release =>
    cases hans
    have hnobody : ∀ j, ¬ (Function.update st i Stage.settling j).Holds := by
      intro j hj
      by_cases hji : j = i
      · subst hji
        rw [Function.update_self] at hj
        exact absurd hj nofun
      · rw [Function.update_of_ne hji] at hj
        exact hji (h.one j i hj (.inr hst))
    exact ⟨fun j hj => absurd hj (hnobody j), fun j k hj _ => absurd hj (hnobody j), h.writes⟩
  | settle =>
    obtain rfl := Server.answer_writeSetting h.writes hans
    have hupdate : Exclusive dataset (Function.update st i .settled) s := h.update nofun
    exact hupdate.putSetting _ _
  | otherSetting =>
    obtain rfl := Server.answer_writeSetting h.writes hans
    exact (h.update fun hx => hst ▸ hx).putSetting _ _
  | aside _ _ _ hq => exact (h.update fun hx => hst ▸ hx).kept (Server.answer_kept hq hans)

/-! ## When the holder can rely on the status -/

/-- A call has given the lock back. -/
def Stage.IsPast (st : Stage) : Prop := st = .settling ∨ st = .settled

theorem Stage.Holds.not_isPast {st : Stage} (h : st.Holds) : ¬ st.IsPast := by
  rintro (rfl | rfl) <;> exact absurd h nofun

/-- Since a call got the lock, no other call has been left to settle, so that the status is its own for as long as
it has the lock. -/
structure Undisturbed (dataset : Dataset) (j : ι) (st : ι → Stage) (s : Server) : Prop where
  exclusive : Exclusive dataset st s
  calm : ¬ (st j).IsPast → (st j).Holds ∧ (∀ i, st i ≠ .settling) ∧
    (st j = .running → s.setting? (statusKey dataset) = some inProgressStatus)

theorem isPast_step {st : ι → Stage} {i j : ι} {q : Ask} {a : q.Answer} {x : Stage}
    (hnext : (st i).next dataset ⟨q, a⟩ = some x) (h : (st j).IsPast) : (Function.update st i x j).IsPast := by
  by_cases hji : j = i
  · subst hji
    rw [Function.update_self]
    have hstep := Stage.step_of_next hnext
    generalize st j = y at hstep h
    cases hstep with
    | grant | refuse | begin | release => exact absurd h nofun
    | settle => exact .inr rfl
    | otherSetting => exact h
    | aside => exact h
  · rwa [Function.update_of_ne hji]

omit [DecidableEq ι] in
theorem Undisturbed.kept {st : ι → Stage} {s s' : Server} {j : ι} (h : Undisturbed dataset j st s)
    (hkept : s.Kept s') : Undisturbed dataset j st s' where
  exclusive := h.exclusive.kept hkept
  calm hnow := by
    unfold Server.setting?
    rw [hkept.settings]
    exact h.calm hnow

theorem Undisturbed.step {st : ι → Stage} {s s' : Server} {i j : ι} {q : Ask} {a : q.Answer} {x : Stage}
    (h : Undisturbed dataset j st s) (hnext : (st i).next dataset ⟨q, a⟩ = some x)
    (hans : Server.answer q s = some (a, s')) : Undisturbed dataset j (Function.update st i x) s' where
  exclusive := h.exclusive.step hnext hans
  calm hnow := by
    have hbefore : ¬ (st j).IsPast := fun hpast => hnow (isPast_step hnext hpast)
    obtain ⟨hholds, hcalm, hstatus⟩ := h.calm hbefore
    have hstep := Stage.step_of_next hnext
    generalize hst : st i = y at hstep
    have hother : ∀ k, k ≠ i → Function.update st i x k ≠ .settling := by
      intro k hk
      rw [Function.update_of_ne hk]
      exact hcalm k
    cases hstep with
    | grant =>
      obtain ⟨hfree, -⟩ := Server.answer_lock hans
      exact absurd (h.exclusive.locked j hholds) hfree
    | refuse =>
      obtain ⟨-, rfl⟩ := Server.answer_lock hans
      have hji : j ≠ i := by
        rintro rfl
        rw [hst] at hholds
        exact absurd hholds nofun
      rw [Function.update_of_ne hji]
      refine ⟨hholds, fun k => ?_, hstatus⟩
      by_cases hk : k = i
      · rw [hk, Function.update_self]
        exact nofun
      · exact hother k hk
    | begin =>
      obtain rfl := h.exclusive.one i j (.inl hst) hholds
      obtain rfl := Server.answer_writeSetting h.exclusive.writes hans
      rw [Function.update_self]
      refine ⟨.inr rfl, fun k => ?_, fun _ => Text.Dict.find?_put_self ..⟩
      by_cases hk : k = i
      · rw [hk, Function.update_self]
        exact nofun
      · exact hother k hk
    | release =>
      obtain rfl := h.exclusive.one i j (.inr hst) hholds
      rw [Function.update_self] at hnow
      exact absurd (.inl rfl) hnow
    -- only here would another call write the status, and none is left to settle
    | settle => exact absurd hst (hcalm i)
    | otherSetting _ _ _ _ hkey =>
      obtain rfl := Server.answer_writeSetting h.exclusive.writes hans
      rw [← hst, Function.update_eq_self]
      refine ⟨hholds, hcalm, fun hrunning => ?_⟩
      exact (Text.Dict.find?_put_of_ne s.settings _ hkey.symm).trans (hstatus hrunning)
    | aside _ _ _ hq =>
      rw [← hst, Function.update_eq_self]
      exact (h.kept (Server.answer_kept hq hans)).calm hbefore

section Runs

variable {setup : Setup} {jobs : ι → Int} {tokens : ι → Token} {s s' : Server} {t u v : List (ι × Event)} {j : ι}
  {rs : ι → Program (Except Failure Summary)}

omit [DecidableEq ι] in
theorem calls_follow (setup : Setup) (dataset : Dataset) (jobs : ι → Int) (tokens : ι → Token) (i : ι) :
    Follows (Stage.next dataset) (fun _ st => st = .settled ∨ st = .refused) (calls setup dataset jobs tokens i)
      .waiting :=
  downloadAndImport_follows setup dataset (jobs i) (tokens i)

theorem run_exclusive (hrun : Together Server.world (calls setup dataset jobs tokens) s t rs s')
    (hwrites : Call.writeSetting ∉ s.faults.refused) : Exclusive dataset (stagesAfter dataset t) s' := by
  have hnobody : ∀ i : ι, ¬ (Stage.waiting).Holds := fun _ => nofun
  refine hrun.keeps (calls_follow setup dataset jobs tokens) (fun _ _ _ h hstir => h.kept hstir)
    (fun _ _ _ _ _ _ _ h hnext hans => h.step hnext hans) ?_
  exact ⟨fun i hi => absurd hi (hnobody i), fun i j hi _ => absurd hi (hnobody i), hwrites⟩

theorem stagesAfter_grant
    (hrun : Together Server.world (calls setup dataset jobs tokens) s (u ++ (j, ⟨.lock dataset, true⟩) :: v) rs s') :
    stagesAfter dataset (u ++ [(j, ⟨.lock dataset, true⟩)]) = Function.update (stagesAfter dataset u) j .granted := by
  obtain ⟨x, hnext⟩ := hrun.allowed (calls_follow setup dataset jobs tokens)
  have hgranted : x = .granted := by
    have hstep := Stage.step_of_next hnext
    change Stage.Step dataset (stagesAfter dataset u j) _ x at hstep
    generalize stagesAfter dataset u j = y at hstep
    cases hstep with
    | grant => rfl
    | aside _ _ _ hq => cases hq
  subst hgranted
  exact track_append.trans (advance_of_next hnext)

theorem stagesAfter_settle {i : ι} {value : String} (h : stagesAfter dataset t i = .settling)
    (hvalue : value = successStatus ∨ value = failedStatus) (a : Stored Unit) :
    stagesAfter dataset (t ++ [(i, ⟨.writeSetting (statusKey dataset) value, a⟩)]) =
      Function.update (stagesAfter dataset t) i .settled := by
  refine track_append.trans (advance_of_next ?_)
  change Stage.next dataset (stagesAfter dataset t i) _ = _
  rw [h]
  exact Stage.next_settle dataset hvalue a

/-- Once the lock was granted with no call left to settle, the one who has it is undisturbed. -/
theorem run_undisturbed
    (hrun : Together Server.world (calls setup dataset jobs tokens) s (u ++ (j, ⟨.lock dataset, true⟩) :: v) rs s')
    (hwrites : Call.writeSetting ∉ s.faults.refused) (hcalm : ∀ i, stagesAfter dataset u i ≠ .settling) :
    Undisturbed dataset j (stagesAfter dataset (u ++ (j, ⟨.lock dataset, true⟩) :: v)) s' := by
  have hgrant := stagesAfter_grant hrun
  rw [List.append_cons] at hrun ⊢
  obtain ⟨qs, m, hfirst, hthen⟩ := hrun.split
  have hexclusive := run_exclusive hfirst hwrites
  have hstart : Undisturbed dataset j (stagesAfter dataset (u ++ [(j, ⟨.lock dataset, true⟩)])) m := by
    refine ⟨hexclusive, fun _ => ?_⟩
    rw [hgrant, Function.update_self]
    refine ⟨.inl rfl, fun i => ?_, nofun⟩
    by_cases hi : i = j
    · rw [hi, Function.update_self]
      exact nofun
    · rw [Function.update_of_ne hi]
      exact hcalm i
  have hkeep := hthen.keeps (hfirst.follows (calls_follow setup dataset jobs tokens))
    (fun _ _ _ h hstir => h.kept hstir)
    (fun _ _ _ _ _ _ _ h hnext hans => h.step hnext hans) hstart
  rw [← track_append] at hkeep
  exact hkeep

/-- A call that has given the lock back does not get it again. -/
theorem isPast_later (hrun : Together Server.world (calls setup dataset jobs tokens) s (u ++ v) rs s')
    (h : (stagesAfter dataset u j).IsPast) : (stagesAfter dataset (u ++ v) j).IsPast := by
  obtain ⟨qs, m, hfirst, hthen⟩ := hrun.split
  have hkeep := hthen.keeps (I := fun st _ => (st j).IsPast)
    (hfirst.follows (calls_follow setup dataset jobs tokens)) (fun _ _ _ h _ => h)
    (fun _ _ _ _ _ _ _ h hnext _ => isPast_step hnext h) h
  rw [← track_append] at hkeep
  exact hkeep

/-- A status is written by the call that has the lock, or by one that has given it back and settles its books. -/
theorem write_allowed {i : ι} {value : String} {a : Stored Unit}
    (hrun : Together Server.world (calls setup dataset jobs tokens) s
      (u ++ (i, ⟨.writeSetting (statusKey dataset) value, a⟩) :: v) rs s') :
    (stagesAfter dataset u i = .granted ∧ value = inProgressStatus) ∨
      (stagesAfter dataset u i = .settling ∧ (value = successStatus ∨ value = failedStatus)) := by
  obtain ⟨x, hnext⟩ := hrun.allowed (calls_follow setup dataset jobs tokens)
  have hstep := Stage.step_of_next hnext
  change Stage.Step dataset (stagesAfter dataset u i) _ x at hstep
  generalize stagesAfter dataset u i = y at hstep ⊢
  cases hstep with
  | begin => exact .inl ⟨rfl, rfl⟩
  | settle _ _ hvalue => exact .inr ⟨rfl, hvalue⟩
  | otherSetting _ _ _ _ hkey => exact absurd rfl hkey
  | aside _ _ _ hq => cases hq

end Runs

/-- **Who writes the status.** Let calls of one dataset run side by side, in any order and any number. At most one of
them has the lock. The status is written by the one that has it, as in progress, or by one that
has given it back, as it settles its books; never by one that was refused. So a call that got the lock when
none was left to settle is the only one to write the status for as long as it has the lock, and once it has
written that it is in progress, the status says so. -/
theorem status_written_by {setup : Setup} {jobs : ι → Int} {tokens : ι → Token} {s s' : Server}
    {t : List (ι × Event)} {rs : ι → Program (Except Failure Summary)}
    (hrun : Together Server.world (calls setup dataset jobs tokens) s t rs s')
    (hwrites : Call.writeSetting ∉ s.faults.refused) :
    (∀ i j, (stagesAfter dataset t i).Holds → (stagesAfter dataset t j).Holds → i = j) ∧
      (∀ u v i value a, t = u ++ (i, ⟨.writeSetting (statusKey dataset) value, a⟩) :: v →
        (stagesAfter dataset u i = .granted ∧ value = inProgressStatus) ∨
          (stagesAfter dataset u i = .settling ∧ (value = successStatus ∨ value = failedStatus))) ∧
      ∀ u v j, t = u ++ (j, ⟨.lock dataset, true⟩) :: v → (∀ i, stagesAfter dataset u i ≠ .settling) →
        (stagesAfter dataset t j).Holds →
        (∀ v₁ v₂ i value a, v = v₁ ++ (i, ⟨.writeSetting (statusKey dataset) value, a⟩) :: v₂ → i = j) ∧
          (stagesAfter dataset t j = .running → s'.setting? (statusKey dataset) = some inProgressStatus) := by
  refine ⟨(run_exclusive hrun hwrites).one, ?_, ?_⟩
  · rintro u v i value a rfl
    exact write_allowed hrun
  · rintro u v j rfl hcalm hholds
    refine ⟨?_, ((run_undisturbed hrun hwrites hcalm).calm hholds.not_isPast).2.2⟩
    rintro v₁ v₂ i value a rfl
    rw [← List.cons_append, ← List.append_assoc] at hrun hholds
    -- what is past stays past: as `j` has the lock at the end, it has it when the status is written
    obtain ⟨qs, m, hfirst, -⟩ := hrun.split
    have hbefore : ¬ (stagesAfter dataset (u ++ (j, ⟨.lock dataset, true⟩) :: v₁) j).IsPast :=
      fun hpast => hholds.not_isPast (isPast_later hrun hpast)
    obtain ⟨hholds₁, hcalm₁, -⟩ := (run_undisturbed hfirst hwrites hcalm).calm hbefore
    obtain ⟨hgranted, -⟩ | ⟨hsettling, -⟩ := write_allowed hrun
    · exact (run_exclusive hfirst hwrites).one i j (.inl hgranted) hholds₁
    · exact absurd hsettling (hcalm₁ i)

end Together

/-! ## Two calls for cards -/

/-- A server with two pending jobs for cards, where the directory of feeds is not set. -/
def twoJobs : Server :=
  let row := fun id => Ledger.Row.fresh default id .cardImport (Progress.start .cards).toJson
  { clock := default, ledger := ⟨[row 1, row 2]⟩ }

/-- The job of each call. -/
def jobOf (i : Fin 2) : Int := i.val + 1

/-- A call for each job. -/
abbrev twoCalls : Fin 2 → Program (Except Failure Summary) := calls { assets := "" } .cards jobOf fun _ => ⟨0⟩

/-- While the first call has the lock and the second is refused it, the status is that of the first. -/
theorem refused_call_leaves_status :
    ∃ t rs s', Together Server.world twoCalls twoJobs t rs s' ∧ stagesAfter .cards t 0 = .running ∧
      stagesAfter .cards t 1 = .refused ∧ s'.setting? (statusKey .cards) = some inProgressStatus := by
  let u : List (Fin 2 × Event) := [(0, ⟨.now, (default : Instant)⟩)]
  let v : List (Fin 2 × Event) :=
    [(0, ⟨.writeSetting (statusKey .cards) inProgressStatus, (.ok () : Stored Unit)⟩),
      (1, ⟨.now, (default : Instant)⟩), (1, ⟨.lock .cards, false⟩)]
  obtain ⟨rs, s', hrun⟩ : ∃ rs s', Together Server.world twoCalls twoJobs (u ++ (0, ⟨.lock .cards, true⟩) :: v) rs s' :=
    ⟨_, _,
      .answer (i := 0) (q := .now) rfl rfl <|
      .answer (i := 0) (q := .lock .cards) rfl rfl <|
      .answer (i := 0) (q := .writeSetting (statusKey .cards) inProgressStatus) rfl rfl <|
      .answer (i := 1) (q := .now) rfl rfl <|
      .answer (i := 1) (q := .lock .cards) rfl rfl <|
      .start _ _⟩
  have hcalm : ∀ i, stagesAfter .cards u i ≠ .settling := by decide
  obtain ⟨-, -, hholder⟩ := status_written_by hrun nofun
  obtain ⟨-, hstatus⟩ := hholder u v 0 rfl hcalm (.inr rfl)
  exact ⟨_, rs, s', hrun, rfl, rfl, hstatus rfl⟩

/-- The first call fails and gives the lock back. The second gets it and writes that it is in progress. Then
the first settles its books, and the status says failed while the second has the lock. -/
theorem settling_overwrites_status :
    (∀ i, (twoJobs.ledger.find? (jobOf i)).map (·.status) = some JobStatus.pending.name) ∧ jobOf.Injective ∧
      twoJobs.faults.refused = [] ∧
      ∃ t rs s', Together Server.world twoCalls twoJobs
          (t ++ [(0, ⟨.writeSetting (statusKey .cards) failedStatus, .ok ()⟩)]) rs s' ∧
        stagesAfter .cards t 1 = .running ∧
        stagesAfter .cards (t ++ [(0, ⟨.writeSetting (statusKey .cards) failedStatus, .ok ()⟩)]) 1 = .running ∧
        s'.setting? (statusKey .cards) = some failedStatus := by
  obtain ⟨t, qs, m, k, hrun, hask, hsettling, hrunning, hwrites⟩ : ∃ t qs m k,
      Together Server.world twoCalls twoJobs t qs m ∧
        qs 0 = .ask (.writeSetting (statusKey .cards) failedStatus) k ∧ stagesAfter .cards t 0 = .settling ∧
        stagesAfter .cards t 1 = .running ∧ m.faults.refused = [] :=
    ⟨_, _, _, _,
      .answer (i := 0) (q := .now) (a := (default : Instant)) rfl rfl <|
      .answer (i := 0) (q := .lock .cards) (a := true) rfl rfl <|
      .answer (i := 0) (q := .writeSetting (statusKey .cards) inProgressStatus) (a := (.ok () : Stored Unit)) rfl rfl <|
      .answer (i := 0) (q := .startJob 1) (a := (.ok () : Stored Unit)) rfl rfl <|
      .answer (i := 0) (q := .publish 1 _) (a := (.ok () : Stored Unit)) rfl rfl <|
      .answer (i := 0) (q := .readSetting "card_data_url") (a := (.ok none : Stored (Option String))) rfl rfl <|
      .answer (i := 0) (q := .publish 1 _) (a := (.ok () : Stored Unit)) rfl rfl <|
      .answer (i := 0) (q := .record _) (a := ()) rfl rfl <|
      .answer (i := 0) (q := .unlock .cards) (a := ()) rfl rfl <|
      .answer (i := 1) (q := .now) (a := (default : Instant)) rfl rfl <|
      .answer (i := 1) (q := .lock .cards) (a := true) rfl rfl <|
      .answer (i := 1) (q := .writeSetting (statusKey .cards) inProgressStatus) (a := (.ok () : Stored Unit)) rfl rfl <|
      .answer (i := 0) (q := .now) (a := (default : Instant)) rfl rfl <|
      .answer (i := 0) (q := .failJob 1 _) (a := (.ok () : Stored Unit)) rfl rfl <|
      .start _ _, rfl, rfl, rfl, rfl⟩
  have hans : Server.world.answers m (.writeSetting (statusKey .cards) failedStatus) (.ok ())
      (m.putSetting (statusKey .cards) failedStatus) := by
    change some (m.guarded .writeSetting _) = _
    unfold Server.guarded
    rw [hwrites]
    rfl
  have hlast := stagesAfter_settle hsettling (.inr rfl : failedStatus = _ ∨ failedStatus = failedStatus) (.ok ())
  have hjobs : ∀ i j, jobOf i = jobOf j → i = j := by decide
  refine ⟨by decide, hjobs, rfl, t, _, _, hrun.append (.answer hask hans (.start _ _)), hrunning, ?_, ?_⟩
  · rw [hlast, Function.update_of_ne (by decide)]
    exact hrunning
  · exact Text.Dict.find?_put_self ..

end CatalogSync.Import
