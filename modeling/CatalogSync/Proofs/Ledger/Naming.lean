import CatalogSync.Proofs.Ledger.Paging

/-!
# The job of an id

A job is known by the place of the call that made it in the history, and callers hold its id. `Makes` says which call
returned which id, `Lives` up to when the job it made is there, and `Affects` whose row a call changes.

Main statement: `id_names_one_job_until_removed`. While a job is there its id is its own. Ids are counted on from the
greatest one in the ledger, so that the id of a job comes again once a clean-up has removed it and all that were made
after it; then the id that the first caller still holds is that of another job.
-/

namespace CatalogSync.Ledger

open CatalogSync.Time

/-! ## Jobs by the calls that made them -/

/-- The call at place `n` of a history makes a job and returns this id. -/
def Makes (h : History) (n : Nat) (id : Int) : Prop :=
  ∃ t type metadata job, h[n]? = some (t, .create type metadata) ∧
    ((replay (h.take n)).create t type metadata).1 = .ok job ∧ job.id = id

/-- The job that the call at place `n` made under an id is there after the first `m` calls, and has been all the time. -/
structure Lives (h : History) (n m : Nat) (id : Int) : Prop where
  made : Makes h n id
  before : n < m
  there : ∀ k, n < k → k ≤ m → ((replay (h.take k)).find? id).isSome = true

/-- A clean-up before place `m` has removed the job that the call at place `n` made under an id. -/
def Removed (h : History) (n m : Nat) (id : Int) : Prop :=
  ∃ k t days, n < k ∧ k < m ∧ h[k]? = some (t, .clean days) ∧ Lives h n k id ∧ ¬ Lives h n (k + 1) id

/-- The call at place `m` changes the row of the job that the call at place `n` made. -/
def Affects (h : History) (m n : Nat) : Prop :=
  ∃ id, Lives h n m id ∧ (replay (h.take (m + 1))).find? id ≠ (replay (h.take m)).find? id

/-- The id that a lifecycle or progress call is made with. -/
def Action.target? : Action → Option Int
  | .start id => some id
  | .complete id => some id
  | .fail id _ => some id
  | .cancel id _ => some id
  | .publish id _ => some id
  | .create _ _ => none
  | .clean _ => none
  | .cancelOpen => none
  | .reopen => none

/-! ## One call -/

theorem foldl_max_lt {rows : List Row} {n bound : Int} (hn : n < bound) (hrows : ∀ r ∈ rows, r.id < bound) :
    rows.foldl (fun n r => max n r.id) n < bound := by
  induction rows generalizing n with
  | nil => exact hn
  | cons r rows ih =>
    exact ih (max_lt hn (hrows r List.mem_cons_self)) fun r hr => hrows r (List.mem_cons_of_mem _ hr)

theorem find?_isSome_iff {l : Ledger} {id : Int} : (l.find? id).isSome = true ↔ ∃ r ∈ l.rows, r.id = id := by
  unfold find?
  simp [List.find?_isSome]

/-- A lifecycle or progress call leaves the rows of all other ids as they are. -/
theorem find?_perform_of_ne {a : Action} {id other : Int} (ha : a.target? = some id) (hne : other ≠ id) (now : Instant)
    (l : Ledger) : (a.perform now l).find? other = l.find? other := by
  have hmodify : ∀ f : Row → Row, (∀ r : Row, r.Becomes (f r)) → (l.modify id f).find? other = l.find? other :=
    fun f hf => find?_modify_of_ne (fun r => (hf r).id) l hne
  have hfinish : ∀ status : JobStatus, status.isTerminal = true → ∀ error,
      (l.finish now id status error).find? other = l.find? other :=
    fun status hst error => hmodify _ (Row.finish_becomes now hst error)
  cases a with
  | start => cases ha; exact hmodify _ (Row.start_becomes now)
  | complete => cases ha; exact hfinish .completed rfl none
  | fail _ message => cases ha; exact hfinish .failed rfl (some message)
  | cancel _ reason => cases ha; exact hfinish .cancelled rfl (some reason)
  | publish _ metadata => cases ha; exact hmodify _ (Row.publish_becomes now metadata)
  | _ => cases ha

section Steps

variable {h : History} {n m p : Nat} {id j : Int} {t : Instant}

theorem replay_take_succ {a : Action} (hm : h[m]? = some (t, a)) :
    replay (h.take (m + 1)) = a.perform t (replay (h.take m)) := by
  rw [List.take_add_one, hm, Option.toList_some, replay_concat]

/-- A job that has just been made is read as one of its id. -/
theorem toJob_fresh (t : Instant) (id : Int) (type : JobType) (metadata : Json) :
    ∃ job, (Row.fresh t id type metadata).toJob t = .ok job ∧ job.id = id := by
  have htype : (Row.fresh t id type metadata).jobType = type.name := rfl
  have hstatus : (Row.fresh t id type metadata).status = JobStatus.pending.name := rfl
  obtain ⟨hread, hid, -⟩ := Row.toJob_of_names htype hstatus t
  exact ⟨_, hread, hid⟩

/-- Every call that makes a job returns it, with the id after the greatest. -/
theorem makes_of_create {type : JobType} {metadata : Json} (hn : h[n]? = some (t, .create type metadata)) :
    Makes h n ((replay (h.take n)).lastId + 1) := by
  obtain ⟨job, hread, hid⟩ := toJob_fresh t ((replay (h.take n)).lastId + 1) type metadata
  exact ⟨t, type, metadata, job, hn, hread, hid⟩

theorem Makes.id_eq (hn : Makes h n id) : id = (replay (h.take n)).lastId + 1 := by
  obtain ⟨t, type, metadata, job, hcall, hjob, rfl⟩ := hn
  obtain ⟨job', hread, hid⟩ := toJob_fresh t ((replay (h.take n)).lastId + 1) type metadata
  have hsame : Except.ok job = Except.ok job' := hjob.symm.trans hread
  rw [Except.ok.inj hsame]
  exact hid

/-- The id that is returned is greater than all that are in the ledger. -/
theorem Makes.lt (hn : Makes h n id) : ∀ r ∈ (replay (h.take n)).rows, r.id < id := by
  intro r hr
  rw [hn.id_eq]
  exact Int.lt_add_one_of_le (id_le_lastId hr)

/-- It is no greater than another one if all in the ledger are smaller than that. -/
theorem Makes.le_iff (hm : Makes h m j) (hid : 0 < id) : j ≤ id ↔ ∀ r ∈ (replay (h.take m)).rows, r.id < id := by
  refine ⟨fun hle r hr => lt_of_lt_of_le (hm.lt r hr) hle, fun hall => ?_⟩
  rw [hm.id_eq]
  exact foldl_max_lt hid hall

theorem Makes.not_there (hn : Makes h n id) : ((replay (h.take n)).find? id).isSome = false := by
  rw [← Bool.not_eq_true, find?_isSome_iff]
  rintro ⟨r, hr, rfl⟩
  exact lt_irrefl _ (hn.lt r hr)

theorem Makes.there (hn : Makes h n id) : ((replay (h.take (n + 1))).find? id).isSome = true := by
  have hid := hn.id_eq
  obtain ⟨t, type, metadata, job, hcall, -, -⟩ := hn
  rw [replay_take_succ hcall, find?_isSome_iff]
  exact ⟨Row.fresh t _ type metadata, List.mem_append_right _ (List.mem_singleton_self _), hid.symm⟩

theorem Makes.lives (hn : Makes h n id) : Lives h n (n + 1) id := by
  refine ⟨hn, Nat.lt_succ_self n, fun k hk hk' => ?_⟩
  obtain rfl : k = n + 1 := by omega
  exact hn.there

/-- Only a clean-up takes a row away. -/
theorem clean_of_gone (hthere : ((replay (h.take m)).find? id).isSome = true)
    (hgone : ((replay (h.take (m + 1))).find? id).isSome = false) : ∃ t days, h[m]? = some (t, .clean days) := by
  obtain ⟨r, hr, rfl⟩ := find?_isSome_iff.1 hthere
  cases hcall : h[m]? with
  | none =>
    have hsame : h.take (m + 1) = h.take m := by
      rw [List.take_add_one, hcall, Option.toList_none, List.append_nil]
    rw [hsame, hthere] at hgone
    cases hgone
  | some call =>
    obtain ⟨t, a⟩ := call
    have hnext : replay (h.take m ++ [(t, a)]) = replay (h.take (m + 1)) := by
      rw [replay_concat, replay_take_succ hcall]
    rcases (replay_forward (h.take m) t a).kept r hr with ⟨r', hr', hb⟩ | ⟨⟨days, rfl⟩, -⟩
    · rw [hnext] at hr'
      rw [find?_isSome_iff.2 ⟨r', hr', hb.id⟩] at hgone
      cases hgone
    · exact ⟨t, days, rfl⟩

/-! ## Whole histories -/

/-- A job whose id is not there any more has been removed. -/
theorem removed_of_gone (hn : Makes h n id) (hm : n < m) (hgone : ((replay (h.take m)).find? id).isSome = false) :
    Removed h n m id := by
  -- the first time that the id is not there
  have hsome : ∃ k, n < k ∧ ((replay (h.take k)).find? id).isSome = false := ⟨m, hm, hgone⟩
  classical
  obtain ⟨hnk, hnot⟩ := Nat.find_spec hsome
  have hfirst : ∀ k, n < k → k < Nat.find hsome → ((replay (h.take k)).find? id).isSome = true := by
    intro k hk hlt
    by_contra hno
    exact Nat.find_min hsome hlt ⟨hk, Bool.eq_false_iff.2 hno⟩
  have hle : Nat.find hsome ≤ m := Nat.find_min' hsome ⟨hm, hgone⟩
  have hmade : Nat.find hsome ≠ n + 1 := by
    intro heq
    rw [heq, hn.there] at hnot
    cases hnot
  obtain ⟨k, hk⟩ : ∃ k, Nat.find hsome = k + 1 := ⟨Nat.find hsome - 1, by omega⟩
  rw [hk] at hnk hnot hfirst hle hmade
  have hthere := hfirst k (by omega) (Nat.lt_succ_self k)
  obtain ⟨t, days, hcall⟩ := clean_of_gone hthere hnot
  refine ⟨k, t, days, by omega, by omega, hcall, ⟨hn, by omega, fun i hi hi' => hfirst i hi (by omega)⟩, fun hlives => ?_⟩
  have hlater := hlives.there (k + 1) (by omega) le_rfl
  rw [hnot] at hlater
  cases hlater

/-- **An id comes again** only after the job that had it has been removed. -/
theorem Makes.removed (hn : Makes h n id) (hm : n < m) (hagain : Makes h m id) : Removed h n m id :=
  removed_of_gone hn hm hagain.not_there

/-- No job is made under the id of one that is there. -/
theorem Lives.not_before (hp : Lives h p m id) (hn : Makes h n id) (hm : n ≤ m) : ¬ p < n := by
  intro hlt
  have hthere := hp.there n hlt hm
  rw [hn.not_there] at hthere
  cases hthere

end Steps

/-- **An id names one job until that is removed.** After a call of a history that returned an id: a later call that
makes a job returns one that is no greater exactly if all jobs in the ledger are smaller, and returns the same id only if
a clean-up has removed the job of the first; and a lifecycle or progress call with the id affects no job but that of the
first call, or, once this has been removed, one that a later call has made under the same id. -/
theorem id_names_one_job_until_removed (h : History) (n : Nat) (id : Int) (hn : Makes h n id) (m : Nat) (hm : n < m) :
    (∀ t type metadata, h[m]? = some (t, .create type metadata) → ∃ j, Makes h m j) ∧
      (∀ j, Makes h m j → (j ≤ id ↔ ∀ r ∈ (replay (h.take m)).rows, r.id < id)) ∧
      (Makes h m id → Removed h n m id) ∧
      ∀ t a p, h[m]? = some (t, a) → a.target? = some id → Affects h m p →
        p = n ∨ (n < p ∧ p < m ∧ Makes h p id ∧ Removed h n p id) := by
  have hpos : 0 < id := by
    rw [hn.id_eq]
    exact Int.lt_add_one_of_le (zero_le_lastId _)
  refine ⟨fun t type metadata hcall => ⟨_, makes_of_create hcall⟩, fun j hj => hj.le_iff hpos, hn.removed hm, ?_⟩
  rintro t a p hcall ha ⟨j, hlives, hchanged⟩
  have hj : j = id := by
    by_contra hne
    rw [replay_take_succ hcall] at hchanged
    exact hchanged (find?_perform_of_ne ha hne t _)
  subst hj
  have hnot := hlives.not_before hn (Nat.le_of_lt hm)
  rcases Nat.lt_or_eq_of_le (Nat.le_of_not_lt hnot) with hlater | heq
  · exact .inr ⟨hlater, hlives.before, hlives.made, hn.removed hlater hlives.made⟩
  · exact .inl heq.symm

/-- Of two jobs made three days apart the older one is removed, and the next id is neither of theirs. -/
theorem next_id_beside_a_later_job :
    let t (day : Int) : Instant := ⟨day, default⟩
    let h : History :=
      [(t 0, .create .cardImport .null), (t 3, .create .setImport .null), (t 4, .clean 2),
        (t 4, .create .cardImport .null)]
    Makes h 0 1 ∧ 0 < 3 ∧ (replay (h.take 3)).rows.map Row.id = [2] ∧ ∃ j, Makes h 3 j ∧ 1 < j := by
  intro t h
  have hn : Makes h 0 1 := makes_of_create rfl
  have hrows : (replay (h.take 3)).rows.map Row.id = [2] := by decide +kernel
  obtain ⟨hmakes, hle, -, -⟩ := id_names_one_job_until_removed h 0 1 hn 3 (by decide)
  obtain ⟨j, hj⟩ := hmakes _ _ _ rfl
  refine ⟨hn, by decide, hrows, j, hj, ?_⟩
  by_contra hsmall
  have hall := (hle j hj).1 (by omega)
  obtain ⟨r, hr, hid⟩ : ∃ r ∈ (replay (h.take 3)).rows, r.id = 2 := List.mem_map.1 (by rw [hrows]; exact List.mem_singleton_self 2)
  have hlt := hall r hr
  omega

/-- The only job is removed and the next one gets its id. A late call of the first caller, made with the id that it was
given, fails the job of the second. -/
theorem late_call_hits_another_job :
    let t (day : Int) : Instant := ⟨day, default⟩
    let h : History :=
      [(t 0, .create .cardImport .null), (t 3, .clean 2), (t 3, .create .setImport .null), (t 4, .fail 1 "late")]
    Makes h 0 1 ∧ Makes h 2 1 ∧ Affects h 3 2 ∧
      (replay h).rows.map (fun r => (r.id, r.jobType, r.status)) = [(1, "set_data_import", "failed")] := by
  intro t h
  have hn : Makes h 0 1 := makes_of_create rfl
  have hempty : (replay (h.take 2)).lastId = 0 := by decide +kernel
  have hagain : Makes h 2 1 := by
    have hmakes : Makes h 2 ((replay (h.take 2)).lastId + 1) := makes_of_create rfl
    rwa [hempty] at hmakes
  exact ⟨hn, hagain, ⟨1, hagain.lives, by decide +kernel⟩, by decide +kernel⟩

end CatalogSync.Ledger
