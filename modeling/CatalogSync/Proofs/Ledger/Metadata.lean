import CatalogSync.Proofs.Json.Written
import CatalogSync.Proofs.Ledger.Naming

/-!
# Metadata of a job

A row keeps the metadata of its job as a text, and a text that cannot be read counts as null. `Stores` says which calls
give a job its metadata; every other call leaves the text of its row as it is (`Holds.perform`), and a value that can be
stored is read back from its text.

Main statement: `stored_metadata_is_shown`.
-/

namespace CatalogSync.Ledger

open CatalogSync.Json CatalogSync.Time

/-! ## Texts of metadata -/

/-- The call at place `n` stores a value as the metadata of the job of an id: it makes the job, or finds it open. -/
inductive Stores (h : History) (n : Nat) (id : Int) (v : Json) : Prop
  | made {t : Instant} {type : JobType} (call : h[n]? = some (t, .create type v)) (makes : Makes h n id)
  | published {t : Instant} {r : Row} (call : h[n]? = some (t, .publish id v))
    (there : (replay (h.take n)).find? id = some r) (opened : r.isOpen = true)

/-- Every row of an id has this text as its metadata. -/
def Holds (l : Ledger) (id : Int) (text : String) : Prop := ∀ r ∈ l.rows, r.id = id → r.metadata = text

theorem Row.metadata_start (now : Instant) (r : Row) : (r.start now).metadata = r.metadata := by
  unfold Row.start
  split <;> rfl

theorem Row.metadata_finish (now : Instant) (status : JobStatus) (error : Option String) (r : Row) :
    (r.finish now status error).metadata = r.metadata := by
  unfold Row.finish
  split <;> rfl

theorem Row.metadata_publish {r : Row} (hr : r.isOpen = true) (now : Instant) (v : Json) :
    (r.publish now v).metadata = v.write := by
  unfold Row.publish
  rw [if_pos hr]

theorem Row.publish_of_ended {r : Row} (hr : ¬ r.isOpen = true) (now : Instant) (v : Json) : r.publish now v = r := by
  unfold Row.publish
  rw [if_neg hr]

section Holds

variable {l : Ledger} {id : Int} {text : String}

theorem Holds.map (hl : l.Holds id text) {f : Row → Row} (hf : ∀ r : Row, r.Becomes (f r))
    (htext : ∀ r ∈ l.rows, r.id = id → (f r).metadata = r.metadata) : Holds ⟨l.rows.map f⟩ id text := by
  intro r' hr' hid
  obtain ⟨r, hr, rfl⟩ := List.mem_map.1 hr'
  rw [(hf r).id] at hid
  rw [htext r hr hid]
  exact hl r hr hid

theorem Holds.modify (hl : l.Holds id text) (other : Int) {f : Row → Row} (hf : ∀ r : Row, r.Becomes (f r))
    (htext : other = id → ∀ r ∈ l.rows, r.id = id → (f r).metadata = r.metadata) : (l.modify other f).Holds id text := by
  refine hl.map (fun r => ?_) fun r hr hid => ?_
  · split
    · exact hf r
    · exact .refl r
  · split
    · next heq => exact htext (heq.symm.trans hid) r hr hid
    · rfl

theorem Holds.finish (hl : l.Holds id text) (now : Instant) (other : Int) {status : JobStatus}
    (hst : status.isTerminal = true) (error : Option String) : (l.finish now other status error).Holds id text :=
  hl.modify other (Row.finish_becomes now hst error) fun _ r _ _ => Row.metadata_finish now status error r

/-- A call leaves the text of an id that is there, unless it stores a new one for it. -/
theorem Holds.perform (hl : l.Holds id text) (hthere : (l.find? id).isSome = true) {a : Action}
    (ha : ∀ v, a = .publish id v → ∀ r ∈ l.rows, r.id = id → ¬ r.isOpen = true) (now : Instant) :
    (a.perform now l).Holds id text := by
  cases a with
  | create type v =>
    obtain ⟨r₀, hr₀, rfl⟩ := find?_isSome_iff.1 hthere
    intro r hr hid
    rcases List.mem_append.1 hr with hr | hr
    · exact hl r hr hid
    · -- the id of a new job is greater than all that are there
      have hnew : r.id = l.lastId + 1 := by rw [List.mem_singleton.1 hr]; rfl
      have hle := id_le_lastId hr₀
      omega
  | start other => exact hl.modify other (Row.start_becomes now) fun _ r _ _ => Row.metadata_start now r
  | complete other => exact hl.finish now other rfl none
  | fail other message => exact hl.finish now other rfl (some message)
  | cancel other reason => exact hl.finish now other rfl (some reason)
  | publish other v =>
    refine hl.modify other (Row.publish_becomes now v) ?_
    rintro rfl r hr hid
    rw [Row.publish_of_ended (ha v rfl r hr hid)]
  | clean days =>
    obtain ⟨keep, hkeep⟩ := rows_clean now days l
    intro r hr hid
    have hmem : r ∈ l.rows.filter keep := hkeep ▸ hr
    exact hl r (List.mem_filter.1 hmem).1 hid
  | cancelOpen => exact hl.map (Row.finish_becomes now rfl _) fun r _ _ => Row.metadata_finish now _ _ r
  | reopen => exact hl

end Holds

/-! ## Whole histories -/

section Histories

variable {h : History} {n m : Nat} {id : Int} {v : Json}

theorem find?_replay {r : Row} (hr : r ∈ (replay h).rows) : (replay h).find? r.id = some r := by
  cases hfound : (replay h).find? r.id with
  | none => simpa using List.find?_eq_none.1 hfound r hr
  | some r' =>
    have hr' : r' ∈ (replay h).rows := List.mem_of_find?_eq_some hfound
    have hid : r'.id = r.id := by simpa using List.find?_some hfound
    rw [eq_of_ids (replay_ids h) hr' hr hid]

theorem open_of_find? {r : Row} (hfound : (replay h).find? id = some r) (hopen : r.isOpen = true) :
    ∀ s ∈ (replay h).rows, s.id = id → s.isOpen = true := by
  intro s hs hid
  have hsame : (replay h).find? s.id = some s := find?_replay hs
  rw [hid, hfound] at hsame
  rwa [← Option.some.inj hsame]

/-- A call that stores a value writes its text. -/
theorem Stores.holds (hn : Stores h n id v) : (replay (h.take (n + 1))).Holds id v.write := by
  cases hn with
  | made call makes =>
    intro r hr hid
    rw [replay_take_succ call] at hr
    rcases List.mem_append.1 hr with hr | hr
    · exact absurd hid (ne_of_lt (makes.lt r hr))
    · rw [List.mem_singleton.1 hr]
      rfl
  | @published t r call there opened =>
    intro r' hr' hid
    rw [replay_take_succ call] at hr'
    obtain ⟨s, hs, rfl⟩ := List.mem_map.1 hr'
    have hsid : s.id = id := by
      split at hid
      · assumption
      · exact hid
    rw [if_pos hsid]
    exact Row.metadata_publish (open_of_find? there opened s hs hsid) t v

/-- Until the next call that stores a value for the job, its text is that of the last one. -/
theorem Stores.holds_until (hn : Stores h n id v) (hnm : n < m)
    (hthere : ∀ k, n < k → k < m → ((replay (h.take k)).find? id).isSome = true)
    (hlast : ∀ k w, n < k → k < m → ¬ Stores h k id w) : (replay (h.take m)).Holds id v.write := by
  induction m, hnm using Nat.le_induction with
  | base => exact hn.holds
  | succ m hm ih =>
    have hholds := ih (fun k hk hlt => hthere k hk (by omega)) fun k w hk hlt => hlast k w hk (by omega)
    have hthis := hthere m hm (Nat.lt_succ_self m)
    cases hcall : h[m]? with
    | none =>
      rwa [List.take_add_one, hcall, Option.toList_none, List.append_nil]
    | some call =>
      obtain ⟨t, a⟩ := call
      rw [replay_take_succ hcall]
      refine hholds.perform hthis (fun w ha r hr hid hopen => hlast m w hm (Nat.lt_succ_self m) ?_) t
      subst ha hid
      exact .published hcall (find?_replay hr) hopen

end Histories

/-! ## What is shown of a job -/

theorem Row.metadata_of_toJob {r : Row} {now : Instant} {job : Job} (h : r.toJob now = .ok job) :
    job.metadata = readMetadata r.metadata := by
  unfold Row.toJob at h
  split at h
  · cases h
  · split at h
    · cases h
    · cases h
      rfl

theorem readMetadata_write {v : Json} (hv : Storable 127 v) : readMetadata v.write = v := by
  unfold readMetadata
  rw [read_write (by decide) hv]

/-- Every call that reads the ledger shows this job under its id. -/
structure Shows (l : Ledger) (now : Instant) (job : Job) : Prop where
  got : l.get now job.id = .ok (some job)
  /-- Every page can be read, and shows no other job of the id. -/
  listed : ∀ q, ∃ page, l.list now q = .ok page ∧ ∀ j ∈ page.jobs, j.id = job.id → j = job
  /-- The job is on a page of every list that it belongs to. -/
  on_page : l.Fits → ∀ type status size, selected type status job = true →
    ∃ k page, l.list now ⟨k, size, type, status⟩ = .ok page ∧ job ∈ page.jobs
  /-- The last job of a type is the first one that is listed. -/
  last : ∀ type, ∃ found page, l.lastOfType now type = .ok found ∧ l.list now { type := some type } = .ok page ∧
    found = page.jobs.head? ∧ ∀ j ∈ found, j.id = job.id → j = job

section Shows

variable {h : History} (now : Instant)

/-- Lists show a row as its job. -/
theorem eq_job_of_listed {r : Row} (hr : r ∈ (replay h).rows) {q : Query} {j : Job} (hj : j ∈ listing h now q)
    (hid : j.id = r.id) : j = r.job now := by
  obtain ⟨s, hs, rfl⟩ := List.mem_map.1 hj
  obtain ⟨hrow, hsound⟩ := matching_sound h q s hs
  rw [hsound.job_id] at hid
  rw [eq_of_ids (replay_ids h) hrow hr hid]

theorem mem_listing {r : Row} (hr : r ∈ (replay h).rows) {q : Query}
    (hq : selected q.type q.status (r.job now) = true) : r.job now ∈ listing h now q := by
  rw [← (replay_sound h r hr).matches_eq now q] at hq
  exact List.mem_map_of_mem (mem_matching.2 ⟨hr, hq⟩)

/-- What is listed is on one of the pages. -/
theorem exists_page (hfit : (replay h).Fits) (type : Option JobType) (status : Option JobStatus) (size : Nat) {j : Job}
    (hj : j ∈ listing h now ⟨1, size, type, status⟩) :
    ∃ k page, (replay h).list now ⟨k, size, type, status⟩ = .ok page ∧ j ∈ page.jobs := by
  have hsize := Query.limit_pos ⟨1, size, type, status⟩
  rw [← pages_flatten (listing h now ⟨1, size, type, status⟩) hsize] at hj
  obtain ⟨k, hk, hmem⟩ := List.mem_flatMap.1 hj
  obtain ⟨hfirst, hlast⟩ := List.mem_range'_1.1 hk
  have hfew := listing_length_lt h now ⟨1, size, type, status⟩ hfit
  have hskip : Query.skipped ⟨k, size, type, status⟩ = (k - 1) * Query.limit ⟨1, size, type, status⟩ :=
    Query.skipped_eq hfew hfirst (Nat.le_of_lt_succ (by rwa [Nat.add_comm] at hlast))
  refine ⟨k, _, list_eq h now ⟨k, size, type, status⟩, ?_⟩
  rw [hskip]
  exact hmem

theorem shows_job {r : Row} (hr : r ∈ (replay h).rows) : (replay h).Shows now (r.job now) := by
  have hsound := replay_sound h r hr
  have hid := hsound.job_id now
  constructor
  · unfold get
    rw [hid, find?_replay hr]
    show within _ ((r.toJob now).map some) = _
    rw [hsound.toJob]
    rfl
  · refine fun q => ⟨_, list_eq h now q, fun j hj hsame => ?_⟩
    exact eq_job_of_listed now hr (List.mem_of_mem_drop (List.mem_of_mem_take hj)) (hsame.trans hid)
  · exact fun hfit type status size hselected => exists_page now hfit type status size (mem_listing now hr hselected)
  · refine fun type => ⟨_, _, lastOfType_eq h now type, list_eq h now { type := some type }, ?_, fun j hj hsame => ?_⟩
    · cases listing h now { type := some type } <;> rfl
    · exact eq_job_of_listed now hr (List.mem_of_mem_head? hj) (hsame.trans hid)

end Shows

/-- **Stored metadata is shown.** A value nested at most 127 deep, of whatever texts and of integers of 64 bits, that a
call has stored as the metadata of a job is that of the job which `get`, `list` and `lastOfType` show under the id, after
every call from then on, as long as no clean-up has removed the job and no later call has stored another value for it. -/
theorem stored_metadata_is_shown (h : History) (n m : Nat) (id : Int) (v : Json) (hv : Storable 127 v)
    (hn : Stores h n id v) (hnm : n < m) (hthere : ∀ k, n < k → k ≤ m → ((replay (h.take k)).find? id).isSome = true)
    (hlast : ∀ k w, n < k → k < m → ¬ Stores h k id w) (now : Instant) :
    ∃ job, job.id = id ∧ job.metadata = v ∧ (replay (h.take m)).Shows now job := by
  have hholds := hn.holds_until hnm (fun k hk hlt => hthere k hk (Nat.le_of_lt hlt)) hlast
  obtain ⟨r, hr, hid⟩ := find?_isSome_iff.1 (hthere m hnm le_rfl)
  have hsound := replay_sound _ r hr
  refine ⟨r.job now, (hsound.job_id now).trans hid, ?_, shows_job now hr⟩
  rw [Row.metadata_of_toJob (hsound.toJob now), hholds r hr hid, readMetadata_write hv]

/-- A value of odd texts and of the least and the greatest integer is still there after its job has ended, a late call has
tried to replace it, and the store was opened again. -/
theorem odd_metadata_outlasts_its_job :
    let t := Instant.addSeconds default
    let v : Json := .object [("ends", .array [.int (-9223372036854775808), .int 18446744073709551615, .array []]),
      ("say \"\"", .text "\u0000\t\\ é 😀")]
    let h : History :=
      [(t 0, .create .cardImport .null), (t 1, .start 1), (t 2, .publish 1 v), (t 3, .complete 1),
        (t 4, .publish 1 .null), (t 5, .reopen)]
    Storable 127 v ∧ Stores h 2 1 v ∧ (∀ k w, 2 < k → k < 6 → ¬ Stores h k 1 w) ∧
      ∃ job, job.id = 1 ∧ job.metadata = v ∧ (replay h).Shows (t 9) job := by
  intro t v h
  have hv : Storable 127 v := by
    refine .object (List.pairwise_pair.2 (by decide)) fun p hp => ?_
    simp only [List.mem_cons, List.not_mem_nil, or_false] at hp
    rcases hp with rfl | rfl
    · refine .array fun w hw => ?_
      simp only [List.mem_cons, List.not_mem_nil, or_false] at hw
      rcases hw with rfl | rfl | rfl
      · exact .int _ (by decide) (by decide)
      · exact .int _ (by decide) (by decide)
      · exact .array fun w hw => absurd hw List.not_mem_nil
    · exact .text _ _
  have hn : Stores h 2 1 v := .published rfl rfl (by decide)
  have hlast : ∀ k w, 2 < k → k < 6 → ¬ Stores h k 1 w := by
    intro k w hk hk' hstores
    obtain rfl | rfl | rfl : k = 3 ∨ k = 4 ∨ k = 5 := by omega
    · rcases hstores with ⟨hcall, -⟩ | ⟨hcall, -, -⟩ <;> cases hcall
    · rcases hstores with ⟨hcall, -⟩ | ⟨hcall, hfound, hopen⟩
      · cases hcall
      · -- the job has ended
        have hended : ((replay (h.take 4)).find? 1).map Row.isOpen = some false := by decide +kernel
        rw [hfound, Option.map_some, hopen] at hended
        cases hended
    · rcases hstores with ⟨hcall, -⟩ | ⟨hcall, -, -⟩ <;> cases hcall
  have hthere : ∀ k, 2 < k → k ≤ 6 → ((replay (h.take k)).find? 1).isSome = true := by
    intro k hk hk'
    obtain rfl | rfl | rfl | rfl : k = 3 ∨ k = 4 ∨ k = 5 ∨ k = 6 := by omega
    all_goals decide +kernel
  exact ⟨hv, hn, hlast, stored_metadata_is_shown h 2 6 1 v hv hn (by decide) hthere hlast (t 9)⟩

end CatalogSync.Ledger
