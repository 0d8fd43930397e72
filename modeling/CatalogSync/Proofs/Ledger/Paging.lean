import CatalogSync.Proofs.Ledger.Lifecycle
import CatalogSync.Proofs.Store.Outcomes
import CatalogSync.Proofs.Time.Stamps
import Mathlib.Data.List.Basic
import Mathlib.Data.String.Basic

/-!
# Pages of the ledger

A list of jobs is shown page by page, and every page is a query of its own. `Row.Sound` is what every row of
a history keeps, at whatever instants the calls came: which call made it, and a status that has a name.

Main statements:

* `pages_tile_the_ledger`: the pages of two filters and a page size put together show every job that matches, once,
  the latest first.
* `page_past_the_end`: a page behind all of them is empty, or the first one once more.
-/

namespace CatalogSync.Ledger

open CatalogSync.Time

/-! ## Where rows come from -/

/-- A row of the job that a call has made. -/
structure Row.MadeBy (r : Row) (before : History) (t : Instant) (type : JobType) : Prop where
  id : r.id = (replay before).lastId + 1
  type : r.jobType = type.name
  created : r.createdAt = t.stamp

/-- A row that a call of the history has made, and that has a status. -/
structure Row.Sound (h : History) (r : Row) : Prop where
  status : ∃ s : JobStatus, r.status = s.name
  made : ∃ before t type metadata rest, h = before ++ (t, .create type metadata) :: rest ∧ r.MadeBy before t type

theorem Row.Sound.becomes {h : History} {r r' : Row} (hr : r.Sound h) (hb : r.Becomes r') : r'.Sound h := by
  obtain ⟨s, hs⟩ := hr.status
  obtain ⟨before, t, type, metadata, rest, hsplit, hmade⟩ := hr.made
  obtain ⟨s', hs', -⟩ := hb.moves s hs
  refine ⟨⟨s', hs'⟩, before, t, type, metadata, rest, hsplit, ?_⟩
  constructor
  · rw [hb.id, hmade.id]
  · rw [hb.type, hmade.type]
  · rw [hb.created, hmade.created]

theorem Row.Sound.append {h : History} {r : Row} (hr : r.Sound h) (calls : History) : r.Sound (h ++ calls) := by
  obtain ⟨before, t, type, metadata, rest, hsplit, hmade⟩ := hr.made
  refine ⟨hr.status, before, t, type, metadata, rest ++ calls, ?_, hmade⟩
  rw [hsplit, List.append_assoc, List.cons_append]

/-- Every row of every history is sound. -/
theorem replay_sound (h : History) : ∀ r ∈ (replay h).rows, r.Sound h := by
  induction h using List.reverseRecOn with
  | nil => exact fun _ hr => absurd hr List.not_mem_nil
  | append_singleton h call ih =>
    obtain ⟨now, a⟩ := call
    intro r' hr'
    rcases (replay_forward h now a).origin r' hr' with ⟨r, hr, hb⟩ | ⟨type, metadata, rfl, rfl⟩
    · exact ((ih r hr).append _).becomes hb
    · exact ⟨⟨.pending, rfl⟩, h, now, type, metadata, [], rfl, rfl, rfl, rfl⟩

/-! ## How many rows there are -/

/-- The store numbers its rows with integers of 64 bits. -/
def Fits (l : Ledger) : Prop := ∀ r ∈ l.rows, r.id < 2 ^ 63

instance (l : Ledger) : Decidable l.Fits := by unfold Fits; infer_instance

theorem zero_le_lastId (l : Ledger) : 0 ≤ l.lastId := (le_foldl_max l.rows 0).1

theorem Row.Sound.id_pos {h : History} {r : Row} (hr : r.Sound h) : 1 ≤ r.id := by
  obtain ⟨before, t, type, metadata, rest, -, hmade⟩ := hr.made
  have hlast := zero_le_lastId (replay before)
  have hid := hmade.id
  omega

/-- Rows of rising ids are no more than the ids there are. -/
theorem length_of_ids {rows : List Row} (hids : rows.Pairwise fun a b => a.id < b.id) {least bound : Int}
    (hbound : least ≤ bound) (hrows : ∀ r ∈ rows, least ≤ r.id ∧ r.id < bound) : least + rows.length ≤ bound := by
  induction rows generalizing least with
  | nil => simpa using hbound
  | cons a rows ih =>
    obtain ⟨hfirst, hrest⟩ := List.pairwise_cons.1 hids
    have ha := hrows a List.mem_cons_self
    have hlater : ∀ r ∈ rows, least + 1 ≤ r.id ∧ r.id < bound := by
      intro r hr
      have hr' := hrows r (List.mem_cons_of_mem _ hr)
      have hlt := hfirst r hr
      omega
    have hcount : least + 1 + rows.length ≤ bound := ih hrest (by omega) hlater
    rw [List.length_cons]
    push_cast
    omega

theorem Fits.length_lt {h : History} (hfit : (replay h).Fits) : (replay h).rows.length < 2 ^ 63 := by
  have hcount : 1 + ((replay h).rows.length : Int) ≤ 2 ^ 63 :=
    length_of_ids (replay_ids h) (by decide) fun r hr => ⟨(replay_sound h r hr).id_pos, hfit r hr⟩
  omega

/-! ## The jobs in rows -/

theorem parse_type (t : JobType) : JobType.parse t.name = some t := by
  cases t <;> decide

theorem parse_status (s : JobStatus) : JobStatus.parse s.name = some s := by
  cases s <;> decide

theorem type_name_inj {s t : JobType} : s.name = t.name ↔ s = t := by
  cases s <;> cases t <;> decide

/-- The job of a row that tells one. -/
def Row.job (now : Instant) (r : Row) : Job :=
  match r.toJob now with
  | .ok j => j
  | .error _ => default

theorem Row.toJob_of_names {r : Row} {type : JobType} {status : JobStatus} (ht : r.jobType = type.name)
    (hs : r.status = status.name) (now : Instant) :
    r.toJob now = .ok (r.job now) ∧ (r.job now).id = r.id ∧ (r.job now).type = type ∧
      (r.job now).status = status ∧ (r.job now).createdAt = (read? r.createdAt).getD now := by
  have hparse : JobType.parse r.jobType = some type := by rw [ht, parse_type]
  have hparse' : JobStatus.parse r.status = some status := by rw [hs, parse_status]
  have hok : ∃ j, r.toJob now = .ok j ∧ j.id = r.id ∧ j.type = type ∧ j.status = status ∧
      j.createdAt = (read? r.createdAt).getD now := by
    unfold Row.toJob
    rw [hparse, hparse']
    exact ⟨_, rfl, rfl, rfl, rfl, rfl⟩
  obtain ⟨j, hj, hfields⟩ := hok
  have hjob : r.job now = j := by
    unfold Row.job
    rw [hj]
  rw [hjob]
  exact ⟨hj, hfields⟩

/-- Whether a job passes both filters. -/
def selected (type : Option JobType) (status : Option JobStatus) (j : Job) : Bool :=
  type.all (j.type = ·) && status.all (j.status = ·)

section Sound

variable {h : History} {r : Row} (hr : r.Sound h) (now : Instant)
include hr

theorem Row.Sound.toJob : r.toJob now = .ok (r.job now) := by
  obtain ⟨s, hs⟩ := hr.status
  obtain ⟨before, t, type, metadata, rest, -, hmade⟩ := hr.made
  exact (Row.toJob_of_names hmade.type hs now).1

theorem Row.Sound.job_id : (r.job now).id = r.id := by
  obtain ⟨s, hs⟩ := hr.status
  obtain ⟨before, t, type, metadata, rest, -, hmade⟩ := hr.made
  exact (Row.toJob_of_names hmade.type hs now).2.1

/-- The query compares names where the filters compare what they name. -/
theorem Row.Sound.matches_eq (q : Query) : q.matches r = selected q.type q.status (r.job now) := by
  obtain ⟨s, hs⟩ := hr.status
  obtain ⟨before, t, type, metadata, rest, -, hmade⟩ := hr.made
  obtain ⟨-, -, htype, hstatus, -⟩ := Row.toJob_of_names hmade.type hs now
  unfold Query.matches selected
  rw [htype, hstatus, hmade.type, hs]
  congr 1
  · cases q.type with
    | none => rfl
    | some t => simp [type_name_inj]
  · cases q.status with
    | none => rfl
    | some t => simp [name_inj]

end Sound

/-! ## The order of rows and of jobs -/

/-- Rows in the order in which they are shown. -/
def Row.Later (a b : Row) : Prop := b.createdAt < a.createdAt ∨ (a.createdAt = b.createdAt ∧ b.id < a.id)

/-- Jobs in the order in which they are shown: the later creation first, then the greater id. -/
def Later (a b : Job) : Prop := a.createdAt.le b.createdAt = false ∨ (a.createdAt = b.createdAt ∧ b.id < a.id)

/-- A call of the history at the job's time of creation has made it. -/
def MadeIn (h : History) (j : Job) : Prop :=
  ∃ before t metadata rest, h = before ++ (t, .create j.type metadata) :: rest ∧
    j.id = (replay before).lastId + 1 ∧ j.createdAt = t.toMillis

theorem Row.before_iff {a b : Row} :
    a.before b = true ↔ b.createdAt < a.createdAt ∨ (a.createdAt = b.createdAt ∧ b.id ≤ a.id) := by
  simp [Row.before]

theorem Row.before_trans (a b c : Row) (hab : a.before b = true) (hbc : b.before c = true) : a.before c = true := by
  rw [Row.before_iff] at hab hbc ⊢
  rcases hab with hab | ⟨hab, hid⟩
  · rcases hbc with hbc | ⟨hbc, -⟩
    · exact .inl (hbc.trans hab)
    · exact .inl (hbc ▸ hab)
  · rcases hbc with hbc | ⟨hbc, hid'⟩
    · exact .inl (hab ▸ hbc)
    · exact .inr ⟨hab.trans hbc, hid'.trans hid⟩

theorem Row.before_total (a b : Row) : (a.before b || b.before a) = true := by
  rw [Bool.or_eq_true, Row.before_iff, Row.before_iff]
  rcases lt_trichotomy a.createdAt b.createdAt with hlt | heq | hgt
  · exact .inr (.inl hlt)
  · rcases Int.le_total b.id a.id with hle | hle
    · exact .inl (.inr ⟨heq, hle⟩)
    · exact .inr (.inr ⟨heq.symm, hle⟩)
  · exact .inl (.inl hgt)

theorem matching_perm (l : Ledger) (q : Query) : (l.matching q).Perm (l.rows.filter q.matches) :=
  List.mergeSort_perm _ Row.before

theorem mem_matching {l : Ledger} {q : Query} {r : Row} : r ∈ l.matching q ↔ r ∈ l.rows ∧ q.matches r = true := by
  rw [(matching_perm l q).mem_iff, List.mem_filter]

/-- The rows of a query come in the order of `ORDER BY`, whatever the texts are. -/
theorem matching_sorted (l : Ledger) (q : Query) : (l.matching q).Pairwise fun r s => r.before s = true :=
  List.pairwise_mergeSort Row.before_trans Row.before_total _

/-- The rows of a query come in their order, and no two of them have one id. -/
theorem matching_ordered (h : History) (q : Query) : ((replay h).matching q).Pairwise Row.Later := by
  have hdistinct : ((replay h).matching q).Pairwise fun a b => a.id ≠ b.id := by
    have hrows : ((replay h).rows.filter q.matches).Pairwise fun a b => a.id ≠ b.id :=
      ((replay_ids h).filter _).imp fun {a b} hlt => ne_of_lt hlt
    exact ((matching_perm _ q).pairwise_iff fun {x y} hne => hne.symm).2 hrows
  refine ((matching_sorted _ q).and hdistinct).imp fun {a b} hab => ?_
  obtain ⟨hbefore, hne⟩ := hab
  rcases Row.before_iff.1 hbefore with hlt | ⟨heq, hle⟩
  · exact .inl hlt
  · exact .inr ⟨heq, lt_of_le_of_ne hle hne.symm⟩

/-- A history at whose instants years have four digits. -/
def History.Civil (h : History) : Prop := ∀ call ∈ h, call.1.Civil

theorem Row.Sound.madeIn {h : History} {r : Row} (hr : r.Sound h) (hh : h.Civil) (now : Instant) :
    MadeIn h (r.job now) ∧ ∃ t : Instant, t.Civil ∧ r.createdAt = t.stamp ∧ (r.job now).createdAt = t.toMillis := by
  obtain ⟨s, hs⟩ := hr.status
  obtain ⟨before, t, type, metadata, rest, hsplit, hmade⟩ := hr.made
  obtain ⟨-, hid, htype, -, hcreated⟩ := Row.toJob_of_names hmade.type hs now
  have ht : t.Civil := hh (t, .create type metadata) (by rw [hsplit]; simp)
  rw [hmade.created, read_stamp ht, Option.getD_some] at hcreated
  refine ⟨⟨before, t, metadata, rest, ?_, ?_, hcreated⟩, t, ht, hmade.created, hcreated⟩
  · rw [htype]
    exact hsplit
  · rw [hid, hmade.id]

/-- The order of rows is that of their jobs. -/
theorem Row.Later.job {h : History} (hh : h.Civil) {a b : Row} (ha : a.Sound h) (hb : b.Sound h) (hab : a.Later b)
    (now : Instant) : Ledger.Later (a.job now) (b.job now) := by
  obtain ⟨-, t, ht, hat, hat'⟩ := ha.madeIn hh now
  obtain ⟨-, u, hu, hbu, hbu'⟩ := hb.madeIn hh now
  unfold Ledger.Later
  rw [hat', hbu', ha.job_id, hb.job_id]
  rcases hab with hlt | ⟨heq, hid⟩
  · rw [hat, hbu] at hlt
    exact .inl ((Instant.stamp_lt_iff hu ht).1 hlt)
  · refine .inr ⟨?_, hid⟩
    have hread := read_stamp ht
    rw [← hat, heq, hbu, read_stamp hu] at hread
    exact (Option.some.inj hread).symm

/-! ## Pages of a list -/

section Pages

variable {α : Type}

/-- The first pages put together are the front of the list. -/
theorem pages_eq_take (xs : List α) (size n : Nat) :
    ((List.range' 1 n).flatMap fun k => (xs.drop ((k - 1) * size)).take size) = xs.take (n * size) := by
  induction n with
  | zero => simp
  | succ n ih =>
    rw [List.range'_1_concat, List.flatMap_append, ih, Nat.succ_mul, List.take_add]
    simp

theorem pages_count {size : Nat} (hsize : 1 ≤ size) (total : Nat) :
    total ≤ (total + size - 1) / size * size ∧ ∀ k < (total + size - 1) / size, k * size < total := by
  have hdiv := Nat.div_add_mod (total + size - 1) size
  have hmod := Nat.mod_lt (total + size - 1) hsize
  rw [Nat.mul_comm] at hdiv
  refine ⟨by omega, fun k hk => ?_⟩
  have hle : (k + 1) * size ≤ (total + size - 1) / size * size := Nat.mul_le_mul_right size hk
  rw [Nat.succ_mul] at hle
  omega

theorem pages_flatten (xs : List α) {size : Nat} (hsize : 1 ≤ size) :
    ((List.range' 1 ((xs.length + size - 1) / size)).flatMap fun k => (xs.drop ((k - 1) * size)).take size) = xs := by
  rw [pages_eq_take]
  exact List.take_of_length_le (pages_count hsize xs.length).1

theorem page_full (xs : List α) {size k : Nat} (hsize : 1 ≤ size) (hfirst : 1 ≤ k)
    (hk : k < (xs.length + size - 1) / size) : ((xs.drop ((k - 1) * size)).take size).length = size := by
  have hlast := (pages_count hsize xs.length).2 k hk
  have hend : (k - 1) * size + size = k * size := by
    rw [← Nat.succ_mul, Nat.succ_eq_add_one, Nat.sub_add_cancel hfirst]
  rw [List.length_take, List.length_drop]
  omega

end Pages

/-! ## Lists of jobs -/

/-- The jobs of a ledger that pass two filters, as they are shown. -/
structure Listing (h : History) (now : Instant) (type : Option JobType) (status : Option JobStatus)
    (shown : List Job) : Prop where
  /-- Every job that passes is there, and is there once. -/
  whole : ∃ all, (replay h).rows.mapM (Row.toJob now) = .ok all ∧ shown.Perm (all.filter (selected type status))
  /-- The stored times of creation are in their order as texts. -/
  stored : ∃ rows, rows ⊆ (replay h).rows ∧ rows.mapM (Row.toJob now) = .ok shown ∧ rows.Pairwise Row.Later
  /-- The times of creation are in their order in time. -/
  ordered : h.Civil → shown.Pairwise Later ∧ ∀ j ∈ shown, MadeIn h j

section Listing

variable (h : History) (now : Instant)

theorem matching_sound (q : Query) : ∀ r ∈ (replay h).matching q, r ∈ (replay h).rows ∧ r.Sound h := by
  intro r hr
  obtain ⟨hrow, -⟩ := mem_matching.1 hr
  exact ⟨hrow, replay_sound h r hrow⟩

/-- The jobs that match a query, as they are shown. -/
def listing (q : Query) : List Job := ((replay h).matching q).map (Row.job now)

variable (q : Query)

theorem listing_spec : Listing h now q.type q.status (listing h now q) := by
  have hsound := matching_sound h q
  have hordered := matching_ordered h q
  refine ⟨⟨(replay h).rows.map (Row.job now), mapM_ok fun r hr => (replay_sound h r hr).toJob now, ?_⟩, ?_, ?_⟩
  · have hfilter : (replay h).rows.filter q.matches =
        (replay h).rows.filter (selected q.type q.status ∘ Row.job now) :=
      List.filter_congr fun r hr => (replay_sound h r hr).matches_eq now q
    rw [List.filter_map, ← hfilter]
    exact (matching_perm _ q).map _
  · exact ⟨_, fun r hr => (hsound r hr).1, mapM_ok fun r hr => (hsound r hr).2.toJob now, hordered⟩
  · intro hh
    refine ⟨List.pairwise_map.2 (hordered.imp_of_mem fun {a b} ha hb hab => ?_), fun j hj => ?_⟩
    · exact hab.job hh (hsound a ha).2 (hsound b hb).2 now
    · obtain ⟨r, hr, rfl⟩ := List.mem_map.1 hj
      exact ((hsound r hr).2.madeIn hh now).1

/-- A page is a part of the listing. -/
theorem list_eq : (replay h).list now q =
    .ok ⟨((listing h now q).drop q.skipped).take q.limit, (listing h now q).length⟩ := by
  have hread : ((((replay h).matching q).drop q.skipped).take q.limit).mapM (Row.toJob now) =
      .ok (((listing h now q).drop q.skipped).take q.limit) := by
    unfold listing
    rw [← List.map_drop, ← List.map_take]
    refine mapM_ok fun r hr => ?_
    exact (matching_sound h q r (List.mem_of_mem_drop (List.mem_of_mem_take hr))).2.toJob now
  have hlength : (listing h now q).length = ((replay h).matching q).length := List.length_map ..
  unfold list
  dsimp only
  rw [hread, hlength]
  rfl

theorem lastOfType_eq (type : JobType) :
    (replay h).lastOfType now type = .ok (listing h now { type := some type }).head? := by
  have hsound := matching_sound h { type := some type }
  unfold lastOfType listing
  cases hrows : (replay h).matching { type := some type } with
  | nil => rfl
  | cons r rows =>
    rw [hrows] at hsound
    show (r.toJob now).map some = _
    rw [(hsound r List.mem_cons_self).2.toJob now]
    rfl

theorem listing_length_lt (hfit : (replay h).Fits) : (listing h now q).length < 2 ^ 63 := by
  unfold listing matching
  rw [List.length_map, List.length_mergeSort]
  exact Nat.lt_of_le_of_lt (List.length_filter_le ..) hfit.length_lt

end Listing

theorem Query.limit_pos (q : Query) : 1 ≤ q.limit := Nat.le_max_left ..

/-- No page that is needed lies so far behind that its place is lost. -/
theorem Query.skipped_eq {q : Query} {total : Nat} (htotal : total < 2 ^ 63) (hfirst : 1 ≤ q.page)
    (hlast : q.page ≤ (total + q.limit - 1) / q.limit) : q.skipped = (q.page - 1) * q.limit := by
  have hoffset : q.offset = (q.page - 1) * q.limit := by
    unfold Query.offset
    rw [max_eq_left hfirst]
  have hstart := (pages_count q.limit_pos total).2 (q.page - 1) (by omega)
  have hsmall : q.offset < 2 ^ 63 := by
    rw [hoffset]
    exact Nat.lt_trans hstart htotal
  rw [← hoffset]
  exact if_pos hsmall

/-- **Pages tile the ledger.** After every history, for any two filters and any page size, there is one listing of
the jobs that match, the latest first. Every page tells its length as the total; the pages from the first to the last
that is needed make up the listing; all but the last of them are full; page 0 is page 1; and the last job of a type is
the first of its listing. -/
theorem pages_tile_the_ledger (h : History) (hfit : (replay h).Fits) (now : Instant) (type : Option JobType)
    (status : Option JobStatus) (pageSize : Nat) :
    ∃ shown : List Job, Listing h now type status shown ∧
      (∃ page : Nat → List Job,
        (∀ k, (replay h).list now ⟨k, pageSize, type, status⟩ = .ok ⟨page k, shown.length⟩) ∧
        (let size := max 1 (min pageSize 500)
         let pages := (shown.length + size - 1) / size
         (List.range' 1 pages).flatMap page = shown ∧ ∀ k, 1 ≤ k → k < pages → (page k).length = size) ∧
        page 0 = page 1) ∧
      ∀ t, type = some t → status = none → (replay h).lastOfType now t = .ok shown.head? := by
  let query (k : Nat) : Query := ⟨k, pageSize, type, status⟩
  have hsize := (query 1).limit_pos
  have hfew := listing_length_lt h now (query 1) hfit
  refine ⟨listing h now (query 1), listing_spec h now (query 1),
    ⟨fun k => ((listing h now (query 1)).drop (query k).skipped).take (query 1).limit, fun k => ?_, ?_, rfl⟩, ?_⟩
  · exact list_eq h now (query k)
  · intro size pages
    have hpage : ∀ k, 1 ≤ k → k ≤ pages →
        ((listing h now (query 1)).drop (query k).skipped).take size =
          ((listing h now (query 1)).drop ((k - 1) * size)).take size := by
      intro k hfirst hlast
      have hskip : (query k).skipped = (k - 1) * size := Query.skipped_eq hfew hfirst hlast
      rw [hskip]
    refine ⟨?_, fun k hfirst hlast => ?_⟩
    · have hpages := List.flatMap_congr fun k (hk : k ∈ List.range' 1 pages) =>
        hpage k (List.mem_range'_1.1 hk).1 (by have := (List.mem_range'_1.1 hk).2; omega)
      exact hpages.trans (pages_flatten _ hsize)
    · show (((listing h now (query 1)).drop (query k).skipped).take size).length = size
      rw [hpage k hfirst (Nat.le_of_lt hlast)]
      exact page_full _ hsize hfirst hlast
  · rintro t rfl rfl
    exact lastOfType_eq h now t

/-- Five jobs shown two by two, three of them made in one millisecond. -/
theorem five_jobs_on_three_pages :
    let t := Instant.addSeconds default
    let h : History :=
      [(t 0, .create .cardImport .null), (t 0, .create .cardImport .null), (t 5, .create .setImport .null),
        (t 0, .create .cardImport .null), (t 9, .create .setImport .null)]
    (replay h).Fits ∧ ∃ (shown : List Job) (page : Nat → List Job),
      Listing h (t 9) none none shown ∧ shown.length = 5 ∧ page 1 ++ page 2 ++ page 3 = shown ∧
        (page 1).length = 2 ∧ (page 2).length = 2 := by
  intro t h
  have hfit : (replay h).Fits := by decide
  obtain ⟨shown, hlisting, ⟨page, -, ⟨hpages, hfull⟩, -⟩, -⟩ := pages_tile_the_ledger h hfit (t 9) none none 2
  have hlength : shown.length = 5 := by
    obtain ⟨all, hall, hperm⟩ := hlisting.whole
    rw [mapM_ok fun r hr => (replay_sound h r hr).toJob (t 9)] at hall
    cases hall
    rw [hperm.length_eq]
    rfl
  have hsize : max 1 (min 2 500) = 2 := rfl
  rw [hlength, hsize] at hpages hfull
  refine ⟨hfit, shown, page, hlisting, hlength, ?_, hfull 1 (by decide) (by decide), hfull 2 (by decide) (by decide)⟩
  rw [← hpages]
  simp [List.range'_succ]

/-! ## Behind the last page -/

/-- A place that the store can take as a number of its own is skipped to. -/
theorem Query.skipped_of_lt {q : Query} (hsmall : q.offset < 2 ^ 63) : q.skipped = q.offset := if_pos hsmall

/-- A greater one is a negative number to the store, and skips nothing. -/
theorem Query.skipped_of_le {q : Query} (hlarge : 2 ^ 63 ≤ q.offset) : q.skipped = 0 := if_neg (Nat.not_lt.2 hlarge)

/-- **A page past the end.** After every history, let a query's page begin behind all jobs that match, at a place of
64 bits. The total is their number. The page is empty as long as its place has 63 bits, and from there on it is page 1. -/
theorem page_past_the_end (h : History) (now : Instant) (q : Query) :
    ∃ shown : List Job, Listing h now q.type q.status shown ∧
      (shown.length ≤ q.offset → q.offset < 2 ^ 64 →
        (q.offset < 2 ^ 63 → (replay h).list now q = .ok ⟨[], shown.length⟩) ∧
        (2 ^ 63 ≤ q.offset →
          (replay h).list now q = .ok ⟨shown.take q.limit, shown.length⟩ ∧
          (replay h).list now q = (replay h).list now { q with page := 1 })) := by
  refine ⟨listing h now q, listing_spec h now q, fun hpast _ => ⟨fun hsmall => ?_, fun hlarge => ?_⟩⟩
  · have hnone : (listing h now q).drop q.offset = [] := List.drop_eq_nil_of_le hpast
    rw [list_eq, Query.skipped_of_lt hsmall, hnone, List.take_nil]
  · have hpage : (replay h).list now q = .ok ⟨(listing h now q).take q.limit, (listing h now q).length⟩ := by
      rw [list_eq, Query.skipped_of_le hlarge, List.drop_zero]
    have hfirst : ({ q with page := 1 } : Query).skipped = 0 := by simp [Query.skipped, Query.offset]
    refine ⟨hpage, hpage.trans ?_⟩
    rw [list_eq h now { q with page := 1 }, hfirst, List.drop_zero]
    rfl

/-- One job on pages of one: page 7 is empty, and page 2 ^ 63 + 1 is page 1. -/
theorem one_job_far_behind :
    let h : History := [(default, .create .cardImport .null)]
    let q (page : Nat) : Query := ⟨page, 1, none, none⟩
    (replay h).list default (q 7) = .ok ⟨[], 1⟩ ∧
      (replay h).list default (q (2 ^ 63 + 1)) = (replay h).list default (q 1) := by
  intro h q
  have hcount : ∀ {page : Nat} {shown : List Job}, Listing h default (q page).type (q page).status shown →
      shown.length = 1 := by
    intro page shown hlisting
    obtain ⟨all, hall, hperm⟩ := hlisting.whole
    rw [mapM_ok fun r hr => (replay_sound h r hr).toJob default] at hall
    cases hall
    rw [hperm.length_eq]
    rfl
  obtain ⟨shown, hshown, hpage⟩ := page_past_the_end h default (q 7)
  obtain ⟨shown', hshown', hpage'⟩ := page_past_the_end h default (q (2 ^ 63 + 1))
  rw [hcount hshown] at hpage
  rw [hcount hshown'] at hpage'
  refine ⟨(hpage (by decide) (by decide)).1 (by decide), ?_⟩
  exact ((hpage' (by decide) (by decide)).2 (by decide)).2

/-- A page of 64 bits behind the only job shows that job. -/
theorem far_page_shows_the_first_job :
    let h : History := [(default, .create .cardImport .null)]
    let q : Query := ⟨2 ^ 63 + 1, 1, none, none⟩
    1 ≤ q.offset ∧ q.offset < 2 ^ 64 ∧
      ((replay h).list default q).toOption.map (fun page => (page.jobs.map Job.id, page.total)) = some ([1], 1) := by
  intro h q
  have hpage : (listing h default q).drop q.skipped = listing h default q := by
    rw [Query.skipped_of_le (by decide), List.drop_zero]
  have hlisting : (listing h default q).map Job.id = [1] := by
    unfold listing matching
    have hrows : (replay h).rows.filter q.matches = [Row.fresh default 1 .cardImport .null] := rfl
    rw [hrows, List.mergeSort_singleton]
    decide
  refine ⟨by decide, by decide, ?_⟩
  rw [list_eq, hpage]
  show some (((listing h default q).take q.limit).map Job.id, (listing h default q).length) = _
  rw [List.map_take, hlisting, ← List.length_map Job.id, hlisting]
  rfl

end CatalogSync.Ledger
