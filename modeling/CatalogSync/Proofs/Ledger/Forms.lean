import CatalogSync.Import.Progress
import CatalogSync.Ledger.Job
import CatalogSync.Proofs.Json.Records
import CatalogSync.Proofs.Time.Loosely

/-!
# The JSON forms of jobs and progress

A job is read back from the JSON form it is written in just if it is kept (`Job.Kept`), and progress always is. The readers
take other forms too: arrays, members in any number, instants written loosely. Whatever form is read, what it is read as is
written in one form.

Main statement: `written_form_is_normal`.
-/

namespace CatalogSync

open CatalogSync.Json CatalogSync.Text CatalogSync.Time

/-! ## Values -/

theorem int64_of_le {i : Int} (h : i ≤ Decimal.maxInt64) : Reader.int64 (.int i) = .ok i := if_pos h

theorem le_of_int64 {v : Json} {i : Int} (h : Reader.int64 v = .ok i) : i ≤ Decimal.maxInt64 := by
  cases v with
  | int j =>
    by_cases hj : j ≤ Decimal.maxInt64
    · rw [int64_of_le hj] at h
      cases h
      exact hj
    · rw [show Reader.int64 (.int j) = _ from if_neg hj] at h
      cases h
  | _ => cases h

theorem nat64_ofNat (n : Nat) : Reader.nat64 (.ofNat n) = .ok n := by
  simp [Reader.nat64, Json.ofNat]

theorem optional_ofText? (o : Option String) : Reader.text.optional (.ofText? o) = .ok o := by
  cases o <;> rfl

theorem list_texts (texts : List String) : Reader.list Reader.text (.array (texts.map .text)) = .ok texts := by
  show (texts.map Json.text).mapM Reader.text = .ok texts
  rw [mapM_eq_ok_iff fun _ _ _ => Iff.rfl, List.forall₂_map_left_iff, List.forall₂_same]
  exact fun _ _ => rfl

namespace Job

theorem instantReader_text {s : String} {t : Instant} (h : Loose.read s = .ok t) : instantReader (.text s) = .ok t := by
  unfold instantReader
  dsimp only
  rw [h]

theorem instantReader_text? {s : String} {t : Instant} (h : Loose.read s = .ok t) :
    instantReader.optional (.text s) = .ok (some t) := bind_eq_ok_iff.2 ⟨t, instantReader_text h, rfl⟩

theorem instantReader_json {t : Instant} (h : t.Kept) : instantReader (instantJson t) = .ok t :=
  instantReader_text (Loose.read_zulu h)

theorem kept_of_instantReader {v : Json} {t : Instant} (h : instantReader v = .ok t) : t.Kept := by
  unfold instantReader at h
  split at h
  · split at h
    · next hread =>
      cases h
      exact Loose.kept_of_read hread
    · cases h
  · cases h

theorem instantReader_json? {o : Option Instant} (h : ∀ t ∈ o, t.Kept) :
    instantReader.optional (instantJson? o) = .ok o := by
  cases o with
  | none => rfl
  | some t => exact instantReader_text? (Loose.read_zulu (h t rfl))

theorem kept_of_instantReader? {v : Json} {o : Option Instant} (h : instantReader.optional v = .ok o) :
    ∀ t ∈ o, t.Kept := by
  rintro t rfl
  unfold Reader.optional at h
  split at h
  · cases h
  · obtain ⟨u, hread, h⟩ := ok_of_bind h
    cases h
    exact kept_of_instantReader hread

theorem type_named (type : JobType) : Reader.choice JobType.options (.text type.name) = .ok type := by
  cases type <;> rfl

theorem status_named (status : JobStatus) : Reader.choice JobStatus.options (.text status.name) = .ok status := by
  cases status <;> rfl

/-! ## Jobs -/

/-- A job whose number is no greater than one of 64 bits with a sign, and whose instants are kept. -/
structure Kept (job : Job) : Prop where
  id : job.id ≤ Decimal.maxInt64
  created : job.createdAt.Kept
  updated : job.updatedAt.Kept
  started : ∀ t ∈ job.startedAt, t.Kept
  completed : ∀ t ∈ job.completedAt, t.Kept

/-- The fields of a job. -/
structure Gets (f : Fields) (job : Job) : Prop where
  id : f.get 0 idSlot = .ok job.id
  type : f.get 1 typeSlot = .ok job.type
  status : f.get 2 statusSlot = .ok job.status
  metadata : f.get 3 metadataSlot = .ok job.metadata
  error : f.get 4 errorSlot = .ok job.error
  createdAt : f.get 5 createdSlot = .ok job.createdAt
  updatedAt : f.get 6 updatedSlot = .ok job.updatedAt
  startedAt : f.get 7 startedSlot = .ok job.startedAt
  completedAt : f.get 8 completedSlot = .ok job.completedAt

theorem gets_of_reader {v : Json} {job : Job} (h : reader v = .ok job) : ∃ f, Gets f job := by
  obtain ⟨f, h⟩ := build_of_record h
  simp only [bind_eq_ok_iff] at h
  obtain ⟨_, hid, _, htype, _, hstatus, _, hmetadata, _, herror, _, hcreated, _, hupdated, _, hstarted, _, hcompleted,
    h⟩ := h
  cases h
  exact ⟨f, hid, htype, hstatus, hmetadata, herror, hcreated, hupdated, hstarted, hcompleted⟩

theorem reader_object {ms : List (String × Json)} {job : Job} (hkeys : (ms.map Prod.fst).Nodup)
    (h : Gets (.members ms) job) : reader (.object ms) = .ok job := by
  unfold reader
  rw [record_object_iff hkeys fun _ => ?_]
  · simp only [bind_eq_ok_iff]
    exact ⟨_, h.id, _, h.type, _, h.status, _, h.metadata, _, h.error, _, h.createdAt, _, h.updatedAt, _, h.startedAt, _,
      h.completedAt, rfl⟩
  · simp only [List.forall_mem_cons]
    exact ⟨get_probed h.id, get_probed h.type, get_probed h.status, get_probed h.metadata, get_probed h.error,
      get_probed h.createdAt, get_probed h.updatedAt, get_probed h.startedAt, get_probed h.completedAt, nofun⟩

theorem reader_toJson {job : Job} (h : job.Kept) : reader job.toJson = .ok job := by
  unfold toJson ofPairs
  refine reader_object (Dict.rising_ofList _).nodup ?_
  have hkeys : List.Nodup
      ["id", "job_type", "status", "metadata", "error", "created_at", "updated_at", "started_at", "completed_at"] := by
    decide
  exact ⟨get_ofList hkeys rfl rfl (int64_of_le h.id) rfl, get_ofList hkeys rfl rfl (type_named job.type) rfl,
    get_ofList hkeys rfl rfl (status_named job.status) rfl,
    get_ofList (v := job.metadata) (r := .any) hkeys rfl rfl rfl rfl,
    get_ofList hkeys rfl rfl (optional_ofText? job.error) rfl,
    get_ofList hkeys rfl rfl (instantReader_json h.created) rfl,
    get_ofList hkeys rfl rfl (instantReader_json h.updated) rfl,
    get_ofList hkeys rfl rfl (instantReader_json? h.started) rfl,
    get_ofList hkeys rfl rfl (instantReader_json? h.completed) rfl⟩

theorem kept_of_reader {v : Json} {job : Job} (h : reader v = .ok job) : job.Kept := by
  obtain ⟨f, hgets⟩ := gets_of_reader h
  obtain ⟨v, hid⟩ := read_of_get rfl rfl hgets.id
  obtain ⟨v', hcreated⟩ := read_of_get rfl rfl hgets.createdAt
  obtain ⟨v'', hupdated⟩ := read_of_get rfl rfl hgets.updatedAt
  have hmay : ∀ {o : Option Instant}, (o = none ∨ ∃ v, instantReader.optional v = .ok o) → ∀ t ∈ o, t.Kept := by
    rintro o (rfl | ⟨v, hread⟩)
    · exact nofun
    · exact kept_of_instantReader? hread
  exact ⟨le_of_int64 hid, kept_of_instantReader hcreated, kept_of_instantReader hupdated,
    hmay (read_of_get? hgets.startedAt), hmay (read_of_get? hgets.completedAt)⟩

theorem reader_toJson_iff {job : Job} : reader job.toJson = .ok job ↔ job.Kept := ⟨kept_of_reader, reader_toJson⟩

end Job

/-! ## Progress -/

namespace Import.Progress

theorem phase_named (phase : Phase) : Reader.choice Phase.options (.text phase.name) = .ok phase := by
  cases phase <;> rfl

/-- The fields of progress. -/
structure Gets (f : Fields) (p : Progress) : Prop where
  dataset : f.get 0 datasetSlot = .ok p.dataset
  phase : f.get 1 phaseSlot = .ok p.phase
  downloadUri : f.get 2 uriSlot = .ok p.downloadUri
  processed : f.get 3 (countSlot "processed") = .ok p.processed
  succeeded : f.get 4 (countSlot "succeeded") = .ok p.succeeded
  failed : f.get 5 (countSlot "failed") = .ok p.failed
  batches : f.get 6 (countSlot "batches") = .ok p.batches
  examples : f.get 7 examplesSlot = .ok p.examples
  error : f.get 8 errorSlot = .ok p.error

theorem reader_object {ms : List (String × Json)} {p : Progress} (hkeys : (ms.map Prod.fst).Nodup)
    (h : Gets (.members ms) p) : reader (.object ms) = .ok p := by
  unfold reader
  rw [record_object_iff hkeys fun _ => ?_]
  · simp only [bind_eq_ok_iff]
    exact ⟨_, h.dataset, _, h.phase, _, h.downloadUri, _, h.processed, _, h.succeeded, _, h.failed, _, h.batches, _,
      h.examples, _, h.error, rfl⟩
  · simp only [List.forall_mem_cons]
    exact ⟨get_probed h.dataset, get_probed h.phase, get_probed h.downloadUri, get_probed h.processed,
      get_probed h.succeeded, get_probed h.failed, get_probed h.batches, get_probed h.examples, get_probed h.error, nofun⟩

theorem reader_toJson (p : Progress) : reader p.toJson = .ok p := by
  unfold toJson ofPairs
  refine reader_object (Dict.rising_ofList _).nodup ?_
  have hkeys : List.Nodup
      ["dataset", "phase", "download_uri", "processed", "succeeded", "failed", "batches", "failure_examples", "error"] := by
    decide
  exact ⟨get_ofList (v := .text p.dataset) (r := .text) hkeys rfl rfl rfl rfl,
    get_ofList hkeys rfl rfl (phase_named p.phase) rfl,
    get_ofList hkeys rfl rfl (optional_ofText? p.downloadUri) rfl,
    get_ofList hkeys rfl rfl (nat64_ofNat p.processed) rfl,
    get_ofList hkeys rfl rfl (nat64_ofNat p.succeeded) rfl,
    get_ofList hkeys rfl rfl (nat64_ofNat p.failed) rfl,
    get_ofList hkeys rfl rfl (nat64_ofNat p.batches) rfl,
    get_ofList hkeys rfl rfl (list_texts p.examples) rfl,
    get_ofList hkeys rfl rfl (optional_ofText? p.error) rfl⟩

end Import.Progress

/-! ## Main theorem -/

/-- Where what is read is read back once it is written, writing again changes nothing. -/
theorem normal_of_back {α : Type} {read : Reader α} {write : α → Json}
    (hback : ∀ v a, read v = .ok a → read (write a) = .ok a) (v w : Json) (h : (read v).map write = .ok w) :
    read w = read v ∧ (read w).map write = .ok w := by
  cases hread : read v with
  | error e =>
    rw [hread] at h
    cases h
  | ok a =>
    rw [hread] at h
    obtain rfl : write a = w := Except.ok.inj h
    rw [hback v a hread]
    exact ⟨rfl, rfl⟩

open Import in
/-- **The written form is a normal form.** The jobs that are kept, and these alone, are read back from what they are
written as, and all progress is: a job is kept if its leap seconds end their minutes. Whatever form a job or progress is
read from, once it is written it reads the same and is written the same. -/
theorem written_form_is_normal :
    (∀ job : Job, Job.reader job.toJson = .ok job ↔ job.Kept) ∧
    (∀ p : Progress, Progress.reader p.toJson = .ok p) ∧
    (∀ v w, (Job.reader v).map Job.toJson = .ok w → Job.reader w = Job.reader v ∧ (Job.reader w).map Job.toJson = .ok w) ∧
    ∀ v w, (Progress.reader v).map Progress.toJson = .ok w →
      Progress.reader w = Progress.reader v ∧ (Progress.reader w).map Progress.toJson = .ok w :=
  ⟨fun _ => Job.reader_toJson_iff, Progress.reader_toJson,
    normal_of_back fun _ _ h => Job.reader_toJson (Job.kept_of_reader h),
    normal_of_back fun _ p _ => Progress.reader_toJson p⟩

/-- A job in an array, made in the leap second of an hour before the year 0. -/
theorem loose_array_is_written_normally :
    let items : List Json := [.int 7, .object [("set_data_import", .null)], .text "in_progress", .array [.bool true],
      .text "late", .text " -5 - 3- 1t1:2:60.5 +01 30", .text "+12345-06-07 08:09:10utc", .null,
      .text "2024-3-1T 2:30:00.123456789123-05:30"]
    let made : Instant := ⟨-721296, 84779, 1500000000, by decide, by decide⟩
    let changed : Instant := ⟨3789548, 29350, 0, by decide, by decide⟩
    let ended : Instant := ⟨19783, 28800, 123456789, by decide, by decide⟩
    let job : Job := ⟨7, .setImport, .inProgress, .array [.bool true], some "late", made, changed, none, some ended⟩
    (Job.reader (.array items)).map Job.toJson = .ok job.toJson ∧ Job.reader job.toJson = Job.reader (.array items) ∧
      (Job.reader job.toJson).map Job.toJson = .ok job.toJson := by
  intro items made changed ended job
  have hmade : Loose.read " -5 - 3- 1t1:2:60.5 +01 30" = .ok made := by decide
  have hchanged : Loose.read "+12345-06-07 08:09:10utc" = .ok changed := by decide
  have hended : Loose.read "2024-3-1T 2:30:00.123456789123-05:30" = .ok ended := by decide
  have hread : Job.reader (.array items) = .ok job := by
    unfold Job.reader
    rw [record_array_iff]
    simp only [bind_eq_ok_iff]
    exact ⟨Nat.le_refl 9, _, rfl, _, rfl, _, rfl, _, rfl, _, rfl, _, get_items rfl (Job.instantReader_text hmade) rfl, _,
      get_items rfl (Job.instantReader_text hchanged) rfl, _, rfl, _,
      get_items rfl (Job.instantReader_text? hended) rfl, rfl⟩
  have hwritten : (Job.reader (.array items)).map Job.toJson = .ok job.toJson := by
    rw [hread]
    rfl
  exact ⟨hwritten, written_form_is_normal.2.2.1 _ _ hwritten⟩

/-- A job made in a leap second within a minute is written as one made half a second after the second that follows, and is
read back as that one. -/
theorem inner_leap_second_is_read_as_the_next :
    let made : Instant := ⟨0, 30, 1500000000, by decide, by decide⟩
    let next : Instant := ⟨0, 31, 500000000, by decide, by decide⟩
    let job : Instant → Job := fun t => ⟨1, .cardImport, .pending, .null, none, t, next, none, none⟩
    made.inRange = true ∧ (job made).toJson = (job next).toJson ∧ Job.reader (job made).toJson = .ok (job next) ∧
      job next ≠ job made := by
  intro made next job
  have hhour : made.time.hour = next.time.hour := by decide
  have hminute : made.time.minute = next.time.minute := by decide
  have hsecond : made.time.clockSecond = next.time.clockSecond := by decide
  have hfraction : made.time.fraction = next.time.fraction := by decide
  have htext : made.zulu = next.zulu := by
    unfold Instant.zulu Instant.textWith Instant.secondChars OfDay.chars
    rw [hhour, hminute, hsecond, hfraction]
  have hnext : next.Kept := ⟨by decide, by decide⟩
  have hwritten : (job made).toJson = (job next).toJson := by
    unfold Job.toJson Job.instantJson
    rw [show (job made).createdAt.zulu = (job next).createdAt.zulu from htext]
  have hread : Job.reader (job next).toJson = .ok (job next) :=
    Job.reader_toJson ⟨by decide, hnext, hnext, nofun, nofun⟩
  refine ⟨by decide, hwritten, hwritten ▸ hread, fun hsame => ?_⟩
  have htime := congrArg (fun job => job.createdAt.time.second) hsame
  exact absurd htime (by decide)

end CatalogSync
