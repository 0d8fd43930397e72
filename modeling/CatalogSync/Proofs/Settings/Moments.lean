import CatalogSync.Proofs.Time.Grammar
import CatalogSync.Schedule.Task
import CatalogSync.Server.Basic

/-!
# Instants as settings

A backend of settings reads keys and writes them, and what it is given it gives back (`Backend.Keeps`). An instant that is
written to a key is then read from it as it was. What else stands under a key is read as the instant that it tells, cut down
to whole nanoseconds, if it is a word of RFC 3339, in which the minus of mathematics is taken for a hyphen.

Main statement: `settings_keep_moments`.
-/

namespace CatalogSync.Settings

open CatalogSync.Text CatalogSync.Time

/-! ## Backends -/

/-- What reading and writing come to in every state of a backend. -/
structure Backend (σ : Type) where
  read : String → σ → Answer × σ
  write : String → String → σ → Stored Unit × σ

namespace Backend

variable {σ : Type}

/-- A backend answers the questions about settings. -/
def handler (b : Backend σ) : Program.Handler σ := fun q s =>
  match q with
  | .readSetting key => some (b.read key s)
  | .writeSetting key value => some (b.write key value s)
  | _ => none

/-- Unless a call fails, what was written to a key is what is read from it next. -/
structure Keeps (b : Backend σ) : Prop where
  reads_written : ∀ {key value s s' found s''}, b.write key value s = (.ok (), s') →
    b.read key s' = (.ok found, s'') → found = some value

def ofServer : Backend Server where
  read key s := s.guarded .readSetting fun s => (.ok (s.setting? key), s)
  write key value s := s.guarded .writeSetting fun s => (.ok (), s.putSetting key value)

theorem ofServer_keeps : ofServer.Keeps where
  reads_written {key value s s' found s''} hwrite hread := by
    unfold ofServer Server.guarded at hwrite hread
    dsimp only at hwrite hread
    split at hwrite
    · cases hwrite
    · obtain rfl := (Prod.mk.inj hwrite).2
      split at hread
      · cases hread
      · cases hread
        exact Dict.find?_put_self ..

end Backend

/-! ## Reading and writing -/

section Access

variable {σ : Type} {b : Backend σ} {key : String} {s s' : σ}

theorem run_getTime {a : Answer} (h : b.read key s = (a, s')) : (getTime key).run b.handler s = .done a.time? s' := by
  have hanswer : b.handler (.readSetting key) s = some (a, s') := congrArg some h
  show Program.run b.handler (.ask (.readSetting key) fun a => .done (Answer.time? a)) s = _
  unfold Program.run
  rw [hanswer]
  rfl

theorem run_setTime (t : Instant) :
    (setTime key t).run b.handler s = .done (b.write key t.text s).1 (b.write key t.text s).2 := rfl

/-- The meaning of an answer is that of the word in its text. -/
theorem time?_eq_some_iff (a : Answer) (t : Instant) :
    a.time? = some t ↔ ∃ text r, a = .ok (some text) ∧ Spells IsMinus (trimmed text.toList) r ∧ r.CutTo t := by
  unfold Answer.time? parseTime
  simp only [Option.bind_eq_some_iff, readChars?_iff]
  constructor
  · rintro ⟨text, htext, r, hr⟩
    cases a with
    | error e => cases htext
    | ok found =>
      obtain rfl : found = some text := htext
      exact ⟨text, r, rfl, hr⟩
  · rintro ⟨text, r, rfl, hr⟩
    exact ⟨text, rfl, r, hr⟩

end Access

theorem time?_text {t : Instant} (h : t.Civil) : Answer.time? (.ok (some t.text)) = some t := by
  unfold Answer.time? Answer.text?
  dsimp only
  rw [Option.bind_some, parseTime_text h]

/-- **Settings keep moments.** On every backend: an instant of the years 0 to 9999, a leap second only at the end of a
minute, that was written to a key is read from it exactly, and so is the last run of a task that is told by this key.
Whatever stands under a key, an instant is read just if it is, but for blanks around it, a word of RFC 3339, where the
minus of mathematics may stand for a hyphen; it is the instant that the word tells, exactly if its fraction has no more
than nine digits, and else cut down to whole nanoseconds. -/
theorem settings_keep_moments {σ : Type} {b : Backend σ} (hkeeps : b.Keeps) (key : String) :
    (∀ t : Instant, t.Civil → ∀ s s' found s'', (setTime key t).run b.handler s = .done (.ok ()) s' →
      b.read key s' = (.ok found, s'') → (getTime key).run b.handler s' = .done (some t) s'' ∧
        ∀ (task : Schedule.Task) (read : Schedule.Lookup), task.lastRunKey = some key → read key = .ok found →
          task.lastRun read none = some t) ∧
      ∀ s a s', b.read key s = (a, s') → ∃ found, (getTime key).run b.handler s = .done found s' ∧
        (∀ t, found = some t ↔ ∃ text r, a = .ok (some text) ∧ Spells IsMinus (trimmed text.toList) r ∧ r.CutTo t) ∧
        ∀ text r, a = .ok (some text) → Spells IsMinus (trimmed text.toList) r →
          ∃ t, found = some t ∧ (r.fraction.length ≤ 9 → r.Denotes t) := by
  refine ⟨fun t ht s s' found s'' hset hread => ?_, fun s a s' hread => ⟨a.time?, run_getTime hread, time?_eq_some_iff a, ?_⟩⟩
  · rw [run_setTime, Program.Run.done.injEq] at hset
    obtain rfl := hkeeps.reads_written (Prod.ext hset.1 hset.2) hread
    have htime := time?_text ht
    refine ⟨(run_getTime hread).trans (by rw [htime]), fun task read htask hlookup => ?_⟩
    unfold Schedule.Task.lastRun
    rw [htask, Option.bind_some, hlookup, htime]
    rfl
  · intro text r ha hr
    obtain ⟨t, ht⟩ := hr.exists_cutTo
    exact ⟨t, (time?_eq_some_iff a t).2 ⟨text, r, ha, hr, ht⟩, ht.denotes⟩

def serverWith (key text : String) : Server := { clock := default, settings := [(key, text)] }

/-- Noon, and some nanoseconds, on the last day of February 2024. -/
def leapNoon : Instant := ⟨19782, ⟨43200, 123456789, by decide, by decide⟩⟩

theorem leapNoon_kept_by_server :
    leapNoon.Civil ∧ ∃ s', (setTime "job_cleanup_last_run" leapNoon).run Backend.ofServer.handler (serverWith "key" "text") =
      .done (.ok ()) s' ∧
      (getTime "job_cleanup_last_run").run Backend.ofServer.handler s' = .done (some leapNoon) s' := by
  have hcivil : leapNoon.Civil := ⟨by decide, by decide, by decide⟩
  refine ⟨hcivil, _, rfl, ?_⟩
  exact ((settings_keep_moments Backend.ofServer_keeps "job_cleanup_last_run").1 leapNoon hcivil (serverWith "key" "text") _ _ _
    rfl rfl).1

/-- A text with the minus of mathematics is no word of RFC 3339, and an instant is read from it. Of a word with ten digits
in its fraction another instant is read than the one that it tells. -/
theorem minus_and_tenth_digit :
    ((getTime "at").run Backend.ofServer.handler (serverWith "at" "2024-01-01T00:00:00−01:00") =
        .done (some ⟨19723, ⟨3600, 0, by decide, by decide⟩⟩) (serverWith "at" "2024-01-01T00:00:00−01:00") ∧
      ¬ ∃ r, Spells IsHyphen (trimmed "2024-01-01T00:00:00−01:00".toList) r) ∧
    ∃ r t, Spells IsHyphen (trimmed "2024-03-01T12:30:00.1234567899Z".toList) r ∧
      (getTime "at").run Backend.ofServer.handler (serverWith "at" "2024-03-01T12:30:00.1234567899Z") =
        .done (some t) (serverWith "at" "2024-03-01T12:30:00.1234567899Z") ∧ ¬ r.Denotes t := by
  refine ⟨⟨rfl, ?_⟩, ⟨⟨2024, 3, 1⟩, 12, 30, 0, "1234567899".toList, 0⟩, ⟨19783, ⟨45000, 123456789, by decide, by decide⟩⟩,
    ?_, rfl, ?_⟩
  · rintro ⟨r, hr⟩
    exact absurd (hr.ascii '−' (by decide)) (by decide)
  · refine ⟨"2024-03-01".toList, 'T', "12:30:00.1234567899".toList, ['Z'], by decide, ?_, .inl rfl, ?_, .zulu 'Z' (.inl rfl)⟩
    · exact ⟨"2024".toList, "03".toList, "01".toList, by decide, ⟨rfl, List.all_eq_true.1 rfl⟩,
        ⟨rfl, List.all_eq_true.1 rfl⟩, ⟨rfl, List.all_eq_true.1 rfl⟩, by decide, by decide⟩
    · exact ⟨"12".toList, "30".toList, "00".toList, _, by decide, ⟨rfl, List.all_eq_true.1 rfl⟩,
        ⟨rfl, List.all_eq_true.1 rfl⟩, ⟨rfl, List.all_eq_true.1 rfl⟩, .some _ (by decide) (List.all_eq_true.1 rfl),
        by decide, by decide, by decide, by decide, by decide, by decide⟩
  · rintro ⟨-, hnano⟩
    exact absurd hnano (by decide)

end CatalogSync.Settings
