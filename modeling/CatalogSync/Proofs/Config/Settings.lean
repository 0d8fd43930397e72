import CatalogSync.Config.Resolve
import CatalogSync.Proofs.Settings.Meanings
import CatalogSync.Proofs.Toml.Keys

/-!
# The settings of a configuration file

A file gives settings as values of TOML and a store keeps texts. A value is stored as the text that the reader of its kind
gives back (`readBack_of_text`), and seeding puts that text where the store has none. A file that is read has each key
once (`settings_nodup_of_load`).

Main statement: `file_settings_read_back`.
-/

namespace CatalogSync.Config

open CatalogSync.Program CatalogSync.Settings

/-- What a program that reads a setting gives, in a store that works. -/
def Gives {α : Type} (read : Program α) (s : Values) (v : α) : Prop := Ends (store false) True (fun r _ _ => r = v) read [] s

/-- A key reads back as the value that a file has for it: an integer and a truth value whatever the default is, a string as
it stands, and anything else as TOML writes it. -/
def ReadBack (s : Values) (key : String) : Toml.Value → Prop
  | .integer n => ∀ default, Gives (getInt key default) s n.toInt
  | .boolean b => ∀ default, Gives (getBool key default) s b
  | .string t => ∀ default, Gives (get key default) s t
  | v => ∀ default, Gives (get key default) s v.text

section Texts

variable {s : Values} {key text : String}

theorem gives_of_text {α : Type} (read : Settings.Answer → α) (h : s key = some text) :
    Gives (Program.call (.readSetting key) >>= fun a => pure (read a)) s (read (.ok (some text))) := by
  refine (reader_ends false s key read []).mono ?_
  rintro r t s' ⟨-, a, -, ha | ⟨hno, -⟩, rfl⟩
  · rw [ha, h]
  · cases hno

theorem settingText_integer (n : Int64) : settingText (.integer n) = Text.Decimal.ofInt n.toInt := String.ofList_toList

theorem settingText_boolean (b : Bool) : settingText (.boolean b) = if b then "true" else "false" := by
  cases b with
  | true => exact String.ofList_toList
  | false => exact String.ofList_toList

theorem parseInt_settingText (n : Int64) : parseInt (settingText (.integer n)) = some n.toInt := by
  rw [settingText_integer]
  exact parseInt_ofInt n.le_toInt n.toInt_lt

theorem parseBool_settingText (b : Bool) : parseBool (settingText (.boolean b)) = some b := by
  rw [settingText_boolean]
  cases b with
  | true => decide
  | false => decide

/-- The readers undo the writer. -/
theorem readBack_of_text {v : Toml.Value} (h : s key = some (settingText v)) : ReadBack s key v := by
  have hget : ∀ default, Gives (get key default) s (settingText v) := fun default =>
    gives_of_text (·.text default) h
  cases v with
  | integer n =>
    intro default
    have hvalue : n.toInt = Answer.int (.ok (some (settingText (.integer n)))) default := by
      unfold Answer.int Answer.text?
      rw [Option.bind_some, parseInt_settingText, Option.getD_some]
    rw [hvalue]
    exact gives_of_text (·.int default) h
  | boolean b =>
    intro default
    have hvalue : b = Answer.bool (.ok (some (settingText (.boolean b)))) default := by
      unfold Answer.bool Answer.text?
      rw [Option.bind_some, parseBool_settingText, Option.getD_some]
    rw [hvalue]
    exact gives_of_text (·.bool default) h
  | string t => exact hget
  | float x => simpa only [settingText, ReadBack] using hget
  | moment m => simpa only [settingText, ReadBack] using hget
  | array elements => simpa only [settingText, ReadBack] using hget
  | table entries => simpa only [settingText, ReadBack] using hget

end Texts

/-! ## The keys of a file -/

section Keys

open Toml

theorem keys_of_settled {entries settled : Entries} (h : Value.settledEntries? entries = some settled) :
    settled.map Prod.fst = entries.map Prod.fst := by
  induction entries generalizing settled with
  | nil =>
    rw [Value.settledEntries?] at h
    cases h
    rfl
  | cons p entries ih =>
    rw [Value.settledEntries?] at h
    obtain ⟨v, -, h⟩ := Option.bind_eq_some_iff.1 h
    obtain ⟨later, hlater, h⟩ := Option.bind_eq_some_iff.1 h
    cases h
    rw [List.map_cons, List.map_cons, ih hlater]

theorem nodup_of_settingsOf {v : Value} (hv : v.Proper) {settings : Entries} (h : settingsOf? v = some settings) :
    (settings.map Prod.fst).Nodup := by
  obtain ⟨entries, hentries, h⟩ := Option.bind_eq_some_iff.1 h
  rw [keys_of_settled h]
  cases hv with
  | table hkeys => cases hentries; exact hkeys
  | moment => cases hentries; exact List.nodup_singleton _
  | _ => cases hentries

theorem nodup_of_ofEntries {entries : Entries} (hentries : (Value.table entries).Proper) {file : File}
    (h : File.ofEntries? entries = some file) : (file.settings.map Prod.fst).Nodup := by
  unfold File.ofEntries? at h
  iterate 5 obtain ⟨_, -, h⟩ := Option.bind_eq_some_iff.1 h
  obtain ⟨given, hgiven, h⟩ := Option.bind_eq_some_iff.1 h
  cases h
  cases hfound : entries.find? "settings" with
  | none =>
    rw [hfound] at hgiven
    cases hgiven
    exact List.nodup_nil
  | some v =>
    rw [hfound] at hgiven
    obtain ⟨settings, hsettings, rfl⟩ := Option.map_eq_some_iff.1 hgiven
    cases hentries with
    | table hkeys hvalues =>
      exact nodup_of_settingsOf (hvalues _ ((Text.Dict.lookup_eq_some_iff hkeys).1 hfound)) hsettings

/-- The settings of a file that is read have different keys. -/
theorem settings_nodup_of_load {path : String} {text : Option String} {file : File} (h : File.load path text = .ok file) :
    (file.settings.map Prod.fst).Nodup := by
  unfold File.load at h
  split at h
  · cases h
  split at h
  · next hfile =>
    cases h
    obtain ⟨entries, hread, hfile⟩ := Option.bind_eq_some_iff.1 hfile
    exact nodup_of_ofEntries (proper_of_read hread) hfile
  · cases h

end Keys

/-! ## From the file to the store -/

section Files

variable {kindAt : String → Option Files.Kind} {arguments : Arguments} {file : File} {config : Config}

theorem settings_of_resolve (h : resolve kindAt arguments file = .ok config) :
    config.settings = file.settings.map fun (key, v) => (key, settingText v) := by
  unfold resolve at h
  cases hdir : databaseDirOf kindAt arguments file with
  | error e =>
    rw [hdir] at h
    cases h
  | ok databaseDir =>
    rw [hdir] at h
    simp only [Bind.bind, Except.bind, Pure.pure, Except.pure, throw, throwThe, MonadExceptOf.throw] at h
    repeat' split at h
    all_goals cases h
    rfl

theorem keys_of_resolve (h : resolve kindAt arguments file = .ok config) :
    config.settings.map Prod.fst = file.settings.map Prod.fst := by
  rw [settings_of_resolve h, List.map_map]
  rfl

/-- A key of the file has the text of its value. -/
theorem lookup_of_resolve (hkeys : (file.settings.map Prod.fst).Nodup) (h : resolve kindAt arguments file = .ok config)
    {key : String} {v : Toml.Value} (hv : (key, v) ∈ file.settings) : config.settings.lookup key = some (settingText v) := by
  rw [← keys_of_resolve h] at hkeys
  rw [Text.Dict.lookup_eq_some_iff hkeys, settings_of_resolve h]
  exact List.mem_map_of_mem hv

theorem lookup_of_missing (h : resolve kindAt arguments file = .ok config) {key : String}
    (hmissing : key ∉ file.settings.map Prod.fst) : config.settings.lookup key = none := by
  rw [← keys_of_resolve h] at hmissing
  refine List.lookup_eq_none_iff.2 fun p hp => bne_iff_ne.2 ?_
  rintro rfl
  exact hmissing (List.mem_map_of_mem hp)

/-- **What a file says is what is read.** Let a file whose settings have different keys give a configuration, and let a store
be seeded with it, whatever order the keys are visited in. If seeding succeeds, as it does where no call fails, then each key
of the file that had no value before reads back as the value the file has for it. No value that was there has changed, a
default that the file leaves alone stands where no value was, and no other key has got one. -/
theorem file_settings_read_back (hkeys : (file.settings.map Prod.fst).Nodup) (h : resolve kindAt arguments file = .ok config)
    {order : List (String × String)} (horder : order.Perm (merged config.settings)) (s : Values) :
    Ends (store true) True (fun r _ s' => ∀ n : Nat, r = .ok n →
      (∀ key v, (key, v) ∈ file.settings → s key = none → ReadBack s' key v) ∧
      (∀ key, s key ≠ none → s' key = s key) ∧
      ∀ key, key ∉ file.settings.map Prod.fst → s key = none → s' key = defaults.lookup key) (seedPairs 0 order) [] s ∧
    Ends (store false) True (fun r _ _ => ∃ n : Nat, r = .ok n) (seedPairs 0 order) [] s := by
  have hkeys' : (config.settings.map Prod.fst).Nodup := by rwa [keys_of_resolve h]
  refine ⟨(seedPairs_ends true order 0 s).mono fun r t s' hseeding n hn => ?_,
    (seedPairs_whole hkeys' horder s).mono fun r t s' hwhole => hwhole.1⟩
  have hs' : s' = seeded config.settings s := (hseeding.wholly n hn).1.trans (filled_of_perm hkeys' horder s)
  have hgap : ∀ key, s key = none → s' key = seedValue config.settings key := by
    intro key hnone
    rw [hs']
    unfold seeded
    rw [hnone, Option.none_or]
  refine ⟨fun key v hv hnone => ?_, fun key hsome => ?_, fun key hmissing hnone => ?_⟩
  · apply readBack_of_text
    rw [hgap key hnone]
    unfold seedValue
    rw [lookup_of_resolve hkeys h hv, Option.some_or]
  · rw [hs']
    exact Option.or_of_isSome (Option.isSome_iff_ne_none.2 hsome)
  · rw [hgap key hnone]
    unfold seedValue
    rw [lookup_of_missing h hmissing, Option.none_or]

/-- A file with settings of three kinds, one of which an operator has set before. -/
theorem card_update_time_outlasts_file :
    let file : File :=
      { databaseDir := some "/db"
        settings := [("set_data_auto_update", .boolean false), ("card_data_update_time", .string "01:15"),
          ("job_cleanup_retention_days", .integer (-14))] }
    let s : Values := Function.update (fun _ => none) "card_data_update_time" (some "05:30")
    ∃ config, (file.settings.map Prod.fst).Nodup ∧ resolve (fun _ => some .folder) {} file = .ok config ∧
      (merged config.settings).Perm (merged config.settings) ∧
      Ends (store true) True (fun r _ s' => ∀ n : Nat, r = .ok n → Gives (getInt "job_cleanup_retention_days" 30) s' (-14) ∧
        Gives (getBool "set_data_auto_update" true) s' false ∧ s' "card_data_update_time" = some "05:30" ∧
        s' "set_data_update_time" = some "04:00") (seedPairs 0 (merged config.settings)) [] s := by
  intro file s
  have hkeys : (file.settings.map Prod.fst).Nodup := by decide
  have haccepted : (resolve (fun _ => some .folder) {} file).isOk = true := by decide +kernel
  obtain ⟨config, hconfig⟩ : ∃ config, resolve (fun _ => some .folder) {} file = .ok config := by
    generalize resolve (fun _ => some .folder) {} file = result at haccepted
    cases result with
    | error e => cases haccepted
    | ok config => exact ⟨config, rfl⟩
  refine ⟨config, hkeys, hconfig, .refl _, (file_settings_read_back hkeys hconfig (.refl _) s).1.mono ?_⟩
  rintro r - s' h n hn
  obtain ⟨hread, hkept, hdefault⟩ := h n hn
  refine ⟨hread _ (.integer (-14)) (by simp [file]) rfl 30, hread _ (.boolean false) (by simp [file]) rfl true, ?_, ?_⟩
  · exact hkept "card_data_update_time" (by decide)
  · exact hdefault "set_data_update_time" (by decide) rfl

end Files

end CatalogSync.Config
