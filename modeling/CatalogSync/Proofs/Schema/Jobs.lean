import CatalogSync.Proofs.Schema.Plain
import CatalogSync.Proofs.Schema.Tables
import CatalogSync.Proofs.Schema.Upgrading
import CatalogSync.Schema.Layouts

/-!
# The jobs beside the settings

A chain of versions upgrades every database of one of them, and the versions of the server database upgrade one that
holds nothing but settings, of which none is lost.

Main statement: `opening_upgrades`.
-/

namespace CatalogSync.Schema

open CatalogSync.Sql CatalogSync.Text

/-! ## What is laid out for the jobs -/

/-- The jobs, laid out by themselves. -/
def jobsLayout : Database :=
  { tables :=
      [ { name := "jobs"
          columns :=
            [ ⟨"id", "INTEGER", false, none, 1⟩,
              ⟨"job_type", "TEXT", true, none, 0⟩,
              ⟨"status", "TEXT", true, none, 0⟩,
              ⟨"metadata", "TEXT", true, none, 0⟩,
              ⟨"error", "TEXT", false, none, 0⟩,
              ⟨"created_at", "TEXT", true, none, 0⟩,
              ⟨"updated_at", "TEXT", true, none, 0⟩,
              ⟨"started_at", "TEXT", false, none, 0⟩,
              ⟨"completed_at", "TEXT", false, none, 0⟩ ] } ]
    indices :=
      [⟨"idx_jobs_type_created", "jobs", ["job_type", "created_at"]⟩, ⟨"idx_jobs_status", "jobs", ["status"]⟩] }

theorem jobsTable_plain : jobsTable.Plain where
  name := by decide
  allowed := by decide
  some := List.cons_ne_nil _ _
  columns := by decide
  apart := by
    unfold Column.Apart
    decide

theorem jobs_laid_out : jobsTable.create {} = (.ok (), jobsLayout) := by
  rw [Table.create_plain jobsTable_plain ⟨rfl, rfl⟩]
  decide

theorem jobsLayout_valid : jobsTable.validate jobsLayout = .ok () :=
  validate_info jobsTable_plain.name (by decide) (by decide)

/-! ## Settings alone -/

theorem settingsTable_name : Reading.IsName settingsTable.name := by decide

def settingsVersion : Version := { version := 1, tables := [settingsTable] }

def jobsVersion : Version :=
  { version := 2, tables := [settingsTable, jobsTable], migration := some jobsTable.create }

theorem serverVersions_eq : serverVersions = [settingsVersion, jobsVersion] := rfl

theorem serverVersions_rise : RisesTo serverVersions jobsVersion := ⟨by decide, rfl, by decide⟩

theorem validate_settingsVersion {db : Database} :
    settingsVersion.validate db = .ok () ↔ settingsTable.validate db = .ok () := by
  rw [Version.validate_iff]
  exact List.forall_mem_singleton

theorem validate_jobsVersion {db : Database} :
    jobsVersion.validate db = .ok () ↔ settingsTable.validate db = .ok () ∧ jobsTable.validate db = .ok () := by
  rw [Version.validate_iff]
  exact List.forall_mem_cons.trans (and_congr_right fun _ => List.forall_mem_singleton)

section Settings

variable {db : Database} {settings : TableInfo}

/-- A name is free beside the settings if it is another one. -/
theorem free_of_settings (htables : db.tables = [settings]) (hindices : db.indices = [])
    (hname : sameName settings.name "settings" = true) {name : String} (hother : sameName "settings" name = false) :
    db.Free name := by
  refine ⟨?_, ?_⟩
  · unfold Database.table?
    rw [htables, List.find?_eq_none]
    intro t ht hsame
    obtain rfl := List.mem_singleton.1 ht
    have hsettings := sameName_iff.2 ((sameName_iff.1 hname).symm.trans (sameName_iff.1 hsame))
    exact Bool.false_ne_true (hother.symm.trans hsettings)
  · unfold Database.index?
    rw [hindices]
    rfl

/-- The names of what the jobs are laid out as are free beside the settings. -/
theorem apart_of_settings (htables : db.tables = [settings]) (hindices : db.indices = [])
    (hname : sameName settings.name "settings" = true) : db.Apart jobsLayout := by
  have hfree : ∀ name ∈ ["jobs", "idx_jobs_type_created", "idx_jobs_status"], db.Free name := by
    intro name hmem
    refine free_of_settings htables hindices hname ?_
    revert name
    decide
  refine ⟨fun t ht => ?_, fun i hi => ?_⟩
  · obtain rfl := List.mem_singleton.1 ht
    exact hfree _ (by decide)
  · exact hfree _ (List.mem_cons_of_mem _ (List.mem_map_of_mem hi : i.name ∈ jobsLayout.indices.map (·.name)))

/-- The migration of the server database lays the jobs out beside the settings, which stay. -/
theorem jobs_beside_settings (htables : db.tables = [settings]) (hindices : db.indices = [])
    (hvalid : settingsTable.validate db = .ok ()) :
    jobsTable.create db = (.ok (), db.beside jobsLayout) ∧ jobsVersion.validate (db.beside jobsLayout) = .ok () ∧
      (db.beside jobsLayout).table? "settings" = some settings := by
  obtain ⟨info, hthere⟩ := Table.there_of_validate settingsTable_name hvalid (by decide)
  have hfound := hthere
  unfold Database.table? at hfound
  rw [htables] at hfound
  obtain rfl := List.mem_singleton.1 (List.mem_of_find?_eq_some hfound)
  have hname := List.find?_some hfound
  change sameName info.name "settings" = true at hname
  have hapart := apart_of_settings htables hindices hname
  have hsettings := Table.validate_before settingsTable_name hvalid hthere jobsLayout
  have hjobs : jobsTable.validate (db.beside jobsLayout) = .ok () :=
    Table.validate_after jobsTable_plain.name jobsLayout_valid (hapart.tables _ List.mem_cons_self).table
  exact ⟨Table.create_beside jobs_laid_out hapart, validate_jobsVersion.2 ⟨hsettings, hjobs⟩,
    Database.table?_beside_of_some hthere⟩

/-- On a database with nothing but settings the versions of the server database are a chain, and upgrade it. -/
theorem server_upgrades (htables : db.tables = [settings]) (hindices : db.indices = [])
    (hdescribes : settingsVersion.Describes db) (label path : String) :
    serverVersions.IsChain (Version.LeadsOn db) ∧ ∃ db',
      Upgraded serverVersions label path settingsVersion jobsVersion db db' ∧
        db'.table? "settings" = some settings := by
  obtain ⟨hcreate, hbeside, hstays⟩ :=
    jobs_beside_settings htables hindices (validate_settingsVersion.1 hdescribes.valid)
  have hbring : jobsVersion.bring db = (.ok (), db.beside jobsLayout) := (Version.bring_some rfl db).trans hcreate
  have hrun : (jobsVersion.bring db).1 = .ok () := by rw [hbring]
  have hbrought : brought [jobsVersion] db = db.beside jobsLayout := by rw [brought_singleton, hbring]
  have hmigrates : Migrates [jobsVersion] settingsVersion.version db jobsVersion.version
      (brought [jobsVersion] db) := by
    rw [brought_singleton]
    exact .bring hrun (.done _ _)
  have hvalid : jobsVersion.validate (brought [jobsVersion] db) = .ok () := by rw [hbrought, hbeside]
  have hmem : settingsVersion ∈ serverVersions := List.mem_cons_self
  have hlater : (serverVersions.filter fun w => settingsVersion.version < w.version) = [jobsVersion] := rfl
  refine ⟨?_, _, upgraded_of_migrates serverVersions_rise hmem (by decide) hdescribes hlater hmigrates hvalid label
    path, ?_⟩
  · rw [serverVersions_eq]
    refine .cons_cons (fun _ => ⟨hrun, ?_⟩) (.singleton _)
    rw [hbring]
    exact hbeside
  · rw [Database.table?_setVersion, hbrought]
    exact hstays

end Settings

/-! ## Opening -/

/-- **Upgrading on opening.** A database of any version of a rising chain is opened as one of the last version: exactly
the later migrations have run, in order, it is stamped and valid, the rows that they did not take are there, and to
open it again changes nothing. The versions of the server database are such a chain on a database with nothing but
settings, and these stay as they are. -/
theorem opening_upgrades (label path : String) :
    (∀ (versions : List Version) (v latest : Version) (db : Database), RisesTo versions latest →
      versions.IsChain Version.Leads → v ∈ versions → 1 ≤ v.version → v.Describes db →
      ∃ db', Upgraded versions label path v latest db db') ∧
    RisesTo serverVersions jobsVersion ∧
      ∀ (settings : TableInfo) (db : Database), db.tables = [settings] → db.indices = [] →
        settingsVersion.Describes db →
        serverVersions.IsChain (Version.LeadsOn db) ∧ ∃ db',
          Upgraded serverVersions label path settingsVersion jobsVersion db db' ∧
            db'.table? "settings" = some settings :=
  ⟨fun _ _ _ _ hrises hchain hmem hone hdescribes => upgraded_of_chain hrises hchain hmem hone hdescribes label path,
    serverVersions_rise, fun _ _ htables hindices hdescribes =>
      server_upgrades htables hindices hdescribes label path⟩

theorem notes_and_settings_survive :
    let notes : Table := { name := "notes", columns := [{ name := "text", type := .text, notNull := true }] }
    let empty : TableInfo := { name := "notes", columns := [⟨"text", "TEXT", true, none, 0⟩] }
    let put : Migration := fun db => (.ok (), { db with tables := empty :: db.tables })
    let clear : Migration := fun db => (.ok (), { db with indices := [] })
    let versions : List Version :=
      [ { version := 1, tables := [] },
        { version := 2, tables := [notes], migration := some put },
        { version := 5, tables := [notes], migration := some clear } ]
    let note : Database := { userVersion := 100001, tables := [{ empty with rows := [[.text "kept"]] }] }
    let settings : TableInfo :=
      { name := "settings"
        columns :=
          [ ⟨"key", "TEXT", false, none, 1⟩, ⟨"value", "TEXT", true, none, 0⟩,
            ⟨"updated_at", "TEXT", true, some "datetime('now')", 0⟩ ]
        rows := [[.text "theme", .text "dark", .text "2030-01-01 00:00:00"]] }
    (∃ db', openVersioned versions "notes" "notes.db" (.database note) = (.ok db', .database db') ∧
      db'.userVersion = 100004 ∧ [.text "kept"] ∈ rowsOf db' "notes") ∧
    ∃ db', openVersioned serverVersions "server" "server.db"
        (.database { userVersion := 100000, tables := [settings] }) = (.ok db', .database db') ∧
      db'.table? "settings" = some settings := by
  intro notes empty put clear versions note settings
  have hsame : sameName empty.name notes.name = true := by decide
  have hfound : ∀ tables, ({ tables := empty :: tables } : Database).table? notes.name = some empty :=
    fun tables => List.find?_cons_of_pos hsame
  have hput : ∀ db : Database, notes.validate (put db).2 = .ok () := fun db =>
    Table.validate_mono (by decide : Reading.IsName notes.name)
      (by decide : notes.validate { tables := [empty] } = .ok ())
      ((hfound db.tables).trans (hfound []).symm) fun _ h => nomatch h
  have hchain : versions.IsChain Version.Leads :=
    .cons_cons (fun db _ => ⟨rfl, Version.validate_iff.2 (List.forall_mem_singleton.2 (hput db))⟩)
      (.cons_cons (fun _ hvalid => ⟨rfl, hvalid⟩) (.singleton _))
  have hnote : (versions[1]).Describes note :=
    ⟨rfl, Version.validate_iff.2 (List.forall_mem_singleton.2 (by decide))⟩
  obtain ⟨db', hupgraded⟩ := (opening_upgrades "notes" "notes.db").1 versions versions[1] versions[2] note
    ⟨by decide, rfl, by decide⟩ hchain (List.getElem_mem _) (by decide) hnote
  have hsettings : settingsVersion.Describes { userVersion := 100000, tables := [settings] } :=
    ⟨rfl, validate_settingsVersion.2 (by decide)⟩
  obtain ⟨-, db'', hupgraded', hkept⟩ := (opening_upgrades "server" "server.db").2.2 settings _ rfl rfl hsettings
  have hrow : [.text "kept"] ∈ rowsOf note "notes" := by decide
  refine ⟨⟨db', hupgraded.opened, hupgraded.described.stamped, hupgraded.kept _ _ (fun done v rest h hdone => ?_) hrow⟩,
    db'', hupgraded'.opened, hkept⟩
  change [versions[2]] = _ at h
  obtain ⟨rfl, hv⟩ | ⟨rest, rfl, hrest⟩ := List.cons_eq_append_iff.1 h
  · cases hv
    exact hdone
  · exact absurd hrest (by simp)

/-- Without the conditions on the numbers of the versions nothing is promised: a database of version 0 is refused, and a
number that is too great for the stamp leaves none. -/
theorem no_upgrade_outside_of_numbers :
    let plain (n : Nat) : Version := { version := n, tables := [] }
    let zero : Database := { userVersion := 99999 }
    let one : Database := { userVersion := 100000 }
    (RisesTo [plain 0] (plain 0) ∧ [plain 0].IsChain Version.Leads ∧ (plain 0).Describes zero ∧
      ∀ db', ¬ Upgraded [plain 0] "notes" "notes.db" (plain 0) (plain 0) zero db') ∧
    ([plain 1, plain 2147383649].Pairwise (fun u w => u.version < w.version) ∧
      [plain 1, plain 2147383649].IsChain Version.Leads ∧ (plain 1).Describes one ∧
      ∀ db', ¬ Upgraded [plain 1, plain 2147383649] "notes" "notes.db" (plain 1) (plain 2147383649) one db') := by
  intro plain zero one
  have hleads : ∀ m n, (plain m).Leads (plain n) := fun _ _ _ _ => ⟨rfl, rfl⟩
  refine ⟨⟨⟨by decide, rfl, by decide⟩, .singleton _, ⟨rfl, rfl⟩, fun db' h => ?_⟩, by decide,
    .cons_cons (hleads _ _) (.singleton _), ⟨rfl, rfl⟩, fun db' h => ?_⟩
  · cases (congrArg Prod.fst h.opened : Except.error _ = Except.ok db')
  · have hstamped := h.described.stamped
    have hopened := congrArg Prod.fst h.opened
    have hzero : openVersioned [plain 1, plain 2147383649] "notes" "notes.db" (.database one) =
        (.ok {}, .database {}) := by rfl
    rw [hzero] at hopened
    cases hopened
    exact absurd hstamped (by decide)

end CatalogSync.Schema
