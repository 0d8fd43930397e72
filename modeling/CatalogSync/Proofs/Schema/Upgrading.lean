import CatalogSync.Proofs.Schema.Opening
import Mathlib.Data.List.Chain

/-!
# Upgrades

A schema whose versions rise, and whose every migration leads from the version before to its own (`Version.Leads`),
upgrades a database from any of its versions to the last one: the later migrations run in order, the database is
stamped and valid, and opening it again finds nothing to do (`Upgraded`).

Main statement: `upgraded_of_chain`.
-/

namespace CatalogSync.Schema

open CatalogSync.Sql CatalogSync.Text

/-! ## Migrations that lead from version to version -/

/-- What a version makes of a database of the version before. Without a migration it is left as it is. -/
def Version.bring (v : Version) (db : Database) : Except StoreError Unit × Database :=
  match v.migration with
  | none => (.ok (), db)
  | some migration => migration db

theorem Version.bring_some {v : Version} {migration : Migration} (h : v.migration = some migration) (db : Database) :
    v.bring db = migration db := by
  unfold bring
  rw [h]

/-- The migration to `v` turns a database, if it is valid at `u`, into one that is valid at `v`. -/
def Version.LeadsOn (db : Database) (u v : Version) : Prop :=
  u.validate db = .ok () → (v.bring db).1 = .ok () ∧ v.validate (v.bring db).2 = .ok ()

/-- The migration to `v` turns any database that is valid at `u` into one that is valid at `v`. -/
def Version.Leads (u v : Version) : Prop := ∀ db, Version.LeadsOn db u v

/-- What some versions, one after another, make of a database. -/
def brought (versions : List Version) (db : Database) : Database :=
  versions.foldl (fun db v => (v.bring db).2) db

theorem brought_singleton (v : Version) (db : Database) : brought [v] db = (v.bring db).2 := rfl

/-- The rows of a table; none if there is no such table. -/
def rowsOf (db : Database) (table : String) : List (List Value) := ((db.table? table).map (·.rows)).getD []

/-- None of some versions, on the database that the ones before made, takes a row from a table. -/
def Untouched (versions : List Version) (db : Database) (table : String) (row : List Value) : Prop :=
  ∀ done v rest, versions = done ++ v :: rest →
    row ∈ rowsOf (brought done db) table → row ∈ rowsOf (v.bring (brought done db)).2 table

section Chain

variable {u v : Version} {versions later : List Version} {db : Database}

theorem Migrates.bring {rest : List Version} {current n : Nat} {db' : Database} (h : (v.bring db).1 = .ok ())
    (hrest : Migrates rest v.version (v.bring db).2 n db') : Migrates (v :: rest) current db n db' := by
  cases hmig : v.migration with
  | none =>
    unfold Version.bring at hrest
    rw [hmig] at hrest
    exact .plain hmig hrest
  | some migration =>
    rw [Version.bring_some hmig] at h hrest
    exact .step hmig (Prod.ext h rfl) hrest

/-- A chain of versions leads from the first to the last. -/
theorem migrates_of_chain (hchain : (u :: later).IsChain Version.Leads) (hvalid : u.validate db = .ok ()) :
    let latest := (u :: later).getLast (List.cons_ne_nil u later)
    Migrates later u.version db latest.version (brought later db) ∧ latest.validate (brought later db) = .ok () := by
  induction later generalizing u db with
  | nil => exact ⟨.done _ db, hvalid⟩
  | cons v later ih =>
    obtain ⟨hleads, hchain⟩ := List.isChain_cons_cons.1 hchain
    obtain ⟨hrun, hvalid⟩ := hleads db hvalid
    obtain ⟨hmigrates, hlast⟩ := ih hchain hvalid
    rw [List.getLast_cons (List.cons_ne_nil v later)]
    exact ⟨.bring hrun hmigrates, hlast⟩

theorem row_brought {table : String} {row : List Value} (h : Untouched versions db table row)
    (hrow : row ∈ rowsOf db table) : row ∈ rowsOf (brought versions db) table := by
  have hdone : ∀ done rest, versions = done ++ rest → row ∈ rowsOf (brought done db) table := by
    intro done
    induction done using List.reverseRecOn with
    | nil => exact fun _ _ => hrow
    | append_singleton done v ih =>
      intro rest hall
      rw [List.append_assoc] at hall
      have hstep := h done v rest hall (ih _ hall)
      unfold brought at hstep ⊢
      rwa [List.foldl_append]
  exact hdone versions [] (List.append_nil versions).symm

end Chain

/-- A database is valid at a version if it is by each of its tables. -/
theorem Version.validate_iff {v : Version} {db : Database} :
    v.validate db = .ok () ↔ ∀ t ∈ v.tables, t.validate db = .ok () := by
  unfold validate
  induction v.tables with
  | nil => exact iff_of_true rfl (List.forall_mem_nil _)
  | cons t tables ih =>
    rw [List.forall_mem_cons, ← ih]
    change (t.validate db >>= fun _ => tables.forM fun t => t.validate db) = .ok () ↔ _
    cases t.validate db with
    | error e => exact ⟨nofun, fun h => nomatch h.1⟩
    | ok u => exact ⟨fun h => ⟨rfl, h⟩, fun h => h.2⟩

/-! ## The versions after one -/

section Rising

variable {before later : List Version} {v latest : Version}

/-- In rising versions the greater ones are those that come later. -/
theorem filter_of_rising (h : (before ++ v :: later).Pairwise fun u w => u.version < w.version) :
    ((before ++ v :: later).filter fun w => v.version < w.version) = later := by
  obtain ⟨-, hlater, hbefore⟩ := List.pairwise_append.1 h
  obtain ⟨hfirst, -⟩ := List.pairwise_cons.1 hlater
  have hnone : (before.filter fun w => decide (v.version < w.version)) = [] := by
    apply List.filter_eq_nil_iff.2
    intro u hu
    have hlt := hbefore u hu v List.mem_cons_self
    simp only [decide_eq_true_eq]
    omega
  have hall : (later.filter fun w => decide (v.version < w.version)) = later := by
    apply List.filter_eq_self.2
    intro w hw
    exact decide_eq_true (hfirst w hw)
  rw [List.filter_append, hnone, List.nil_append, List.filter_cons_of_neg (by simp), hall]

/-- In rising versions one is found by its number. -/
theorem find_of_rising (h : (before ++ v :: later).Pairwise fun u w => u.version < w.version) :
    ((before ++ v :: later).find? fun w => (w.version : Int) == v.version) = some v := by
  obtain ⟨-, -, hbefore⟩ := List.pairwise_append.1 h
  rw [List.find?_eq_some_iff_append]
  refine ⟨by simp, before, later, rfl, fun u hu => ?_⟩
  have hlt := hbefore u hu v List.mem_cons_self
  simp only [Bool.not_eq_true', beq_eq_false_iff_ne]
  omega

theorem le_latest (h : (before ++ v :: later).Pairwise fun u w => u.version < w.version)
    (hlast : (before ++ v :: later).getLast? = some latest) :
    latest = (v :: later).getLast (List.cons_ne_nil v later) ∧
      (later = [] ∧ latest = v ∨ v.version < latest.version) := by
  obtain ⟨-, hlater, -⟩ := List.pairwise_append.1 h
  obtain ⟨hfirst, -⟩ := List.pairwise_cons.1 hlater
  rw [List.getLast?_append_of_ne_nil _ (List.cons_ne_nil v later),
    List.getLast?_eq_some_getLast (List.cons_ne_nil v later), Option.some.injEq] at hlast
  refine ⟨hlast.symm, ?_⟩
  cases later with
  | nil => exact .inl ⟨rfl, hlast.symm⟩
  | cons w later =>
    rw [List.getLast_cons (List.cons_ne_nil w later)] at hlast
    exact .inr (hlast ▸ hfirst _ (List.getLast_mem _))

end Rising

/-! ## Opening -/

/-- Versions that rise to a last one, of which a database can be stamped. -/
structure RisesTo (versions : List Version) (latest : Version) : Prop where
  rising : versions.Pairwise fun u w => u.version < w.version
  last : versions.getLast? = some latest
  fits : baseVersion + latest.version ≤ Database.maxVersion

/-- A database is stamped with a version and valid at it. -/
structure Version.Describes (v : Version) (db : Database) : Prop where
  stamped : db.userVersion = (baseVersion + v.version : Nat)
  valid : v.validate db = .ok ()

theorem setVersion_userVersion {db : Database} {n : Nat} (h : n ≤ Database.maxVersion) :
    (db.setVersion n).userVersion = n := by
  unfold Database.setVersion
  rw [if_pos h]

/-- Migrations that succeed are carried out over an open transaction. -/
theorem exec_runMigrations {versions : List Version} {current n : Nat} {file db db' : Database}
    (h : Migrates versions current db n db') :
    (runMigrations versions current).exec { file, pending := some db } = (.ok n, { file, pending := some db' }) := by
  induction h with
  | done => rfl
  | plain hmig _ ih =>
    rw [runMigrations_cons, hmig]
    exact ih
  | @step v rest _ _ db db₁ _ migration hmig hrun _ ih =>
    have hfirst : ((Session.change migration).within ("Failed to run migration to version " ++
        Decimal.ofNat v.version)).exec { file, pending := some db } = (.ok (), { file, pending := some db₁ }) := by
      rw [Session.exec_within, Session.exec_change]
      change (within _ (migration db).1, Connection.mk file (some (migration db).2)) = _
      rw [hrun]
      rfl
    rw [runMigrations_cons, hmig]
    exact (Session.exec_bind_ok hfirst _).trans ih

theorem exec_migrate {versions : List Version} {start n : Nat} {db db' : Database}
    (h : Migrates (versions.filter fun v => start < v.version) start db n db') :
    (migrate {} versions start).exec { file := db } = (.ok (), { file := db'.setVersion (baseVersion + n) }) := by
  have hrun : (runMigrations (versions.filter fun v => start < v.version) start).exec
      { file := db, pending := some db } = (.ok n, { file := db, pending := some db' }) := exec_runMigrations h
  unfold migrate
  rw [Session.exec_transaction rfl rfl, Session.exec_bind, Session.exec_bind_ok hrun]
  rfl

section Opening

variable {versions : List Version} {v latest : Version} {db : Database}

/-- A database that is stamped with a version is validated by it, and migrated if that is not the last. -/
theorem openVersioned_stamped (hrises : RisesTo versions latest) (hmem : v ∈ versions) (hone : 1 ≤ v.version)
    (hstamped : db.userVersion = (baseVersion + v.version : Nat)) (label path : String) (r : Refusals) :
    openVersioned versions label path (.database db) r = opened (Session.exec { file := db } do
      (Session.check (v.validate db)).within
        (label ++ " database schema validation failed for version " ++ Decimal.ofInt v.version)
      if v.version < latest.version then migrate r versions v.version) := by
  have hnumber : db.userVersion - baseVersion = v.version := by omega
  obtain ⟨before, later, rfl⟩ := List.append_of_mem hmem
  unfold openVersioned
  rw [hrises.last]
  dsimp only
  unfold openExisting
  rw [Session.exec_bind_ok (m := Session.view) rfl]
  dsimp only [Connection.view, Option.getD]
  rw [hnumber, if_neg (by omega), find_of_rising hrises.rising]

/-- What opening a database of a version comes to if the later migrations succeed. -/
theorem openVersioned_of_migrates (hrises : RisesTo versions latest) (hmem : v ∈ versions) (hone : 1 ≤ v.version)
    (hdescribes : v.Describes db) {db' : Database}
    (h : Migrates (versions.filter fun w => v.version < w.version) v.version db latest.version db')
    (label path : String) :
    openVersioned versions label path (.database db) =
      if v.version < latest.version then
        (.ok (db'.setVersion (baseVersion + latest.version)),
          .database (db'.setVersion (baseVersion + latest.version)))
      else (.ok db, .database db) := by
  have hcheck : ((Session.check (v.validate db)).within (label ++ " database schema validation failed for version " ++
      Decimal.ofInt v.version)).exec { file := db } = (.ok (), { file := db }) := by
    rw [Session.exec_within, Session.exec_check, hdescribes.valid]
    rfl
  rw [openVersioned_stamped hrises hmem hone hdescribes.stamped, Session.exec_bind_ok hcheck]
  by_cases hold : v.version < latest.version
  · rw [if_pos hold, if_pos hold, exec_migrate h]
    rfl
  · rw [if_neg hold, if_neg hold]
    rfl

/-- A database of the last version is opened as it is. -/
theorem openVersioned_latest (hrises : RisesTo versions latest) (hone : 1 ≤ latest.version)
    (hdescribes : latest.Describes db) (label path : String) :
    openVersioned versions label path (.database db) = (.ok db, .database db) := by
  obtain ⟨before, rfl⟩ := List.getLast?_eq_some_iff.1 hrises.last
  have hnone : Migrates ((before ++ [latest]).filter fun w => latest.version < w.version) latest.version db
      latest.version db := by
    rw [filter_of_rising hrises.rising]
    exact .done _ db
  have hmem : latest ∈ before ++ [latest] := List.mem_append_right _ List.mem_cons_self
  have hopen := openVersioned_of_migrates hrises hmem hone hdescribes hnone label path
  rwa [if_neg (Nat.lt_irrefl _)] at hopen

/-! ## Upgrading -/

/-- What opening a database of version `v` makes of it: the later migrations have run in order and it is a database of
the last version, which keeps the rows that no migration took, and opens again as it is. -/
structure Upgraded (versions : List Version) (label path : String) (v latest : Version) (db db' : Database) : Prop where
  opened : openVersioned versions label path (.database db) = (.ok db', .database db')
  migrated : ∃ db₁, Migrates (versions.filter fun w => v.version < w.version) v.version db latest.version db₁ ∧
    db' = db₁.setVersion (baseVersion + latest.version)
  described : latest.Describes db'
  kept : ∀ table row, Untouched (versions.filter fun w => v.version < w.version) db table row →
    row ∈ rowsOf db table → row ∈ rowsOf db' table
  again : openVersioned versions label path (.database db') = (.ok db', .database db')

/-- Later migrations that succeed and make a database valid at the last version upgrade it. -/
theorem upgraded_of_migrates (hrises : RisesTo versions latest) (hmem : v ∈ versions) (hone : 1 ≤ v.version)
    (hdescribes : v.Describes db) {later : List Version}
    (hlater : (versions.filter fun w => v.version < w.version) = later)
    (hmigrates : Migrates later v.version db latest.version (brought later db))
    (hbrought : latest.validate (brought later db) = .ok ()) (label path : String) :
    Upgraded versions label path v latest db ((brought later db).setVersion (baseVersion + latest.version)) := by
  have hstamped : ((brought later db).setVersion (baseVersion + latest.version)).userVersion =
      (baseVersion + latest.version : Nat) := setVersion_userVersion hrises.fits
  have hdescribed : latest.Describes ((brought later db).setVersion (baseVersion + latest.version)) :=
    ⟨hstamped, hbrought⟩
  obtain ⟨before, rest, rfl⟩ := List.append_of_mem hmem
  rw [filter_of_rising hrises.rising] at hlater
  subst hlater
  have hthose : Migrates ((before ++ v :: rest).filter fun w => v.version < w.version) v.version db latest.version
      (brought rest db) := by rwa [filter_of_rising hrises.rising]
  have hopen := openVersioned_of_migrates hrises hmem hone hdescribes hthose label path
  have hcases := (le_latest hrises.rising hrises.last).2
  have hopened : openVersioned (before ++ v :: rest) label path (.database db) =
      (.ok ((brought rest db).setVersion (baseVersion + latest.version)),
        .database ((brought rest db).setVersion (baseVersion + latest.version))) := by
    obtain ⟨rfl, rfl⟩ | hold := hcases
    · -- Nothing comes later, so the stamp is the one that is there.
      have hsame : (brought [] db).setVersion (baseVersion + latest.version) = db := by
        change { db with userVersion := ((brought [] db).setVersion (baseVersion + latest.version)).userVersion } = db
        rw [hstamped, ← hdescribes.stamped]
      rw [hsame, hopen, if_neg (Nat.lt_irrefl _)]
    · rw [hopen, if_pos hold]
  have hlatest : 1 ≤ latest.version := by
    obtain ⟨-, rfl⟩ | hold := hcases <;> omega
  exact
    { opened := hopened
      migrated := ⟨_, hthose, rfl⟩
      described := hdescribed
      kept := fun table row huntouched hrow => by
        rw [filter_of_rising hrises.rising] at huntouched
        exact row_brought huntouched hrow
      again := openVersioned_latest hrises hlatest hdescribed label path }

/-- **A chain of versions** upgrades a database from any of them. -/
theorem upgraded_of_chain (hrises : RisesTo versions latest) (hchain : versions.IsChain Version.Leads)
    (hmem : v ∈ versions) (hone : 1 ≤ v.version) (hdescribes : v.Describes db) (label path : String) :
    ∃ db', Upgraded versions label path v latest db db' := by
  obtain ⟨before, later, rfl⟩ := List.append_of_mem hmem
  obtain ⟨rfl, -⟩ := le_latest hrises.rising hrises.last
  obtain ⟨hmigrates, hbrought⟩ := migrates_of_chain (List.isChain_append.1 hchain).2.1 hdescribes.valid
  exact ⟨_, upgraded_of_migrates hrises hmem hone hdescribes (filter_of_rising hrises.rising) hmigrates hbrought
    label path⟩

end Opening

end CatalogSync.Schema
