import CatalogSync.Proofs.Sql.Transaction
import CatalogSync.Schema.Version

/-!
# What opening a database leaves behind

A file that is there is read, validated, and migrated in one transaction that also stamps it. So an
opening that fails leaves the file as it was, however far its migrations came
(`failed_opening_changes_nothing`), and one that succeeds ran all of them (`opening_migrates_all`).
-/

namespace CatalogSync.Schema

open CatalogSync.Sql CatalogSync.Text

/-! ## Migrations -/

/-- Migrations that all succeed, one after another: from a version and a database to a version and a database. -/
inductive Migrates : List Version → Nat → Database → Nat → Database → Prop
  | done (current : Nat) (db : Database) : Migrates [] current db current db
  | plain {v : Version} {rest : List Version} {current n : Nat} {db db' : Database} (h : v.migration = none)
      (hrest : Migrates rest v.version db n db') : Migrates (v :: rest) current db n db'
  | step {v : Version} {rest : List Version} {current n : Nat} {db db₁ db' : Database} {migration : Migration}
      (h : v.migration = some migration) (hrun : migration db = (.ok (), db₁))
      (hrest : Migrates rest v.version db₁ n db') : Migrates (v :: rest) current db n db'

theorem runMigrations_cons (v : Version) (rest : List Version) (current : Nat) :
    runMigrations (v :: rest) current =
      match v.migration with
      | none => runMigrations rest v.version
      | some migration =>
        (Session.change migration).within ("Failed to run migration to version " ++ Decimal.ofNat v.version) >>=
          fun _ => runMigrations rest v.version := by
  conv => lhs; unfold runMigrations
  cases v.migration with
  | none => rfl
  | some migration => rfl

theorem keepsFile_runMigrations (versions : List Version) (current : Nat) :
    (runMigrations versions current).KeepsFile := by
  induction versions generalizing current with
  | nil => exact Session.keepsFile_pure current
  | cons v rest ih =>
    rw [runMigrations_cons]
    cases v.migration with
    | none => exact ih v.version
    | some migration => exact ((Session.keepsFile_change migration).within _).bind fun _ => ih v.version

theorem keepsFile_stamp (fault : Option SqlFault) (version : Nat) : (stamp fault version).KeepsFile :=
  (Session.keepsFile_refuse fault).bind fun _ => Session.keepsFile_change _

theorem allOrNothing_migrate (r : Refusals) (versions : List Version) (start : Nat) :
    (migrate r versions start).AllOrNothing :=
  Session.allOrNothing_transaction <| (keepsFile_runMigrations _ start).bind fun n => keepsFile_stamp r.stamp n

/-- Migrations that were run over an open transaction took its database along. -/
theorem runMigrations_ok {versions : List Version} {current n : Nat} {file db : Database} {c : Connection}
    (h : (runMigrations versions current).exec { file, pending := some db } = (.ok n, c)) :
    ∃ db', c = { file, pending := some db' } ∧ Migrates versions current db n db' := by
  induction versions generalizing current db with
  | nil =>
    cases h
    exact ⟨db, rfl, .done _ db⟩
  | cons v rest ih =>
    rw [runMigrations_cons] at h
    cases hmig : v.migration with
    | none =>
      rw [hmig] at h
      obtain ⟨db', hc, hrest⟩ := ih h
      exact ⟨db', hc, .plain hmig hrest⟩
    | some migration =>
      rw [hmig] at h
      obtain ⟨u, c₁, hfirst, hthen⟩ := Session.bind_ok (congrArg Prod.fst h)
      rw [hthen] at h
      rw [Session.exec_within, Session.exec_change] at hfirst
      change (within _ (migration db).1, Connection.mk file (some (migration db).2)) = _ at hfirst
      rcases hrun : migration db with ⟨e | u', db₁⟩ <;> rw [hrun] at hfirst <;> cases hfirst
      obtain ⟨db', hc, hrest⟩ := ih h
      exact ⟨db', hc, .step hmig hrun hrest⟩

theorem stamp_ok {fault : Option SqlFault} {n : Nat} {file db : Database} {c : Connection}
    (h : (stamp fault n).exec { file, pending := some db } = (.ok (), c)) :
    c = { file, pending := some (db.setVersion (baseVersion + n)) } := by
  cases fault with
  | none =>
    cases h
    rfl
  | some fault => cases h

theorem migrate_ok {r : Refusals} {versions : List Version} {start : Nat} {db : Database}
    (h : ((migrate r versions start).exec { file := db }).1 = .ok ()) :
    ∃ n db', Migrates (versions.filter fun v => start < v.version) start db n db' ∧
      (migrate r versions start).exec { file := db } = (.ok (), { file := db'.setVersion (baseVersion + n) }) := by
  have hkeeps := (keepsFile_runMigrations (versions.filter fun v => start < v.version) start).bind
    fun n => keepsFile_stamp r.stamp n
  obtain ⟨stamped, hbody, hover⟩ := Session.transaction_ok hkeeps rfl h
  obtain ⟨n, c, hrun, hstamp⟩ := Session.bind_ok (congrArg Prod.fst hbody)
  obtain ⟨db', rfl, hmigrates⟩ := runMigrations_ok hrun
  rw [hstamp] at hbody
  cases stamp_ok hbody
  exact ⟨n, db', hmigrates, hover⟩

/-! ## Opening -/

theorem allOrNothing_openExisting (r : Refusals) (versions : List Version) (latest : Version) (label : String) :
    (openExisting r versions latest label).AllOrNothing := by
  refine .after (fun _ => rfl) fun db => ?_
  dsimp only
  split
  · exact .of_same fun _ => rfl
  · split
    · exact .of_same fun _ => rfl
    · next v _ =>
      refine .after (fun c => ?_) fun _ => ?_
      · rw [Session.exec_within, Session.exec_check]
      · split
        · exact allOrNothing_migrate r versions v.version
        · exact .of_same fun _ => rfl

theorem opened_error {result : Except StoreError Unit × Connection} {db : Database}
    (hback : ∀ e, result.1 = .error e → result.2 = { file := db }) {e : StoreError}
    (h : (opened result).1 = .error e) : (opened result).2 = .database db := by
  rcases result with ⟨e' | u, c⟩
  · have hc : c = { file := db } := hback e' rfl
    rw [hc]
    rfl
  · cases h

/-- **A failed opening changes nothing.** Whatever is at the path, if opening it as a database fails,
it is as it was: no table, index, row or version of a migration that succeeded before the failure stays.
Only a file that was missing may have been begun. -/
theorem failed_opening_changes_nothing (versions : List Version) (label path : String) (file : File)
    (r : Refusals) (hthere : file ≠ .missing) (e : StoreError)
    (hfail : (openVersioned versions label path file r).1 = .error e) :
    (openVersioned versions label path file r).2 = file := by
  unfold openVersioned at hfail ⊢
  cases hlast : versions.getLast? with
  | none => rfl
  | some latest =>
    rw [hlast] at hfail
    cases file with
    | missing => exact absurd rfl hthere
    | noDirectory => rfl
    | foreign => rfl
    | database db => exact opened_error (allOrNothing_openExisting r versions latest label _ rfl) hfail

theorem late_failure_rolled_back :
    let notes : TableInfo := { name := "notes", columns := [], rows := [[.text "kept"]] }
    let old : Database := { userVersion := 100000, tables := [notes] }
    let clear : Migration := fun db => (.ok (), { db with tables := [] })
    let halfway : Migration := fun db =>
      (.error (.of (.text "no more")), { db with indices := [⟨"idx", "notes", []⟩] })
    let versions : List Version :=
      [ { version := 1, tables := [] },
        { version := 2, tables := [], migration := some clear },
        { version := 3, tables := [], migration := some halfway } ]
    ∃ e, (openVersioned versions "notes" "notes.db" (.database old)).1 = .error e ∧
      (openVersioned versions "notes" "notes.db" (.database old)).2 = .database old := by
  intro notes old clear halfway versions
  exact ⟨_, rfl, failed_opening_changes_nothing versions "notes" "notes.db" (.database old) {} nofun _ rfl⟩

theorem openExisting_ok {r : Refusals} {versions : List Version} {latest : Version} {label : String}
    {db : Database} (h : ((openExisting r versions latest label).exec { file := db }).1 = .ok ()) :
    ∃ v ∈ versions, db.userVersion = baseVersion + v.version ∧ v.validate db = .ok () ∧
      ∃ db', (openExisting r versions latest label).exec { file := db } = (.ok (), { file := db' }) ∧
        (latest.version ≤ v.version ∧ db' = db ∨
          v.version < latest.version ∧ ∃ n db₁, db' = db₁.setVersion (baseVersion + n) ∧
            Migrates (versions.filter fun w => v.version < w.version) v.version db n db₁) := by
  obtain ⟨db₀, c, hview, hover⟩ := Session.bind_ok h
  obtain ⟨rfl, rfl⟩ : db = db₀ ∧ c = { file := db } := by
    cases hview
    exact ⟨rfl, rfl⟩
  change (openExisting r versions latest label).exec _ = _ at hover
  rw [hover] at h ⊢
  dsimp only at h ⊢
  by_cases hlow : db.userVersion - baseVersion < 1
  · rw [if_pos hlow] at h
    cases h
  · rw [if_neg hlow] at h ⊢
    cases hfind : versions.find? fun v => (v.version : Int) == db.userVersion - baseVersion with
    | none =>
      rw [hfind] at h
      cases h
    | some v =>
      have hmem : v ∈ versions := List.mem_of_find?_eq_some hfind
      have hversion : (v.version : Int) = db.userVersion - baseVersion := by simpa using List.find?_some hfind
      rw [hfind] at h
      obtain ⟨u, c, hcheck, hthen⟩ := Session.bind_ok h
      rw [Session.exec_within, Session.exec_check] at hcheck
      cases hvalid : v.validate db with
      | error e =>
        rw [hvalid] at hcheck
        cases hcheck
      | ok _ =>
        rw [hvalid] at hcheck
        cases hcheck
        rw [hthen] at h ⊢
        refine ⟨v, hmem, by omega, hvalid, ?_⟩
        by_cases hold : v.version < latest.version
        · rw [if_pos hold] at h ⊢
          obtain ⟨n, db₁, hmigrates, hrun⟩ := migrate_ok h
          exact ⟨_, hrun, .inr ⟨hold, n, db₁, rfl, hmigrates⟩⟩
        · rw [if_neg hold]
          exact ⟨db, rfl, .inl ⟨Nat.le_of_not_lt hold, rfl⟩⟩

/-- **A successful opening migrates all the way.** The file that is opened has a version of the schema and
passes its validation. It is left as it is if that version is the last, or else each later migration ran
once, in order, and the file carries the version reached. -/
theorem opening_migrates_all (versions : List Version) (label path : String) (db db' : Database) (r : Refusals)
    (hopened : (openVersioned versions label path (.database db) r).1 = .ok db') :
    (openVersioned versions label path (.database db) r).2 = .database db' ∧
      ∃ latest v, versions.getLast? = some latest ∧ v ∈ versions ∧ db.userVersion = baseVersion + v.version ∧
        v.validate db = .ok () ∧
        (latest.version ≤ v.version ∧ db' = db ∨
          v.version < latest.version ∧ ∃ n db₁, db' = db₁.setVersion (baseVersion + n) ∧
            Migrates (versions.filter fun w => v.version < w.version) v.version db n db₁) := by
  unfold openVersioned at hopened ⊢
  cases hlast : versions.getLast? with
  | none =>
    rw [hlast] at hopened
    cases hopened
  | some latest =>
    rw [hlast] at hopened
    dsimp only at hopened ⊢
    rcases hrun : (openExisting r versions latest label).exec { file := db } with ⟨e | u, c⟩
    · rw [hrun] at hopened
      cases hopened
    · obtain ⟨v, hmem, hversion, hvalid, db₁, hover, hend⟩ := openExisting_ok (congrArg Prod.fst hrun)
      rw [hover] at hopened
      cases hopened
      cases hrun.symm.trans hover
      exact ⟨rfl, latest, v, rfl, hmem, hversion, hvalid, hend⟩

end CatalogSync.Schema
