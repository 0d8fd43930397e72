import CatalogSync.Schema.Table
import CatalogSync.Sql.Connection

/-!
# Versions of a schema

A schema is declared version by version. A database file carries the version it has, on top of a
base that tells it from the files of others. `openVersioned` creates a missing file at the last
version, and otherwise validates the file against its version and migrates it forward, all
migrations together or none.
-/

namespace CatalogSync.Schema

open CatalogSync.Sql CatalogSync.Text

/-- What is added to the version that a file carries. -/
def baseVersion : Nat := 99999

/-- Brings a database from one version to the next, or fails on the way. -/
abbrev Migration := Database → Except StoreError Unit × Database

/-- One version of a schema. -/
structure Version where
  version : Nat
  tables : List Table
  /-- Leads here from the version before. -/
  migration : Option Migration := none

namespace Version

/-- Creates the tables of a version and stamps it, up to the first statement that is refused. -/
def create (v : Version) (db : Database) : Except StoreError Unit × Database :=
  match createTables v.tables db with
  | (.ok (), db) => (.ok (), db.setVersion (baseVersion + v.version))
  | (.error e, db) => (.error e, db)

/-- Compares a database with a version. -/
def validate (v : Version) (db : Database) : Except StoreError Unit := v.tables.forM (·.validate db)

end Version

/-! ## Migrating -/

/-- Runs migrations in order, and tells the version reached, `current` before the first. -/
def runMigrations : List Version → Nat → Session Nat
  | [], current => return current
  | v :: rest, _ => do
    if let some migration := v.migration then
      (Session.change migration).within ("Failed to run migration to version " ++ Decimal.ofNat v.version)
    runMigrations rest v.version

def stamp (fault : Option SqlFault) (version : Nat) : Session Unit := do
  Session.refuse fault
  Session.change fun db => (.ok (), db.setVersion (baseVersion + version))

/-- Migrates a database from a version on, as one transaction. -/
def migrate (r : Refusals) (versions : List Version) (start : Nat) : Session Unit :=
  Session.transaction r do
    let current ← runMigrations (versions.filter fun v => start < v.version) start
    stamp r.stamp current

/-! ## Opening -/

/-- What is at the path of a database. -/
inductive File where
  | missing
  /-- There is not even a directory for the file. -/
  | noDirectory
  | database (db : Database)
  /-- A file that is no database. -/
  | foreign
deriving DecidableEq, Repr, Inhabited

/-- What came of opening: the database or an error, and what is at the path then. -/
abbrev Opened := Except StoreError Database × File

/-- An error that leaves everything as it was. -/
def refused (file : File) (cause : StoreCause) : Opened := (.error (.of cause), file)

/-- What a session comes to, the connection being closed if it fails. -/
def opened : Except StoreError Unit × Connection → Opened
  | (.ok (), c) => (.ok c.view, .database c.file)
  | (.error e, c) => (.error e, .database c.file)

/-- Opens a database that is there. -/
def openExisting (r : Refusals) (versions : List Version) (latest : Version) (label : String) : Session Unit := do
  let db ← Session.view
  let version := db.userVersion - baseVersion
  if version < 1 then
    throw (.of (.text (label ++ " database version " ++ Decimal.ofInt version ++ " is invalid (expected >= 1)")))
  else
    match versions.find? fun v => (v.version : Int) == version with
    | none => throw (.of (.text ("Unknown " ++ label ++ " database version " ++ Decimal.ofInt version)))
    | some v =>
      let doing := label ++ " database schema validation failed for version " ++ Decimal.ofInt version
      (Session.check (v.validate db)).within doing
      if v.version < latest.version then migrate r versions v.version

/-- Opens what is at a path as a database of a schema. -/
def openVersioned (versions : List Version) (label path : String) (file : File) (r : Refusals := {}) : Opened :=
  match versions.getLast? with
  | none => refused file (.text ("No schema declared for " ++ label ++ " database"))
  | some latest =>
    match file with
    | .noDirectory =>
      let doing := "Failed to open " ++ label ++ " database at " ++ quotedPath path
      (.error ((StoreError.of (.sql (.cannotOpen path))).within doing), file)
    | .missing => opened ((Session.change latest.create).exec { file := {} })
    | .foreign => refused file (.sql .notDatabase)
    | .database db => opened ((openExisting r versions latest label).exec { file := db })

end CatalogSync.Schema
