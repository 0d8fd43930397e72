import CatalogSync.Binary64.Basic
import CatalogSync.Sql.Declaration

/-!
# Databases

A database holds tables with their columns and rows, views, indices, and a version of the user's own.
`Database.execute` carries out the statements that lay a database out, and `Database.tableInfo` tells
the columns of a table or a view. A view has its name among the tables.
-/

namespace CatalogSync.Sql

/-- What a cell of a row holds. -/
inductive Value where
  | null
  | integer (i : Int)
  | real (x : Binary64)
  | text (s : String)
  | blob (bytes : List UInt8)
deriving DecidableEq, Repr, Inhabited

/-- A table or a view as the database tells it. -/
structure TableInfo where
  name : String
  columns : List ColumnInfo
  /-- The names of the columns that are computed from others; these are not told. -/
  computed : List String := []
  rows : List (List Value) := []
  /-- Whether it is a view. -/
  isView : Bool := false
deriving DecidableEq, Repr, Inhabited

/-- An index over columns of a table. -/
structure IndexInfo where
  name : String
  table : String
  columns : List String
deriving DecidableEq, Repr, Inhabited

/-- A database. -/
structure Database where
  userVersion : Int := 0
  /-- The tables and the views. -/
  tables : List TableInfo := []
  indices : List IndexInfo := []
deriving DecidableEq, Repr, Inhabited

def TableInfo.hasColumn (t : TableInfo) (name : String) : Bool :=
  (t.columns.map (·.name) ++ t.computed).any (sameName name)

/-- The first use of a column that a table has not. -/
def TableInfo.unknown? (t : TableInfo) : List Use → Option (String × Nat)
  | [] => none
  | .column name offset :: rest => if t.hasColumn name then t.unknown? rest else some (name, offset)
  | .other :: rest => t.unknown? rest

namespace Database

/-- The table or the view of a name. -/
def table? (db : Database) (name : String) : Option TableInfo := db.tables.find? fun t => sameName t.name name

def index? (db : Database) (name : String) : Option IndexInfo := db.indices.find? fun i => sameName i.name name

/-- What stands under a name, in a message. -/
def kindOf (db : Database) (name : String) : String := if (db.table? name).any (·.isView) then "view" else "table"

end Database

/-- Makes sure that a statement ends. -/
def endStatement (r : Reading) : Except SqlFault Unit :=
  match r.rest with
  | [] => .ok ()
  | t :: rest =>
    if !t.isSymbol ";" then r.refuse
    else if rest.isEmpty then .ok ()
    else .error .severalStatements

/-- The fault over a name that is kept for the database itself. -/
def checkName (name : String) : Except SqlFault Unit :=
  if "sqlite_".toList.isPrefixOf (name.toList.map lower) then
    .error (.rejected ("object name reserved for internal use: " ++ name))
  else .ok ()

namespace Database

/-- Carries out the rest of a statement that creates a table. -/
def createTable (db : Database) (r : Reading) : Except SqlFault Database := do
  let (name, offset, r) ← r.name
  checkName name
  if (db.table? name).isSome then throw (.statement (db.kindOf name ++ " " ++ name ++ " already exists") r.sql offset)
  if (db.index? name).isSome then throw (.rejected ("there is already an index named " ++ name))
  let r ← r.symbol "("
  let (d, r) ← tableBody r.fuel ⟨name, [], false⟩ r
  endStatement r
  if d.columns.all (·.2) then throw (.rejected "must have at least one non-generated column")
  let (computed, stored) := d.columns.partition (·.2)
  let table : TableInfo := { name, columns := stored.map (·.1), computed := computed.map (·.1.name) }
  return { db with tables := db.tables ++ [table] }

/-- Passes what an index is over, up to the closing parenthesis: the text and the uses of each part. -/
def indexParts : Nat → List (String × List Use) → Reading → Except SqlFault (List (String × List Use) × Reading)
  | 0, _, r => r.refuse
  | fuel + 1, parts, r => do
    let start := r.offset
    let (uses, r) ← r.expression
    let text := trimmedText (between r.sql start r.offset)
    let r := r.pastAnyWord ["ASC", "DESC"]
    let parts := parts ++ [(text, uses)]
    if r.atSymbol "," then indexParts fuel parts r.skip
    else return (parts, ← r.symbol ")")

/-- Carries out the rest of a statement that creates an index. -/
def createIndex (db : Database) (r : Reading) : Except SqlFault Database := do
  let (name, _, r) ← r.name
  let r ← r.word "ON"
  let (table, _, r) ← r.name
  let r ← r.symbol "("
  let (parts, r) ← indexParts r.fuel [] r
  endStatement r
  match db.table? table with
  | none => throw (.rejected ("no such table: main." ++ table))
  | some t =>
    if t.isView then throw (.rejected "views may not be indexed")
    checkName name
    if (db.table? name).isSome then throw (.rejected ("there is already a table named " ++ name))
    if (db.index? name).isSome then throw (.rejected ("index " ++ name ++ " already exists"))
    match t.unknown? (parts.flatMap (·.2)) with
    | some (n, offset) => throw (.statement ("no such column: " ++ n) r.sql offset)
    | none => return { db with indices := db.indices ++ [⟨name, t.name, parts.map (·.1)⟩] }

/-- Carries out a statement that creates a table or an index. -/
def execute (db : Database) (sql : String) : Except SqlFault Database := do
  let r ← (Reading.mk sql (tokens sql)).word "CREATE"
  if r.atWord "INDEX" then db.createIndex r.skip else db.createTable (← r.word "TABLE")

/-- Passes the name that a pragma is about: a number with its sign is one as well. -/
def pragmaName (r : Reading) : Except SqlFault (String × Reading) :=
  match r.rest with
  | [] => r.refuse
  | t :: _ =>
    if t.isSymbol "+" || t.isSymbol "-" then
      match r.skip.rest with
      | n :: _ =>
        if n.kind = .number then .ok ((if t.isSymbol "-" then "-" else "") ++ n.toText, r.skip.skip)
        else r.skip.refuse
      | [] => r.skip.refuse
    else if t.kind = .number || ["ON", "DELETE", "DEFAULT"].any t.isWord then .ok (t.toText, r.skip)
    else (r.name).map fun (name, _, r) => (name, r)

/-- The statement that asks for the columns of a table. -/
def tableInfoSql (table : String) : String := "PRAGMA table_info(" ++ table ++ ");"

/-- The columns of the table or view that a text stands for, none if there is none. What follows the statement is not
looked at. -/
def tableInfo (db : Database) (table : String) : Except SqlFault (List ColumnInfo) := do
  let r ← (Reading.mk (tableInfoSql table) (tokens (tableInfoSql table))).word "PRAGMA"
  let (name, r) ← pragmaName (← (← r.word "TABLE_INFO").symbol "(")
  let r ← r.symbol ")"
  if !r.atSymbol ";" then r.refuse
  else return ((db.table? name).map (·.columns)).getD []

/-- The greatest version that a database can keep. -/
def maxVersion : Nat := 2147483647

/-- Sets the version; one that is too great counts as zero. -/
def setVersion (db : Database) (n : Nat) : Database := { db with userVersion := if n ≤ maxVersion then n else 0 }

end Database

end CatalogSync.Sql
