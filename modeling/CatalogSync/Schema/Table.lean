import CatalogSync.Sql.Database
import CatalogSync.Text.Quoted

/-!
# Declared tables

A table is declared with its columns and indices. `Table.create` lays it out in a database, and
`Table.validate` compares a database with the declaration, told by the first difference.
-/

namespace CatalogSync.Schema

open CatalogSync.Sql CatalogSync.Text

/-- The types that columns are declared with. -/
inductive SqlType where
  | text
  | integer
  | real
  | blob
deriving DecidableEq, Repr, Inhabited

namespace SqlType

/-- A type in a statement. -/
def sql : SqlType → String
  | .text => "TEXT"
  | .integer => "INTEGER"
  | .real => "REAL"
  | .blob => "BLOB"

/-- A type in a message. -/
def name : SqlType → String
  | .text => "Text"
  | .integer => "Integer"
  | .real => "Real"
  | .blob => "Blob"

/-- The type that a database tells, if it is one that columns are declared with. -/
def parse (s : String) : Option SqlType := [SqlType.text, .integer, .real, .blob].find? (·.sql == s)

end SqlType

/-- A declared column. -/
structure Column where
  name : String
  type : SqlType
  isPrimaryKey : Bool := false
  notNull : Bool := false
  default : Option String := none
deriving DecidableEq, Repr, Inhabited

/-- A declared table. An index has a name and the text of what it is over. -/
structure Table where
  name : String
  columns : List Column
  indices : List (String × String) := []
deriving DecidableEq, Repr, Inhabited

/-! ## Laying out -/

/-- A column in a statement, its type as text. -/
def columnSql (name type : String) (isPrimaryKey notNull : Bool) (default : Option String) : String :=
  name ++ " " ++ type ++ (if isPrimaryKey then " PRIMARY KEY" else "") ++ (if notNull then " NOT NULL" else "") ++
    (match default with | none => "" | some s => " DEFAULT " ++ s)

/-- The statement that creates a table of given columns. -/
def createTableSql (name : String) (columns : List String) : String :=
  "CREATE TABLE " ++ name ++ " (" ++ ", ".intercalate columns ++ ");"

def createIndexSql (table index columns : String) : String :=
  "CREATE INDEX " ++ index ++ " ON " ++ table ++ "(" ++ columns ++ ");"

def Table.sql (t : Table) : String :=
  createTableSql t.name (t.columns.map fun c => columnSql c.name c.type.sql c.isPrimaryKey c.notNull c.default)

/-- Carries out a statement. A database that refuses it stays as it is. -/
def execute (sql : String) (db : Database) : Except StoreError Unit × Database :=
  match db.execute sql with
  | .ok db => (.ok (), db)
  | .error fault => (.error (.of (.sql fault)), db)

/-- Creates indices in order, up to the first that is refused. -/
def createIndices (table : String) : List (String × String) → Database → Except StoreError Unit × Database
  | [], db => (.ok (), db)
  | (index, columns) :: rest, db =>
    match execute (createIndexSql table index columns) db with
    | (.ok (), db) => createIndices table rest db
    | (.error e, db) => (.error e, db)

def Table.create (t : Table) (db : Database) : Except StoreError Unit × Database :=
  match execute t.sql db with
  | (.ok (), db) => createIndices t.name t.indices db
  | (.error e, db) => (.error (e.within ("Failed to create table " ++ t.name)), db)

/-- Lays out a table by the texts of its columns and constraints, as far as the database accepts it. -/
def layOut (name : String) (columns : List String) (indices : List (String × String)) (db : Database) : Database :=
  (createIndices name indices (execute (createTableSql name columns) db).2).2

/-- Creates tables in order, up to the first that is refused. -/
def createTables : List Table → Database → Except StoreError Unit × Database
  | [], db => (.ok (), db)
  | t :: rest, db =>
    match t.create db with
    | (.ok (), db) => createTables rest db
    | (.error e, db) => (.error e, db)

/-! ## Comparing -/

/-- A text without one pair of parentheses around it. -/
def stripParentheses (s : String) : String :=
  match s.toList with
  | '(' :: r => if r.getLast? = some ')' then String.ofList r.dropLast else s
  | _ => s

/-- A column with its type, if it is one that columns are declared with. -/
def typedColumn (c : ColumnInfo) : Except StoreError (ColumnInfo × SqlType) :=
  match SqlType.parse c.type with
  | some type => .ok (c, type)
  | none => .error (.of (.columnType "Text" 2 c.type))

/-- The columns of a table, each with its type; none if there is no such table. A view is taken for one. -/
def readColumns (t : Table) (db : Database) : Except StoreError (List (ColumnInfo × SqlType)) := do
  let columns ← (db.tableInfo t.name).mapError fun fault => .of (.sql fault)
  within ("Failed to read columns of table " ++ t.name) (columns.mapM typedColumn)

def boolText (b : Bool) : String := if b then "true" else "false"

def defaultText : Option String → String
  | none => "None"
  | some s => "Some(" ++ quoted s ++ ")"

/-- The first difference between a column and its declaration, in words. -/
def Column.difference (table : String) (c : Column) (info : ColumnInfo) (type : SqlType) : Option String :=
  let differs := fun (what expected got : String) =>
    some (what ++ " mismatch: expected " ++ expected ++ ", got " ++ got)
  let column := "Table " ++ table ++ " column " ++ c.name
  if info.name ≠ c.name then differs ("Table " ++ table ++ " column name") c.name info.name
  else if type ≠ c.type then differs (column ++ " type") c.type.name type.name
  else if info.notNull ≠ c.notNull then differs (column ++ " non-null") (boolText c.notNull) (boolText info.notNull)
  else if (info.keyPlace == 1) ≠ c.isPrimaryKey then
    differs (column ++ " primary key") (boolText c.isPrimaryKey) (boolText (info.keyPlace == 1))
  else if info.default.map stripParentheses ≠ c.default.map stripParentheses then
    differs (column ++ " default value") (defaultText c.default) (defaultText info.default)
  else none

/-- Whether a table has an index of a name. -/
def hasIndex (db : Database) (table index : String) : Bool :=
  db.indices.any fun i => i.name == index && i.table == table

/-- The first difference between a database and a declared table, in words. -/
def Table.difference (t : Table) (db : Database) (columns : List (ColumnInfo × SqlType)) : Option String :=
  if columns.length ≠ t.columns.length then
    some ("Table " ++ t.name ++ " has " ++ Decimal.ofNat columns.length ++ " columns, expected " ++
      Decimal.ofNat t.columns.length ++ " (found: " ++ ", ".intercalate (columns.map (·.1.name)) ++ ")")
  else
    ((columns.zip t.columns).findSome? fun ((info, type), c) => c.difference t.name info type) <|>
      t.indices.findSome? fun (index, _) =>
        if hasIndex db t.name index then none
        else some ("Table " ++ t.name ++ " is missing index '" ++ index ++ "'")

/-- Compares a database with a declared table. -/
def Table.validate (t : Table) (db : Database) : Except StoreError Unit := do
  let columns ← readColumns t db
  match t.difference db columns with
  | some message => throw (.of (.text message))
  | none => return ()

end CatalogSync.Schema
