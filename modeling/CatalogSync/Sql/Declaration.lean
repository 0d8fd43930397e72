import CatalogSync.Sql.Expression

/-!
# Declaring a table

What the parentheses of `CREATE TABLE` hold: columns with their constraints, then constraints on the
whole table. The type of a column is kept as it is written, a usual type in capital letters, and a
default without the outermost parentheses around it.
-/

namespace CatalogSync.Sql

/-- A column as the database tells it. -/
structure ColumnInfo where
  name : String
  type : String
  notNull : Bool
  default : Option String
  /-- The place in the primary key, counted from one; zero outside of it. -/
  keyPlace : Nat
deriving DecidableEq, Repr, Inhabited

/-! ## Types and defaults -/

/-- The types that are told in capital letters. -/
def usualTypes : List String := ["ANY", "BLOB", "INT", "INTEGER", "REAL", "TEXT"]

/-- What is inside the quotes that a text opens with, whatever follows them. -/
def unquoted (s : String) : String :=
  match s.toList with
  | [] => s
  | c :: r =>
    if c = '[' then String.ofList (r.takeWhile (· ≠ ']'))
    else if c = '\'' || c = '"' || c = '\x60' then
      String.ofList (Token.undouble c (r.take ((quotedLength? c 0 r).getD r.length - 1)))
    else s

def typeText (written : String) : String :=
  if usualTypes.contains (capitals written) then capitals written else unquoted written

/-- The fault over a default that is no constant. -/
def notConstant (column : String) : SqlFault :=
  .rejected ("default value of column [" ++ column ++ "] is not constant")

/-- Passes a default and tells its text: an expression in parentheses, a value with or without a
sign, or a name. -/
def defaultText (column : String) (r : Reading) : Except SqlFault (String × Reading) :=
  match r.rest with
  | [] => r.refuse
  | t :: _ =>
    if t.isSymbol "(" then do
      let (uses, after) ← r.skip.expression
      let closed ← after.symbol ")"
      if !uses.isEmpty then throw (notConstant column)
      return (trimmedText (between r.sql t.stop after.offset), closed)
    else if t.isSymbol "+" || t.isSymbol "-" then
      match r.skip.rest with
      | v :: _ => if isLiteral v then .ok (between r.sql t.offset v.stop, r.skip.skip) else r.skip.refuse
      | [] => r.skip.refuse
    else if isLiteral t || t.name?.isSome then .ok (t.toText, r.skip)
    else r.refuse

/-! ## Clauses of constraints -/

/-- Passes what is to happen on a conflict, if it is told. -/
def onConflict (r : Reading) : Except SqlFault Reading :=
  if r.atWord "ON" then do (← r.skip.word "CONFLICT").anyWord ["ROLLBACK", "ABORT", "FAIL", "IGNORE", "REPLACE"]
  else .ok r

/-- Passes names between commas, each perhaps with a collation and an order, and the parenthesis
that closes them. -/
def nameList : Nat → List String → Reading → Except SqlFault (List String × Reading)
  | 0, _, r => r.refuse
  | fuel + 1, names, r => do
    let (n, _, r) ← r.name
    let r ← if r.atWord "COLLATE" then r.skip.pastName else pure r
    let r := r.pastAnyWord ["ASC", "DESC"]
    if r.atSymbol "," then nameList fuel (names ++ [n]) r.skip
    else return (names ++ [n], ← r.symbol ")")

/-- Passes names in parentheses, if there are any. -/
def optionalNames (r : Reading) : Except SqlFault Reading :=
  if r.atSymbol "(" then (nameList r.fuel [] r.skip).map (·.2) else .ok r

/-- Passes what a change of a row does to the rows that refer to it. -/
def referenceAction (r : Reading) : Except SqlFault Reading :=
  if r.atWord "SET" then r.skip.anyWord ["NULL", "DEFAULT"]
  else if r.atWord "NO" then r.skip.word "ACTION"
  else r.anyWord ["CASCADE", "RESTRICT"]

/-- Passes the clauses that follow a reference. -/
def referenceClauses : Nat → Reading → Except SqlFault Reading
  | 0, r => r.refuse
  | fuel + 1, r =>
    if r.atWord "ON" then do
      referenceClauses fuel (← referenceAction (← r.skip.anyWord ["DELETE", "UPDATE", "INSERT"]))
    else if r.atWord "MATCH" then do referenceClauses fuel (← r.skip.pastName)
    else .ok r

/-- Passes a reference to a table, from its word on. -/
def reference (r : Reading) : Except SqlFault Reading := do
  let r ← (← r.word "REFERENCES").pastName
  referenceClauses r.fuel (← optionalNames r)

/-- Passes when a reference is checked, from the word `DEFERRABLE` on. -/
def deferral (r : Reading) : Except SqlFault Reading := do
  let r ← r.word "DEFERRABLE"
  if r.atWord "INITIALLY" then r.skip.anyWord ["DEFERRED", "IMMEDIATE"] else return r

/-! ## Columns -/

/-- A table while it is declared. -/
structure Declared where
  name : String
  /-- The columns so far, and whether each is computed from others. -/
  columns : List (ColumnInfo × Bool)
  hasKey : Bool
deriving Inhabited

namespace Declared

/-- Notes that a table has a primary key. -/
def withKey (d : Declared) : Except SqlFault Declared :=
  if d.hasKey then .error (.rejected ("table \"" ++ d.name ++ "\" has more than one primary key"))
  else .ok { d with hasKey := true }

def modifyLast (d : Declared) (f : ColumnInfo → ColumnInfo) : Declared :=
  { d with columns := d.columns.modify (d.columns.length - 1) fun (c, computed) => (f c, computed) }

/-- Notes that the column that was declared last is computed. -/
def computeLast (d : Declared) : Declared :=
  { d with columns := d.columns.modify (d.columns.length - 1) fun (c, _) => (c, true) }

def lastName (d : Declared) : String := (d.columns.getLast?.map (·.1.name)).getD ""

/-- Gives columns their places in a primary key. -/
def placeKey (d : Declared) (names : List String) : Declared :=
  let place := fun ((c, computed) : ColumnInfo × Bool) =>
    match names.findIdx? (sameName c.name) with
    | some i => ({ c with keyPlace := i + 1 }, computed)
    | none => (c, computed)
  { d with columns := d.columns.map place }

end Declared

/-- Passes how a column is computed, from the word `AS` on. -/
def computation (r : Reading) : Except SqlFault Reading := do
  let (_, r) ← (← r.word "AS").enclosed
  return r.pastAnyWord ["STORED", "VIRTUAL"]

/-- Passes the constraints of the column that was declared last. -/
def columnConstraints : Nat → Declared → Reading → Except SqlFault (Declared × Reading)
  | 0, _, r => r.refuse
  | fuel + 1, d, r =>
    if r.atWord "CONSTRAINT" then do columnConstraints fuel d (← r.skip.pastName)
    else if r.atWord "DEFAULT" then do
      let (text, r) ← defaultText d.lastName r.skip
      columnConstraints fuel (d.modifyLast fun c => { c with default := some text }) r
    else if r.atWord "NOT" && r.skip.atWord "DEFERRABLE" then do columnConstraints fuel d (← deferral r.skip)
    else if r.atWord "NOT" then do
      let r ← onConflict (← r.skip.word "NULL")
      columnConstraints fuel (d.modifyLast fun c => { c with notNull := true }) r
    else if r.atWord "NULL" || r.atWord "UNIQUE" then do columnConstraints fuel d (← onConflict r.skip)
    else if r.atWord "PRIMARY" then do
      let r ← onConflict ((← r.skip.word "KEY").pastAnyWord ["ASC", "DESC"])
      let d ← d.withKey
      columnConstraints fuel (d.modifyLast fun c => { c with keyPlace := 1 }) (r.pastWord "AUTOINCREMENT")
    else if r.atWord "CHECK" then do
      let (_, r) ← r.skip.enclosed
      columnConstraints fuel d r
    else if r.atWord "REFERENCES" then do columnConstraints fuel d (← reference r)
    else if r.atWord "DEFERRABLE" then do columnConstraints fuel d (← deferral r)
    else if r.atWord "COLLATE" then do columnConstraints fuel d (← r.skip.pastName)
    else if r.atWord "GENERATED" then do
      let r ← computation (← r.skip.word "ALWAYS")
      columnConstraints fuel d.computeLast r
    else if r.atWord "AS" then do
      let r ← computation r
      columnConstraints fuel d.computeLast r
    else .ok (d, r)

/-- Passes a column with its constraints. -/
def column (d : Declared) (r : Reading) : Except SqlFault (Declared × Reading) := do
  let (name, _, r) ← r.name
  let (written, r) ← writtenType r
  if d.columns.any fun (c, _) => sameName c.name name then
    throw (.rejected ("duplicate column name: " ++ name))
  let d := { d with columns := d.columns ++ [(⟨name, typeText written, false, none, 0⟩, false)] }
  columnConstraints r.fuel d r

/-! ## Tables -/

/-- The words that a constraint on a whole table begins with. -/
def constraintWords : List String := ["CONSTRAINT", "PRIMARY", "UNIQUE", "CHECK", "FOREIGN"]

/-- Passes constraints on the whole table; commas between them may be left out. -/
def tableConstraints : Nat → Declared → Reading → Except SqlFault (Declared × Reading)
  | 0, _, r => r.refuse
  | fuel + 1, d, r => do
    let next := fun (d : Declared) (r : Reading) =>
      if r.atSymbol "," then
        if r.skip.atAnyWord constraintWords then tableConstraints fuel d r.skip else r.skip.refuse
      else tableConstraints fuel d r
    if r.atWord "CONSTRAINT" then tableConstraints fuel d (← r.skip.pastName)
    else if r.atWord "PRIMARY" then do
      let (names, r) ← nameList r.fuel [] (← (← r.skip.word "KEY").symbol "(")
      next ((← d.withKey).placeKey names) (← onConflict r)
    else if r.atWord "UNIQUE" then do
      let (_, r) ← nameList r.fuel [] (← r.skip.symbol "(")
      next d (← onConflict r)
    else if r.atWord "CHECK" then do
      let (_, r) ← r.skip.enclosed
      next d (← onConflict r)
    else if r.atWord "FOREIGN" then do
      let (_, r) ← nameList r.fuel [] (← (← r.skip.word "KEY").symbol "(")
      let r ← reference r
      let r ← if r.atWord "DEFERRABLE" then deferral r
        else if r.atWord "NOT" then deferral r.skip
        else pure r
      next d r
    else return (d, r)

/-- Passes columns, constraints on the whole table after them, and the closing parenthesis. -/
def tableBody : Nat → Declared → Reading → Except SqlFault (Declared × Reading)
  | 0, _, r => r.refuse
  | fuel + 1, d, r => do
    let (d, r) ← column d r
    if r.atSymbol "," && !r.skip.atAnyWord constraintWords then tableBody fuel d r.skip
    else
      let (d, r) ← if r.atSymbol "," then tableConstraints r.fuel d r.skip else pure (d, r)
      return (d, ← r.symbol ")")

end CatalogSync.Sql
