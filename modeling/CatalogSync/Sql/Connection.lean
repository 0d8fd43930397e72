import CatalogSync.Sql.Database

/-!
# Connections

A connection reads and writes the file of a database. Outside a transaction what it writes is in the
file at once. Within one it is kept apart: a commit puts it all into the file, a rollback none of it.
-/

namespace CatalogSync.Sql

/-- A connection to the file of a database. -/
structure Connection where
  file : Database
  /-- What the open transaction has made of the database. -/
  pending : Option Database := none
deriving DecidableEq, Repr, Inhabited

namespace Connection

/-- The database as it is read over the connection. -/
def view (c : Connection) : Database := c.pending.getD c.file

/-- What is written goes to the open transaction, or else to the file. -/
def write (db : Database) (c : Connection) : Connection :=
  match c.pending with
  | none => { c with file := db }
  | some _ => { c with pending := some db }

def rollback (c : Connection) : Connection := { c with pending := none }

end Connection

/-- What is done over a connection. An error does not take back what was done before it. -/
abbrev Session := ExceptT StoreError (StateM Connection)

/-- Statements that a database may refuse though nothing is wrong with them, as when its disk is full. -/
structure Refusals where
  begin : Option SqlFault := none
  stamp : Option SqlFault := none
  commit : Option SqlFault := none
deriving DecidableEq, Repr, Inhabited

namespace Session

variable {α : Type}

def exec (c : Connection) (m : Session α) : Except StoreError α × Connection := m.run.run c

/-- The database as it is read over the connection. -/
def view : Session Database := return (← get).view

def check : Except StoreError α → Session α
  | .ok a => return a
  | .error e => throw e

def refuse : Option SqlFault → Session Unit
  | none => return
  | some fault => throw (.of (.sql fault))

def within (doing : String) (m : Session α) : Session α := ExceptT.adapt (·.within doing) m

/-- Changes the database, perhaps only in part. -/
def change (f : Database → Except StoreError Unit × Database) : Session Unit := do
  let changed := f (← view)
  modify (·.write changed.2)
  check changed.1

/-- Begins a transaction. -/
def begin (fault : Option SqlFault) : Session Unit := do
  refuse fault
  let c : Connection ← get
  if c.pending.isSome then throw (.of (.sql (.rejected "cannot start a transaction within a transaction")))
  else set { c with pending := some c.file }

/-- Puts what the open transaction wrote into the file. -/
def commit (fault : Option SqlFault) : Session Unit := do
  refuse fault
  modify fun c => { file := c.view }

/-- A session as one transaction, which an error rolls back. -/
def transaction (r : Refusals) (m : Session Unit) : Session Unit := do
  begin r.begin
  tryCatch (do m; commit r.commit) fun e => do
    modify Connection.rollback
    throw e

end Session

end CatalogSync.Sql
