import CatalogSync.Text.Decimal

/-!
# Errors of the stores

A store error is a cause within contexts, each context saying what was being done. Its text names
all of them, the outermost first.
-/

namespace CatalogSync

/-- The store calls that can be made to refuse. -/
inductive Call where
  | readSetting
  | writeSetting
  | createJob
  | startJob
  | completeJob
  | failJob
  | cancelJob
  | publish
  | cleanJobs
  | upsert
  | count
  | findSet
  | recordIcon
deriving DecidableEq, Repr, Inhabited

/-- The name of a call in the text of its refusal. -/
def Call.name : Call → String
  | .readSetting => "get_value"
  | .writeSetting => "set"
  | .createJob => "create"
  | .startJob => "start"
  | .completeJob => "complete"
  | .failJob => "fail"
  | .cancelJob => "cancel"
  | .publish => "update_metadata"
  | .cleanJobs => "cleanup"
  | .upsert => "upsert"
  | .count => "count"
  | .findSet => "get_set"
  | .recordIcon => "set_icon_path"

def Call.all : List Call :=
  [.readSetting, .writeSetting, .createJob, .startJob, .completeJob, .failJob, .cancelJob, .publish, .cleanJobs,
    .upsert, .count, .findSet, .recordIcon]

def Call.named? (name : String) : Option Call := Call.all.find? (·.name == name)

/-- What a statement of a database may be refused for. -/
inductive SqlFault where
  /-- The statement is wrong at a byte offset. -/
  | statement (text : String) (sql : String) (offset : Nat)
  /-- The statement is wrong, and no place in it is to blame. -/
  | rejected (text : String)
  /-- The file is not a database. -/
  | notDatabase
  /-- The file cannot be opened or created. -/
  | cannotOpen (path : String)
  /-- A value that must be there is null. -/
  | notNull (table column : String)
  /-- More follows the end of a statement. -/
  | severalStatements
deriving DecidableEq, Repr, Inhabited

/-- The words for a database fault. -/
def SqlFault.chain : SqlFault → List String
  | .statement text sql offset =>
    [text ++ " in " ++ sql ++ " at offset " ++ Text.Decimal.ofNat offset, "Error code 1: SQL error or missing database"]
  | .rejected text => [text, "Error code 1: SQL error or missing database"]
  | .notDatabase => ["file is not a database", "Error code 26: File opened that is not a database file"]
  | .cannotOpen path =>
    ["unable to open database file: " ++ path, "Error code 14: Unable to open the database file"]
  | .notNull table column =>
    ["NOT NULL constraint failed: " ++ table ++ "." ++ column, "Error code 1299: A NOT NULL constraint failed"]
  | .severalStatements => ["Multiple statements provided"]

/-- Why a store did not do what it was asked. -/
inductive StoreCause where
  /-- The call is one that refuses. -/
  | refused (call : Call)
  /-- There is no room for an upsert, counted from one. -/
  | diskFull (upsert : Nat)
  /-- A stored job has a type that is none. -/
  | unknownJobType (text : String)
  /-- A stored job has a status that is none. -/
  | unknownJobStatus (text : String)
  /-- A stored value is of the wrong kind for its column. -/
  | columnType (kind : String) (index : Nat) (column : String)
  | sql (fault : SqlFault)
  /-- A message of one's own. -/
  | text (message : String)
deriving DecidableEq, Repr, Inhabited

/-- The words for a stored text that is none of the names it should be, in the column at `index`. -/
def unreadable (index : Nat) (message : String) : List String :=
  ["Conversion error from type Text at index: " ++ Text.Decimal.ofNat index ++ ", " ++ message, message]

/-- The words for a cause, the outermost first. -/
def StoreCause.chain : StoreCause → List String
  | .refused call => ["injected: " ++ call.name ++ " refused"]
  | .diskFull n => ["upsert " ++ Text.Decimal.ofNat n ++ ": disk full"]
  | .unknownJobType s => unreadable 1 ("unknown job type '" ++ s ++ "'")
  | .unknownJobStatus s => unreadable 2 ("unknown job status '" ++ s ++ "'")
  | .columnType kind index column =>
    ["Invalid column type " ++ kind ++ " at index: " ++ Text.Decimal.ofNat index ++ ", name: " ++ column]
  | .sql fault => fault.chain
  | .text message => [message]

/-- A cause and what was being done, the outermost first. -/
structure StoreError where
  context : List String
  cause : StoreCause
deriving DecidableEq, Repr, Inhabited

namespace StoreError

/-- An error without context. -/
def of (cause : StoreCause) : StoreError := ⟨[], cause⟩

def within (e : StoreError) (doing : String) : StoreError := { e with context := doing :: e.context }

def message (e : StoreError) : String := ": ".intercalate (e.context ++ e.cause.chain)

end StoreError

def within {α : Type} (doing : String) : Except StoreError α → Except StoreError α
  | .ok a => .ok a
  | .error e => .error (e.within doing)

end CatalogSync
