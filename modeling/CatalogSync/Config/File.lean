import CatalogSync.Text.Quoted
import CatalogSync.Toml.Reader

/-!
# The configuration file

What a TOML file may say about the program. Every key may be missing and unknown keys are passed
over, but a key that is there must have a value of its kind.
-/

namespace CatalogSync.Config

open CatalogSync.Toml

/-- What the file says about imports. -/
structure ImportFile where
  batchSize : Option Nat := none
  failureThreshold : Option Binary64 := none
deriving DecidableEq, Repr, Inhabited

/-- What the file says. -/
structure File where
  databaseDir : Option String := none
  assetsDir : Option String := none
  metricsPort : Option Nat := none
  httpTimeoutSecs : Option Nat := none
  importing : ImportFile := {}
  /-- The values to seed the settings with. -/
  settings : Entries := []
deriving Repr, Inhabited

/-- Why there is nothing to be had from a file. -/
inductive LoadFault where
  | unreadable (path : String)
  | malformed (path : String)
deriving DecidableEq, Repr, Inhabited

def LoadFault.message : LoadFault → String
  | .unreadable path => "Failed to read config file: " ++ Text.quotedPath path
  | .malformed path => "Failed to parse config file: " ++ Text.quotedPath path

/-! ## Values by kind -/

def string? : Value → Option String
  | .string s => some s
  | _ => none

/-- A natural number up to `most`. -/
def natural? (most : Nat) : Value → Option Nat
  | .integer n => if 0 ≤ n.toInt && n.toInt ≤ most then some n.toInt.toNat else none
  | _ => none

def real? : Value → Option Binary64
  | .integer n => some (Binary64.ofInt n.toInt)
  | .float x => some x
  | _ => none

/-- A value of a kind, or nothing where there is no value; `none` for a value of another kind. -/
def optional? {α : Type} (read : Value → Option α) : Option Value → Option (Option α)
  | none => some none
  | some v => (read v).map some

/-- What the file says about imports, by key or, in an array, by position. -/
def ImportFile.ofValue? : Value → Option ImportFile
  | .array elements => do
    return ⟨← optional? (natural? Text.Decimal.maxNat64) elements[0]?, ← optional? real? elements[1]?⟩
  | v => do
    let entries ← v.entries?
    return ⟨← optional? (natural? Text.Decimal.maxNat64) (entries.find? "batch_size"),
      ← optional? real? (entries.find? "failure_threshold")⟩

/-- The values to seed the settings with. -/
def settingsOf? (v : Value) : Option Entries := do Value.settledEntries? (← v.entries?)

/-- What the entries of a document say. -/
def File.ofEntries? (entries : Entries) : Option File := do
  return {
    databaseDir := ← optional? string? (entries.find? "db_dir")
    assetsDir := ← optional? string? (entries.find? "assets_dir")
    metricsPort := ← optional? (natural? 65535) (entries.find? "metrics_port")
    httpTimeoutSecs := ← optional? (natural? Text.Decimal.maxNat64) (entries.find? "http_timeout_sec")
    importing := (← optional? ImportFile.ofValue? (entries.find? "import")).getD {}
    settings := (← optional? settingsOf? (entries.find? "settings")).getD [] }

/-- Reads the file at a path, whose text is `none` where it cannot be read. -/
def File.load (path : String) (text : Option String) : Except LoadFault File :=
  match text with
  | none => .error (.unreadable path)
  | some text =>
    match (Toml.read? text).bind File.ofEntries? with
    | some file => .ok file
    | none => .error (.malformed path)

end CatalogSync.Config
