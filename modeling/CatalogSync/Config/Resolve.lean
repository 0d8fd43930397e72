import CatalogSync.Binary64.Text
import CatalogSync.Config.File
import CatalogSync.Files.Tree
import CatalogSync.Toml.Writer

/-!
# The configuration

The arguments of the command line and the configuration file make the configuration, and what the
file says comes first. `resolve` checks the parts in the order of the faults in `ResolveFault`, so
the earliest of several is told.
-/

namespace CatalogSync

namespace Config

/-- The arguments of the command line. -/
structure Arguments where
  databaseDir : Option String := none
  assetsDir : Option String := none
  metricsPort : Nat := 9091
  httpTimeoutSecs : Nat := 60
deriving DecidableEq, Repr, Inhabited

/-- How imports are run. -/
structure ImportLimits where
  batchSize : Nat := 1000
  failureThreshold : Binary64 := Binary64.ofDecimal false 5 (-2)
  httpTimeoutSecs : Nat := 60
deriving DecidableEq, Repr, Inhabited

/-- Why there is no configuration. -/
inductive ResolveFault where
  | noDatabaseDir
  | databaseDirMissing (path : String)
  | databaseDirNotFolder (path : String)
  | noTimeout
  | noBatchSize
  | thresholdOutOfRange (x : Binary64)
deriving DecidableEq, Repr, Inhabited

/-- The wording of a fault. -/
def ResolveFault.message : ResolveFault → String
  | .noDatabaseDir => "db_dir must be specified via --db-dir or in config file"
  | .databaseDirMissing path => "Database directory does not exist: " ++ Text.quotedPath path
  | .databaseDirNotFolder path => "db_dir is not a directory: " ++ Text.quotedPath path
  | .noTimeout => "http_timeout_sec must be greater than 0"
  | .noBatchSize => "import.batch_size must be greater than 0"
  | .thresholdOutOfRange x => "import.failure_threshold must be between 0 and 1, got " ++ x.plain

end Config

open Config

/-- The configuration. -/
structure Config where
  databaseDir : String
  assetsDir : String
  metricsPort : Nat
  httpTimeoutSecs : Nat
  importing : ImportLimits
  /-- The values to seed the settings with, as they are stored. -/
  settings : List (String × String)
deriving Repr, Inhabited

namespace Config

def serverDatabase (c : Config) : String := Files.join c.databaseDir "server.db"

def catalogDatabase (c : Config) : String := Files.join c.databaseDir "catalog.db"

/-- A value as it is stored: a string as it is, anything else as TOML writes it. -/
def settingText : Toml.Value → String
  | .string s => s
  | v => v.text

/-- A whole share, from nothing up to everything. -/
def isShare (x : Binary64) : Bool := (Binary64.zero false).le x && x.le (Binary64.ofNat 1)

/-- The directory of the databases, which must be there. -/
def databaseDirOf (kindAt : String → Option Files.Kind) (arguments : Arguments) (file : File) :
    Except ResolveFault String :=
  match file.databaseDir.or arguments.databaseDir with
  | none => .error .noDatabaseDir
  | some path =>
    match kindAt path with
    | none => .error (.databaseDirMissing path)
    | some .file => .error (.databaseDirNotFolder path)
    | some .folder => .ok path

/-- The configuration that the arguments and the file make, where `kindAt` tells what stands at a path. -/
def resolve (kindAt : String → Option Files.Kind) (arguments : Arguments) (file : File) :
    Except ResolveFault Config := do
  let databaseDir ← databaseDirOf kindAt arguments file
  let httpTimeoutSecs := file.httpTimeoutSecs.getD arguments.httpTimeoutSecs
  if httpTimeoutSecs = 0 then throw .noTimeout
  let usual : ImportLimits := {}
  let importing : ImportLimits :=
    { batchSize := file.importing.batchSize.getD usual.batchSize
      failureThreshold := file.importing.failureThreshold.getD usual.failureThreshold
      httpTimeoutSecs }
  if importing.batchSize = 0 then throw .noBatchSize
  if !isShare importing.failureThreshold then throw (.thresholdOutOfRange importing.failureThreshold)
  return {
    databaseDir
    assetsDir := (file.assetsDir.or arguments.assetsDir).getD (Files.join databaseDir "assets")
    metricsPort := file.metricsPort.getD arguments.metricsPort
    httpTimeoutSecs
    importing
    settings := file.settings.map fun (key, v) => (key, settingText v) }

end Config

end CatalogSync
