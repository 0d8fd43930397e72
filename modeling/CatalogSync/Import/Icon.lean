import CatalogSync.Files.Path
import CatalogSync.Import.CardSet
import CatalogSync.Program.Basic
import CatalogSync.Web.Status

/-!
# Icons of sets

`download` brings a file into place whole or not at all: the body goes into a partial file beside
it, which is moved when it is complete. `ensureIcon` makes sure that the icon of a set is there and
that the catalog knows where.
-/

namespace CatalogSync.Import

open CatalogSync.Catalog CatalogSync.Text

/-- The path that a download goes to before it is complete. -/
def partialPath (path : String) : String := Files.withEnding path "part"

/-- Makes the directory of a path with all above it; the top is in none. -/
def makeDirectoryOf (path : String) : Program (Filed Unit) :=
  match Files.directoryOf path with
  | some directory => Program.call (.makeDirectory directory)
  | none => return .ok ()

/-- Writes a body to the partial file of a path and moves it into place. -/
def store (location path : String) (body : Feed.Source) : Program (Except (List String) Nat) := do
  match ← makeDirectoryOf path with
  | .error e => return .error ["Failed to create parent directories", e]
  | .ok () =>
    match ← Program.call (.createFile (partialPath path)) with
    | .error e => return .error ["Failed to create destination file", e]
    | .ok () =>
      match ← Program.call (.appendFile (partialPath path) body.bytes) with
      | .error e => return .error ["Failed to write to file", e]
      | .ok () =>
        match body.ending with
        | .closed =>
          match ← Program.call (.flushFile (partialPath path)) with
          | .error e => return .error ["Failed to flush file", e]
          | .ok () =>
            match ← Program.call (.moveFile (partialPath path) path) with
            | .error e => return .error ["Failed to move download into " ++ quotedPath path, e]
            | .ok () => return .ok body.bytes.length
        | .broken reason => return .error ["Failed to read body of " ++ location, reason]
        | .stalled => return .error ["Failed to read body of " ++ location, Web.timedOut]

/-- Brings what is at a location to a path, and tells its size. An error says what was being done,
the outermost first. -/
def download (location path : String) : Program (Except (List String) Nat) := do
  match ← Program.call (.request location .timed none) with
  | .failed chain => return .error (("Failed to connect to " ++ location) :: chain)
  | .none => return .error ["Failed to connect to " ++ location, Web.timedOut]
  | .cancelled => return .error ["Failed to connect to " ++ location, Web.timedOut]
  | .answered status body =>
    if Web.isSuccess status then store location path body
    else return .error ["Download of " ++ location ++ " failed with status: " ++ Web.statusText status]

/-- Notes in the catalog where the icon of a set is, unless it is noted already. -/
def noteIcon (code path : String) : Program (Except String Unit) := do
  match ← Program.call (.findSet code) with
  | .error e => return .error ("set " ++ code ++ ": " ++ e.message)
  | .ok stored =>
    if stored.bind (·.iconPath) = some path then return .ok ()
    else
      match ← Program.call (.recordIcon code path) with
      | .error e => return .error ("set " ++ code ++ ": " ++ e.message)
      | .ok () => return .ok ()

/-- Makes sure that the icon of a set is in the directory of the assets and that the catalog knows it. -/
def ensureIcon (assets : String) (s : CardSet) : Program (Except String Unit) := do
  match s.iconUri with
  | none => return .ok ()
  | some location =>
    let path := iconPath assets s.code
    let there : Bool ← Program.call (.fileExists path)
    if there then noteIcon s.code path
    else
      match ← download location path with
      | .error chain => return .error ("set " ++ s.code ++ ": icon download failed: " ++ ": ".intercalate chain)
      | .ok _ => noteIcon s.code path

end CatalogSync.Import
