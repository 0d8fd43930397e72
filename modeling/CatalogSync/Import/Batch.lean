import CatalogSync.Import.Icon
import CatalogSync.Import.Error

/-!
# Applying a batch

The elements of a batch that read are written to the catalog, and the others are counted as
failures. For sets, the icons follow, and a set without its icon counts as a failure although its
row is written.
-/

namespace CatalogSync.Import

open CatalogSync.Catalog

/-- The records of a batch, and the batch's failures so far. -/
def readAll {α : Type} (read : Json → Except String α) (items : List Json) : List α × BatchResult :=
  items.foldl
    (fun (records, result) v =>
      match read v with
      | .ok a => (records ++ [a], result)
      | .error message => (records, result.recordFailure message))
    ([], BatchResult.empty)

/-- Makes sure of the icons of sets, until a token is cancelled, and tells what failed. -/
def ensureIcons (assets : String) (token : Token) : List CardSet → Program (List String)
  | [] => return []
  | s :: rest => do
    let cancelled : Bool ← Program.call (.isCancelled token)
    if cancelled then return []
    else
      let outcome ← ensureIcon assets s
      let failures ← ensureIcons assets token rest
      match outcome with
      | .ok () => return failures
      | .error message => return message :: failures

/-- Applies a batch: what the store wrote counts as a success, apart from what failed afterwards. -/
def applyBatch (dataset : Dataset) (assets : String) (items : List Json) (token : Token) :
    Program (Stored BatchResult) := do
  match dataset with
  | .cards =>
    let (cards, result) := readAll readCard items
    match ← Program.call (.upsertCards cards) with
    | .error e => return .error e
    | .ok written => return .ok { result with succeeded := written }
  | .sets =>
    let (sets, result) := readAll readSet items
    match ← Program.call (.upsertSets sets) with
    | .error e => return .error e
    | .ok written =>
      let failures ← ensureIcons assets token sets
      return .ok ({ result with succeeded := written - failures.length }.recordFailures failures)

end CatalogSync.Import
