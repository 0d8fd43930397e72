import CatalogSync.Import.Progress
import CatalogSync.Store.Error

/-!
# How an import fails, and when it counts as done

`verdict` decides a finished run by its failure rate: a rate above the threshold fails it, and rows
written stay written.
-/

namespace CatalogSync.Import

open CatalogSync.Text

/-- Why an import failed. -/
inductive Failure where
  /-- A setting is missing. -/
  | config (text : String)
  /-- A request or a body was not answered in full. -/
  | transport (text : String)
  | httpStatus (status : Nat) (url : String)
  | datasetNotFound (type : String)
  /-- The feed or the catalog of datasets is malformed. -/
  | framing (text : String)
  | thresholdExceeded (rate threshold : Binary64) (failed total : Nat)
  | cancelled
  /-- Another import of the dataset is running. -/
  | alreadyRunning
  /-- A store did not do what it was asked. -/
  | store (error : StoreError)
deriving DecidableEq, Repr, Inhabited

namespace Failure

/-- The kind of a failure, as metrics count it. -/
def kind : Failure → String
  | .config _ => "config"
  | .transport _ => "transport"
  | .httpStatus _ _ => "http_status"
  | .datasetNotFound _ => "dataset_not_found"
  | .framing _ => "framing"
  | .thresholdExceeded _ _ _ _ => "threshold_exceeded"
  | .cancelled => "cancelled"
  | .alreadyRunning => "already_running"
  | .store _ => "store"

/-- The wording of a failure. -/
def message : Failure → String
  | .config text => "configuration error: " ++ text
  | .transport text => "transport error: " ++ text
  | .httpStatus status url => "HTTP " ++ Decimal.ofNat status ++ " from " ++ url
  | .datasetNotFound type => "dataset '" ++ type ++ "' not found in catalog"
  | .framing text => "malformed feed: " ++ text
  | .thresholdExceeded rate threshold failed total =>
    "failure rate " ++ rate.fixed 4 ++ " exceeds threshold " ++ threshold.fixed 4 ++ " (" ++
      Decimal.ofNat failed ++ " of " ++ Decimal.ofNat total ++ " records failed)"
  | .cancelled => "import cancelled"
  | .alreadyRunning => "an import of this dataset is already running"
  | .store error => "storage error: " ++ error.message

end Failure

/-- What a run that counts as done did. -/
structure Summary where
  processed : Nat
  succeeded : Nat
  failed : Nat
  batches : Nat
  failureRate : Binary64
deriving DecidableEq, Repr, Inhabited

def Summary.ofProgress (p : Progress) : Summary :=
  ⟨p.processed, p.succeeded, p.failed, p.batches, p.failureRate⟩

/-- Whether a run with this progress counts as done under a threshold of failures. -/
def verdict (threshold : Binary64) (p : Progress) : Except Failure Summary :=
  if threshold.lt p.failureRate then
    .error (.thresholdExceeded p.failureRate threshold p.failed (p.failed + p.succeeded))
  else .ok (Summary.ofProgress p)

end CatalogSync.Import
