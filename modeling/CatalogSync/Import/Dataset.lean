import CatalogSync.Ledger.Job

/-!
# Datasets

The two datasets that are kept in step with a feed, and the names that go with each.
-/

namespace CatalogSync

/-- A dataset. -/
inductive Dataset where
  | cards
  | sets
deriving DecidableEq, Repr, Inhabited

namespace Dataset

/-- The name of a dataset in settings, progress and metrics. -/
def key : Dataset → String
  | .cards => "card_data"
  | .sets => "set_data"

/-- The type of the jobs that import a dataset. -/
def jobType : Dataset → JobType
  | .cards => .cardImport
  | .sets => .setImport

/-- The type of a dataset in the catalog of datasets, unless a setting names another. -/
def defaultType : Dataset → String
  | .cards => "default_cards"
  | .sets => "sets"

def taskName (d : Dataset) : String := d.key ++ "_refresh"

def ofKey? (key : String) : Option Dataset := [Dataset.cards, .sets].find? (·.key == key)

end Dataset

end CatalogSync
