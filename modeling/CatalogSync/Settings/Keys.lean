/-!
# The keys of the settings

Keys of a dataset start with its own name; the others stand alone.
-/

namespace CatalogSync.Settings

/-- Whether a dataset is refreshed on schedule. -/
def autoUpdateKey (dataset : String) : String := dataset ++ "_auto_update"

/-- The time of day that a dataset is refreshed at. -/
def updateTimeKey (dataset : String) : String := dataset ++ "_update_time"

/-- When a dataset was last imported with success. -/
def lastUpdateKey (dataset : String) : String := dataset ++ "_last_update"

/-- How the last import of a dataset ended, or that it is in progress. -/
def lastUpdateStatusKey (dataset : String) : String := dataset ++ "_last_update_status"

def urlKey (dataset : String) : String := dataset ++ "_url"

/-- The type that a dataset has in the catalog of datasets. -/
def datasetTypeKey (dataset : String) : String := dataset ++ "_dataset_type"

def retentionDaysKey : String := "job_cleanup_retention_days"

/-- When old jobs were last removed. -/
def cleanupLastRunKey : String := "job_cleanup_last_run"

/-- The minutes between two checks of the scheduler. -/
def checkMinutesKey : String := "scheduler_check_interval_minutes"

/-- Whether the scheduler makes a catch-up pass. -/
def catchUpKey : String := "scheduler_catchup_enabled"

def catchUpDelayKey : String := "scheduler_catchup_delay_seconds"

/-- The settings that a new store starts with. -/
def defaults : List (String × String) :=
  [ ("card_data_auto_update", "true"),
    ("card_data_update_time", "03:00"),
    ("card_data_url", "https://api.scryfall.com/bulk-data"),
    ("card_data_dataset_type", "default_cards"),
    ("set_data_auto_update", "true"),
    ("set_data_update_time", "04:00"),
    ("set_data_url", "https://api.scryfall.com/bulk-data"),
    ("set_data_dataset_type", "sets"),
    ("job_cleanup_retention_days", "30"),
    ("scheduler_check_interval_minutes", "5"),
    ("scheduler_catchup_enabled", "true"),
    ("scheduler_catchup_delay_seconds", "60") ]

end CatalogSync.Settings
