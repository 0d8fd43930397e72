import CatalogSync.Schema.Version

/-!
# The layouts of the stores

The server database keeps settings and jobs, and the catalog database cards and sets.
-/

namespace CatalogSync.Schema

/-- A default that reads the clock. -/
def presentDefault : String := "(datetime('now'))"

/-- The settings. -/
def settingsTable : Table :=
  { name := "settings"
    columns :=
      [ { name := "key", type := .text, isPrimaryKey := true },
        { name := "value", type := .text, notNull := true },
        { name := "updated_at", type := .text, notNull := true, default := some presentDefault } ] }

/-- The jobs. -/
def jobsTable : Table :=
  { name := "jobs"
    columns :=
      [ { name := "id", type := .integer, isPrimaryKey := true },
        { name := "job_type", type := .text, notNull := true },
        { name := "status", type := .text, notNull := true },
        { name := "metadata", type := .text, notNull := true },
        { name := "error", type := .text },
        { name := "created_at", type := .text, notNull := true },
        { name := "updated_at", type := .text, notNull := true },
        { name := "started_at", type := .text },
        { name := "completed_at", type := .text } ]
    indices := [("idx_jobs_type_created", "job_type, created_at DESC"), ("idx_jobs_status", "status")] }

/-- The cards. -/
def cardsTable : Table :=
  { name := "cards"
    columns :=
      [ { name := "id", type := .text, isPrimaryKey := true },
        { name := "oracle_id", type := .text },
        { name := "name", type := .text, notNull := true },
        { name := "set_code", type := .text, notNull := true },
        { name := "collector_number", type := .text, notNull := true },
        { name := "lang", type := .text, notNull := true },
        { name := "rarity", type := .text },
        { name := "type_line", type := .text },
        { name := "mana_cost", type := .text },
        { name := "released_at", type := .text },
        { name := "image_uri", type := .text },
        { name := "price_usd", type := .text },
        { name := "first_seen_at", type := .text, notNull := true },
        { name := "updated_at", type := .text, notNull := true } ]
    indices := [("idx_cards_name", "name"), ("idx_cards_set_number", "set_code, collector_number")] }

/-- The sets. -/
def setsTable : Table :=
  { name := "sets"
    columns :=
      [ { name := "code", type := .text, isPrimaryKey := true },
        { name := "name", type := .text, notNull := true },
        { name := "set_type", type := .text },
        { name := "released_at", type := .text },
        { name := "card_count", type := .integer, notNull := true, default := some "0" },
        { name := "icon_svg_uri", type := .text },
        { name := "icon_path", type := .text },
        { name := "first_seen_at", type := .text, notNull := true },
        { name := "updated_at", type := .text, notNull := true } ] }

/-- The versions of the server database. The second adds the jobs. -/
def serverVersions : List Version :=
  [ { version := 1, tables := [settingsTable] },
    { version := 2, tables := [settingsTable, jobsTable], migration := some jobsTable.create } ]

def catalogVersions : List Version := [{ version := 1, tables := [cardsTable, setsTable] }]

end CatalogSync.Schema
