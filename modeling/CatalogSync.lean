import CatalogSync.Binary64.Basic
import CatalogSync.Binary64.Shortest
import CatalogSync.Binary64.Text
import CatalogSync.Catalog.Record
import CatalogSync.Catalog.Store
import CatalogSync.Config.File
import CatalogSync.Config.Resolve
import CatalogSync.Feed.Decoder
import CatalogSync.Feed.Directory
import CatalogSync.Feed.Exchange
import CatalogSync.Files.Path
import CatalogSync.Files.Tree
import CatalogSync.Import.Batch
import CatalogSync.Import.Card
import CatalogSync.Import.CardSet
import CatalogSync.Import.Dataset
import CatalogSync.Import.Error
import CatalogSync.Import.Icon
import CatalogSync.Import.Progress
import CatalogSync.Import.Run
import CatalogSync.Import.Tracked
import CatalogSync.Json.Basic
import CatalogSync.Json.Cursor
import CatalogSync.Json.Reader
import CatalogSync.Json.Record
import CatalogSync.Json.Scan
import CatalogSync.Json.Skip
import CatalogSync.Json.Writer
import CatalogSync.Ledger.Job
import CatalogSync.Ledger.Query
import CatalogSync.Ledger.Row
import CatalogSync.Ledger.Store
import CatalogSync.Metrics.Exposition
import CatalogSync.Metrics.Registry
import CatalogSync.Program.Ask
import CatalogSync.Program.Basic
import CatalogSync.Proofs.Json.Outlook
import CatalogSync.Proofs.Ledger.Lifecycle
import CatalogSync.Proofs.Time.Order
import CatalogSync.Schedule.Board
import CatalogSync.Schedule.Periods
import CatalogSync.Schedule.Rehearsal
import CatalogSync.Schedule.Task
import CatalogSync.Schedule.Tasks
import CatalogSync.Schema.Layouts
import CatalogSync.Schema.Table
import CatalogSync.Schema.Version
import CatalogSync.Server.Basic
import CatalogSync.Server.Host
import CatalogSync.Settings.Access
import CatalogSync.Settings.Keys
import CatalogSync.Settings.Readers
import CatalogSync.Settings.Seeding
import CatalogSync.Sql.Connection
import CatalogSync.Sql.Database
import CatalogSync.Sql.Declaration
import CatalogSync.Sql.Expression
import CatalogSync.Sql.Reading
import CatalogSync.Sql.Token
import CatalogSync.Store.Affinity
import CatalogSync.Store.Error
import CatalogSync.Store.Overwrite
import CatalogSync.Text.Blank
import CatalogSync.Text.Decimal
import CatalogSync.Text.Dict
import CatalogSync.Text.Printable
import CatalogSync.Text.Quoted
import CatalogSync.Text.Utf8
import CatalogSync.Time.Calendar
import CatalogSync.Time.Instant
import CatalogSync.Time.Loose
import CatalogSync.Time.Rfc3339
import CatalogSync.Time.Span
import CatalogSync.Time.Window
import CatalogSync.Time.Zone
import CatalogSync.Toml.Basic
import CatalogSync.Toml.Moment
import CatalogSync.Toml.Number
import CatalogSync.Toml.Reader
import CatalogSync.Toml.Scan
import CatalogSync.Toml.Tree
import CatalogSync.Toml.Writer
import CatalogSync.Web.Page
import CatalogSync.Web.Status
import CatalogSync.Web.Url
import CatalogSync.Proofs.Json.Scanning
import CatalogSync.Proofs.Json.Reading
import CatalogSync.Proofs.Feed.Runs
import CatalogSync.Proofs.Feed.Pieces
import CatalogSync.Proofs.Feed.Document
import CatalogSync.Proofs.Feed.Draining
import CatalogSync.Proofs.Program.World
import CatalogSync.Proofs.Feed.Floor
import CatalogSync.Proofs.Import.InOrder
import CatalogSync.Proofs.Import.Settling
import CatalogSync.Proofs.Catalog.Upserts
import CatalogSync.Proofs.Schedule.Exclusion
import CatalogSync.Proofs.Sql.Transaction
import CatalogSync.Proofs.Schema.Opening
import CatalogSync.Proofs.Import.Status
import CatalogSync.Proofs.Schedule.Spacing
import CatalogSync.Proofs.Text.Padding
import CatalogSync.Proofs.Time.Calendar
import CatalogSync.Proofs.Time.Stamps
import CatalogSync.Proofs.Ledger.Paging
import CatalogSync.Proofs.Ledger.Cleaning
import CatalogSync.Proofs.Feed.Undisturbed
import CatalogSync.Proofs.Program.Ending
import CatalogSync.Proofs.Server.Working
import CatalogSync.Proofs.Store.Landing
import CatalogSync.Proofs.Catalog.Landing
import CatalogSync.Proofs.Import.Tally
import CatalogSync.Proofs.Import.Absorbing
import CatalogSync.Proofs.Import.Applying
import CatalogSync.Proofs.Import.Batching
import CatalogSync.Proofs.Import.Icons
import CatalogSync.Proofs.Import.Again
import CatalogSync.Proofs.Import.Reporting
import CatalogSync.Proofs.Program.Alone
import CatalogSync.Proofs.Schedule.Restart
import CatalogSync.Proofs.Import.Success
import CatalogSync.Proofs.Server.Alone
import CatalogSync.Proofs.Server.Deeds
import CatalogSync.Proofs.Import.Bookkeeping
import CatalogSync.Proofs.Import.Intruders
import CatalogSync.Proofs.Time.Windows
import CatalogSync.Proofs.Schedule.Due
import CatalogSync.Proofs.Schema.Tables
import CatalogSync.Proofs.Schema.Upgrading
import CatalogSync.Proofs.Schema.Jobs
import CatalogSync.Proofs.Feed.Breaking
import CatalogSync.Proofs.Feed.Written
import CatalogSync.Proofs.Import.Breaking
import CatalogSync.Proofs.Sql.Reading
import CatalogSync.Proofs.Feed.Causes
import CatalogSync.Proofs.Import.Causes
import CatalogSync.Proofs.Ledger.Naming
import CatalogSync.Proofs.Import.Downloading
import CatalogSync.Proofs.Import.Enriching
import CatalogSync.Proofs.Import.Cards
import CatalogSync.Proofs.Import.Writing
import CatalogSync.Proofs.Schema.Soundness
import CatalogSync.Proofs.Schema.Fresh
import CatalogSync.Proofs.Text.Bytes
import CatalogSync.Proofs.Text.Dict
import CatalogSync.Proofs.Time.Loosely
import CatalogSync.Proofs.Ledger.Chronology
import CatalogSync.Proofs.Ledger.Forms
import CatalogSync.Proofs.Settings.Seeding
import CatalogSync.Proofs.Settings.Meanings
import CatalogSync.Proofs.Json.Literals
import CatalogSync.Proofs.Json.Written
import CatalogSync.Proofs.Ledger.Metadata
import CatalogSync.Proofs.Binary64.Counting
import CatalogSync.Proofs.Schedule.Retention
import CatalogSync.Proofs.Toml.Keys
import CatalogSync.Proofs.Config.Settings
import CatalogSync.Proofs.Feed.Departing
import CatalogSync.Proofs.Metrics.Series
import CatalogSync.Proofs.Schedule.Gauge
import CatalogSync.Proofs.Time.Grammar
import CatalogSync.Proofs.Settings.Moments
import CatalogSync.Proofs.Import.Recording
import CatalogSync.Proofs.Import.Accounting
