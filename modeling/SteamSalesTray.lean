import SteamSalesTray.Lib.Program
import SteamSalesTray.Lib.Transaction
import SteamSalesTray.Lib.Decimal
import SteamSalesTray.Lib.Grouping
import SteamSalesTray.Text
import SteamSalesTray.Platform.StringUtil
import SteamSalesTray.Steam.Models
import SteamSalesTray.Steam.FinancialClient
import SteamSalesTray.Steam.ChangeLog
import SteamSalesTray.Storage.Tables
import SteamSalesTray.Storage.Queries
import SteamSalesTray.Storage.Database
import SteamSalesTray.Sync.Aggregator
import SteamSalesTray.Sync.Notification
import SteamSalesTray.Sync.Service
import SteamSalesTray.Sync.Effects
import SteamSalesTray.Sync.MarkSound
import SteamSalesTray.Sync.MarkRuns
import SteamSalesTray.Sync.Backfill
import SteamSalesTray.Sync.BackfillRuns
import SteamSalesTray.Sync.ClearRequest
import SteamSalesTray.Lib.Slot
import SteamSalesTray.Sync.Balloons
import SteamSalesTray.Storage.Calls
import SteamSalesTray.Sync.ProductNames
import SteamSalesTray.Sync.Fetching
import SteamSalesTray.Sync.Deltas
import SteamSalesTray.Sync.Replacement
import SteamSalesTray.Steam.Pagination
import SteamSalesTray.Sync.Checkpoint
import SteamSalesTray.Sync.Messages
import SteamSalesTray.Sync.FreshInstall
import SteamSalesTray.Storage.Migrations
import SteamSalesTray.Lib.Search
import SteamSalesTray.Platform.Logging
import SteamSalesTray.Network.UrlEncoder
import SteamSalesTray.Steam.Query
import SteamSalesTray.Platform.StartupManager
import SteamSalesTray.Storage.SettingsStore
import SteamSalesTray.UI.SettingsDialog
import SteamSalesTray.Sync.WorkerLoop
import SteamSalesTray.Steam.JsonParser
import SteamSalesTray.Security.AtomicFile
import SteamSalesTray.Lib.LittleEndian
import SteamSalesTray.Security.DpapiSecretStore
import SteamSalesTray.Steam.RecordNames
import SteamSalesTray.Steam.IntegerForms
import SteamSalesTray.Sync.DateTotals
import SteamSalesTray.Steam.Requests
import SteamSalesTray.Sync.MarkRoundTrip
import SteamSalesTray.Sync.Increases
import SteamSalesTray.Lib.Separated
import SteamSalesTray.Platform.Thousands
import SteamSalesTray.Platform.LogFiles
import SteamSalesTray.Network.WinHttpClient
import SteamSalesTray.Lib.Calendar
import SteamSalesTray.Platform.TimeUtil
import SteamSalesTray.Sync.Deadlines
import SteamSalesTray.App.Summary
import SteamSalesTray.Platform.Timestamps
import SteamSalesTray.UI.SalesWindow
import SteamSalesTray.Sync.LastSuccess
import SteamSalesTray.Lib.Threads
import SteamSalesTray.UI.ProductList
import SteamSalesTray.UI.SettingsSession
import SteamSalesTray.App.UiThread
import SteamSalesTray.App.Handling
import SteamSalesTray.App.SalesList
import SteamSalesTray.App.UpToDate
import SteamSalesTray.App.SingleInstance
import SteamSalesTray.Lib.Progress
import SteamSalesTray.Platform.Transcoding
import SteamSalesTray.Sync.Stopping
import SteamSalesTray.Tray.TrayIcon
import SteamSalesTray.App.ServerFigures
import SteamSalesTray.App.SavedKey
import SteamSalesTray.Network.Wire
import SteamSalesTray.Network.Transfers
