import SteamSalesTray.Lib.Program
import SteamSalesTray.Steam.ChangeLog
import SteamSalesTray.Storage.Database
import SteamSalesTray.Sync.Aggregator
import SteamSalesTray.Sync.Notification

/-! `SalesSyncService`: one pass of the worker as a program, and the world that it acts on.

The world holds what the worker shares with the UI thread and with the server.  Each call of a pass
is one step; between two steps the UI thread and the server may act, and the process may be
killed. -/

namespace SteamSalesTray.Sync

open Interaction Storage Steam Platform

/-! ### The calls of a pass -/

inductive SyncStatus where
  | missingApiKey
  | idle
  | syncing
  | offline
  | authenticationFailed
  | apiError
  | parseError
  | databaseError
deriving DecidableEq, Repr

structure AppStatus where
  status : SyncStatus
  message : Wide
  lastAttempt : Int
  lastSuccess : Int
  completedDates : Int
  totalDates : Int
  notification : Wide
deriving DecidableEq, Repr

def AppStatus.initial : AppStatus := ⟨.idle, [], 0, 0, 0, 0, []⟩

def statusFromKind : ResultKind → SyncStatus
  | .offline | .rateLimited | .serverError => .offline
  | .auth => .authenticationFailed
  | .parse => .parseError
  | .tooLarge | .other | .success => .apiError

inductive Message where
  | syncStarted
  | syncProgress
  | syncCompleted
  | syncFailed
  | totalsChanged
deriving DecidableEq, Repr

/-- The blocks under the status mutex. -/
inductive StatusUpdate where
  | set (status : SyncStatus) (message : Wide)
  | upToDate
  | totalDates (total : Nat)
  | dateDone
  | publish (notification : Wide)
deriving DecidableEq, Repr

def StatusUpdate.apply (now : Int) (s : AppStatus) : StatusUpdate → AppStatus
  | .set status message => { s with status := status, message := message, lastAttempt := now }
  | .upToDate => { s with status := .idle, message := [], totalDates := 0, completedDates := 0 }
  | .totalDates total => { s with totalDates := total, completedDates := 0 }
  | .dateDone => { s with completedDates := s.completedDates + 1 }
  | .publish notification =>
    { s with status := .idle, message := [], lastSuccess := now, notification := notification }

inductive Op where
  | post (message : Message)
  | updateStatus (update : StatusUpdate)
  | isOpen
  | openDatabase
  | takeClearRequest
  | clearAllSales
  | hasStoredKey
  | loadKey
  | getChangedDatesHighwatermark
  | getNotifyOnNewUnits
  | getChangedDates (key highwatermark : Bytes)
  | utcNowIso8601
  | write (update : Database.SyncStateWrite)
  | getBackfillCursor
  | queryLifetime
  | iterate (map : Snapshot)
  | getAllDetailedSalesForDate (key date : Bytes)
  | replaceDate (date : Bytes) (rows : List DailyProductRow) (nowUtc : Bytes)
  | steamToday
  | sumForDate (date : Bytes)

abbrev Op.Answer : Op → Type
  | .post _ | .updateStatus _ => Unit
  | .isOpen | .openDatabase | .takeClearRequest | .clearAllSales | .hasStoredKey
  | .getNotifyOnNewUnits | .write _ | .replaceDate _ _ _ => Bool
  | .loadKey => Option Bytes
  | .getChangedDatesHighwatermark | .utcNowIso8601 | .getBackfillCursor | .steamToday => Bytes
  | .getChangedDates _ _ => FinancialResult × ChangedDates
  | .queryLifetime => List ProductUnits
  | .iterate map => { entries : Snapshot // entries.Perm map }
  | .getAllDetailedSalesForDate _ _ => FinancialResult × List DetailedSalesRecord
  | .sumForDate _ => Int

/-! ### One pass -/

abbrev Worker := Program Op Op.Answer

/-- How a pass ended; `stored` has the snapshots that it compared, if it compared any. -/
inductive Exit where
  | databaseError
  | missingApiKey
  | changedDatesFailed
  | upToDate
  | detailedSalesFailed
  | replaceFailed
  | stored (compared : Option (Snapshot × Snapshot))
deriving DecidableEq

abbrev perform (op : Op) : Worker op.Answer := Program.perform op

def post (message : Message) : Worker Unit := perform (.post message)

def setStatus (status : SyncStatus) (message : Wide) : Worker Unit :=
  perform (.updateStatus (.set status message))

def write (update : Database.SyncStateWrite) : Worker Unit := do
  let _ ← perform (.write update)
  pure ()

def failPass (status : SyncStatus) (message : Wide) (lastError : Option Bytes) (exit : Exit) :
    Worker Exit := do
  setStatus status message
  match lastError with
  | some e => write (.lastError e)
  | none => pure ()
  post .syncFailed
  pure exit

def ensureOpen : Worker Bool := do
  if ← perform .isOpen then pure true
  else perform .openDatabase

def clearIfRequested : Worker Unit := do
  if ← perform .takeClearRequest then
    let _ ← perform .clearAllSales
    pure ()
  else pure ()

/-- The key, empty where none is stored or it cannot be loaded. -/
def loadKey : Worker Bytes := do
  if ← perform .hasStoredKey then
    let key ← perform .loadKey
    pure (key.getD [])
  else pure []

def lifetimeSnapshot : Worker Snapshot := do
  let rows ← perform .queryLifetime
  pure (Snapshot.ofRows rows)

def advanceMark (resultHighwatermark : Bytes) : Worker Unit :=
  if resultHighwatermark.isEmpty then pure ()
  else write (.changedDatesHighwatermark resultHighwatermark)

def checkpoint (initial : Bool) (date : Bytes) : Worker Unit :=
  if initial then write (.backfillCursor date) else pure ()

def finishUnchanged (resultHighwatermark : Bytes) : Worker Exit := do
  advanceMark resultHighwatermark
  write (.lastError [])
  perform (.updateStatus .upToDate)
  post .syncCompleted
  pure .upToDate

/-- The loop over the dates; `none` when each of them is stored. -/
def syncDates (key now : Bytes) (initial : Bool) : List Bytes → Worker (Option Exit)
  | [] => pure none
  | date :: rest => do
    let (pr, records) ← perform (.getAllDetailedSalesForDate key date)
    if pr.ok then
      if ← perform (.replaceDate date (aggregateDate records) now) then
        checkpoint initial date
        perform (.updateStatus .dateDone)
        post .syncProgress
        syncDates key now initial rest
      else
        let exit ← failPass .databaseError (wide "Failed to save sales data.")
          (some (ascii "database write failed")) .replaceFailed
        pure (some exit)
    else
      let exit ← failPass (statusFromKind pr.kind) pr.message (some (wideToUtf8 pr.message))
        .detailedSalesFailed
      pure (some exit)

def notificationAfter (before : Snapshot) : Worker (Snapshot × Wide) := do
  let after ← lifetimeSnapshot
  let today ← perform .steamToday
  let todayNet ← perform (.sumForDate today)
  let entries ← perform (.iterate after)
  pure (entries.val, buildNotification before entries.val todayNet)

/-- The notification goes to the one slot of the status, and the message carries nothing. -/
def publish (notification : Wide) : Worker Unit := do
  perform (.updateStatus (.publish notification))
  post .totalsChanged
  post .syncCompleted

def finishStored (now : Bytes) (initial notifyEnabled : Bool) (resultHighwatermark : Bytes)
    (before : Snapshot) : Worker Exit := do
  advanceMark resultHighwatermark
  checkpoint initial []
  write (.lastSuccessfulSyncUtc now)
  write (.lastError [])
  if notifyEnabled && !initial then
    let (after, notification) ← notificationAfter before
    publish notification
    pure (.stored (some (before, after)))
  else
    publish []
    pure (.stored none)

def datesToProcess (initial : Bool) (cursor : Bytes) (dates : List Bytes) : List Bytes :=
  (dates.insertionSort (· ≤ ·)).filter fun d =>
    ¬(initial = true ∧ cursor.isEmpty = false ∧ d ≤ cursor)

def readCursor (initial : Bool) : Worker Bytes :=
  if initial then perform .getBackfillCursor else pure []

def snapshotBefore (compare : Bool) : Worker Snapshot :=
  if compare then lifetimeSnapshot else pure []

def syncChanged (key now : Bytes) (initial notifyEnabled : Bool) (changed : ChangedDates) :
    Worker Exit := do
  let cursor ← readCursor initial
  let toProcess := datesToProcess initial cursor changed.dates
  perform (.updateStatus (.totalDates toProcess.length))
  post .syncProgress
  let before ← snapshotBefore (notifyEnabled && !initial)
  match ← syncDates key now initial toProcess with
  | some exit => pure exit
  | none => finishStored now initial notifyEnabled changed.resultHighwatermark before

def syncWithKey (key : Bytes) : Worker Exit := do
  let hwm ← perform .getChangedDatesHighwatermark
  let initial := decide (hwm = ascii "0") || hwm.isEmpty
  let notifyEnabled ← perform .getNotifyOnNewUnits
  let (r, changed) ← perform (.getChangedDates key hwm)
  if r.ok then
    let now ← perform .utcNowIso8601
    write (.lastSuccessfulCheckUtc now)
    if changed.dates.isEmpty then finishUnchanged changed.resultHighwatermark
    else syncChanged key now initial notifyEnabled changed
  else
    failPass (statusFromKind r.kind) r.message (some (wideToUtf8 r.message)) .changedDatesFailed

def runSynchronization : Worker Exit := do
  post .syncStarted
  setStatus .syncing (wide "Updating…")
  if ← ensureOpen then
    clearIfRequested
    let key ← loadKey
    if key.isEmpty then
      failPass .missingApiKey (wide "No API key configured.") none .missingApiKey
    else syncWithKey key
  else
    failPass .databaseError (wide "Could not open the local cache.") none .databaseError

/-! ### The world -/

/-- What the worker, the UI thread and the server share.  `queue` has the messages that wait for
the UI thread, the oldest first, and `balloons` the notifications that it has shown. -/
structure World where
  db : Database
  clearCacheRequested : Bool
  notifyOnNewUnits : Bool
  status : AppStatus
  queue : List Message
  balloons : List Wide
  server : ChangeLog

/-- What the environment decides when a call is made: the clock, the outcome of each SQL step, the
rows that a read gets, whether the database opens, the answers of the key store and of the server,
and the order in which a hash map is iterated. -/
structure Reply where
  time : Int
  faults : Faults
  readLimit : Option Nat
  opens : Bool
  hasKey : Bool
  key : Option Bytes
  changed : FinancialResult × ChangedDates
  sales : FinancialResult × List DetailedSalesRecord
  text : Bytes
  order : (map : Snapshot) → { entries : Snapshot // entries.Perm map }

/-- What happens between two calls: the server changes a date, the UI thread requests a clear,
switches notifications or handles a message. -/
inductive Move where
  | serverChange (gap : Nat) (date : Bytes) (records : List DetailedSalesRecord)
  | requestClearCache
  | setNotifyOnNewUnits (on : Bool)
  | handleMessage

instance (move : Move) : Decidable (move = .requestClearCache) :=
  match move with
  | .requestClearCache => .isTrue rfl
  | .serverChange _ _ _ | .setNotifyOnNewUnits _ | .handleMessage => .isFalse nofun

namespace World

def onDatabase (f : Database → Bool × Database) (w : World) : Bool × World :=
  ((f w.db).1, { w with db := (f w.db).2 })

/-- The UI thread handles the oldest message; `TOTALS_CHANGED` alone can show a balloon. -/
def handleMessage (w : World) : World :=
  match w.queue with
  | [] => w
  | .totalsChanged :: rest =>
    if w.status.notification.isEmpty then { w with queue := rest }
    else { w with queue := rest, balloons := w.balloons ++ [w.status.notification] }
  | _ :: rest => { w with queue := rest }

def act (w : World) : Move → World
  | .serverChange gap date records => { w with server := w.server.push gap date records }
  | .requestClearCache => { w with clearCacheRequested := true }
  | .setNotifyOnNewUnits on => { w with notifyOnNewUnits := on }
  | .handleMessage => w.handleMessage

/-- The process dies, and with it an open transaction and all that is in memory. -/
def crash (w : World) : World :=
  { w with
    db := ⟨false, w.db.conn.drop⟩
    clearCacheRequested := false
    status := .initial
    queue := [] }

def exec (op : Op) (reply : Reply) (w : World) : op.Answer × World :=
  match op with
  | .post message => ((), { w with queue := w.queue ++ [message] })
  | .updateStatus update => ((), { w with status := update.apply reply.time w.status })
  | .isOpen => (w.db.isOpen, w)
  | .openDatabase => (reply.opens, { w with db := ⟨reply.opens, w.db.conn.drop⟩ })
  | .takeClearRequest => (w.clearCacheRequested, { w with clearCacheRequested := false })
  | .clearAllSales => w.onDatabase (Database.clearAllSales reply.faults)
  | .hasStoredKey => (reply.hasKey, w)
  | .loadKey => (reply.key, w)
  | .getChangedDatesHighwatermark => (w.db.getChangedDatesHighwatermark reply.readLimit, w)
  | .getNotifyOnNewUnits => (w.notifyOnNewUnits, w)
  | .getChangedDates _ _ => (reply.changed, w)
  | .utcNowIso8601 => (reply.text, w)
  | .write update => w.onDatabase (Database.writeSyncState reply.faults update)
  | .getBackfillCursor => (w.db.getBackfillCursor reply.readLimit, w)
  | .queryLifetime => (w.db.queryLifetime reply.readLimit, w)
  | .iterate map => (reply.order map, w)
  | .getAllDetailedSalesForDate _ _ => (reply.sales, w)
  | .replaceDate date rows nowUtc =>
    w.onDatabase (Database.replaceDate reply.faults date rows nowUtc)
  | .steamToday => (reply.text, w)
  | .sumForDate date => (w.db.sumForDate reply.readLimit date, w)

end World

def service : Machine Op Op.Answer World Reply Move := ⟨World.exec, fun m w => w.act m, World.crash⟩

/-- The world after a run that begins between two passes. -/
def World.after (w : World) (es : List (Event Reply Move)) : World :=
  (service.run runSynchronization ⟨w, none⟩ es).state

abbrev Record := Traced Op Op.Answer World Move

abbrev Happened := Entry Op Op.Answer World Move

/-- The record of a run that begins between two passes. -/
def World.recordAfter (w : World) (es : List (Event Reply Move)) : Record :=
  (service.traced.run runSynchronization ⟨⟨w, []⟩, none⟩ es).state

theorem World.recordAfter_state (w : World) (es : List (Event Reply Move)) :
    (w.recordAfter es).state = w.after es :=
  congrArg Config.state (Machine.forget_run service runSynchronization ⟨⟨w, []⟩, none⟩ es)

/-- Nothing kills the process, and any call may fail. -/
def aliveRules : Rules Op Record Reply Move where
  start _ := True
  call _ _ _ := True
  act _ _ := True
  kill _ := False

/-! ### Data for small runs -/

namespace Sample

def july17 : Bytes := ascii "2026/07/17"

def july18 : Bytes := ascii "2026/07/18"

def sale (units : Int) : DetailedSalesRecord :=
  ⟨ascii "Package", ascii "Steam", 480, ascii "git gud", units, units, 0⟩

/-- One sale on the first date, then two on the second. -/
def log : ChangeLog := (ChangeLog.empty.push 0 july17 [sale 1]).push 0 july18 [sale 2]

def world : World where
  db := .fresh
  clearCacheRequested := false
  notifyOnNewUnits := true
  status := .initial
  queue := []
  balloons := []
  server := log

/-- Both dates are stored and the mark is the second change. -/
def storedTables : Tables :=
  ((Tables.fresh.replaced july17 (aggregateDate [sale 1]) (ascii "2026-07-19T00:00:00Z")).replaced
    july18 (aggregateDate [sale 2]) (ascii "2026-07-19T00:00:00Z")).written
      (.changedDatesHighwatermark (ascii "2"))

def stored : World := { world with db := ⟨true, ⟨storedTables, none⟩⟩ }

/-- Nothing fails; the server lists `dates` up to the mark `top` and sends `records`. -/
def reply (dates : List Bytes) (top : Nat) (records : List DetailedSalesRecord) : Reply where
  time := 0
  faults := noFaults
  readLimit := none
  opens := true
  hasKey := true
  key := some (ascii "key")
  changed := (.succeeded, ⟨dates, decimal top⟩)
  sales := (.succeeded, records)
  text := ascii "2026-07-20T00:00:00Z"
  order map := ⟨map, .refl map⟩

/-- `reply` with a server that is out of reach when a date is fetched. -/
def offline (r : Reply) : Reply := { r with sales := (⟨.offline, 0, []⟩, []) }

def calls (n : Nat) (r : Reply) : List (Event Reply Move) := List.replicate n (.call r)

end Sample

end SteamSalesTray.Sync
