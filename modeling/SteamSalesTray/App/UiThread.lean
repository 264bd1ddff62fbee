import SteamSalesTray.App.Summary
import SteamSalesTray.Lib.Threads
import SteamSalesTray.Sync.Service
import SteamSalesTray.Sync.WorkerLoop
import SteamSalesTray.UI.ProductList
import SteamSalesTray.UI.SettingsSession

/-! The UI thread beside the worker: what `App` and the sales window do with a message of the worker
and with what the user does.

Each handler is a program, and each of its calls is one step: the status is read under its mutex, a
query reads what the worker has committed by then, and the worker goes on between two calls.  The
settings dialog pumps messages while it is open, so other tasks go on beside it, and further dialogs
can be opened from the sales window. -/

namespace SteamSalesTray.App

open Interaction Transaction Platform Storage Steam Sync UI

/-! ### The calls of the handlers -/

inductive UiOp where
  | getStatus
  | isDbOpen
  | steamToday
  | steamDateDaysAgo (days : Nat)
  | utcNow
  | sumForDate (date : Bytes)
  | sumLifetime
  | queryDate (date : Bytes)
  | queryRange (startDate endDate : Bytes)
  | queryLifetime
  | getLastError
  | getLastSuccessfulSyncUtc
  | getHideLifetime
  | getSalesPeriodIndex
  | setSalesPeriodIndex (index : Int32)
  | getSalesWindowRect
  | setSalesWindowRect (rect : WindowRect)
  | getSalesColumnWidth (column : Fin 3) (fallback : Int32)
  | setSalesColumnWidth (column : Fin 3) (width : Int32)
  | hasStoredKey
  | getWindow
  | createWindow (rect : Option WindowRect)
  | insertColumn (column : Fin 3) (width : Int32)
  | getWindowRect
  | getColumnWidth (column : Fin 3)
  | setWindow (window : SalesWindow)
  | setTooltip (text : Wide)
  | maybeShowNotification
  | storeClearRequest
  | signal (request : WorkerLoop.Request)

abbrev UiOp.Answer : UiOp → Type
  | .getStatus => AppStatus
  | .isDbOpen | .getHideLifetime | .hasStoredKey | .createWindow _ => Bool
  | .steamToday | .steamDateDaysAgo _ | .getLastError | .getLastSuccessfulSyncUtc => Bytes
  | .utcNow => SystemTime
  | .sumForDate _ | .sumLifetime => Int
  | .queryDate _ | .queryRange _ _ | .queryLifetime => List ProductUnits
  | .getSalesPeriodIndex | .getSalesColumnWidth _ _ | .getColumnWidth _ => Int32
  | .getSalesWindowRect | .getWindowRect => Option WindowRect
  | .getWindow => Option SalesWindow
  | .setSalesPeriodIndex _ | .setSalesWindowRect _ | .setSalesColumnWidth _ _ | .insertColumn _ _
  | .setWindow _ | .setTooltip _ | .maybeShowNotification | .storeClearRequest | .signal _ => Unit

abbrev Ui := Program UiOp UiOp.Answer

abbrev ask (op : UiOp) : Ui op.Answer := Program.perform op

/-! ### The handlers -/

def setTooltip (text : Wide) : Ui Unit := ask (.setTooltip text)

def keyStateText (hasKey : Bool) : Wide :=
  if hasKey then wide "Steam Sales - Ready" else wide "Steam Sales - API key required"

def updateTooltipForKeyState : Ui Unit := do
  let hasKey ← ask .hasStoredKey
  setTooltip (keyStateText hasKey)

/-- The text with the totals; no lifetime total is one that is hidden. -/
def totalsText (today : Int) (lifetime : Option Int) : Wide :=
  wide "Steam Sales - Today: " ++ formatCount today ++
    match lifetime with
    | some lifetime => wide " | Lifetime: " ++ formatCount lifetime
    | none => []

def readLifetime : Ui (Option Int) := do
  if ← ask .getHideLifetime then pure none
  else
    let lifetime ← ask .sumLifetime
    pure (some lifetime)

def idleTip : Ui Wide := do
  if ← ask .isDbOpen then
    let date ← ask .steamToday
    let today ← ask (.sumForDate date)
    let lifetime ← readLifetime
    pure (totalsText today lifetime)
  else pure (wide "Steam Sales")

/-- The tooltip of a status; `none` is the one that has the totals. -/
def statusTip : SyncStatus → Option Wide
  | .missingApiKey => some (wide "Steam Sales - API key required")
  | .syncing => some (wide "Steam Sales - Updating…")
  | .authenticationFailed => some (wide "Steam Sales - Check API key")
  | .offline | .apiError | .parseError | .databaseError =>
    some (wide "Steam Sales - Update failed")
  | .idle => none

def updateTray : Ui Unit := do
  let st ← ask .getStatus
  match statusTip st.status with
  | some tip => setTooltip tip
  | none =>
    let tip ← idleTip
    setTooltip tip

def queryPeriod : SalesPeriod → Ui (List ProductUnits)
  | .today => do
    let date ← ask .steamToday
    ask (.queryDate date)
  | .yesterday => do
    let date ← ask (.steamDateDaysAgo 1)
    ask (.queryDate date)
  | .last7Days => do
    let startDate ← ask (.steamDateDaysAgo 6)
    let endDate ← ask .steamToday
    ask (.queryRange startDate endDate)
  | .last30Days => do
    let startDate ← ask (.steamDateDaysAgo 29)
    let endDate ← ask .steamToday
    ask (.queryRange startDate endDate)
  | .lifetime => ask .queryLifetime

def statusText : Ui Wide := do
  let lastError ← ask .getLastError
  if ¬lastError.isEmpty then pure (wide "⚠ " ++ utf8ToWide lastError)
  else
    let lastSyncUtc ← ask .getLastSuccessfulSyncUtc
    let utcNow ← ask .utcNow
    pure (relativeUpdated utcNow lastSyncUtc)

/-- The loop of `ReloadList`: the rows are inserted one by one, and their units are added up. -/
def insertRows : List ProductUnits → SalesWindow → Int → Ui (SalesWindow × Int)
  | [], w, total => pure (w, total)
  | row :: rows, w, total => do
    ask (.setWindow (w.insertItem row))
    insertRows rows (w.insertItem row) (total + row.units)

/-- The old list goes first, and the total and the status line are those of the old one until the
new list is complete. -/
def reloadList (w : SalesWindow) : Ui SalesWindow := do
  let w := w.deleteAllItems
  ask (.setWindow w)
  let rows ← queryPeriod w.currentPeriod
  let (w, total) ← insertRows rows w 0
  let w := { w with total := totalText total }
  ask (.setWindow w)
  let status ← statusText
  let w := { w with status := status }
  ask (.setWindow w)
  pure w

/-- The handler of a window that there is. -/
def onWindow (handler : SalesWindow → Ui Unit) : Ui Unit := do
  match ← ask .getWindow with
  | some w => handler w
  | none => pure ()

def refresh : Ui Unit :=
  onWindow fun w => do
    if w.visible then
      let _ ← reloadList w
      pure ()
    else pure ()

def populatePeriodCombo (w : SalesWindow) : Ui SalesWindow := do
  let hideLifetime ← ask .getHideLifetime
  let savedValue ← ask .getSalesPeriodIndex
  ask (.setWindow (w.populatePeriodCombo hideLifetime savedValue))
  pure (w.populatePeriodCombo hideLifetime savedValue)

def kDefaultColWidths : Fin 3 → Int32
  | 0 => 230
  | 1 => 90
  | 2 => 90

/-- A column is as wide as it was when the window was last closed. -/
def insertColumn (column : Fin 3) : Ui Unit := do
  let width ← ask (.getSalesColumnWidth column (kDefaultColWidths column))
  ask (.insertColumn column width)

/-- The window is created where it was last, and `WM_CREATE` makes its controls meanwhile. -/
def ensureCreated : Ui (Option SalesWindow) := do
  let rect ← ask .getSalesWindowRect
  if ← ask (.createWindow rect) then
    insertColumn 0
    insertColumn 1
    insertColumn 2
    let w ← populatePeriodCombo .created
    pure (some w)
  else pure none

def reloadAndShow (w : SalesWindow) : Ui Unit := do
  let w ← reloadList w
  ask (.setWindow { w with visible := true })

def showAndFocus : Ui Unit := do
  match ← ask .getWindow with
  | some w => reloadAndShow w
  | none =>
    match ← ensureCreated with
    | some w => reloadAndShow w
    | none => pure ()

def onSettingsChanged : Ui Unit :=
  onWindow fun w => do
    let w ← populatePeriodCombo w
    let _ ← reloadList w
    pure ()

/-- The period box has a new selection. -/
def onSelChange : Ui Unit :=
  onWindow fun w => do
    ask (.setSalesPeriodIndex w.currentPeriod.index)
    let _ ← reloadList w
    pure ()

/-- The window is minimized, or is where the answer says. -/
def saveGeometry : Ui Unit := do
  match ← ask .getWindowRect with
  | some rect => ask (.setSalesWindowRect rect)
  | none => pure ()

def saveColumnWidth (column : Fin 3) : Ui Unit := do
  let width ← ask (.getColumnWidth column)
  ask (.setSalesColumnWidth column width)

/-- `WM_CLOSE`: the window is hidden, not destroyed. -/
def onClose : Ui Unit := do
  saveGeometry
  saveColumnWidth 0
  saveColumnWidth 1
  saveColumnWidth 2
  onWindow fun w => ask (.setWindow { w with visible := false })

def requestManualRefresh : Ui Unit := ask (.signal .manual)

def requestClearCache : Ui Unit := do
  ask .storeClearRequest
  ask (.signal .manual)

/-- The `Refresh` button of the sales window. -/
def onRefresh : Ui Unit := do
  requestManualRefresh
  onWindow fun w => do
    let _ ← reloadList w
    pure ()

/-- What the worker is told of a dialog that has closed. -/
def applyOutcome (outcome : DialogOutcome) : Ui Unit :=
  if outcome.cacheCleared then requestClearCache
  else if outcome.keyChanged || outcome.preferencesChanged then ask (.signal .settings)
  else pure ()

/-- `OnSettings` once the dialog has closed. -/
def onSettingsClosed (outcome : DialogOutcome) : Ui Unit := do
  applyOutcome outcome
  onSettingsChanged
  if outcome.keyChanged then updateTooltipForKeyState else updateTray

def onSyncMessage (message : Message) : Ui Unit := do
  updateTray
  refresh
  if message = .totalsChanged then ask .maybeShowNotification else pure ()

/-! ### The desk -/

/-- The world of the worker with what the UI thread has: its own connection, the preferences that it
reads, the sales window if it is created, the tooltip, how many settings dialogs are open, and the
events that it has signalled, the latest first.  `unshown` says that the notification of a message
that is being handled has not been looked at yet. -/
structure Desk where
  world : World
  dbOpen : Bool
  hideLifetime : Bool
  sales : SalesSettings
  window : Option SalesWindow
  tooltip : Wide
  dialogs : Nat
  signals : List WorkerLoop.Request
  unshown : Bool

/-- What the environment decides when a handler makes a call: the clocks, how many rows a read gets,
whether a key is stored, whether the window can be created, where it is, `none` if it is minimized,
and how wide its columns are. -/
structure UiReply where
  pacificNow : SystemTime
  utcNow : SystemTime
  readLimit : Option Nat
  hasKey : Bool
  created : Bool
  windowRect : Option WindowRect
  columnWidth : Int32

namespace Desk

/-- What the connection of the UI thread sees. -/
def db (d : Desk) : Database := ⟨d.dbOpen, ⟨d.world.db.conn.committed, none⟩⟩

def exec (op : UiOp) (reply : UiReply) (d : Desk) : op.Answer × Desk :=
  match op with
  | .getStatus => (d.world.status, d)
  | .isDbOpen => (d.dbOpen, d)
  | .steamToday => (Platform.steamToday reply.pacificNow, d)
  | .steamDateDaysAgo days => (Platform.steamDateDaysAgo reply.pacificNow days, d)
  | .utcNow => (reply.utcNow, d)
  | .sumForDate date => (d.db.sumForDate reply.readLimit date, d)
  | .sumLifetime => (d.db.sumLifetime reply.readLimit, d)
  | .queryDate date => (d.db.queryDate reply.readLimit date, d)
  | .queryRange startDate endDate => (d.db.queryRange reply.readLimit startDate endDate, d)
  | .queryLifetime => (d.db.queryLifetime reply.readLimit, d)
  | .getLastError => (d.db.getLastError reply.readLimit, d)
  | .getLastSuccessfulSyncUtc => (d.db.getLastSuccessfulSyncUtc reply.readLimit, d)
  | .getHideLifetime => (d.hideLifetime, d)
  | .getSalesPeriodIndex => (d.sales.getSalesPeriodIndex, d)
  | .setSalesPeriodIndex index => ((), { d with sales := d.sales.setSalesPeriodIndex index })
  | .getSalesWindowRect => (d.sales.getSalesWindowRect, d)
  | .setSalesWindowRect rect => ((), { d with sales := d.sales.setSalesWindowRect rect })
  | .getSalesColumnWidth column fallback => (d.sales.getSalesColumnWidth column fallback, d)
  | .setSalesColumnWidth column width =>
    ((), { d with sales := d.sales.setSalesColumnWidth column width })
  | .hasStoredKey => (reply.hasKey, d)
  | .getWindow => (d.window, d)
  | .createWindow _ => (reply.created, d)
  | .insertColumn _ _ => ((), d)
  | .getWindowRect => (reply.windowRect, d)
  | .getColumnWidth _ => (reply.columnWidth, d)
  | .setWindow window => ((), { d with window := some window })
  | .setTooltip text => ((), { d with tooltip := text })
  | .maybeShowNotification =>
    ((), { d with
      unshown := false
      world.balloons :=
        if d.world.status.notification.isEmpty then d.world.balloons
        else d.world.balloons ++ [d.world.status.notification] })
  | .storeClearRequest => ((), { d with world.clearCacheRequested := true })
  | .signal request => ((), { d with signals := request :: d.signals })

end Desk

/-- The calls that change nothing but the tooltip. -/
def UiOp.Reads : UiOp → Prop
  | .setSalesPeriodIndex _ | .setSalesWindowRect _ | .setSalesColumnWidth _ _ | .setWindow _
  | .maybeShowNotification | .storeClearRequest | .signal _ => False
  | _ => True

theorem Desk.exec_reads {op : UiOp} (hop : op.Reads) (reply : UiReply) (d : Desk) :
    ∃ tooltip, (d.exec op reply).2 = { d with tooltip := tooltip } := by
  cases op with
  | setSalesPeriodIndex index => exact hop.elim
  | setSalesWindowRect rect => exact hop.elim
  | setSalesColumnWidth column width => exact hop.elim
  | setWindow window => exact hop.elim
  | maybeShowNotification => exact hop.elim
  | storeClearRequest => exact hop.elim
  | signal request => exact hop.elim
  | setTooltip text => exact ⟨text, rfl⟩
  | _ => exact ⟨d.tooltip, rfl⟩

theorem ask_reads {op : UiOp} (h : op.Reads) : (ask op).Every UiOp.Reads := ⟨h, fun _ => trivial⟩

theorem updateTooltipForKeyState_reads : updateTooltipForKeyState.Every UiOp.Reads :=
  ⟨trivial, fun _ => ask_reads trivial⟩

theorem readLifetime_reads : readLifetime.Every UiOp.Reads := by
  refine ⟨trivial, fun hidden => ?_⟩
  cases hidden with
  | true => trivial
  | false => exact ⟨trivial, fun _ => trivial⟩

theorem idleTip_reads : idleTip.Every UiOp.Reads := by
  refine ⟨trivial, fun opened => ?_⟩
  cases opened with
  | true =>
    exact ⟨trivial, fun _ => ⟨trivial, fun _ => readLifetime_reads.bind fun _ => trivial⟩⟩
  | false => trivial

theorem updateTray_reads : updateTray.Every UiOp.Reads := by
  refine ⟨trivial, fun st => ?_⟩
  show Program.Every _ (match statusTip st.status with | some tip => _ | none => _)
  split
  · exact ask_reads trivial
  · exact idleTip_reads.bind fun _ => ask_reads trivial

theorem queryPeriod_reads (period : SalesPeriod) : (queryPeriod period).Every UiOp.Reads := by
  cases period with
  | today => exact ⟨trivial, fun _ => ask_reads trivial⟩
  | yesterday => exact ⟨trivial, fun _ => ask_reads trivial⟩
  | last7Days => exact ⟨trivial, fun _ => ⟨trivial, fun _ => ask_reads trivial⟩⟩
  | last30Days => exact ⟨trivial, fun _ => ⟨trivial, fun _ => ask_reads trivial⟩⟩
  | lifetime => exact ask_reads trivial

theorem statusText_reads : statusText.Every UiOp.Reads := by
  refine ⟨trivial, fun lastError => ?_⟩
  show Program.Every _ (if _ then _ else _)
  split
  · trivial
  · exact ⟨trivial, fun _ => ⟨trivial, fun _ => trivial⟩⟩

/-- What the UI thread takes up: the start of the program, a message of the worker, what the user
does with the sales window and in the tray menu, and with a settings dialog. -/
inductive UiTask where
  | startUp (opens hasKey : Bool)
  | handleMessage
  | showSales
  | selectPeriod (index : Nat)
  | refreshSales
  | closeSales
  | refreshNow
  | openSettings
  | setNotifyOnNewUnits (on : Bool)
  | setHideLifetime (hidden : Bool)
  | closeSettings (outcome : DialogOutcome)

namespace UiTask

/-- Only a visible window can be used. -/
def onVisible (d : Desk) (f : SalesWindow → Option (Desk × Ui Unit)) : Option (Desk × Ui Unit) :=
  match d.window with
  | some w => if w.visible then f w else none
  | none => none

/-- Something that is done in a settings dialog. -/
def inDialog (d : Desk) (d' : Desk) (handler : Ui Unit) : Option (Desk × Ui Unit) :=
  if d.dialogs = 0 then none else some (d', handler)

def begins (task : UiTask) (d : Desk) : Option (Desk × Ui Unit) :=
  match task with
  | .startUp opens hasKey =>
    some ({ d with dbOpen := opens, tooltip := keyStateText hasKey }, pure ())
  | .handleMessage =>
    match d.world.queue with
    | [] => none
    | message :: rest =>
      some ({ d with world.queue := rest, unshown := decide (message = .totalsChanged) },
        onSyncMessage message)
  | .showSales => some (d, showAndFocus)
  | .selectPeriod index => onVisible d fun w =>
    if index < w.combo.length then some ({ d with window := some (w.setCurSel index) }, onSelChange)
    else none
  | .refreshSales => onVisible d fun _ => some (d, onRefresh)
  | .closeSales => onVisible d fun _ => some (d, onClose)
  | .refreshNow => some (d, requestManualRefresh)
  | .openSettings => some ({ d with dialogs := d.dialogs + 1 }, pure ())
  | .setNotifyOnNewUnits on => inDialog d { d with world.notifyOnNewUnits := on } (pure ())
  | .setHideLifetime hidden => inDialog d { d with hideLifetime := hidden } (pure ())
  | .closeSettings outcome =>
    inDialog d { d with dialogs := d.dialogs - 1 } (onSettingsClosed outcome)

end UiTask

theorem UiTask.onVisible_some {d : Desk} {f : SalesWindow → Option (Desk × Ui Unit)}
    {begun : Desk × Ui Unit} (h : UiTask.onVisible d f = some begun) :
    ∃ w, d.window = some w ∧ f w = some begun := by
  unfold UiTask.onVisible at h
  split at h
  · rename_i w hw
    split at h
    · exact ⟨w, hw, h⟩
    · cases h
  · cases h

theorem UiTask.inDialog_some {d d₁ d' : Desk} {handler rest : Ui Unit}
    (h : UiTask.inDialog d d₁ handler = some (d', rest)) :
    d.dialogs ≠ 0 ∧ d' = d₁ ∧ rest = handler := by
  unfold UiTask.inDialog at h
  split at h
  · cases h
  · rename_i hdialogs
    obtain ⟨rfl, rfl⟩ := Prod.mk.inj (Option.some.inj h)
    exact ⟨hdialogs, rfl, rfl⟩

theorem UiTask.begins_handleMessage {d d' : Desk} {rest : Ui Unit}
    (h : UiTask.handleMessage.begins d = some (d', rest)) :
    ∃ message queue, d.world.queue = message :: queue ∧ rest = onSyncMessage message ∧
      d' = { d with world.queue := queue, unshown := decide (message = .totalsChanged) } := by
  cases hqueue : d.world.queue with
  | nil => simp [UiTask.begins, hqueue] at h
  | cons message queue =>
    simp only [UiTask.begins, hqueue, Option.some.injEq, Prod.mk.injEq] at h
    exact ⟨message, queue, rfl, h.2.symm, h.1.symm⟩

/-- What happens outside the program. -/
inductive DeskMove where
  | serverChange (gap : Nat) (date : Bytes) (records : List DetailedSalesRecord)

/-- The worker on the desk.  A kill ends the UI thread too, and what is left is what is stored. -/
def desk : Machine Op Op.Answer Desk Reply DeskMove where
  exec op reply d :=
    ((d.world.exec op reply).1, { d with world := (d.world.exec op reply).2 })
  act
    | .serverChange gap date records, d =>
      { d with world := d.world.act (.serverChange gap date records) }
  crash d :=
    { d with
      world := d.world.crash
      dbOpen := false
      window := none
      tooltip := []
      dialogs := 0
      signals := []
      unshown := false }

def uiThread : Thread UiOp UiOp.Answer Desk UiReply UiTask := ⟨Desk.exec, UiTask.begins⟩

abbrev UiMove := ThreadMove DeskMove UiTask UiReply

abbrev AppState := Shared UiOp UiOp.Answer Desk

/-- The worker and the UI thread. -/
def app : Machine Op Op.Answer AppState Reply UiMove := uiThread.beside desk

/-! ### Data for small runs -/

namespace Sample

def noon : SystemTime := ⟨2026, 7, 18, 12, 0, 0, 0⟩

/-- No read fails, a key is stored, and the window can be created. -/
def uiReply : UiReply := ⟨noon, noon, none, true, true, some ⟨10, 20, 480, 380⟩, 90⟩

/-- The app has just started with a new database. -/
def desk : Desk where
  world := Sync.Sample.world
  dbOpen := true
  hideLifetime := false
  sales := ⟨none, none, none, none, none, fun _ => none⟩
  window := none
  tooltip := []
  dialogs := 0
  signals := []
  unshown := false

/-- The worker makes `n` calls of an initial pass over two dates. -/
def calls (n : Nat) : List (Event Reply UiMove) :=
  List.replicate n (.call (Sync.Sample.reply [Sync.Sample.july18, Sync.Sample.july17] 2
    [Sync.Sample.sale 1]))

/-- The UI thread takes up a task and makes more calls than any task has. -/
def task (task : UiTask) : List (Event Reply UiMove) :=
  .act (.begins task) :: List.replicate 22 (.act (.call uiReply))

/-- The sales window is opened while the pass goes on, and the messages are handled. -/
def shownPass : List (Event Reply UiMove) :=
  .start :: calls 20 ++ task .showSales ++ calls 20 ++
    (List.replicate 7 (task .handleMessage)).flatten

end Sample

end SteamSalesTray.App
