import SteamSalesTray.Lib.Transaction
import SteamSalesTray.Storage.Queries

/-! One connection to the local database: the writes with the outcome of each of their SQL steps,
the reads with the number of rows they get before they fail, and when a write that fails has
changed nothing. -/

namespace SteamSalesTray.Storage

open Transaction

/-- The SQL steps of the writes; `upsert i` and `insert i` are those of row `i`. -/
inductive SqlStep where
  | beginImmediate
  | prepareDelete
  | delete
  | prepareUpsert
  | prepareInsert
  | upsert (i : Nat)
  | insert (i : Nat)
  | deleteDaily
  | deleteProducts
  | prepareUpdate
  | update
  | commit
deriving DecidableEq, Repr

abbrev Faults := SqlStep → Outcome

def noFaults : Faults := fun _ => .done

structure Database where
  isOpen : Bool
  conn : Connection Tables
deriving DecidableEq

def Database.fresh : Database := ⟨true, ⟨.fresh, none⟩⟩

def rowStatements (faults : Faults) (date nowUtc : Bytes) :
    Nat → List DailyProductRow → List (Statement Tables)
  | _, [] => []
  | i, row :: rows =>
    ⟨faults (.upsert i), fun t => some (t.upsertProduct ⟨row.appId, storedName row, nowUtc⟩)⟩ ::
      ⟨faults (.insert i), fun t => t.insertDaily (row.toDaily date)⟩ ::
        rowStatements faults date nowUtc (i + 1) rows

/-- A prepared statement changes nothing by itself. -/
def replaceDateStatements (faults : Faults) (date : Bytes) (rows : List DailyProductRow)
    (nowUtc : Bytes) : List (Statement Tables) :=
  [⟨faults .prepareDelete, some⟩, ⟨faults .delete, fun t => some (t.deleteDate date)⟩,
    ⟨faults .prepareUpsert, some⟩, ⟨faults .prepareInsert, some⟩] ++
    rowStatements faults date nowUtc 0 rows

def SyncState.cleared (s : SyncState) : SyncState :=
  { s with
    changedDatesHighwatermark := ascii "0"
    lastSuccessfulSyncUtc := none
    backfillCursor := none }

def clearAllSalesStatements (faults : Faults) : List (Statement Tables) :=
  [⟨faults .deleteDaily, fun t => some t.deleteAllDaily⟩,
    ⟨faults .deleteProducts, fun t => t.deleteAllProducts⟩,
    ⟨faults .update, fun t => some (t.updateSyncState SyncState.cleared)⟩]

namespace Database

/-- `BEGIN IMMEDIATE`, the statements, `COMMIT`; a closed connection fails at once. -/
def transact (faults : Faults) (steps : List (Statement Tables)) (db : Database) :
    Bool × Database :=
  if db.isOpen then
    let result := db.conn.transact (faults .beginImmediate) steps (faults .commit)
    (result.1, { db with conn := result.2 })
  else (false, db)

def replaceDate (faults : Faults) (date : Bytes) (rows : List DailyProductRow) (nowUtc : Bytes)
    (db : Database) : Bool × Database :=
  db.transact faults (replaceDateStatements faults date rows nowUtc)

def clearAllSales (faults : Faults) (db : Database) : Bool × Database :=
  db.transact faults (clearAllSalesStatements faults)

/-- `UPDATE sync_state SET … WHERE id = 1`, outside any transaction of the call's own. -/
def setSyncState (faults : Faults) (f : SyncState → SyncState) (db : Database) :
    Bool × Database :=
  if db.isOpen ∧ faults .prepareUpdate = .done then
    let result := db.conn.exec ⟨faults .update, fun t => some (t.updateSyncState f)⟩
    (result.1, { db with conn := result.2 })
  else (false, db)

def setChangedDatesHighwatermark (faults : Faults) (highwatermark : Bytes) :
    Database → Bool × Database :=
  setSyncState faults fun s => { s with changedDatesHighwatermark := highwatermark }

def setLastSuccessfulCheckUtc (faults : Faults) (iso8601 : Bytes) : Database → Bool × Database :=
  setSyncState faults fun s => { s with lastSuccessfulCheckUtc := some iso8601 }

def setLastSuccessfulSyncUtc (faults : Faults) (iso8601 : Bytes) : Database → Bool × Database :=
  setSyncState faults fun s => { s with lastSuccessfulSyncUtc := some iso8601 }

def setLastError (faults : Faults) (message : Bytes) : Database → Bool × Database :=
  setSyncState faults fun s => { s with lastError := some message }

/-- An empty date clears the cursor. -/
def setBackfillCursor (faults : Faults) (date : Bytes) : Database → Bool × Database :=
  setSyncState faults fun s =>
    { s with backfillCursor := if date.isEmpty then none else some date }

inductive SyncStateWrite where
  | changedDatesHighwatermark (highwatermark : Bytes)
  | lastSuccessfulCheckUtc (iso8601 : Bytes)
  | lastSuccessfulSyncUtc (iso8601 : Bytes)
  | lastError (message : Bytes)
  | backfillCursor (date : Bytes)
deriving DecidableEq, Repr

def writeSyncState (faults : Faults) : SyncStateWrite → Database → Bool × Database
  | .changedDatesHighwatermark h => setChangedDatesHighwatermark faults h
  | .lastSuccessfulCheckUtc iso8601 => setLastSuccessfulCheckUtc faults iso8601
  | .lastSuccessfulSyncUtc iso8601 => setLastSuccessfulSyncUtc faults iso8601
  | .lastError message => setLastError faults message
  | .backfillCursor date => setBackfillCursor faults date

/-- The rows that a read gets: all of them, or those before it fails. -/
def rowsRead {α : Type} (limit : Option Nat) (rows : List α) : List α :=
  match limit with
  | none => rows
  | some n => rows.take n

def readSyncState (limit : Option Nat) (fallback : Bytes) (column : SyncState → Bytes)
    (db : Database) : Bytes :=
  if db.isOpen ∧ limit ≠ some 0 then column db.conn.visible.syncState else fallback

def getChangedDatesHighwatermark (limit : Option Nat) (db : Database) : Bytes :=
  let value := db.readSyncState limit (ascii "0") SyncState.changedDatesHighwatermark
  if value.isEmpty then ascii "0" else value

def getLastSuccessfulSyncUtc (limit : Option Nat) (db : Database) : Bytes :=
  db.readSyncState limit [] fun s => s.lastSuccessfulSyncUtc.getD []

def getLastError (limit : Option Nat) (db : Database) : Bytes :=
  db.readSyncState limit [] fun s => s.lastError.getD []

def getBackfillCursor (limit : Option Nat) (db : Database) : Bytes :=
  db.readSyncState limit [] fun s => s.backfillCursor.getD []

theorem readSyncState_open {db : Database} (hopen : db.isOpen = true) (fallback : Bytes)
    (column : SyncState → Bytes) :
    db.readSyncState none fallback column = column db.conn.visible.syncState :=
  if_pos ⟨hopen, nofun⟩

theorem getChangedDatesHighwatermark_open {db : Database} (hopen : db.isOpen = true)
    (hmark : db.conn.visible.syncState.changedDatesHighwatermark ≠ []) :
    db.getChangedDatesHighwatermark none =
      db.conn.visible.syncState.changedDatesHighwatermark := by
  unfold getChangedDatesHighwatermark
  rw [readSyncState_open hopen]
  exact if_neg (by simpa using hmark)

/-- A mark that is read as another than "0" is the stored one. -/
theorem getChangedDatesHighwatermark_ne {limit : Option Nat} {db : Database}
    (h : db.getChangedDatesHighwatermark limit ≠ ascii "0") :
    db.getChangedDatesHighwatermark limit =
      db.conn.visible.syncState.changedDatesHighwatermark := by
  unfold getChangedDatesHighwatermark readSyncState at *
  by_cases hread : db.isOpen ∧ limit ≠ some 0
  · simp only [if_pos hread] at h ⊢
    split at h
    · exact absurd rfl h
    · rename_i hnonempty
      exact if_neg hnonempty
  · simp only [if_neg hread] at h
    exact absurd rfl h

/-- A mark of "0" is read as such, even where the read fails. -/
theorem getChangedDatesHighwatermark_zero {db : Database}
    (hmark : db.conn.visible.syncState.changedDatesHighwatermark = ascii "0")
    (limit : Option Nat) : db.getChangedDatesHighwatermark limit = ascii "0" := by
  have hread : db.readSyncState limit (ascii "0") SyncState.changedDatesHighwatermark =
      ascii "0" := by
    unfold readSyncState
    split
    · exact hmark
    · rfl
  unfold getChangedDatesHighwatermark
  rw [hread]
  rfl

theorem getLastSuccessfulSyncUtc_eq (limit : Option Nat) (db : Database) :
    db.getLastSuccessfulSyncUtc limit =
      if db.isOpen ∧ limit ≠ some 0 then db.conn.visible.syncState.lastSuccessfulSyncUtc.getD []
      else [] := rfl

theorem getBackfillCursor_open {db : Database} (hopen : db.isOpen = true) :
    db.getBackfillCursor none = db.conn.visible.syncState.backfillCursor.getD [] :=
  readSyncState_open hopen _ _

/-- The rows that a product query returns, with names for display. -/
def runProductQuery (limit : Option Nat) (query : Tables → List ProductRow) (db : Database) :
    List ProductUnits :=
  if db.isOpen then
    (rowsRead limit (query db.conn.visible)).map fun row =>
      ⟨row.appId, Platform.utf8ToWide row.displayName, row.units⟩
  else []

def queryDate (limit : Option Nat) (date : Bytes) : Database → List ProductUnits :=
  runProductQuery limit (Tables.queryDate date)

def queryRange (limit : Option Nat) (startDate endDate : Bytes) : Database → List ProductUnits :=
  runProductQuery limit (Tables.queryRange startDate endDate)

def queryLifetime (limit : Option Nat) : Database → List ProductUnits :=
  runProductQuery limit Tables.queryLifetime

def runScalarSum (limit : Option Nat) (sum : Tables → Int) (db : Database) : Int :=
  if db.isOpen ∧ limit ≠ some 0 then sum db.conn.visible else 0

def sumForDate (limit : Option Nat) (date : Bytes) : Database → Int :=
  runScalarSum limit (Tables.sumForDate date)

def sumForRange (limit : Option Nat) (startDate endDate : Bytes) : Database → Int :=
  runScalarSum limit (Tables.sumForRange startDate endDate)

def sumLifetime (limit : Option Nat) : Database → Int := runScalarSum limit Tables.sumLifetime

end Database

/-! ### What the writes do -/

theorem insertDaily_upserted (date nowUtc : Bytes) (row : DailyProductRow) (t : Tables) :
    (t.upsertProduct ⟨row.appId, storedName row, nowUtc⟩).insertDaily (row.toDaily date) =
      if ∃ r ∈ t.daily, r.financialDate = date ∧ r.appId = row.appId then none
      else some (t.storeRow date nowUtc row) := by
  have hparent :=
    (Tables.mem_upsertProduct ⟨row.appId, storedName row, nowUtc⟩ t row.appId).mpr (.inl rfl)
  simp only [Tables.insertDaily, Tables.storeRow, DailyProductRow.toDaily, hparent,
    Tables.upsertProduct_daily, not_true_eq_false, or_false]

/-- No later row finds its product on the date, if that is so without the first row and the first
row is of another product. -/
theorem fresh_storeRow (date nowUtc : Bytes) (row : DailyProductRow) (rows : List DailyProductRow)
    (t : Tables) :
    (∀ row' ∈ rows, ∀ r ∈ (t.storeRow date nowUtc row).daily,
      r.financialDate = date → r.appId ≠ row'.appId) ↔
      row.appId ∉ rows.map DailyProductRow.appId ∧
        ∀ row' ∈ rows, ∀ r ∈ t.daily, r.financialDate = date → r.appId ≠ row'.appId := by
  simp only [Tables.storeRow_daily, List.mem_append, List.mem_singleton, List.mem_map,
    not_exists, not_and]
  constructor
  · intro h
    exact ⟨fun row' hrow' hsame => h row' hrow' _ (.inr rfl) rfl hsame.symm,
      fun row' hrow' r hr => h row' hrow' r (.inl hr)⟩
  · rintro ⟨hnew, hold⟩ row' hrow' r (hr | rfl) hdate
    · exact hold row' hrow' r hr hdate
    · exact fun hsame => hnew row' hrow' hsame.symm

theorem forall_lt_succ_add {p : Nat → Prop} (i n : Nat) :
    (∀ k < n + 1, p (i + k)) ↔ p i ∧ ∀ k < n, p (i + 1 + k) := by
  simp only [Nat.forall_lt_succ_left, Nat.add_zero, Nat.add_right_comm i 1, Nat.add_assoc]

/-- The row statements store the rows exactly when none of them fails, the products are distinct
and none has a row of that date yet. -/
theorem applyAll_rowStatements (faults : Faults) (date nowUtc : Bytes) (i : Nat)
    (rows : List DailyProductRow) (t t' : Tables) :
    applyAll (rowStatements faults date nowUtc i rows) t = some t' ↔
      (∀ k < rows.length, faults (.upsert (i + k)) = .done ∧ faults (.insert (i + k)) = .done) ∧
        (rows.map DailyProductRow.appId).Nodup ∧
        (∀ row ∈ rows, ∀ r ∈ t.daily, r.financialDate = date → r.appId ≠ row.appId) ∧
        t' = rows.foldl (Tables.storeRow date nowUtc) t := by
  induction rows generalizing i t with
  | nil => simp [rowStatements, applyAll, eq_comm]
  | cons row rows ih =>
    rw [List.length_cons, forall_lt_succ_add
      (p := fun k => faults (.upsert k) = .done ∧ faults (.insert k) = .done)]
    simp only [rowStatements, applyAll, Statement.effect]
    by_cases hu : faults (.upsert i) = .done
    · by_cases hi : faults (.insert i) = .done
      · by_cases hfree : ∃ r ∈ t.daily, r.financialDate = date ∧ r.appId = row.appId
        · simp only [hu, hi, if_true, Option.bind_some, insertDaily_upserted, if_pos hfree,
            Option.bind_none, reduceCtorEq, false_iff]
          rintro ⟨-, -, hfresh, -⟩
          obtain ⟨r, hr, hdate, happ⟩ := hfree
          exact hfresh row (by simp) r hr hdate happ
        · simp only [hu, hi, if_true, Option.bind_some, insertDaily_upserted, if_neg hfree, ih,
            true_and, List.map_cons, List.nodup_cons, List.foldl_cons]
          have hhead : ∀ r ∈ t.daily, r.financialDate = date → r.appId ≠ row.appId :=
            fun r hr hdate happ => hfree ⟨r, hr, hdate, happ⟩
          rw [fresh_storeRow]
          simp only [List.forall_mem_cons]
          tauto
      · simp [hu, hi]
    · simp [hu]

/-- The statements of `replaceDate` succeed together exactly when none fails and the rows are of
distinct products; then they leave the replaced tables. -/
theorem applyAll_replaceDate (faults : Faults) (date : Bytes) (rows : List DailyProductRow)
    (nowUtc : Bytes) (t t' : Tables) :
    applyAll (replaceDateStatements faults date rows nowUtc) t = some t' ↔
      (faults .prepareDelete = .done ∧ faults .delete = .done ∧ faults .prepareUpsert = .done ∧
        faults .prepareInsert = .done ∧
        ∀ k < rows.length, faults (.upsert k) = .done ∧ faults (.insert k) = .done) ∧
        (rows.map DailyProductRow.appId).Nodup ∧ t' = t.replaced date rows nowUtc := by
  have hrows := applyAll_rowStatements faults date nowUtc 0 rows (t.deleteDate date) t'
  have hfresh : ∀ row ∈ rows, ∀ r ∈ (t.deleteDate date).daily, r.financialDate = date →
      r.appId ≠ row.appId := by
    intro row _ r hr hdate
    have := (List.mem_filter.mp hr).2
    simp [hdate] at this
  rw [and_iff_right hfresh] at hrows
  simp only [Nat.zero_add] at hrows
  simp only [replaceDateStatements, List.cons_append, List.nil_append, applyAll, Statement.effect]
  by_cases h1 : faults .prepareDelete = .done <;> simp only [h1, if_true, if_false,
    Option.bind_some, Option.bind_none, false_and, true_and, reduceCtorEq]
  by_cases h2 : faults .delete = .done <;> simp only [h2, if_true, if_false,
    Option.bind_some, Option.bind_none, false_and, true_and, reduceCtorEq]
  by_cases h3 : faults .prepareUpsert = .done <;> simp only [h3, if_true, if_false,
    Option.bind_some, Option.bind_none, false_and, true_and, reduceCtorEq]
  by_cases h4 : faults .prepareInsert = .done <;> simp only [h4, if_true, if_false,
    Option.bind_some, Option.bind_none, false_and, true_and, reduceCtorEq]
  exact hrows

def Tables.cleared (t : Tables) : Tables := ⟨[], [], t.syncState.cleared⟩

theorem applyAll_clearAllSales (faults : Faults) (t t' : Tables) :
    applyAll (clearAllSalesStatements faults) t = some t' ↔
      (faults .deleteDaily = .done ∧ faults .deleteProducts = .done ∧ faults .update = .done) ∧
        t' = t.cleared := by
  simp only [clearAllSalesStatements, applyAll, Statement.effect]
  by_cases h1 : faults .deleteDaily = .done <;> simp [h1, Tables.deleteAllDaily]
  by_cases h2 : faults .deleteProducts = .done <;> simp [h2, Tables.deleteAllProducts]
  by_cases h3 : faults .update = .done <;>
    simp [h3, Tables.updateSyncState, Tables.cleared, eq_comm]

/-- The two writes with a transaction of their own. -/
inductive Write where
  | replaceDate (date : Bytes) (rows : List DailyProductRow) (nowUtc : Bytes)
  | clearAllSales
deriving DecidableEq, Repr

namespace Write

def run (faults : Faults) : Write → Database → Bool × Database
  | .replaceDate date rows nowUtc => Database.replaceDate faults date rows nowUtc
  | .clearAllSales => Database.clearAllSales faults

def statements (faults : Faults) : Write → List (Statement Tables)
  | .replaceDate date rows nowUtc => replaceDateStatements faults date rows nowUtc
  | .clearAllSales => clearAllSalesStatements faults

def Completes (faults : Faults) : Write → Prop
  | .replaceDate _ rows _ =>
    faults .prepareDelete = .done ∧ faults .delete = .done ∧ faults .prepareUpsert = .done ∧
      faults .prepareInsert = .done ∧
      ∀ k < rows.length, faults (.upsert k) = .done ∧ faults (.insert k) = .done
  | .clearAllSales =>
    faults .deleteDaily = .done ∧ faults .deleteProducts = .done ∧ faults .update = .done

/-- The rows are of distinct products, as the primary key demands. -/
def Distinct : Write → Prop
  | .replaceDate _ rows _ => (rows.map DailyProductRow.appId).Nodup
  | .clearAllSales => True

def result : Write → Tables → Tables
  | .replaceDate date rows nowUtc => Tables.replaced date rows nowUtc
  | .clearAllSales => Tables.cleared

theorem applyAll_statements (faults : Faults) (w : Write) (t t' : Tables) :
    applyAll (w.statements faults) t = some t' ↔
      w.Completes faults ∧ w.Distinct ∧ t' = w.result t := by
  cases w with
  | replaceDate date rows nowUtc => exact applyAll_replaceDate faults date rows nowUtc t t'
  | clearAllSales =>
    exact (applyAll_clearAllSales faults t t').trans (by simp [Completes, Distinct, result])

theorem run_open {db : Database} (hopen : db.isOpen = true) (faults : Faults) (w : Write) :
    w.run faults db =
      ((db.conn.transact (faults .beginImmediate) (w.statements faults) (faults .commit)).1,
        { db with conn := (db.conn.transact (faults .beginImmediate) (w.statements faults)
          (faults .commit)).2 }) := by
  cases w <;> simp [run, statements, Database.replaceDate, Database.clearAllSales,
    Database.transact, hopen]

theorem run_closed {db : Database} (hclosed : db.isOpen = false) (faults : Faults) (w : Write) :
    w.run faults db = (false, db) := by
  cases w <;> simp [run, Database.replaceDate, Database.clearAllSales, Database.transact, hclosed]

/-- A write either changes nothing and returns false, or its rows are of distinct products, no
transaction was open, and the connection shows its result, committed when it returns true. -/
theorem run_cases (faults : Faults) (w : Write) (db : Database) :
    w.run faults db = (false, db) ∨
      w.Distinct ∧ db.conn.tx = none ∧ (w.run faults db).2.isOpen = db.isOpen ∧
        db.conn.Becomes (w.result db.conn.visible) (w.run faults db).2.conn ∧
        ((w.run faults db).1 = true →
          (w.run faults db).2.conn = ⟨w.result db.conn.visible, none⟩) := by
  cases hopen : db.isOpen with
  | false => exact .inl (run_closed hopen faults w)
  | true =>
    rw [run_open hopen]
    rcases Connection.transact_cases (faults .beginImmediate) (w.statements faults)
      (faults .commit) db.conn with h | ⟨t, htx, ht, hbecomes, hdone⟩
    · rw [h]
      exact .inl rfl
    · obtain ⟨-, hdistinct, rfl⟩ := (applyAll_statements faults w _ _).mp ht
      rw [Connection.visible_of_closed htx]
      exact .inr ⟨hdistinct, htx, hopen, hbecomes, hdone⟩

theorem run_isOpen (faults : Faults) (w : Write) (db : Database) :
    (w.run faults db).2.isOpen = db.isOpen := by
  rcases run_cases faults w db with hfail | hok
  · rw [hfail]
  · exact hok.2.2.1

/-- No transaction is open, no step of the write fails and its rows are of distinct products. -/
def GoesThrough (faults : Faults) (w : Write) (db : Database) : Prop :=
  db.isOpen = true ∧ db.conn.tx = none ∧ faults .beginImmediate = .done ∧ w.Completes faults ∧
    w.Distinct ∧ faults .commit = .done

theorem run_true_iff (faults : Faults) (w : Write) (db : Database) :
    (w.run faults db).1 = true ↔ w.GoesThrough faults db := by
  cases hopen : db.isOpen with
  | false => simp [run_closed hopen, GoesThrough, hopen]
  | true =>
    rw [run_open hopen, Connection.transact_true_iff]
    simp only [GoesThrough, hopen, true_and, applyAll_statements]
    constructor
    · rintro ⟨htx, hbegin, ⟨_, hcompletes, hdistinct, _⟩, hcommit⟩
      exact ⟨htx, hbegin, hcompletes, hdistinct, hcommit⟩
    · rintro ⟨htx, hbegin, hcompletes, hdistinct, hcommit⟩
      exact ⟨htx, hbegin, ⟨_, hcompletes, hdistinct, rfl⟩, hcommit⟩

theorem run_false {faults : Faults} {w : Write} {db : Database} (h : (w.run faults db).1 = false) :
    (w.run faults db).2.conn.committed = db.conn.committed := by
  cases hopen : db.isOpen with
  | false => rw [run_closed hopen]
  | true =>
    rw [run_open hopen] at h ⊢
    exact Connection.transact_false h

theorem run_true {faults : Faults} {w : Write} {db : Database} (h : (w.run faults db).1 = true) :
    (w.run faults db).2.conn = ⟨w.result db.conn.committed, none⟩ := by
  obtain ⟨_, htx, _⟩ := (run_true_iff faults w db).mp h
  have hvisible := Connection.visible_of_closed htx
  rcases run_cases faults w db with hfail | hok
  · rw [hfail] at h
    cases h
  · exact hvisible ▸ hok.2.2.2.2 h

theorem run_noFaults {db : Database} (hopen : db.isOpen = true) (htx : db.conn.tx = none)
    {w : Write} (hw : w.Distinct) :
    w.run noFaults db = (true, { db with conn := ⟨w.result db.conn.committed, none⟩ }) := by
  have hcompletes : w.Completes noFaults := by cases w <;> simp [Completes, noFaults]
  have ht := (applyAll_statements noFaults w db.conn.committed _).mpr ⟨hcompletes, hw, rfl⟩
  rw [run_open hopen, show noFaults .beginImmediate = .done from rfl,
    show noFaults .commit = .done from rfl, Connection.transact_done htx ht]

/-- Whenever the call returns false after its own `BEGIN` succeeded, the connection sees the tables
from before the call, is outside any transaction, and executes later writes. -/
def UndoneOnFailure (faults : Faults) (w : Write) (db : Database) : Prop :=
  db.isOpen = true → (db.conn.beginImmediate (faults .beginImmediate)).1 = true →
    (w.run faults db).1 = false →
      (w.run faults db).2.conn.visible = db.conn.visible ∧
        (w.run faults db).2.conn.tx = none ∧
        ∀ later : Write, later.Distinct → (later.run noFaults (w.run faults db).2).1 = true

/-- The call gets as far as a `COMMIT` that returns `SQLITE_BUSY`. -/
def CommitBusy (faults : Faults) (w : Write) (db : Database) : Prop :=
  db.isOpen = true ∧ db.conn.tx = none ∧ faults .beginImmediate = .done ∧ w.Completes faults ∧
    w.Distinct ∧ faults .commit = .busy

/-- A failed write leaves the tables and the connection as they were, except exactly when its
`COMMIT` returns `SQLITE_BUSY`: `COMMIT` alone is not followed by a `ROLLBACK`. -/
theorem undoneOnFailure_iff (faults : Faults) (w : Write) (db : Database) :
    w.UndoneOnFailure faults db ↔ ¬w.CommitBusy faults db := by
  cases hopen : db.isOpen with
  | false => simp [UndoneOnFailure, CommitBusy, hopen]
  | true =>
    have hundone := Connection.transact_undone_iff (faults .beginImmediate)
      (w.statements faults) (faults .commit) db.conn
    have hbusy : w.CommitBusy faults db ↔
        db.conn.LeftOpen (faults .beginImmediate) (w.statements faults) (faults .commit) := by
      simp only [CommitBusy, Connection.LeftOpen, hopen, true_and, applyAll_statements]
      constructor
      · rintro ⟨htx, hbegin, hcompletes, hdistinct, hcommit⟩
        exact ⟨htx, hbegin, ⟨_, hcompletes, hdistinct, rfl⟩, hcommit⟩
      · rintro ⟨htx, hbegin, ⟨_, hcompletes, hdistinct, _⟩, hcommit⟩
        exact ⟨htx, hbegin, hcompletes, hdistinct, hcommit⟩
    rw [hbusy, ← hundone, UndoneOnFailure, run_open hopen]
    constructor
    · intro h hbegin hfalse
      obtain ⟨hvisible, htx, -⟩ := h hopen hbegin hfalse
      exact ⟨hvisible, htx⟩
    · intro h _ hbegin hfalse
      obtain ⟨hvisible, htx⟩ := h hbegin hfalse
      refine ⟨hvisible, htx, fun later hlater => ?_⟩
      rw [run_noFaults (by exact hopen) (by exact htx) hlater]

/-- One row on one date, in a new database, with a `COMMIT` that returns `SQLITE_BUSY`: the call
returns false and its transaction stays open. -/
theorem commitBusy_not_undone :
    ¬∀ (faults : Faults) (w : Write) (db : Database), w.UndoneOnFailure faults db := by
  intro h
  have := h (fun step => if step = .commit then .busy else .done)
    (.replaceDate (ascii "2026/07/18") [⟨480, ascii "git gud", 3, 4, 1⟩]
      (ascii "2026-07-20T00:00:00Z")) Database.fresh rfl rfl rfl
  exact absurd this.2.1 (by decide)

end Write

def SyncState.written (s : SyncState) : Database.SyncStateWrite → SyncState
  | .changedDatesHighwatermark h => { s with changedDatesHighwatermark := h }
  | .lastSuccessfulCheckUtc iso8601 => { s with lastSuccessfulCheckUtc := some iso8601 }
  | .lastSuccessfulSyncUtc iso8601 => { s with lastSuccessfulSyncUtc := some iso8601 }
  | .lastError message => { s with lastError := some message }
  | .backfillCursor date => { s with backfillCursor := if date.isEmpty then none else some date }

def Tables.written (t : Tables) (w : Database.SyncStateWrite) : Tables :=
  { t with syncState := t.syncState.written w }

theorem Database.writeSyncState_eq (faults : Faults) (w : SyncStateWrite) (db : Database) :
    db.writeSyncState faults w = db.setSyncState faults (SyncState.written · w) := by
  cases w <;> rfl

theorem Database.writeSyncState_cases (faults : Faults) (w : SyncStateWrite) (db : Database) :
    db.writeSyncState faults w = (false, db) ∨
      (db.writeSyncState faults w).2.isOpen = db.isOpen ∧
        db.conn.Becomes (db.conn.visible.written w) (db.writeSyncState faults w).2.conn ∧
        (db.conn.tx = none → (db.writeSyncState faults w).2.conn =
          ⟨db.conn.visible.written w, none⟩) := by
  rw [writeSyncState_eq]
  unfold Database.setSyncState
  split
  · rcases Connection.exec_cases
        ⟨faults .update, fun t => some (t.updateSyncState (SyncState.written · w))⟩ db.conn with
      h | ⟨t, ht, hbecomes, _, hdone⟩
    · rw [h]
      exact .inl rfl
    · obtain rfl := Option.some.inj (Statement.apply_of_effect ht)
      exact .inr ⟨rfl, hbecomes, hdone⟩
  · exact .inl rfl

theorem Database.writeSyncState_isOpen (faults : Faults) (w : SyncStateWrite) (db : Database) :
    (db.writeSyncState faults w).2.isOpen = db.isOpen := by
  rcases writeSyncState_cases faults w db with hfail | hok
  · rw [hfail]
  · exact hok.1

theorem Database.writeSyncState_done {faults : Faults} {w : SyncStateWrite} {db : Database}
    (hopen : db.isOpen = true) (hprepare : faults .prepareUpdate = .done)
    (hupdate : faults .update = .done) :
    (db.writeSyncState faults w).2.conn.visible = db.conn.visible.written w := by
  rw [writeSyncState_eq]
  unfold Database.setSyncState
  rw [if_pos ⟨hopen, hprepare⟩]
  rcases Connection.exec_cases
      ⟨faults .update, fun t => some (t.updateSyncState (SyncState.written · w))⟩ db.conn with
    h | ⟨t, ht, hbecomes, _, _⟩
  · simp [Connection.exec, Statement.effect, hupdate] at h
  · obtain rfl := Option.some.inj (Statement.apply_of_effect ht)
    exact hbecomes.visible

end SteamSalesTray.Storage
