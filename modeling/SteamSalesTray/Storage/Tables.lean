import Mathlib.Data.List.Sort
import SteamSalesTray.Platform.StringUtil

/-! The tables of the local database and what the program's SQL statements do to them.

A row list stands for a table.  A statement that breaks a key or a foreign key of the schema gives
`none`. -/

namespace SteamSalesTray.Storage

structure DailyProductRow where
  appId : Int
  displayName : Bytes
  netUnitsSold : Int
  grossUnitsSold : Int
  grossUnitsReturned : Int
deriving DecidableEq, Repr

structure ProductUnits where
  appId : Int
  displayName : Wide
  units : Int
deriving DecidableEq, Repr

/-- The row of `sync_state`; `none` is `NULL`. -/
structure SyncState where
  changedDatesHighwatermark : Bytes
  lastSuccessfulCheckUtc : Option Bytes
  lastSuccessfulSyncUtc : Option Bytes
  lastError : Option Bytes
  backfillCursor : Option Bytes
deriving DecidableEq, Repr

structure Product where
  appId : Int
  displayName : Bytes
  lastSeenUtc : Bytes
deriving DecidableEq, Repr

structure DailySales where
  financialDate : Bytes
  appId : Int
  grossUnitsSold : Int
  grossUnitsReturned : Int
  netUnitsSold : Int
deriving DecidableEq, Repr

structure Tables where
  products : List Product
  daily : List DailySales
  syncState : SyncState
deriving DecidableEq, Repr

/-- The tables that the migrations leave in a new database. -/
def Tables.fresh : Tables where
  products := []
  daily := []
  syncState := ⟨ascii "0", none, none, none, none⟩

/-- The name under which a row's product is stored. -/
def storedName (row : DailyProductRow) : Bytes :=
  if row.displayName.isEmpty then ascii "App " ++ signedDecimal row.appId else row.displayName

def DailyProductRow.toDaily (row : DailyProductRow) (date : Bytes) : DailySales where
  financialDate := date
  appId := row.appId
  grossUnitsSold := row.grossUnitsSold
  grossUnitsReturned := row.grossUnitsReturned
  netUnitsSold := row.netUnitsSold

namespace Tables

def deleteDate (date : Bytes) (t : Tables) : Tables :=
  { t with daily := t.daily.filter fun r => r.financialDate ≠ date }

/-- `INSERT INTO products … ON CONFLICT(app_id) DO UPDATE`. -/
def upsertProduct (p : Product) (t : Tables) : Tables :=
  if ∃ q ∈ t.products, q.appId = p.appId then
    { t with products := t.products.map fun q => if q.appId = p.appId then p else q }
  else { t with products := t.products ++ [p] }

def insertDaily (r : DailySales) (t : Tables) : Option Tables :=
  if (∃ s ∈ t.daily, s.financialDate = r.financialDate ∧ s.appId = r.appId) ∨
      ¬∃ p ∈ t.products, p.appId = r.appId then none
  else some { t with daily := t.daily ++ [r] }

def deleteAllDaily (t : Tables) : Tables := { t with daily := [] }

def deleteAllProducts (t : Tables) : Option Tables :=
  if ∃ r ∈ t.daily, ∃ p ∈ t.products, p.appId = r.appId then none
  else some { t with products := [] }

def updateSyncState (f : SyncState → SyncState) (t : Tables) : Tables :=
  { t with syncState := f t.syncState }

def dateRows (t : Tables) (date : Bytes) : List DailySales :=
  t.daily.filter fun r => r.financialDate = date

def nameOf (t : Tables) (app : Int) : Option Bytes :=
  (t.products.find? fun p => p.appId = app).map Product.displayName

/-! ### Replacing a date -/

/-- The tables with one more row of `date` and its product. -/
def storeRow (date nowUtc : Bytes) (t : Tables) (row : DailyProductRow) : Tables :=
  let t' := t.upsertProduct ⟨row.appId, storedName row, nowUtc⟩
  { t' with daily := t'.daily ++ [row.toDaily date] }

/-- The tables with `rows` in place of the rows of `date`. -/
def replaced (date : Bytes) (rows : List DailyProductRow) (nowUtc : Bytes) (t : Tables) : Tables :=
  rows.foldl (storeRow date nowUtc) (t.deleteDate date)

@[simp] theorem upsertProduct_daily (p : Product) (t : Tables) :
    (t.upsertProduct p).daily = t.daily := by
  unfold upsertProduct
  split <;> rfl

@[simp] theorem upsertProduct_syncState (p : Product) (t : Tables) :
    (t.upsertProduct p).syncState = t.syncState := by
  unfold upsertProduct
  split <;> rfl

theorem mem_upsertProduct (p : Product) (t : Tables) (app : Int) :
    (∃ q ∈ (t.upsertProduct p).products, q.appId = app) ↔
      app = p.appId ∨ ∃ q ∈ t.products, q.appId = app := by
  unfold upsertProduct
  split
  · rename_i h
    obtain ⟨q, hq, hqp⟩ := h
    constructor
    · rintro ⟨q', hq', rfl⟩
      obtain ⟨q0, hq0, rfl⟩ := List.mem_map.mp hq'
      split
      · exact .inl rfl
      · exact .inr ⟨q0, hq0, rfl⟩
    · rintro (rfl | ⟨q', hq', rfl⟩)
      · exact ⟨p, List.mem_map.mpr ⟨q, hq, if_pos hqp⟩, rfl⟩
      · refine ⟨if q'.appId = p.appId then p else q', List.mem_map.mpr ⟨q', hq', rfl⟩, ?_⟩
        split
        · exact (by assumption : q'.appId = p.appId).symm
        · rfl
  · simp only [List.mem_append, List.mem_singleton]
    constructor
    · rintro ⟨q, hq | rfl, rfl⟩
      · exact .inr ⟨q, hq, rfl⟩
      · exact .inl rfl
    · rintro (rfl | ⟨q, hq, rfl⟩)
      · exact ⟨p, .inr rfl, rfl⟩
      · exact ⟨q, .inl hq, rfl⟩

theorem find_upserted (p : Product) (qs : List Product) (app : Int) :
    (qs.map fun q => if q.appId = p.appId then p else q).find? (fun q => q.appId = app) =
      if app = p.appId then (qs.find? fun q => q.appId = app).map fun _ => p
      else qs.find? fun q => q.appId = app := by
  induction qs with
  | nil => simp
  | cons q qs ih =>
    simp only [List.map_cons, List.find?_cons, ih]
    grind

theorem nameOf_upsertProduct (p : Product) (t : Tables) (app : Int) :
    (t.upsertProduct p).nameOf app =
      if app = p.appId then some p.displayName else t.nameOf app := by
  unfold upsertProduct nameOf
  split
  · rename_i h
    obtain ⟨q, hq, hqp⟩ := h
    simp only [find_upserted]
    split
    · subst app
      obtain ⟨q', hq'⟩ := Option.isSome_iff_exists.mp
        (List.find?_isSome.mpr ⟨q, hq, by simpa using hqp⟩ :
          (t.products.find? fun q => q.appId = p.appId).isSome)
      simp [hq']
    · rfl
  · rename_i h
    simp only [List.find?_append]
    by_cases happ : app = p.appId
    · subst app
      have hnone : (t.products.find? fun q => q.appId = p.appId) = none := by
        simpa [List.find?_eq_none] using h
      simp [hnone]
    · simp [happ, Ne.symm happ]

@[simp] theorem storeRow_syncState (date nowUtc : Bytes) (t : Tables) (row : DailyProductRow) :
    (t.storeRow date nowUtc row).syncState = t.syncState := by
  simp [storeRow]

@[simp] theorem storeRow_daily (date nowUtc : Bytes) (t : Tables) (row : DailyProductRow) :
    (t.storeRow date nowUtc row).daily = t.daily ++ [row.toDaily date] := by
  simp [storeRow]

theorem nameOf_storeRow (date nowUtc : Bytes) (t : Tables) (row : DailyProductRow) (app : Int) :
    (t.storeRow date nowUtc row).nameOf app =
      if app = row.appId then some (storedName row) else t.nameOf app :=
  nameOf_upsertProduct ⟨row.appId, storedName row, nowUtc⟩ t app

theorem foldl_storeRow_daily (date nowUtc : Bytes) (rows : List DailyProductRow) (t : Tables) :
    (rows.foldl (storeRow date nowUtc) t).daily = t.daily ++ rows.map (·.toDaily date) := by
  induction rows generalizing t with
  | nil => simp
  | cons row rows ih => simp [ih]

@[simp] theorem replaced_syncState (date : Bytes) (rows : List DailyProductRow) (nowUtc : Bytes)
    (t : Tables) : (t.replaced date rows nowUtc).syncState = t.syncState := by
  unfold replaced
  suffices h : ∀ t : Tables, (rows.foldl (storeRow date nowUtc) t).syncState = t.syncState from h _
  induction rows with
  | nil => exact fun _ => rfl
  | cons row rows ih => exact fun t => (ih _).trans (storeRow_syncState _ _ _ _)

theorem replaced_daily (date : Bytes) (rows : List DailyProductRow) (nowUtc : Bytes) (t : Tables) :
    (t.replaced date rows nowUtc).daily =
      (t.daily.filter fun r => r.financialDate ≠ date) ++ rows.map (·.toDaily date) :=
  foldl_storeRow_daily date nowUtc rows _

theorem dateRows_replaced_self (date : Bytes) (rows : List DailyProductRow) (nowUtc : Bytes)
    (t : Tables) :
    (t.replaced date rows nowUtc).dateRows date = rows.map (·.toDaily date) := by
  simp only [dateRows, replaced_daily, List.filter_append, List.filter_filter]
  rw [List.filter_eq_nil_iff.mpr (by simp), List.nil_append, List.filter_eq_self.mpr]
  simp [DailyProductRow.toDaily]

theorem dateRows_replaced_ne {date other : Bytes} (h : other ≠ date) (rows : List DailyProductRow)
    (nowUtc : Bytes) (t : Tables) :
    (t.replaced date rows nowUtc).dateRows other = t.dateRows other := by
  have hrows : (rows.map (·.toDaily date)).filter (fun r => r.financialDate = other) = [] := by
    simp [DailyProductRow.toDaily, Ne.symm h]
  simp only [dateRows, replaced_daily, List.filter_append, List.filter_filter, hrows,
    List.append_nil]
  apply List.filter_congr
  intro r _
  by_cases hr : r.financialDate = other
  · simp [hr, h]
  · simp [hr]

theorem nameOf_foldl_storeRow {date nowUtc : Bytes} {rows : List DailyProductRow} {t : Tables}
    {app : Int} (h : app ∉ rows.map DailyProductRow.appId) :
    (rows.foldl (storeRow date nowUtc) t).nameOf app = t.nameOf app := by
  induction rows generalizing t with
  | nil => rfl
  | cons row rows ih =>
    simp only [List.map_cons, List.mem_cons, not_or] at h
    rw [List.foldl_cons, ih h.2, nameOf_storeRow, if_neg h.1]

theorem nameOf_replaced_of_notMem {date : Bytes} {rows : List DailyProductRow} {nowUtc : Bytes}
    {t : Tables} {app : Int} (h : app ∉ rows.map DailyProductRow.appId) :
    (t.replaced date rows nowUtc).nameOf app = t.nameOf app :=
  nameOf_foldl_storeRow h

theorem nameOf_replaced_of_mem {date : Bytes} {rows : List DailyProductRow} {nowUtc : Bytes}
    {t : Tables} {row : DailyProductRow} (hrows : (rows.map DailyProductRow.appId).Nodup)
    (h : row ∈ rows) :
    (t.replaced date rows nowUtc).nameOf row.appId = some (storedName row) := by
  unfold replaced
  generalize t.deleteDate date = t0
  induction rows generalizing t0 with
  | nil => cases h
  | cons first rows ih =>
    obtain ⟨hfirst, hrest⟩ := List.nodup_cons.mp hrows
    rcases List.mem_cons.mp h with rfl | h
    · rw [List.foldl_cons, nameOf_foldl_storeRow hfirst, nameOf_storeRow, if_pos rfl]
    · exact ih hrest h _

end Tables

end SteamSalesTray.Storage
