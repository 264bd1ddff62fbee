import SteamSalesTray.Platform.StartupManager

/-! The preferences that the program keeps in the registry. -/

namespace SteamSalesTray.Storage

open Platform

inductive RefreshInterval where
  | manual
  | min15
  | min30
  | min60
  | hours2
  | hours6
deriving DecidableEq, Repr

def RefreshInterval.minutes : RefreshInterval → UInt32
  | .manual => 0
  | .min15 => 15
  | .min30 => 30
  | .min60 => 60
  | .hours2 => 120
  | .hours6 => 360

/-- The values under `Software\Bezi\SteamSalesTray`; `none` is a value that is not there. -/
structure SettingsStore where
  refreshIntervalMinutes : Option RegValue
  notifyOnNewUnits : Option RegValue
  hideLifetime : Option RegValue
deriving DecidableEq, Repr

namespace SettingsStore

def readDword (value : Option RegValue) (fallback : UInt32) : UInt32 :=
  match value with
  | some (.dword value) => value
  | _ => fallback

def isValidInterval (minutes : UInt32) : Bool := minutes ∈ [0, 15, 30, 60, 120, 360]

def kDefaultRefresh : UInt32 := 30

/-- The cast of a number of minutes that is an interval. -/
def toRefreshInterval (minutes : UInt32) : RefreshInterval :=
  if minutes = 0 then .manual
  else if minutes = 15 then .min15
  else if minutes = 60 then .min60
  else if minutes = 120 then .hours2
  else if minutes = 360 then .hours6
  else .min30

def getRefreshInterval (s : SettingsStore) : RefreshInterval :=
  let minutes := readDword s.refreshIntervalMinutes kDefaultRefresh
  let minutes := if isValidInterval minutes then minutes else kDefaultRefresh
  let minutes := if minutes ≠ 0 ∧ minutes < 15 then 15 else minutes
  toRefreshInterval minutes

def setRefreshInterval (interval : RefreshInterval) (s : SettingsStore) : SettingsStore :=
  { s with refreshIntervalMinutes := some (.dword interval.minutes) }

def getNotifyOnNewUnits (s : SettingsStore) : Bool := readDword s.notifyOnNewUnits 0 ≠ 0

def setNotifyOnNewUnits (enabled : Bool) (s : SettingsStore) : SettingsStore :=
  { s with notifyOnNewUnits := some (.dword (if enabled then 1 else 0)) }

def getHideLifetime (s : SettingsStore) : Bool := readDword s.hideLifetime 0 ≠ 0

def setHideLifetime (hidden : Bool) (s : SettingsStore) : SettingsStore :=
  { s with hideLifetime := some (.dword (if hidden then 1 else 0)) }

@[simp] theorem getRefreshInterval_set (interval : RefreshInterval) (s : SettingsStore) :
    (s.setRefreshInterval interval).getRefreshInterval = interval := by
  cases interval <;> rfl

@[simp] theorem getNotifyOnNewUnits_set (enabled : Bool) (s : SettingsStore) :
    (s.setNotifyOnNewUnits enabled).getNotifyOnNewUnits = enabled := by
  cases enabled <;> rfl

@[simp] theorem getHideLifetime_set (hidden : Bool) (s : SettingsStore) :
    (s.setHideLifetime hidden).getHideLifetime = hidden := by
  cases hidden <;> rfl

end SettingsStore

/-! ### The sales window -/

/-- The values that the sales window keeps under the same key; `salesColWidth i` is the one that is
named `SalesColWidth` and the number of the column. -/
structure SalesSettings where
  salesPeriodIndex : Option RegValue
  salesWindowX : Option RegValue
  salesWindowY : Option RegValue
  salesWindowW : Option RegValue
  salesWindowH : Option RegValue
  salesColWidth : Fin 3 → Option RegValue

/-- Where a window is on the desktop, and its size. -/
structure WindowRect where
  x : Int32
  y : Int32
  width : Int32
  height : Int32
deriving DecidableEq, Repr

namespace SalesSettings

def kUnsetSentinel : UInt32 := 0x7FFFFFFF

def getSalesPeriodIndex (s : SalesSettings) : Int32 :=
  (SettingsStore.readDword s.salesPeriodIndex 0).toInt32

def setSalesPeriodIndex (index : Int32) (s : SalesSettings) : SalesSettings :=
  { s with salesPeriodIndex := some (.dword index.toUInt32) }

def getSalesWindowRect (s : SalesSettings) : Option WindowRect :=
  let w := SettingsStore.readDword s.salesWindowW kUnsetSentinel
  let h := SettingsStore.readDword s.salesWindowH kUnsetSentinel
  if w = kUnsetSentinel ∨ h = kUnsetSentinel ∨ w = 0 ∨ h = 0 then none
  else
    some
      { x := (SettingsStore.readDword s.salesWindowX 0).toInt32
        y := (SettingsStore.readDword s.salesWindowY 0).toInt32
        width := w.toInt32
        height := h.toInt32 }

def setSalesWindowRect (r : WindowRect) (s : SalesSettings) : SalesSettings :=
  { s with
    salesWindowX := some (.dword r.x.toUInt32)
    salesWindowY := some (.dword r.y.toUInt32)
    salesWindowW := some (.dword r.width.toUInt32)
    salesWindowH := some (.dword r.height.toUInt32) }

def getSalesColumnWidth (column : Fin 3) (fallback : Int32) (s : SalesSettings) : Int32 :=
  let v := SettingsStore.readDword (s.salesColWidth column) kUnsetSentinel
  if v = kUnsetSentinel then fallback else v.toInt32

def setSalesColumnWidth (column : Fin 3) (width : Int32) (s : SalesSettings) : SalesSettings :=
  { s with
    salesColWidth := fun i =>
      if i = column then some (.dword width.toUInt32) else s.salesColWidth i }

/-- The length is one that can be told from a value that is not there. -/
def Storable (length : Int32) : Prop := length ≠ 0 ∧ length.toUInt32 ≠ kUnsetSentinel

instance (length : Int32) : Decidable (Storable length) :=
  inferInstanceAs (Decidable (_ ∧ _))

@[simp] theorem getSalesPeriodIndex_set (index : Int32) (s : SalesSettings) :
    (s.setSalesPeriodIndex index).getSalesPeriodIndex = index := by
  simp [getSalesPeriodIndex, setSalesPeriodIndex, SettingsStore.readDword]

@[simp] theorem getSalesPeriodIndex_setSalesWindowRect (r : WindowRect) (s : SalesSettings) :
    (s.setSalesWindowRect r).getSalesPeriodIndex = s.getSalesPeriodIndex := rfl

@[simp] theorem getSalesPeriodIndex_setSalesColumnWidth (column : Fin 3) (width : Int32)
    (s : SalesSettings) :
    (s.setSalesColumnWidth column width).getSalesPeriodIndex = s.getSalesPeriodIndex := rfl

@[simp] theorem getSalesWindowRect_setSalesColumnWidth (column : Fin 3) (width : Int32)
    (s : SalesSettings) :
    (s.setSalesColumnWidth column width).getSalesWindowRect = s.getSalesWindowRect := rfl

/-- A rectangle is read back as it was written, wherever it is on the desktop, unless its size is
one that stands for no rectangle. -/
theorem getSalesWindowRect_set (r : WindowRect) (s : SalesSettings) :
    (s.setSalesWindowRect r).getSalesWindowRect =
      if Storable r.width ∧ Storable r.height then some r else none := by
  have hzero : ∀ length : Int32, length.toUInt32 = 0 ↔ length = 0 := fun length =>
    ⟨fun h => by simpa using congrArg UInt32.toInt32 h, fun h => by rw [h]; rfl⟩
  simp only [getSalesWindowRect, setSalesWindowRect, SettingsStore.readDword, hzero,
    Int32.toInt32_toUInt32]
  by_cases hstorable : Storable r.width ∧ Storable r.height
  · rw [if_pos hstorable, if_neg]
    rintro (h | h | h | h)
    · exact hstorable.1.2 h
    · exact hstorable.2.2 h
    · exact hstorable.1.1 h
    · exact hstorable.2.1 h
  · rw [if_neg hstorable, if_pos]
    by_contra hnone
    push Not at hnone
    exact hstorable ⟨⟨hnone.2.2.1, hnone.1⟩, hnone.2.2.2, hnone.2.1⟩

theorem getSalesColumnWidth_set (column other : Fin 3) (width fallback : Int32)
    (s : SalesSettings) :
    (s.setSalesColumnWidth column width).getSalesColumnWidth other fallback =
      if other = column then
        if width.toUInt32 = kUnsetSentinel then fallback else width
      else s.getSalesColumnWidth other fallback := by
  by_cases h : other = column
  · simp only [getSalesColumnWidth, setSalesColumnWidth, h, if_true, SettingsStore.readDword,
      Int32.toInt32_toUInt32]
  · simp only [getSalesColumnWidth, setSalesColumnWidth, h, if_false]

end SalesSettings

end SteamSalesTray.Storage
