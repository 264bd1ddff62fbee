import Mathlib.Data.List.GetD
import SteamSalesTray.Storage.Calls
import SteamSalesTray.Storage.SettingsStore
import SteamSalesTray.UI.SalesWindow

/-! The controls of the sales window: the combo box of the periods, and the list of a period's
products with their total. -/

namespace SteamSalesTray.UI

open Platform Storage

inductive SalesPeriod where
  | today
  | yesterday
  | last7Days
  | last30Days
  | lifetime
deriving DecidableEq, Repr

namespace SalesPeriod

/-- The value of the enumeration, which is what is saved. -/
def index : SalesPeriod → Int32
  | .today => 0
  | .yesterday => 1
  | .last7Days => 2
  | .last30Days => 3
  | .lifetime => 4

def label : SalesPeriod → Wide
  | .today => wide "Today"
  | .yesterday => wide "Yesterday"
  | .last7Days => wide "Last 7 Days"
  | .last30Days => wide "Last 30 Days"
  | .lifetime => wide "Lifetime"

def all : List SalesPeriod := [.today, .yesterday, .last7Days, .last30Days, .lifetime]

theorem index_injective : Function.Injective index := by
  intro p q h
  cases p <;> cases q <;> first | rfl | exact absurd h (by decide)

end SalesPeriod

/-- A row of the list: the texts of its three columns. -/
structure Item where
  product : Wide
  appId : Wide
  units : Wide
deriving DecidableEq, Repr

/-- The sales window once it is created.  `selection` is what `CB_GETCURSEL` answers, `none` for
`CB_ERR`, and `periods` maps an index of the combo box to its period. -/
structure SalesWindow where
  visible : Bool
  combo : List Wide
  selection : Option Nat
  periods : List SalesPeriod
  items : List Item
  total : Wide
  status : Wide
deriving DecidableEq, Repr

namespace SalesWindow

/-- The controls as `CreateChildren` makes them, before the periods are filled in. -/
def created : SalesWindow := ⟨false, [], none, [], [], wide "Total: 0", []⟩

/-- `CB_SETCURSEL`: an index that the combo box does not have clears the selection. -/
def setCurSel (i : Nat) (w : SalesWindow) : SalesWindow :=
  { w with selection := if i < w.combo.length then some i else none }

def currentPeriod (w : SalesWindow) : SalesPeriod :=
  match w.selection with
  | none => .today
  | some i => w.periods.getD i .today

/-- The periods that are filled in. -/
def offered (hideLifetime : Bool) : List SalesPeriod :=
  SalesPeriod.all.filter fun p => ¬(p = .lifetime ∧ hideLifetime = true)

/-- The index of the period that has the saved value, the first one if none has. -/
def selectIndex (savedValue : Int32) (periods : List SalesPeriod) : Nat :=
  (periods.findIdx? fun p => p.index = savedValue).getD 0

def populatePeriodCombo (hideLifetime : Bool) (savedValue : Int32) (w : SalesWindow) :
    SalesWindow :=
  let periods := offered hideLifetime
  let filled := { w with combo := periods.map SalesPeriod.label, periods := periods }
  filled.setCurSel (selectIndex savedValue periods)

end SalesWindow

/-! ### The list -/

/-- A text that is passed on as a C string. -/
def cString (text : Wide) : Wide := text.takeWhile (· ≠ 0)

def Item.ofRow (row : ProductUnits) : Item where
  product := cString row.displayName
  appId := wideDecimal row.appId
  units := formatThousands row.units

def totalText (total : Int) : Wide := wide "Total: " ++ formatThousands total

namespace SalesWindow

def deleteAllItems (w : SalesWindow) : SalesWindow := { w with items := [] }

/-- A row is put at the end of the list, with the texts of its three columns. -/
def insertItem (row : ProductUnits) (w : SalesWindow) : SalesWindow :=
  { w with items := w.items ++ [.ofRow row] }

/-- The window once `ReloadList` is through, with the rows and the status line that it has read. -/
def reloaded (rows : List ProductUnits) (status : Wide) (w : SalesWindow) : SalesWindow :=
  { w with
    items := rows.map Item.ofRow
    total := totalText (unitsTotal rows)
    status := status }

end SalesWindow

/-! ### The periods -/

namespace SalesWindow

/-- The period that a window with these periods shows where `savedValue` is saved: the saved one, or
`Today` where it is not offered. -/
def savedPeriod (savedValue : Int32) (periods : List SalesPeriod) : SalesPeriod :=
  (periods.find? fun p => p.index = savedValue).getD .today

/-- The combo box has the labels of the periods, which are all that may be offered, and one of them
is selected. -/
structure Periods (w : SalesWindow) : Prop where
  offered : ∃ hideLifetime, w.periods = SalesWindow.offered hideLifetime
  combo : w.combo = w.periods.map SalesPeriod.label
  selection : ∃ i, w.selection = some i ∧ i < w.periods.length

theorem offered_ne_nil (hideLifetime : Bool) : offered hideLifetime ≠ [] := by
  cases hideLifetime <;> decide

theorem today_first (hideLifetime : Bool) : (offered hideLifetime).head? = some .today := by
  cases hideLifetime <;> decide

theorem lifetime_offered (hideLifetime : Bool) :
    .lifetime ∈ offered hideLifetime ↔ hideLifetime = false := by
  cases hideLifetime <;> decide

theorem selectIndex_lt {savedValue : Int32} {periods : List SalesPeriod} (h : periods ≠ []) :
    selectIndex savedValue periods < periods.length := by
  unfold selectIndex
  cases hfound : periods.findIdx? fun p => p.index = savedValue with
  | none => exact List.length_pos_iff.mpr h
  | some i => exact (List.findIdx?_eq_some_iff_getElem.mp hfound).choose

theorem getD_selectIndex {savedValue : Int32} {periods : List SalesPeriod}
    (hfirst : periods.head? = some .today) :
    periods.getD (selectIndex savedValue periods) .today = savedPeriod savedValue periods := by
  unfold selectIndex savedPeriod
  cases hfound : periods.findIdx? fun p => p.index = savedValue with
  | none =>
    have hnone := List.findIdx?_eq_none_iff.mp hfound
    rw [List.find?_eq_none.mpr fun p hp => by simpa using hnone p hp]
    cases periods with
    | nil => rfl
    | cons p rest => exact Option.some.inj hfirst
  | some i =>
    obtain ⟨hi, hp, -⟩ := List.findIdx?_eq_some_iff_getElem.mp hfound
    have hsaved : periods[i].index = savedValue := by simpa using hp
    cases hfind : periods.find? fun p => p.index = savedValue with
    | none =>
      exact absurd hsaved (by simpa using List.find?_eq_none.mp hfind _ (List.getElem_mem hi))
    | some q =>
      have hq : q.index = savedValue := by simpa using List.find?_some hfind
      show periods.getD i .today = q
      rw [List.getD_eq_getElem _ _ hi]
      exact SalesPeriod.index_injective (hsaved.trans hq.symm)

theorem periods_populate (hideLifetime : Bool) (savedValue : Int32) (w : SalesWindow) :
    (w.populatePeriodCombo hideLifetime savedValue).Periods where
  offered := ⟨hideLifetime, rfl⟩
  combo := rfl
  selection := by
    refine ⟨selectIndex savedValue (SalesWindow.offered hideLifetime), ?_,
      selectIndex_lt (offered_ne_nil hideLifetime)⟩
    refine if_pos ?_
    rw [List.length_map]
    exact selectIndex_lt (offered_ne_nil hideLifetime)

theorem currentPeriod_populate (hideLifetime : Bool) (savedValue : Int32) (w : SalesWindow) :
    (w.populatePeriodCombo hideLifetime savedValue).currentPeriod =
      savedPeriod savedValue (offered hideLifetime) := by
  rw [← getD_selectIndex (today_first hideLifetime)]
  obtain ⟨i, hi, -⟩ := (periods_populate hideLifetime savedValue w).selection
  have hindex : i = selectIndex savedValue (offered hideLifetime) := by
    simp only [populatePeriodCombo, setCurSel] at hi
    split at hi
    · exact (Option.some.inj hi).symm
    · cases hi
  rw [currentPeriod, hi, hindex]
  rfl

/-- The period that is selected is one that is offered. -/
theorem currentPeriod_mem {w : SalesWindow} (h : w.Periods) : w.currentPeriod ∈ w.periods := by
  obtain ⟨i, hi, hlt⟩ := h.selection
  have hcurrent : w.currentPeriod = w.periods[i] := by
    rw [currentPeriod, hi]
    exact List.getD_eq_getElem _ _ hlt
  exact hcurrent ▸ List.getElem_mem hlt

/-- So it is what is shown once its value is saved. -/
theorem currentPeriod_saved {w : SalesWindow} (h : w.Periods) :
    savedPeriod w.currentPeriod.index w.periods = w.currentPeriod := by
  unfold savedPeriod
  cases hfind : w.periods.find? fun p => p.index = w.currentPeriod.index with
  | none =>
    have := List.find?_eq_none.mp hfind w.currentPeriod (currentPeriod_mem h)
    simp at this
  | some q =>
    have hq : q.index = w.currentPeriod.index := by simpa using List.find?_some hfind
    exact SalesPeriod.index_injective hq

theorem periods_setCurSel {w : SalesWindow} (h : w.Periods) {i : Nat} (hi : i < w.combo.length) :
    (w.setCurSel i).Periods where
  offered := h.offered
  combo := h.combo
  selection := by
    refine ⟨i, if_pos hi, ?_⟩
    show i < w.periods.length
    rwa [h.combo, List.length_map] at hi

end SalesWindow

end SteamSalesTray.UI
