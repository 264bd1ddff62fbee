import SteamSalesTray.Steam.Models
import SteamSalesTray.Storage.Tables

/-! `AggregateDate`: the line items of one date, filtered and summed by product. -/

namespace SteamSalesTray.Sync

open Steam Storage

/-- The loop's variables: the index of each product's row, and the rows in first-seen order. -/
structure Aggregation where
  indexByApp : List (Int × Nat)
  rows : List DailyProductRow

namespace Aggregation

def add (a : Aggregation) (record : DetailedSalesRecord) : Aggregation :=
  if record.lineItemType ≠ ascii "Package" ∨ record.packageSaleType ≠ ascii "Steam" then a
  else if record.primaryAppId = 0 then a
  else
    match a.indexByApp.lookup record.primaryAppId with
    | none =>
      { indexByApp := (record.primaryAppId, a.rows.length) :: a.indexByApp
        rows := a.rows ++ [⟨record.primaryAppId, record.primaryAppName, record.netUnitsSold,
          record.grossUnitsSold, record.grossUnitsReturned⟩] }
    | some i =>
      { a with rows := a.rows.modify i fun row =>
          { row with
            netUnitsSold := row.netUnitsSold + record.netUnitsSold
            grossUnitsSold := row.grossUnitsSold + record.grossUnitsSold
            grossUnitsReturned := row.grossUnitsReturned + record.grossUnitsReturned
            displayName :=
              if record.primaryAppName.isEmpty then row.displayName else record.primaryAppName } }

/-- The index gives for each product the place of its row, and no other. -/
def Indexed (a : Aggregation) : Prop :=
  ∀ app i, a.indexByApp.lookup app = some i ↔ (a.rows.map DailyProductRow.appId)[i]? = some app

theorem getElem?_concat_eq_some {α : Type} {l : List α} {a b : α} {i : Nat} :
    (l ++ [a])[i]? = some b ↔ l[i]? = some b ∨ i = l.length ∧ b = a := by
  rcases Nat.lt_trichotomy i l.length with hlt | rfl | hgt
  · rw [List.getElem?_append_left hlt]
    simp [Nat.ne_of_lt hlt]
  · simp [eq_comm]
  · rw [List.getElem?_eq_none (by simp; omega), List.getElem?_eq_none (by omega)]
    simp [Nat.ne_of_gt hgt]

theorem Indexed.append {a : Aggregation} (h : a.Indexed) (row : DailyProductRow)
    (hnew : a.indexByApp.lookup row.appId = none) :
    Indexed ⟨(row.appId, a.rows.length) :: a.indexByApp, a.rows ++ [row]⟩ := by
  intro app i
  rw [List.map_append, List.map_singleton, getElem?_concat_eq_some, List.length_map, ← h app i]
  by_cases happ : app = row.appId
  · subst happ
    simp [hnew, eq_comm]
  · have hne : (app == row.appId) = false := by simpa using happ
    simp [List.lookup_cons, hne, happ]

theorem Indexed.modify {a : Aggregation} (h : a.Indexed) {f : DailyProductRow → DailyProductRow}
    (hf : ∀ row, (f row).appId = row.appId) (i : Nat) :
    Indexed { a with rows := a.rows.modify i f } := by
  have hids : (a.rows.modify i f).map DailyProductRow.appId =
      a.rows.map DailyProductRow.appId := by
    apply List.ext_getElem?
    intro k
    simp only [List.getElem?_map, List.getElem?_modify]
    cases a.rows[k]? with
    | none => rfl
    | some row => by_cases hk : i = k <;> simp [hk, hf]
  intro app k
  rw [hids]
  exact h app k

theorem Indexed.add {a : Aggregation} (h : a.Indexed) (record : DetailedSalesRecord) :
    (a.add record).Indexed := by
  unfold Aggregation.add
  split
  · exact h
  split
  · exact h
  split
  · rename_i hnew
    exact h.append ⟨record.primaryAppId, _, _, _, _⟩ hnew
  · refine h.modify ?_ _
    exact fun _ => rfl

end Aggregation

def aggregateDate (records : List DetailedSalesRecord) : List DailyProductRow :=
  (records.foldl Aggregation.add ⟨[], []⟩).rows

theorem indexed_foldl {a : Aggregation} (h : a.Indexed) (records : List DetailedSalesRecord) :
    (records.foldl Aggregation.add a).Indexed := by
  induction records generalizing a with
  | nil => exact h
  | cons record records ih => exact ih (h.add record)

theorem nodup_aggregateDate (records : List DetailedSalesRecord) :
    ((aggregateDate records).map DailyProductRow.appId).Nodup := by
  have h : (records.foldl Aggregation.add ⟨[], []⟩).Indexed :=
    indexed_foldl (fun app i => by simp) records
  rw [List.nodup_iff_getElem?_ne_getElem?]
  intro i j hij hj hsame
  have hi := List.getElem?_eq_getElem (l := (aggregateDate records).map DailyProductRow.appId)
    (Nat.lt_trans hij hj)
  have hfst := (h _ i).mpr hi
  have hsnd := (h _ j).mpr (hsame ▸ hi)
  rw [hfst] at hsnd
  simp only [Option.some.injEq] at hsnd
  omega

example : (aggregateDate
    [⟨ascii "Package", ascii "Steam", 480, ascii "git gud", 2, 3, 1⟩,
      ⟨ascii "MicroTxn", ascii "Steam", 481, ascii "MTX", 99, 0, 0⟩,
      ⟨ascii "Package", ascii "Steam", 480, [], 1, 1, 0⟩]) =
    [⟨480, ascii "git gud", 3, 4, 1⟩] := by decide

end SteamSalesTray.Sync
