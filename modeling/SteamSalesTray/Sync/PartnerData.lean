import SteamSalesTray.Storage.Queries
import SteamSalesTray.Sync.DateTotals
import SteamSalesTray.Sync.MarkSound

/-! The units that the partner's server counts, and the tables that have them. -/

namespace SteamSalesTray.Sync

open Grouping Storage Steam

/-! ### The units of records -/

/-- The net units of the records that count. -/
def netUnits (records : List DetailedSalesRecord) : Int :=
  ((records.filter Counted).map DetailedSalesRecord.netUnitsSold).sum

/-- Those of one product. -/
def netUnitsOf (app : Int) (records : List DetailedSalesRecord) : Int :=
  ((countedFor records app).map DetailedSalesRecord.netUnitsSold).sum

theorem sum_aggregateDate (records : List DetailedSalesRecord) :
    ((aggregateDate records).map DailyProductRow.netUnitsSold).sum = netUnits records := by
  rw [aggregateDate_eq, dateTotals, groupMap, List.map_map, netUnits]
  exact sum_fibers (nodup_eraseDups _) DetailedSalesRecord.primaryAppId
    DetailedSalesRecord.netUnitsSold fun record hrecord =>
      List.mem_eraseDups.mpr (List.mem_map_of_mem hrecord)

theorem sum_aggregateDate_of (app : Int) (records : List DetailedSalesRecord) :
    (((aggregateDate records).filter fun row => row.appId = app).map
      DailyProductRow.netUnitsSold).sum = netUnitsOf app records := by
  rw [aggregateDate_eq, dateTotals, filter_groupMap _ fun _ _ => rfl]
  split
  · exact List.sum_singleton
  · rename_i happ
    rw [netUnitsOf, countedFor, (fiber_eq_nil _).mpr happ]
    rfl

/-! ### What the server has for some dates -/

/-- The dates that the server has ever changed. -/
def changedDates (log : ChangeLog) : List Bytes := (log.changes.map Change.date).dedup

theorem mem_changedDates {log : ChangeLog} {date : Bytes} :
    date ∈ changedDates log ↔ (log.latest date).isSome = true := by
  rw [changedDates, List.mem_dedup, List.mem_map, ChangeLog.latest, List.find?_isSome]
  simp only [decide_eq_true_eq]

section Period

variable (log : ChangeLog) (period : Bytes → Prop) [DecidablePred period]

/-- The net units of all products on the dates of a period. -/
def serverUnits : Int :=
  (((changedDates log).filter period).map fun date => netUnits (log.content date)).sum

/-- Those of one product. -/
def serverUnitsOf (app : Int) : Int :=
  (((changedDates log).filter period).map fun date => netUnitsOf app (log.content date)).sum

end Period

/-! ### The tables -/

/-- The rows of a date are those of the records that the server has. -/
def Keeps (log : ChangeLog) (t : Tables) (date : Bytes) : Prop :=
  t.dateRows date = (aggregateDate (log.content date)).map (·.toDaily date)

/-- No rows are of a date that the server has never changed. -/
def Dated (log : ChangeLog) (t : Tables) : Prop :=
  ∀ r ∈ t.daily, r.financialDate ∈ changedDates log

theorem Dated.keeps {log : ChangeLog} {t : Tables} (h : Dated log t) {date : Bytes}
    (hdate : log.latest date = none) : Keeps log t date := by
  have hcontent : log.content date = [] := by simp [ChangeLog.content, hdate]
  unfold Keeps Tables.dateRows
  rw [hcontent]
  refine List.filter_eq_nil_iff.mpr fun r hr hsame => ?_
  have hchanged := mem_changedDates.mp (h r hr)
  rw [of_decide_eq_true hsame, hdate] at hchanged
  cases hchanged

/-- What the mark covers is kept. -/
theorem MarkSound.keeps {log : ChangeLog} {m : Nat} {t : Tables} (h : MarkSound log m t)
    (hdated : Dated log t) {date : Bytes}
    (hcovered : ∀ c, log.latest date = some c → c.id ≤ m) : Keeps log t date := by
  cases hlatest : log.latest date with
  | none => exact hdated.keeps hlatest
  | some c =>
    have hid := hcovered c hlatest
    have hpos := ChangeLog.latest_pos hlatest
    obtain ⟨hmem, rfl⟩ := ChangeLog.mem_of_latest hlatest
    have hstored : Stores t c := h.current (by omega) c hmem hlatest hid
    unfold Keeps
    rw [ChangeLog.content_of_latest hlatest]
    exact hstored

theorem Keeps.sumNet {log : ChangeLog} {t : Tables} {date : Bytes} (h : Keeps log t date) :
    Tables.sumNet (t.dateRows date) = netUnits (log.content date) := by
  rw [h, Tables.sumNet, List.map_map, ← sum_aggregateDate]
  rfl

theorem Keeps.sumNet_of {log : ChangeLog} {t : Tables} {date : Bytes} (h : Keeps log t date)
    (app : Int) : Tables.sumNet ((t.dateRows date).filter fun r => r.appId = app) =
      netUnitsOf app (log.content date) := by
  rw [h, Tables.sumNet, List.filter_map, List.map_map, ← sum_aggregateDate_of]
  rfl

/-- The rows of a period. -/
def periodRows (period : Bytes → Prop) [DecidablePred period] (t : Tables) : List DailySales :=
  t.daily.filter fun r => period r.financialDate

section Period

variable {log : ChangeLog} {t : Tables} {period : Bytes → Prop} [DecidablePred period]

/-- The rows of a period that satisfy `p`, date by date. -/
theorem Dated.sumNet_split (h : Dated log t) (p : DailySales → Bool) :
    Tables.sumNet ((periodRows period t).filter p) = (((changedDates log).filter period).map
      fun date => Tables.sumNet ((t.dateRows date).filter p)).sum := by
  have hnodup : ((changedDates log).filter period).Nodup := (List.nodup_dedup _).filter _
  have hfibers := sum_fibers hnodup DailySales.financialDate DailySales.netUnitsSold
    (l := (periodRows period t).filter p) fun r hr => by
      obtain ⟨hmem, hperiod⟩ := List.mem_filter.mp (List.mem_of_mem_filter hr)
      exact List.mem_filter.mpr ⟨h r hmem, hperiod⟩
  rw [Tables.sumNet, ← hfibers]
  congr 1
  refine List.map_congr_left fun date hdate => ?_
  have hperiod : period date := of_decide_eq_true (List.mem_filter.mp hdate).2
  rw [Tables.sumNet, periodRows, Tables.dateRows, List.filter_filter, List.filter_filter,
    List.filter_filter]
  congr 2
  refine List.filter_congr fun r _ => ?_
  by_cases hr : r.financialDate = date
  · simp [hr, hperiod]
  · simp [hr]

theorem Dated.sumNet_period (h : Dated log t) (hkeeps : ∀ date, period date → Keeps log t date) :
    Tables.sumNet (periodRows period t) = serverUnits log period := by
  have hsplit := @Dated.sumNet_split log t period _ h fun _ => true
  simp only [List.filter_true] at hsplit
  rw [hsplit, serverUnits]
  refine congrArg List.sum (List.map_congr_left fun date hdate => ?_)
  exact (hkeeps date (of_decide_eq_true (List.mem_filter.mp hdate).2)).sumNet

theorem Dated.sumNet_period_of (h : Dated log t)
    (hkeeps : ∀ date, period date → Keeps log t date) (app : Int) :
    Tables.sumNet ((periodRows period t).filter fun r => r.appId = app) =
      serverUnitsOf log period app := by
  rw [h.sumNet_split, serverUnitsOf]
  refine congrArg List.sum (List.map_congr_left fun date hdate => ?_)
  exact (hkeeps date (of_decide_eq_true (List.mem_filter.mp hdate).2)).sumNet_of app

end Period

end SteamSalesTray.Sync
