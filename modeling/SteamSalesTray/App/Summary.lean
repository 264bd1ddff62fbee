import SteamSalesTray.Platform.Thousands
import SteamSalesTray.Platform.TimeUtil
import SteamSalesTray.Storage.Calls

/-! `App::ComputeSummary`: the totals in the tray menu, and that those of a week and of a month are
the sums over the days of it. -/

namespace SteamSalesTray.App

open Calendar Grouping Platform Storage

/-- The texts of the tray menu, a dash where the database is not open. -/
structure SummaryTotals where
  today : Wide
  yesterday : Wide
  week : Wide
  month : Wide
  lifetime : Wide
  showLifetime : Bool
deriving DecidableEq, Repr

def SummaryTotals.initial : SummaryTotals :=
  ⟨wide "-", wide "-", wide "-", wide "-", wide "-", true⟩

def formatCount (value : Int) : Wide := formatThousands value

/-- `now i` is the time that the `i`th call of `SteamToday` or `SteamDateDaysAgo` gets, and
`limit i` says how many rows the `i`th read gets. -/
def computeSummary (dbOpen : Bool) (db : Database) (hideLifetime : Bool) (now : Nat → SystemTime)
    (limit : Nat → Option Nat) : SummaryTotals :=
  if ¬dbOpen then .initial
  else
    let today := steamToday (now 0)
    { today := formatCount (db.sumForDate (limit 0) today)
      yesterday := formatCount (db.sumForDate (limit 1) (steamDateDaysAgo (now 1) 1))
      week := formatCount (db.sumForRange (limit 2) (steamDateDaysAgo (now 2) 6) today)
      month := formatCount (db.sumForRange (limit 3) (steamDateDaysAgo (now 3) 29) today)
      showLifetime := !hideLifetime
      lifetime := if hideLifetime then SummaryTotals.initial.lifetime
                  else formatCount (db.sumLifetime (limit 4)) }

section Window

variable {st st' : SystemTime} {today : Date} {n : Nat}

/-- The text of the day `k` days before. -/
def dayText (today : Date) (k : Nat) : Bytes := formatDate (ofDayNumber (today.dayNumber - k))

theorem dayText_nodup (hearly : 1602 ≤ today.year) (hlate : today.year ≤ 9999) (hn' : n ≤ 366) :
    ((List.range n).map (dayText today)).Nodup := by
  have hlow := le_dayNumber hearly
  have hyear := year_daysBefore hlate
  refine List.Nodup.map_on (fun k hk k' hk' htext => ?_) List.nodup_range
  have hle := (formatDate_le_iff (hyear k) (hyear k')).mp (le_of_eq htext)
  have hge := (formatDate_le_iff (hyear k') (hyear k)).mp (ge_of_eq htext)
  rw [dayNumber_ofDayNumber, dayNumber_ofDayNumber] at hle hge
  rw [List.mem_range] at hk hk'
  omega

/-- The sum over the window is the sum over its days. -/
theorem sumForRange_window (hst : st.IsOn today) (hst' : st'.IsOn today)
    (hearly : 1602 ≤ today.year) (hlate : today.year ≤ 9999) (hn : 1 ≤ n) (hn' : n ≤ 366)
    {t : Tables} (ht : ∀ r ∈ t.daily, ∃ d : Date, d.year ≤ 9999 ∧ r.financialDate = formatDate d) :
    t.sumForRange (steamDateDaysAgo st (n - 1 : Nat)) (steamToday st') =
      ((List.range n).map fun k => t.sumForDate (dayText today k)).sum := by
  have hwindow := fun d hd => window_iff hst hst' hearly hlate hn hn' (d := d) hd
  have hlow := le_dayNumber hearly
  have hfib := sum_fibers (dayText_nodup hearly hlate hn') DailySales.financialDate
    DailySales.netUnitsSold (l := t.rangeRows (steamDateDaysAgo st (n - 1 : Nat)) (steamToday st'))
    fun r hr => by
      obtain ⟨hmem, hin⟩ := List.mem_filter.mp hr
      obtain ⟨d, hd, hdate⟩ := ht r hmem
      obtain ⟨hfirst, hlast⟩ := (hwindow d hd).mp (hdate ▸ of_decide_eq_true hin)
      refine List.mem_map.mpr ⟨today.dayNumber - d.dayNumber, List.mem_range.mpr (by omega), ?_⟩
      rw [dayText, Nat.sub_sub_self hlast, ofDayNumber_dayNumber, hdate]
  rw [Tables.sumForRange, Tables.sumNet, ← hfib, List.map_map]
  congr 1
  refine List.map_congr_left fun k hk => ?_
  have hk' := List.mem_range.mp hk
  have hday := dayNumber_ofDayNumber (today.dayNumber - k)
  have hin : steamDateDaysAgo st (n - 1 : Nat) ≤ dayText today k ∧
      dayText today k ≤ steamToday st' := (hwindow _ (year_daysBefore hlate k)).mpr (by omega)
  rw [Function.comp_apply, t.rangeRows_filter hin]
  rfl

end Window

/-- If all times are of one day and no read fails, the totals are the sums over the last days. -/
theorem computeSummary_days {db : Database} (hopen : db.isOpen = true) (hideLifetime : Bool)
    {now : Nat → SystemTime} {today : Date} (hnow : ∀ i, (now i).IsOn today)
    (hearly : 1602 ≤ today.year) (hlate : today.year ≤ 9999)
    (hdates : ∀ r ∈ db.conn.visible.daily, ∃ d : Date, d.year ≤ 9999 ∧
      r.financialDate = formatDate d) :
    let units := fun k => db.conn.visible.sumForDate (dayText today k)
    let totals := computeSummary true db hideLifetime now fun _ => none
    totals.today = formatCount (units 0) ∧ totals.yesterday = formatCount (units 1) ∧
      totals.week = formatCount ((List.range 7).map units).sum ∧
      totals.month = formatCount ((List.range 30).map units).sum := by
  have htoday : steamToday (now 0) = dayText today 0 := by
    rw [(hnow 0).steamToday, dayText, Nat.sub_zero, ofDayNumber_dayNumber]
  have hyesterday : steamDateDaysAgo (now 1) 1 = dayText today 1 :=
    steamDateDaysAgo_eq (hnow 1) hearly hlate (k := 1) (by decide)
  have hweek := sumForRange_window (hnow 2) (hnow 0) hearly hlate (n := 7) (by decide) (by decide)
    hdates
  have hmonth := sumForRange_window (hnow 3) (hnow 0) hearly hlate (n := 30) (by decide)
    (by decide) hdates
  simp only [computeSummary, Database.sumForDate, Database.sumForRange, runScalarSum_eq hopen]
  refine ⟨?_, ?_, ?_, ?_⟩
  · rw [if_neg (by simp), htoday]
  · rw [if_neg (by simp), hyesterday]
  · rw [if_neg (by simp), ← hweek]
    rfl
  · rw [if_neg (by simp), ← hmonth]
    rfl

end SteamSalesTray.App
