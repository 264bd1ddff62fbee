import SteamSalesTray.Lib.Calendar
import SteamSalesTray.Text

/-! The dates and times of `TimeUtil`, and that the window of the last `n` days covers just these
days.

`SystemTimeToFileTime` and `FileTimeToSystemTime` are the Gregorian day count in ticks of 100 ns and
its inverse. -/

namespace SteamSalesTray.Platform

open Calendar

structure SystemTime where
  wYear : Nat
  wMonth : Nat
  wDay : Nat
  wHour : Nat
  wMinute : Nat
  wSecond : Nat
  wMilliseconds : Nat
deriving DecidableEq, Repr

namespace SystemTime

def date? (st : SystemTime) : Option Date :=
  if h : 0 < st.wMonth ∧ st.wMonth ≤ 12 ∧ 0 < st.wDay ∧
      st.wDay ≤ daysInMonth st.wYear st.wMonth then
    some ⟨st.wYear, st.wMonth, st.wDay, h.1, h.2.1, h.2.2.1, h.2.2.2⟩
  else none

def ofDate (d : Date) : SystemTime := ⟨d.year, d.month, d.day, 0, 0, 0, 0⟩

def secondOfDay (st : SystemTime) : Nat := st.wHour * 3600 + st.wMinute * 60 + st.wSecond

end SystemTime

/-! ### File times -/

/-- The first day of the file times. -/
def epoch : Date := ⟨1601, 1, 1, by decide, by decide, by decide, by decide⟩

def ticksPerSecond : Nat := 10000000

def ticksPerDay : Nat := 864000000000

/-- The time of day is one, and the year is in the range of the conversion. -/
def SystemTime.InRange (st : SystemTime) : Prop :=
  1601 ≤ st.wYear ∧ st.wYear ≤ 30827 ∧ st.wHour < 24 ∧ st.wMinute < 60 ∧ st.wSecond < 60 ∧
    st.wMilliseconds < 1000

instance (st : SystemTime) : Decidable st.InRange := inferInstanceAs (Decidable (_ ∧ _))

def systemTimeToFileTime (st : SystemTime) : Option Nat :=
  match st.date? with
  | none => none
  | some d =>
    if st.InRange then
      some ((d.dayNumber - epoch.dayNumber) * ticksPerDay + st.secondOfDay * ticksPerSecond +
        st.wMilliseconds * 10000)
    else none

def fileTimeToSystemTime (ticks : Nat) : Option SystemTime :=
  if ticks < 2 ^ 63 then
    let d := ofDayNumber (epoch.dayNumber + ticks / ticksPerDay)
    let second := ticks % ticksPerDay / ticksPerSecond
    some ⟨d.year, d.month, d.day, second / 3600, second / 60 % 60, second % 60,
      ticks % ticksPerSecond / 10000⟩
  else none

/-! ### Steam's dates -/

/-- The buffer has room for 15 characters. -/
def formatSteamDate (st : SystemTime) : Bytes :=
  (paddedDecimal 4 st.wYear ++ (ascii "/" ++ (paddedDecimal 2 st.wMonth ++ (ascii "/" ++
    paddedDecimal 2 st.wDay)))).take 15

def steamToday (pacificNow : SystemTime) : Bytes := formatSteamDate pacificNow

/-- The subtraction is one of unsigned 64-bit numbers. -/
def steamDateDaysAgo (pacificNow : SystemTime) (days : Int) : Bytes :=
  let st := { pacificNow with wHour := 0, wMinute := 0, wSecond := 0, wMilliseconds := 0 }
  match systemTimeToFileTime st with
  | none => formatSteamDate st
  | some v =>
    let v := if 0 < days then (((v : Int) - days * ticksPerDay) % 2 ^ 64).toNat else v
    match fileTimeToSystemTime v with
    | none => formatSteamDate st
    | some result => formatSteamDate result

def formatDate (d : Date) : Bytes := formatSteamDate (.ofDate d)

example : steamDateDaysAgo ⟨2024, 3, 1, 22, 15, 0, 0⟩ 1 = ascii "2024/02/29" := by decide

/-! ### The order of the texts -/

theorem day_lt_hundred (d : Date) : d.day < 10 ^ 2 := by
  have hle := d.day_le
  unfold daysInMonth at hle
  split_ifs at hle <;> omega

theorem formatDate_eq {d : Date} (h : d.year ≤ 9999) :
    formatDate d = paddedDecimal 4 d.year ++ (ascii "/" ++ (paddedDecimal 2 d.month ++
      (ascii "/" ++ paddedDecimal 2 d.day))) := by
  have hmonth := d.month_le
  refine List.take_of_length_le ?_
  simp only [SystemTime.ofDate, List.length_append, show (ascii "/").length = 1 from rfl]
  rw [length_paddedDecimal (by decide) (by omega), length_paddedDecimal (by decide) (by omega),
    length_paddedDecimal (by decide) (day_lt_hundred d)]
  decide

/-- The order of the texts is the order of the dates. -/
theorem formatDate_lt_iff {a b : Date} (ha : a.year ≤ 9999) (hb : b.year ≤ 9999) :
    formatDate a < formatDate b ↔ a.dayNumber < b.dayNumber := by
  have hma := a.month_le
  have hmb := b.month_le
  have hslash : ∀ rest rest' : Bytes, ascii "/" ++ rest < ascii "/" ++ rest' ↔ rest < rest' :=
    fun rest rest' => by rw [append_lt_append_iff rfl]; simp
  have hyear : (paddedDecimal 4 a.year).length = (paddedDecimal 4 b.year).length := by
    rw [length_paddedDecimal (by decide) (by omega), length_paddedDecimal (by decide) (by omega)]
  have hmonth : (paddedDecimal 2 a.month).length = (paddedDecimal 2 b.month).length := by
    rw [length_paddedDecimal (by decide) (by omega), length_paddedDecimal (by decide) (by omega)]
  rw [formatDate_eq ha, formatDate_eq hb, append_lt_append_iff hyear, hslash,
    append_lt_append_iff hmonth, hslash, paddedDecimal_lt_iff (by decide) (by omega) (by omega),
    paddedDecimal_lt_iff (by decide) (by omega) (by omega),
    paddedDecimal_lt_iff (by decide) (day_lt_hundred a) (day_lt_hundred b), paddedDecimal_inj,
    paddedDecimal_inj, Date.dayNumber_lt_iff]
  rfl

theorem formatDate_le_iff {a b : Date} (ha : a.year ≤ 9999) (hb : b.year ≤ 9999) :
    formatDate a ≤ formatDate b ↔ a.dayNumber ≤ b.dayNumber := by
  rw [← not_lt, formatDate_lt_iff hb ha, Nat.not_lt]

/-! ### Days ago -/

/-- The time is one of the day. -/
structure SystemTime.IsOn (st : SystemTime) (d : Date) : Prop where
  year : st.wYear = d.year
  month : st.wMonth = d.month
  day : st.wDay = d.day

theorem SystemTime.IsOn.steamToday {st : SystemTime} {d : Date} (h : st.IsOn d) :
    steamToday st = formatDate d := by
  rw [Platform.steamToday, formatDate, formatSteamDate, formatSteamDate, h.year, h.month, h.day]
  rfl

theorem date?_ofDate (d : Date) : (SystemTime.ofDate d).date? = some d :=
  dif_pos ⟨d.month_pos, d.month_le, d.day_pos, d.day_le⟩

theorem systemTimeToFileTime_ofDate {d : Date} (h : 1601 ≤ d.year) (h' : d.year ≤ 9999) :
    systemTimeToFileTime (.ofDate d) =
      some ((d.dayNumber - epoch.dayNumber) * ticksPerDay) := by
  have hrange : (SystemTime.ofDate d).InRange :=
    ⟨h, Nat.le_trans h' (by decide), Nat.succ_pos _, Nat.succ_pos _, Nat.succ_pos _, Nat.succ_pos _⟩
  simp only [systemTimeToFileTime, date?_ofDate, if_pos hrange]
  simp [SystemTime.ofDate, SystemTime.secondOfDay]

theorem fileTimeToSystemTime_days {n : Nat} (h : n * ticksPerDay < 2 ^ 63) :
    fileTimeToSystemTime (n * ticksPerDay) =
      some (.ofDate (ofDayNumber (epoch.dayNumber + n))) := by
  have hday : n * ticksPerDay / ticksPerDay = n := Nat.mul_div_cancel n (by decide)
  have htime : n * ticksPerDay % ticksPerSecond = 0 := by
    rw [show ticksPerDay = 86400 * ticksPerSecond from rfl, ← Nat.mul_assoc,
      Nat.mul_mod_left]
  rw [fileTimeToSystemTime, if_pos h, hday, htime, Nat.mul_mod_left]
  rfl

theorem dayNumber_lt {d : Date} (h : d.year ≤ 9999) : d.dayNumber < daysBeforeYear 10000 :=
  Nat.lt_of_lt_of_le d.dayNumber_lt_yearEnd (daysBeforeYear_mono (Nat.succ_le_succ h))

theorem epoch_dayNumber : epoch.dayNumber = 584754 := by decide

theorem le_dayNumber {d : Date} (h : 1602 ≤ d.year) : 584754 + 365 ≤ d.dayNumber := by
  have hyear := daysBeforeYear_mono h
  have hday : daysBeforeYear d.year ≤ d.dayNumber := by
    rw [Date.dayNumber]
    omega
  have hstart : daysBeforeYear 1602 = 585119 := by decide
  omega

/-- Some days of ticks less, as unsigned 64-bit numbers. -/
theorem ticks_sub {n k : Nat} (hk : k ≤ n) (hn : n * ticksPerDay < 2 ^ 64) :
    (if 0 < (k : Int) then
      ((((n * ticksPerDay : Nat) : Int) - k * ticksPerDay) % 2 ^ 64).toNat
    else n * ticksPerDay) = (n - k) * ticksPerDay := by
  have hcast : ((n * ticksPerDay : Nat) : Int) - k * ticksPerDay =
      (((n - k) * ticksPerDay : Nat) : Int) := by
    rw [Nat.sub_mul, Nat.cast_sub (Nat.mul_le_mul_right _ hk)]
    push_cast
    rfl
  have hless : (n - k) * ticksPerDay < 2 ^ 64 :=
    Nat.lt_of_le_of_lt (Nat.mul_le_mul_right _ (Nat.sub_le _ _)) hn
  split
  · rw [hcast, Int.emod_eq_of_lt (Int.natCast_nonneg _) (by exact_mod_cast hless),
      Int.toNat_natCast]
  · obtain rfl : k = 0 := by omega
    rfl

theorem steamDateDaysAgo_eq {st : SystemTime} {d : Date} (hst : st.IsOn d) (h : 1602 ≤ d.year)
    (h' : d.year ≤ 9999) {k : Nat} (hk : k ≤ 365) :
    steamDateDaysAgo st k = formatDate (ofDayNumber (d.dayNumber - k)) := by
  have hmidnight : { st with wHour := 0, wMinute := 0, wSecond := 0, wMilliseconds := 0 } =
      SystemTime.ofDate d := by
    rw [hst.year, hst.month, hst.day]
    rfl
  have hearly := le_dayNumber h
  have hlate := dayNumber_lt h'
  have hend : daysBeforeYear 10000 = 3652425 := by decide
  have hdays : d.dayNumber - epoch.dayNumber < 3652425 := by omega
  have hticks : (d.dayNumber - epoch.dayNumber) * ticksPerDay < 2 ^ 63 := by
    simp only [ticksPerDay]
    omega
  have hle : k ≤ d.dayNumber - epoch.dayNumber := by
    rw [epoch_dayNumber]
    omega
  have hless : (d.dayNumber - epoch.dayNumber - k) * ticksPerDay < 2 ^ 63 :=
    Nat.lt_of_le_of_lt (Nat.mul_le_mul_right _ (Nat.sub_le _ _)) hticks
  have hday : epoch.dayNumber + (d.dayNumber - epoch.dayNumber - k) = d.dayNumber - k := by
    rw [epoch_dayNumber] at hle ⊢
    omega
  simp only [steamDateDaysAgo, hmidnight, systemTimeToFileTime_ofDate (Nat.le_of_succ_le h) h',
    ticks_sub hle (Nat.lt_trans hticks (by decide)), fileTimeToSystemTime_days hless, hday]
  rfl

/-! ### The window -/

section Window

variable {st st' : SystemTime} {today : Date} {n : Nat}

theorem year_le {d : Date} (h : d.dayNumber ≤ today.dayNumber) : d.year ≤ today.year := by
  by_contra hyear
  have hbefore : today.Before d := .inl (Nat.lt_of_not_le hyear)
  exact absurd (Date.dayNumber_lt_of_before hbefore) (Nat.not_lt.mpr h)

theorem year_daysBefore (hlate : today.year ≤ 9999) (k : Nat) :
    (ofDayNumber (today.dayNumber - k)).year ≤ 9999 := by
  have hle : (ofDayNumber (today.dayNumber - k)).dayNumber ≤ today.dayNumber := by
    rw [dayNumber_ofDayNumber]
    exact Nat.sub_le _ _
  exact Nat.le_trans (year_le hle) hlate

/-- The texts of the window as a range of day numbers. -/
theorem window_iff (hst : st.IsOn today) (hst' : st'.IsOn today) (hearly : 1602 ≤ today.year)
    (hlate : today.year ≤ 9999) (hn : 1 ≤ n) (hn' : n ≤ 366) {d : Date} (hd : d.year ≤ 9999) :
    steamDateDaysAgo st (n - 1 : Nat) ≤ formatDate d ∧ formatDate d ≤ steamToday st' ↔
      today.dayNumber < d.dayNumber + n ∧ d.dayNumber ≤ today.dayNumber := by
  have hfirst := dayNumber_ofDayNumber (today.dayNumber - (n - 1))
  have hlow := le_dayNumber hearly
  rw [steamDateDaysAgo_eq hst hearly hlate (by omega), hst'.steamToday,
    formatDate_le_iff (year_daysBefore hlate _) hd, formatDate_le_iff hd hlate, hfirst]
  omega

theorem iterate_next_iff {d : Date} {k : Nat} :
    Date.next^[k] d = today ↔ d.dayNumber + k = today.dayNumber := by
  rw [← Date.dayNumber_iterate_next]
  exact Date.dayNumber_injective.eq_iff.symm

end Window

/-- Whatever the times of day: between the texts of `n - 1` days ago and of today lie just the texts
of the `n` days that end today, each of which is a date, and texts are in the order of their
dates. -/
theorem window_exact {st st' : SystemTime} {today : Date} (hst : st.IsOn today)
    (hst' : st'.IsOn today) (hearly : 1602 ≤ today.year) (hlate : today.year ≤ 9999) {n : Nat}
    (hn : 1 ≤ n) (hn' : n ≤ 366) :
    (∀ d : Date, d.year ≤ 9999 →
      (steamDateDaysAgo st (n - 1 : Nat) ≤ formatDate d ∧ formatDate d ≤ steamToday st' ↔
        ∃ k < n, Date.next^[k] d = today)) ∧
      (∀ k < n, ∃ d : Date, d.year ≤ 9999 ∧ Date.next^[k] d = today) ∧
      ∀ a b : Date, a.year ≤ 9999 → b.year ≤ 9999 →
        (formatDate a < formatDate b ↔ a.Before b) := by
  refine ⟨fun d hd => ?_, fun k hk => ?_, fun a b ha hb => ?_⟩
  · rw [window_iff hst hst' hearly hlate hn hn' hd]
    simp only [iterate_next_iff]
    constructor
    · intro ⟨hfirst, hlast⟩
      exact ⟨today.dayNumber - d.dayNumber, by omega, by omega⟩
    · intro ⟨k, hk, hday⟩
      omega
  · have hlow := le_dayNumber hearly
    have hday := dayNumber_ofDayNumber (today.dayNumber - k)
    exact ⟨ofDayNumber (today.dayNumber - k), year_daysBefore hlate k,
      iterate_next_iff.mpr (by omega)⟩
  · rw [formatDate_lt_iff ha hb, Date.dayNumber_lt_iff]

/-- The leap day is in the week that ends on the day after it. -/
theorem window_exact_leapDay :
    steamDateDaysAgo ⟨2024, 3, 1, 22, 15, 0, 0⟩ 6 ≤
        formatDate ⟨2024, 2, 29, by decide, by decide, by decide, by decide⟩ ∧
      formatDate ⟨2024, 2, 29, by decide, by decide, by decide, by decide⟩ ≤
        steamToday ⟨2024, 3, 1, 23, 59, 59, 999⟩ := by
  have hweek := @window_exact ⟨2024, 3, 1, 22, 15, 0, 0⟩ ⟨2024, 3, 1, 23, 59, 59, 999⟩
    ⟨2024, 3, 1, by decide, by decide, by decide, by decide⟩ ⟨rfl, rfl, rfl⟩ ⟨rfl, rfl, rfl⟩
    (by decide) (by decide) 7 (by decide) (by decide)
  exact (hweek.1 _ (by decide)).mpr ⟨1, by decide, by decide⟩

end SteamSalesTray.Platform
