import Mathlib.Data.Nat.Find
import Mathlib.Logic.Function.Iterate
import Mathlib.Order.Monotone.Basic

/-! The Gregorian calendar, from the year 0: dates, the day after a date, and the number of days
before a date, which is a bijection that keeps the order. -/

namespace Calendar

def IsLeap (year : Nat) : Prop := year % 4 = 0 ∧ (year % 100 ≠ 0 ∨ year % 400 = 0)

instance : DecidablePred IsLeap := fun year =>
  inferInstanceAs (Decidable (year % 4 = 0 ∧ (year % 100 ≠ 0 ∨ year % 400 = 0)))

def daysInYear (year : Nat) : Nat := if IsLeap year then 366 else 365

def daysInMonth (year month : Nat) : Nat :=
  if month = 2 then if IsLeap year then 29 else 28
  else if month = 4 ∨ month = 6 ∨ month = 9 ∨ month = 11 then 30
  else 31

theorem daysInMonth_pos (year month : Nat) : 0 < daysInMonth year month := by
  unfold daysInMonth
  split_ifs <;> omega

/-- The days of the years before `year`. -/
def daysBeforeYear (year : Nat) : Nat :=
  365 * year + (year + 3) / 4 - (year + 99) / 100 + (year + 399) / 400

theorem daysBeforeYear_succ (year : Nat) :
    daysBeforeYear (year + 1) = daysBeforeYear year + daysInYear year := by
  have hfour : (year + 1 + 3) / 4 = (year + 3) / 4 + if year % 4 = 0 then 1 else 0 := by
    split <;> omega
  have hhundred : (year + 1 + 99) / 100 = (year + 99) / 100 +
      if year % 100 = 0 then 1 else 0 := by
    split <;> omega
  have hfourHundred : (year + 1 + 399) / 400 = (year + 399) / 400 +
      if year % 400 = 0 then 1 else 0 := by
    split <;> omega
  have hle : (year + 99) / 100 ≤ (year + 3) / 4 := by omega
  rw [daysBeforeYear, daysBeforeYear, daysInYear, hfour, hhundred, hfourHundred]
  have hleap : (if IsLeap year then 366 else 365) + (if year % 100 = 0 then 1 else 0) =
      365 + (if year % 4 = 0 then 1 else 0) + if year % 400 = 0 then 1 else 0 := by
    by_cases h4 : year % 4 = 0
    · by_cases h100 : year % 100 = 0
      · simp only [IsLeap, h4, h100]
        split <;> simp_all
      · have h400 : year % 400 ≠ 0 := by omega
        simp [IsLeap, h4, h100, h400]
    · have h100 : year % 100 ≠ 0 := by omega
      have h400 : year % 400 ≠ 0 := by omega
      simp [IsLeap, h4, h100, h400]
  omega

theorem le_daysBeforeYear (year : Nat) : 365 * year ≤ daysBeforeYear year := by
  unfold daysBeforeYear
  omega

theorem daysBeforeYear_mono : Monotone daysBeforeYear := by
  refine monotone_nat_of_le_succ fun year => ?_
  rw [daysBeforeYear_succ]
  omega

/-- The days of the first months of a year. -/
def daysThrough (year : Nat) : Nat → Nat
  | 0 => 0
  | month + 1 => daysThrough year month + daysInMonth year (month + 1)

theorem daysThrough_twelve (year : Nat) : daysThrough year 12 = daysInYear year := by
  simp only [daysThrough, daysInMonth, daysInYear]
  by_cases h : IsLeap year
  · simp [h]
  · simp [h]

theorem daysThrough_mono (year : Nat) : Monotone (daysThrough year) :=
  monotone_nat_of_le_succ fun _ => Nat.le_add_right _ _

@[ext] structure Date where
  year : Nat
  month : Nat
  day : Nat
  month_pos : 0 < month
  month_le : month ≤ 12
  day_pos : 0 < day
  day_le : day ≤ daysInMonth year month
deriving DecidableEq

namespace Date

/-- The day after. -/
def next (d : Date) : Date :=
  if h : d.day < daysInMonth d.year d.month then
    { d with day := d.day + 1, day_pos := by omega, day_le := h }
  else if h : d.month < 12 then
    ⟨d.year, d.month + 1, 1, by omega, h, by omega, daysInMonth_pos _ _⟩
  else ⟨d.year + 1, 1, 1, by omega, by omega, by omega, daysInMonth_pos _ _⟩

/-- The number of days before. -/
def dayNumber (d : Date) : Nat :=
  daysBeforeYear d.year + daysThrough d.year (d.month - 1) + (d.day - 1)

theorem daysThrough_month (d : Date) :
    daysThrough d.year d.month = daysThrough d.year (d.month - 1) + daysInMonth d.year d.month := by
  obtain ⟨m, hm⟩ : ∃ m, d.month = m + 1 := ⟨d.month - 1, by have := d.month_pos; omega⟩
  rw [hm]
  rfl

theorem dayNumber_next (d : Date) : d.next.dayNumber = d.dayNumber + 1 := by
  have hmonth := d.daysThrough_month
  have hday := d.day_pos
  have hlast := d.day_le
  have hpos := d.month_pos
  unfold next
  split
  · simp only [dayNumber]
    omega
  · split
    · simp only [dayNumber, Nat.add_sub_cancel]
      omega
    · have htwelve : d.month = 12 := by have := d.month_le; omega
      rw [htwelve, daysThrough_twelve] at hmonth
      have hstart : daysThrough (d.year + 1) (1 - 1) = 0 := rfl
      simp only [dayNumber, daysBeforeYear_succ, hstart, htwelve] at *
      omega

theorem dayNumber_iterate_next (k : Nat) (d : Date) :
    (next^[k] d).dayNumber = d.dayNumber + k := by
  induction k with
  | zero => rfl
  | succ k ih => rw [Function.iterate_succ_apply', dayNumber_next, ih, Nat.add_assoc]

/-- The order of years, months and days. -/
def Before (a b : Date) : Prop :=
  a.year < b.year ∨ a.year = b.year ∧ (a.month < b.month ∨ a.month = b.month ∧ a.day < b.day)

theorem dayNumber_lt_yearEnd (d : Date) : d.dayNumber < daysBeforeYear (d.year + 1) := by
  have hmonth := d.daysThrough_month
  have hyear := daysThrough_mono d.year d.month_le
  rw [daysThrough_twelve] at hyear
  have hday := d.day_le
  have hpos := d.day_pos
  rw [daysBeforeYear_succ, dayNumber]
  omega

theorem dayNumber_lt_of_before {a b : Date} (h : a.Before b) : a.dayNumber < b.dayNumber := by
  rcases h with hyear | ⟨hyear, hmonth | ⟨hmonth, hday⟩⟩
  · have hend := a.dayNumber_lt_yearEnd
    have hstart := daysBeforeYear_mono (show a.year + 1 ≤ b.year from hyear)
    have : daysBeforeYear b.year ≤ b.dayNumber := by
      rw [dayNumber]
      omega
    omega
  · have hend := a.daysThrough_month
    have hstart := daysThrough_mono b.year (show a.month ≤ b.month - 1 by omega)
    have hday := a.day_le
    have hpos := a.day_pos
    rw [dayNumber, dayNumber]
    rw [hyear] at *
    omega
  · have hpos := a.day_pos
    rw [dayNumber, dayNumber, hyear, hmonth]
    omega

theorem before_trichotomy (a b : Date) : a.Before b ∨ a = b ∨ b.Before a := by
  rw [Date.ext_iff]
  unfold Before
  omega

theorem dayNumber_lt_iff {a b : Date} : a.dayNumber < b.dayNumber ↔ a.Before b := by
  refine ⟨fun h => ?_, dayNumber_lt_of_before⟩
  rcases a.before_trichotomy b with hab | rfl | hba
  · exact hab
  · exact absurd h (Nat.lt_irrefl _)
  · exact absurd h (Nat.lt_asymm (dayNumber_lt_of_before hba))

theorem dayNumber_injective : Function.Injective dayNumber := by
  intro a b h
  rcases a.before_trichotomy b with hab | hab | hba
  · exact absurd h (Nat.ne_of_lt (dayNumber_lt_of_before hab))
  · exact hab
  · exact absurd h.symm (Nat.ne_of_lt (dayNumber_lt_of_before hba))

end Date

/-! ### The date of a day number -/

/-- The last point up to `k` where `f` is at most `n`. -/
theorem findGreatest_between {f : Nat → Nat} {n k : Nat} (hzero : f 0 ≤ n) (hk : n < f (k + 1)) :
    f (Nat.findGreatest (f · ≤ n) k) ≤ n ∧ n < f (Nat.findGreatest (f · ≤ n) k + 1) := by
  refine ⟨Nat.findGreatest_spec (P := (f · ≤ n)) (Nat.zero_le k) hzero, ?_⟩
  rcases (Nat.findGreatest_le (P := (f · ≤ n)) k).lt_or_eq with hlt | heq
  · exact Nat.lt_of_not_le (Nat.findGreatest_is_greatest (P := (f · ≤ n)) (Nat.lt_succ_self _) hlt)
  · rw [heq]
    exact hk

def yearOf (n : Nat) : Nat := Nat.findGreatest (daysBeforeYear · ≤ n) (n / 365)

theorem yearOf_spec (n : Nat) :
    daysBeforeYear (yearOf n) ≤ n ∧ n < daysBeforeYear (yearOf n + 1) := by
  refine findGreatest_between (Nat.zero_le n) ?_
  have := le_daysBeforeYear (n / 365 + 1)
  omega

/-- The months before the one of a day, counted from the start of its year. -/
def monthsBefore (year dayOfYear : Nat) : Nat :=
  Nat.findGreatest (daysThrough year · ≤ dayOfYear) 11

theorem monthsBefore_spec {year dayOfYear : Nat} (h : dayOfYear < daysInYear year) :
    daysThrough year (monthsBefore year dayOfYear) ≤ dayOfYear ∧
      dayOfYear < daysThrough year (monthsBefore year dayOfYear + 1) :=
  findGreatest_between (Nat.zero_le _) (by rwa [daysThrough_twelve])

theorem dayOfYear_lt (n : Nat) : n - daysBeforeYear (yearOf n) < daysInYear (yearOf n) := by
  have h := yearOf_spec n
  rw [daysBeforeYear_succ] at h
  omega

def ofDayNumber (n : Nat) : Date where
  year := yearOf n
  month := monthsBefore (yearOf n) (n - daysBeforeYear (yearOf n)) + 1
  day := n - daysBeforeYear (yearOf n) -
    daysThrough (yearOf n) (monthsBefore (yearOf n) (n - daysBeforeYear (yearOf n))) + 1
  month_pos := Nat.succ_pos _
  month_le := Nat.succ_le_succ (Nat.findGreatest_le _)
  day_pos := Nat.succ_pos _
  day_le := by
    have h := monthsBefore_spec (dayOfYear_lt n)
    rw [daysThrough] at h
    omega

theorem dayNumber_ofDayNumber (n : Nat) : (ofDayNumber n).dayNumber = n := by
  have hyear := (yearOf_spec n).1
  have hmonth := (monthsBefore_spec (dayOfYear_lt n)).1
  simp only [Date.dayNumber, ofDayNumber, Nat.add_sub_cancel]
  omega

theorem ofDayNumber_dayNumber (d : Date) : ofDayNumber d.dayNumber = d :=
  Date.dayNumber_injective (dayNumber_ofDayNumber d.dayNumber)

example : ofDayNumber 730544 = ⟨2000, 2, 29, by decide, by decide, by decide, by decide⟩ := by
  decide

end Calendar
