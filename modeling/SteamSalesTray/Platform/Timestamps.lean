import SteamSalesTray.Platform.TimeUtil

/-! The UTC timestamps of `TimeUtil`: how they are written, how they are read back, and that the age
of one is the time since then in whole seconds. -/

namespace SteamSalesTray.Platform

open Calendar

/-- `%04u-%02u-%02uT%02u:%02u:%02uZ`. -/
def formatIso8601 (st : SystemTime) : Bytes :=
  paddedDecimal 4 st.wYear ++ 45 :: (paddedDecimal 2 st.wMonth ++ 45 ::
    (paddedDecimal 2 st.wDay ++ 84 :: (paddedDecimal 2 st.wHour ++ 58 ::
      (paddedDecimal 2 st.wMinute ++ 58 :: (paddedDecimal 2 st.wSecond ++ ascii "Z")))))

/-- The buffer has room for 31 characters. -/
def utcNowIso8601 (utcNow : SystemTime) : Bytes := (formatIso8601 utcNow).take 31

example : utcNowIso8601 ⟨2026, 7, 20, 20, 15, 3, 250⟩ = ascii "2026-07-20T20:15:03Z" := by decide

/-! ### Reading a timestamp -/

def isSpace (c : UInt8) : Bool := c = 32 ∨ (9 ≤ c ∧ c ≤ 13)

def isDigit (c : UInt8) : Bool := 48 ≤ c ∧ c ≤ 57

/-- What `%u` reads: blanks, a sign, and digits; a number that is too large keeps its low 32
bits. -/
def scanUnsigned (text : Bytes) : Option (Nat × Bytes) :=
  let text := text.dropWhile isSpace
  let negative := text.head? = some 45
  let text := if text.head? = some 43 ∨ negative then text.tail else text
  let digits := text.takeWhile isDigit
  if digits.isEmpty then none
  else
    let value := number digits % 2 ^ 32
    some (if negative then (2 ^ 32 - value) % 2 ^ 32 else value, text.dropWhile isDigit)

def scanChar (c : UInt8) (text : Bytes) : Option Bytes :=
  if text.head? = some c then some text.tail else none

/-- `sscanf` with `%u-%u-%uT%u:%u:%uZ`, where the six numbers count and the `Z` does not; each
number is cast to a `WORD`.  The text is passed as a C string. -/
def scanIso8601 (iso8601 : Bytes) : Option SystemTime := do
  let (y, text) ← scanUnsigned (iso8601.takeWhile (· ≠ 0))
  let text ← scanChar 45 text
  let (mo, text) ← scanUnsigned text
  let text ← scanChar 45 text
  let (d, text) ← scanUnsigned text
  let text ← scanChar 84 text
  let (h, text) ← scanUnsigned text
  let text ← scanChar 58 text
  let (mi, text) ← scanUnsigned text
  let text ← scanChar 58 text
  let (s, _) ← scanUnsigned text
  some ⟨y % 2 ^ 16, mo % 2 ^ 16, d % 2 ^ 16, h % 2 ^ 16, mi % 2 ^ 16, s % 2 ^ 16, 0⟩

def kVeryOld : Int := 1000000000

/-- A timestamp in the future counts as fresh. -/
def secondsSinceUtc (utcNow : SystemTime) (iso8601 : Bytes) : Int :=
  match scanIso8601 iso8601 with
  | none => kVeryOld
  | some st =>
    match systemTimeToFileTime st, systemTimeToFileTime utcNow with
    | some ticks, some cur => if cur < ticks then 0 else ((cur - ticks) / ticksPerSecond : Nat)
    | _, _ => kVeryOld

/-! ### The round trip -/

/-- The time is one of a day in the range of the file times, as `GetSystemTime` gives it. -/
structure SystemTime.IsTime (st : SystemTime) : Prop where
  date : st.date?.isSome = true
  range : st.InRange

instance (st : SystemTime) : Decidable st.IsTime :=
  decidable_of_iff (st.date?.isSome = true ∧ st.InRange) ⟨fun h => ⟨h.1, h.2⟩, fun h => ⟨h.1, h.2⟩⟩

/-- Without the milliseconds. -/
def SystemTime.second (st : SystemTime) : SystemTime := { st with wMilliseconds := 0 }

theorem paddedDecimal_ne_nil (width n : Nat) : paddedDecimal width n ≠ [] := by
  simp [paddedDecimal, Decimal.padded, Decimal.digits_ne_nil]

theorem isDigit_paddedDecimal {width n : Nat} {c : UInt8} (h : c ∈ paddedDecimal width n) :
    isDigit c = true := decide_eq_true (paddedDecimal_isDigit h)

/-- A number that is followed by a character that is no digit is read back. -/
theorem scanUnsigned_paddedDecimal (width : Nat) {n : Nat} (hn : n < 2 ^ 32) {c : UInt8}
    (hc : isDigit c = false) (rest : Bytes) :
    scanUnsigned (paddedDecimal width n ++ c :: rest) = some (n, c :: rest) := by
  obtain ⟨b, digits, hdigits⟩ := List.exists_cons_of_ne_nil (paddedDecimal_ne_nil width n)
  have hall : ∀ d ∈ paddedDecimal width n, isDigit d = true := fun _ => isDigit_paddedDecimal
  have hb : isDigit b = true := hall b (hdigits ▸ List.mem_cons_self)
  have hspace : ¬isSpace b = true := by
    simp only [isDigit, decide_eq_true_eq, UInt8.le_iff_toNat_le, UInt8.reduceToNat] at hb
    simp only [isSpace, decide_eq_true_eq, UInt8.le_iff_toNat_le, UInt8.reduceToNat,
      ← UInt8.toNat_inj]
    omega
  have hplus : b ≠ 43 := by
    rintro rfl
    cases hb
  have hminus : b ≠ 45 := by
    rintro rfl
    cases hb
  have hdrop : (paddedDecimal width n ++ c :: rest).dropWhile isSpace =
      paddedDecimal width n ++ c :: rest := by
    rw [hdigits, List.cons_append, List.dropWhile_cons_of_neg hspace]
  have hhead : (paddedDecimal width n ++ c :: rest).head? = some b := by rw [hdigits]; rfl
  have htake : (paddedDecimal width n ++ c :: rest).takeWhile isDigit = paddedDecimal width n := by
    rw [List.takeWhile_append_of_pos hall, List.takeWhile_cons_of_neg (by simp [hc]),
      List.append_nil]
  have hafter : (paddedDecimal width n ++ c :: rest).dropWhile isDigit = c :: rest := by
    rw [List.dropWhile_append_of_pos hall, List.dropWhile_cons_of_neg (by simp [hc])]
  simp only [scanUnsigned, hdrop, hhead, Option.some.injEq, hplus, hminus, htake, hafter,
    or_self, if_false, number_paddedDecimal, Nat.mod_eq_of_lt hn]
  rw [if_neg (by simp [paddedDecimal_ne_nil])]

theorem scanChar_cons (c : UInt8) (text : Bytes) : scanChar c (c :: text) = some text :=
  if_pos rfl

/-- The fields of a time. -/
theorem SystemTime.IsTime.bounds {st : SystemTime} (h : st.IsTime) :
    st.wYear ≤ 30827 ∧ st.wMonth ≤ 12 ∧ st.wDay ≤ 31 ∧ st.wHour < 24 ∧ st.wMinute < 60 ∧
      st.wSecond < 60 := by
  obtain ⟨d, hd⟩ := Option.isSome_iff_exists.mp h.date
  unfold date? at hd
  split at hd
  · rename_i hdate
    have hday := hdate.2.2.2
    have hmonth : daysInMonth st.wYear st.wMonth ≤ 31 := by
      unfold daysInMonth
      split_ifs <;> decide
    obtain ⟨-, hyear, hhour, hminute, hsecond, -⟩ := h.range
    exact ⟨hyear, hdate.2.1, Nat.le_trans hday hmonth, hhour, hminute, hsecond⟩
  · cases hd

theorem length_year_le {n : Nat} (hn : n ≤ 30827) : (paddedDecimal 4 n).length ≤ 5 := by
  have hdigits := Decimal.length_digits_le (n := n) (w := 5) (by decide) (by omega)
  rw [paddedDecimal, List.length_map, Decimal.padded, List.length_append, List.length_replicate]
  omega

theorem utcNowIso8601_eq {st : SystemTime} (h : st.IsTime) :
    utcNowIso8601 st = formatIso8601 st := by
  obtain ⟨hyear, hmonth, hday, hhour, hminute, hsecond⟩ := h.bounds
  have hfour := length_year_le hyear
  have htwo : ∀ {n : Nat}, n < 10 ^ 2 → (paddedDecimal 2 n).length = 2 :=
    length_paddedDecimal (by decide)
  refine List.take_of_length_le ?_
  simp only [formatIso8601, List.length_append, List.length_cons,
    htwo (Nat.lt_of_le_of_lt hmonth (by decide)), htwo (Nat.lt_of_le_of_lt hday (by decide)),
    htwo (Nat.lt_trans hhour (by decide)), htwo (Nat.lt_trans hminute (by decide)),
    htwo (Nat.lt_trans hsecond (by decide)),
    show (ascii "Z").length = 1 from rfl]
  omega

theorem formatIso8601_ne_zero (st : SystemTime) : ∀ c ∈ formatIso8601 st, c ≠ 0 := by
  have hdigit : ∀ {width n : Nat} {c : UInt8}, c ∈ paddedDecimal width n → c ≠ 0 := by
    rintro width n _ hc rfl
    cases isDigit_paddedDecimal hc
  intro c hc
  simp only [formatIso8601, List.mem_append, List.mem_cons] at hc
  rcases hc with hc | rfl | hc | rfl | hc | rfl | hc | rfl | hc | rfl | hc | hc
  all_goals first | exact hdigit hc | decide | skip
  obtain rfl : c = 90 := List.mem_singleton.mp hc
  decide

/-- What is written is read back, to the second. -/
theorem scanIso8601_utcNow {st : SystemTime} (h : st.IsTime) :
    scanIso8601 (utcNowIso8601 st) = some st.second := by
  obtain ⟨hyear, hmonth, hday, hhour, hminute, hsecond⟩ := h.bounds
  have htext : (utcNowIso8601 st).takeWhile (· ≠ 0) = formatIso8601 st := by
    rw [utcNowIso8601_eq h]
    exact List.takeWhile_eq_self_iff.mpr fun c hc => decide_eq_true (formatIso8601_ne_zero st c hc)
  have hyear' := scanUnsigned_paddedDecimal 4 (n := st.wYear) (by omega) (c := 45) (by decide)
  have hmonth' := scanUnsigned_paddedDecimal 2 (n := st.wMonth) (by omega) (c := 45) (by decide)
  have hday' := scanUnsigned_paddedDecimal 2 (n := st.wDay) (by omega) (c := 84) (by decide)
  have hhour' := scanUnsigned_paddedDecimal 2 (n := st.wHour) (by omega) (c := 58) (by decide)
  have hminute' := scanUnsigned_paddedDecimal 2 (n := st.wMinute) (by omega) (c := 58) (by decide)
  have hsecond' := scanUnsigned_paddedDecimal 2 (n := st.wSecond) (by omega) (c := 90) (by decide)
  unfold scanIso8601
  rw [htext, formatIso8601, hyear', Option.bind_eq_bind, Option.bind_some]
  simp only [hmonth', hday', hhour', hminute', show ascii "Z" = [90] from rfl, hsecond',
    scanChar_cons, Option.bind_eq_bind, Option.bind_some]
  rw [Nat.mod_eq_of_lt (by omega), Nat.mod_eq_of_lt (by omega), Nat.mod_eq_of_lt (by omega),
    Nat.mod_eq_of_lt (by omega), Nat.mod_eq_of_lt (by omega), Nat.mod_eq_of_lt (by omega)]
  rfl

/-! ### The age of a timestamp -/

def fileTime (st : SystemTime) : Nat := (systemTimeToFileTime st).getD 0

theorem SystemTime.IsTime.second {st : SystemTime} (h : st.IsTime) : st.second.IsTime := by
  obtain ⟨hfirst, hyear, hhour, hminute, hsecond, -⟩ := h.range
  exact ⟨h.date, hfirst, hyear, hhour, hminute, hsecond, Nat.succ_pos _⟩

theorem SystemTime.IsTime.fileTime {st : SystemTime} (h : st.IsTime) :
    systemTimeToFileTime st = some (fileTime st) := by
  obtain ⟨d, hd⟩ := Option.isSome_iff_exists.mp h.date
  simp only [Platform.fileTime, systemTimeToFileTime, hd, if_pos h.range, Option.getD_some]

/-- The age of a timestamp is the time since its second, in whole seconds. -/
theorem secondsSinceUtc_utcNow {now st : SystemTime} (hnow : now.IsTime) (hst : st.IsTime) :
    secondsSinceUtc now (utcNowIso8601 st) =
      ((fileTime now - fileTime st.second) / ticksPerSecond : Nat) := by
  simp only [secondsSinceUtc, scanIso8601_utcNow hst, hst.second.fileTime, hnow.fileTime]
  split
  · rename_i hfuture
    rw [Nat.sub_eq_zero_of_le (Nat.le_of_lt hfuture), Nat.zero_div]
    rfl
  · rfl

/-- The text is one that `UtcNowIso8601` gives at some time. -/
def IsTimestamp (text : Bytes) : Prop := ∃ st : SystemTime, st.IsTime ∧ utcNowIso8601 st = text

theorem isTimestamp_iff (text : Bytes) :
    (scanIso8601 text).any (fun st => st.IsTime ∧ utcNowIso8601 st = text) = true ↔
      IsTimestamp text := by
  constructor
  · intro h
    obtain ⟨st, -, hst⟩ := (Option.any_eq_true _ _).mp h
    exact ⟨st, of_decide_eq_true hst⟩
  · rintro ⟨st, hst, rfl⟩
    rw [scanIso8601_utcNow hst]
    exact decide_eq_true ⟨hst.second, rfl⟩

instance (text : Bytes) : Decidable (IsTimestamp text) := decidable_of_iff _ (isTimestamp_iff text)

end SteamSalesTray.Platform
