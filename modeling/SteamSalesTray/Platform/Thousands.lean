import SteamSalesTray.Lib.Separated
import SteamSalesTray.Platform.StringUtil

/-! The numbers that the user sees: what `FormatThousands` makes of every 64-bit value. -/

namespace SteamSalesTray.Platform

def comma : UInt16 := 44

/-- `std::to_wstring` of a signed number. -/
def wideDecimal (value : Int) : Wide := (signedDecimal value).map fun b => UInt16.ofNat b.toNat

/-! ### The magnitude -/

/-- The magnitude as the machine computes it. -/
def magnitude (value : Int64) : UInt64 :=
  if value < 0 then (-(value + 1)).toUInt64 + 1 else value.toUInt64

theorem toInt_succ {value : Int64} (h : value < 0) : (value + 1).toInt = value.toInt + 1 := by
  have hneg : value.toInt < 0 := Int64.lt_iff_toInt_lt.mp h
  have hlow := value.le_toInt
  rw [Int64.toInt_add, Int64.toInt_one]
  exact Int.bmod_eq_of_le (by omega) (by omega)

theorem toInt_neg_succ {value : Int64} (h : value < 0) :
    (-(value + 1)).toInt = -(value.toInt + 1) := by
  have hneg : value.toInt < 0 := Int64.lt_iff_toInt_lt.mp h
  have hlow := value.le_toInt
  rw [Int64.toInt_neg, toInt_succ h]
  exact Int.bmod_eq_of_le (by omega) (by omega)

theorem toNat_toUInt64 {value : Int64} (h : 0 ≤ value.toInt) :
    value.toUInt64.toNat = value.toInt.toNat :=
  Int64.toNat_toUInt64_of_le (Int64.le_iff_toInt_le.mpr h)

/-- No step of the computation leaves its type, the count of the digits included. -/
structure NoOverflow (value : Int64) : Prop where
  succ : value < 0 → (value + 1).toInt = value.toInt + 1
  neg : value < 0 → (-(value + 1)).toInt = -(value + 1).toInt
  unsigned : value < 0 → ((-(value + 1)).toUInt64.toNat : Int) = (-(value + 1)).toInt
  add : value < 0 → ((-(value + 1)).toUInt64 + 1).toNat = (-(value + 1)).toUInt64.toNat + 1
  nonneg : ¬value < 0 → (value.toUInt64.toNat : Int) = value.toInt
  count : (decimal (magnitude value).toNat).length < 2 ^ 31

theorem noOverflow (value : Int64) : NoOverflow value := by
  have hlow := value.le_toInt
  have hunsigned : value < 0 →
      ((-(value + 1)).toUInt64.toNat : Int) = (-(value + 1)).toInt := by
    intro h
    have hneg : value.toInt < 0 := Int64.lt_iff_toInt_lt.mp h
    have hvalue := toInt_neg_succ h
    rw [toNat_toUInt64 (by omega)]
    omega
  refine ⟨toInt_succ, fun h => ?_, hunsigned, fun h => ?_, fun h => ?_, ?_⟩
  · rw [toInt_neg_succ h, toInt_succ h]
  · have hvalue := toInt_neg_succ h
    have hcast := hunsigned h
    rw [UInt64.toNat_add, UInt64.toNat_one, Nat.mod_eq_of_lt (by omega)]
  · have hnonneg : 0 ≤ value.toInt := by
      have := mt Int64.lt_iff_toInt_lt.mpr h
      have hzero : (0 : Int64).toInt = 0 := rfl
      omega
    rw [toNat_toUInt64 hnonneg]
    omega
  · have hdigits : (decimal (magnitude value).toNat).length ≤ 20 := by
      have := (magnitude value).toNat_lt
      rw [decimal, List.length_map]
      exact Decimal.length_digits_le (by decide) (by omega)
    omega

theorem toNat_magnitude (value : Int64) : (magnitude value).toNat = value.toInt.natAbs := by
  obtain ⟨hsucc, hneg, hunsigned, hadd, hnonneg, -⟩ := noOverflow value
  unfold magnitude
  have hsign : value < 0 ↔ value.toInt < 0 := Int64.lt_iff_toInt_lt
  split
  · rename_i h
    have := hsucc h
    have := hneg h
    have := hunsigned h
    have := hsign.mp h
    rw [hadd h]
    omega
  · rename_i h
    have := hnonneg h
    have := mt hsign.mpr h
    omega

/-! ### The text -/

theorem groupThousands_three (a b c : UInt16) (rest : Wide) {count : Nat} (h : count % 3 = 0) :
    groupThousands count (a :: b :: c :: rest) =
      (if count = 0 then [] else [comma]) ++ [a, b, c] ++ groupThousands (count + 3) rest := by
  have hb : ¬(count + 1 ≠ 0 ∧ (count + 1) % 3 = 0) := by omega
  have hc : ¬(count + 1 + 1 ≠ 0 ∧ (count + 1 + 1) % 3 = 0) := by omega
  simp only [groupThousands, if_neg hb, if_neg hc]
  by_cases hcount : count = 0
  · simp [hcount]
  · simp [hcount, h, comma, wide]

theorem groupThousands_short {digits : Wide} (hne : digits ≠ []) (hlength : digits.length ≤ 3)
    {count : Nat} (h : count % 3 = 0) :
    groupThousands count digits = (if count = 0 then [] else [comma]) ++ digits := by
  have hsecond : ¬(count + 1) % 3 = 0 := by omega
  rcases digits with _ | ⟨a, _ | ⟨b, _ | ⟨c, _ | ⟨d, rest⟩⟩⟩⟩
  · exact absurd rfl hne
  · by_cases hcount : count = 0 <;> simp [groupThousands, hcount, h, comma, wide]
  · by_cases hcount : count = 0 <;> simp [groupThousands, hcount, h, hsecond, comma, wide]
  · rw [groupThousands_three a b c [] h]
    simp [groupThousands]
  · simp only [List.length_cons] at hlength
    omega

/-- Read backwards, the digits stand in groups of three, with a comma in front unless they are the
last ones of the number. -/
theorem groupThousands_separated (n : Nat) : ∀ (digits : Wide) (count : Nat), digits.length = n →
    digits ≠ [] → count % 3 = 0 → ∃ text, Separated comma 3 digits.reverse text ∧
      (groupThousands count digits).reverse = text ++ if count = 0 then [] else [comma] := by
  induction n using Nat.strong_induction_on with
  | _ n ih =>
  intro digits count hn hne h
  by_cases hlength : digits.length ≤ 3
  · refine ⟨digits.reverse, .within (by simpa using hne) (by simpa using hlength), ?_⟩
    rw [groupThousands_short hne hlength h, List.reverse_append]
    split <;> rfl
  · obtain ⟨a, b, c, rest, rfl⟩ : ∃ a b c rest, digits = a :: b :: c :: rest := by
      rcases digits with _ | ⟨a, _ | ⟨b, _ | ⟨c, rest⟩⟩⟩
      · simp at hlength
      · simp at hlength
      · simp at hlength
      · exact ⟨a, b, c, rest, rfl⟩
    simp only [List.length_cons] at hn hlength
    have hrest : rest ≠ [] := by
      rintro rfl
      simp at hlength
    obtain ⟨text, hseparated, htext⟩ := ih rest.length (by omega) rest (count + 3) rfl hrest
      (by omega)
    refine ⟨text ++ comma :: [c, b, a], ?_, ?_⟩
    · have hdigits : (a :: b :: c :: rest).reverse = rest.reverse ++ [c, b, a] := by simp
      rw [hdigits]
      exact hseparated.group rfl
    · rw [groupThousands_three a b c rest h, List.reverse_append, htext, if_neg (by omega)]
      split <;> simp

theorem formatThousands_eq (value : Int) : ∃ text,
    formatThousands value = (if value < 0 then wide "-" else []) ++ text ∧
      Separated comma 3 (wideDecimal value.natAbs) text := by
  have hmagnitude : (if value < 0 then (-(value + 1)).toNat + 1 else value.toNat) =
      value.natAbs := by
    split <;> omega
  have hdigits : (decimal value.natAbs).map (fun b => UInt16.ofNat b.toNat) =
      wideDecimal value.natAbs := by
    rw [wideDecimal, signedDecimal_natCast]
  have hne : (wideDecimal value.natAbs).reverse ≠ [] := by
    rw [← hdigits]
    simp
  obtain ⟨text, hseparated, htext⟩ := groupThousands_separated _ _ 0 rfl hne rfl
  rw [List.reverse_reverse] at hseparated
  rw [if_pos rfl, List.append_nil] at htext
  refine ⟨text, ?_, hseparated⟩
  simp only [formatThousands, hmagnitude, hdigits]
  split
  · rw [List.reverse_append, htext]
    rfl
  · rw [htext]
    rfl

theorem wideDecimal_injective : Function.Injective wideDecimal := by
  have hwiden : Function.Injective fun b : UInt8 => UInt16.ofNat b.toNat := by
    intro b c h
    have hsame := congrArg UInt16.toNat h
    have hb := b.toNat_lt
    have hc := c.toNat_lt
    simp only [UInt16.toNat_ofNat'] at hsame
    exact UInt8.toNat_inj.mp (by omega)
  exact fun i j h => signedDecimal_injective (hwiden.list_map h)

theorem wideDecimal_sign (value : Int) :
    wideDecimal value = (if value < 0 then wide "-" else []) ++ wideDecimal value.natAbs := by
  unfold wideDecimal
  rw [signedDecimal_natCast, signedDecimal]
  split <;> rfl

theorem comma_notMem (n : Nat) : comma ∉ wideDecimal n := by
  rw [wideDecimal, signedDecimal_natCast]
  intro hmem
  obtain ⟨b, hb, hcomma⟩ := List.mem_map.mp hmem
  obtain ⟨hlow, -⟩ := decimal_isDigit hb
  have hsame := congrArg UInt16.toNat hcomma
  have := b.toNat_lt
  simp only [UInt8.le_iff_toNat_le, UInt8.reduceToNat] at hlow
  simp only [UInt16.toNat_ofNat', comma, UInt16.reduceToNat] at hsame
  omega

/-- Nothing overflows on the way to the text of a value; without its commas the text is the decimal
notation, and a comma stands exactly between each full group of three digits from the right and
the digits to its left, so not at the front and not behind the sign; no two values have one text. -/
theorem formatThousands_renders (value : Int64) :
    NoOverflow value ∧ (magnitude value).toNat = value.toInt.natAbs ∧
      ((formatThousands value.toInt).filter fun c => c ≠ comma) = wideDecimal value.toInt ∧
      (∃ text, formatThousands value.toInt =
          (if value.toInt < 0 then wide "-" else []) ++ text ∧
        Separated comma 3 (wideDecimal value.toInt.natAbs) text ∧ text.head? ≠ some comma) ∧
      (formatThousands value.toInt).head? ≠ some comma ∧
      ∀ value' : Int64, formatThousands value'.toInt = formatThousands value.toInt →
        value' = value := by
  have hfilter : ∀ value : Int, ((formatThousands value).filter fun c => c ≠ comma) =
      wideDecimal value := by
    intro value
    obtain ⟨text, htext, hseparated⟩ := formatThousands_eq value
    rw [htext, List.filter_append, hseparated.filter_eq (comma_notMem _), wideDecimal_sign value]
    split <;> rfl
  obtain ⟨text, htext, hseparated⟩ := formatThousands_eq value.toInt
  have hhead : text.head? ≠ some comma := by
    rw [hseparated.head?]
    exact fun h => comma_notMem _ (List.mem_of_mem_head? h)
  refine ⟨noOverflow value, toNat_magnitude value, hfilter _, ⟨text, htext, hseparated, hhead⟩,
    ?_, fun value' h => Int64.toInt_inj.mp (wideDecimal_injective ?_)⟩
  · rw [htext]
    split
    · show some (45 : UInt16) ≠ some comma
      decide
    · exact hhead
  · rw [← hfilter, ← hfilter, h]

end SteamSalesTray.Platform
