import SteamSalesTray.Lib.UrlQuery
import SteamSalesTray.Text

/-! Percent-encoding of the components of a query. -/

namespace SteamSalesTray.Network

open UrlQuery

def isUnreserved (c : UInt8) : Bool :=
  (65 ≤ c ∧ c ≤ 90) ∨ (97 ≤ c ∧ c ≤ 122) ∨ (48 ≤ c ∧ c ≤ 57) ∨ c = 45 ∨ c = 95 ∨ c = 46 ∨ c = 126

def hexDigit (value : Nat) : UInt16 :=
  UInt16.ofNat (if value < 10 then 48 + value else 65 + (value - 10))

def encodeByte (c : UInt8) : Wide :=
  if isUnreserved c then [c.toUInt16]
  else [37, hexDigit (c.toNat >>> 4), hexDigit (c.toNat &&& 0x0F)]

def encodeComponent (utf8Value : Bytes) : Wide := utf8Value.flatMap encodeByte

example : encodeComponent (ascii "a/b&c=~") = wide "a%2Fb%26c%3D~" := by decide

/-- What an encoded component is made of: letters, digits, and `%`, `-`, `.`, `_`, `~`. -/
def isComponentChar (c : UInt16) : Bool :=
  (65 ≤ c ∧ c ≤ 90) ∨ (97 ≤ c ∧ c ≤ 122) ∨ (48 ≤ c ∧ c ≤ 57) ∨ c ∈ [37, 45, 46, 95, 126]

theorem hexDigit_isComponentChar : ∀ value < 16, isComponentChar (hexDigit value) = true := by
  decide

theorem unreserved_isComponentChar {c : UInt8} (h : isUnreserved c = true) :
    isComponentChar c.toUInt16 = true := by
  simp only [isUnreserved, isComponentChar, decide_eq_true_eq, List.mem_cons, List.not_mem_nil,
    UInt8.le_iff_toNat_le, UInt16.le_iff_toNat_le, ← UInt8.toNat_inj, ← UInt16.toNat_inj,
    UInt8.toNat_toUInt16, UInt8.reduceToNat, UInt16.reduceToNat] at h ⊢
  omega

theorem encodeByte_isComponentChar (b : UInt8) {c : UInt16} (h : c ∈ encodeByte b) :
    isComponentChar c = true := by
  unfold encodeByte at h
  split at h
  · rename_i hunreserved
    obtain rfl := List.mem_singleton.mp h
    exact unreserved_isComponentChar hunreserved
  · have hb := b.toNat_lt
    have hhigh : b.toNat >>> 4 < 16 := by
      rw [Nat.shiftRight_eq_div_pow]
      omega
    have hlow : b.toNat &&& 0x0F < 16 := Nat.lt_succ_of_le Nat.and_le_right
    obtain rfl | rfl | rfl : c = 37 ∨ c = hexDigit (b.toNat >>> 4) ∨
      c = hexDigit (b.toNat &&& 0x0F) := by simpa using h
    · decide
    · exact hexDigit_isComponentChar _ hhigh
    · exact hexDigit_isComponentChar _ hlow

theorem encodeComponent_isComponentChar (value : Bytes) {c : UInt16}
    (h : c ∈ encodeComponent value) : isComponentChar c = true := by
  obtain ⟨b, -, hc⟩ := List.mem_flatMap.mp h
  exact encodeByte_isComponentChar b hc

/-- `&` and `=` are not among the characters of an encoded component. -/
theorem encodeComponent_no_separator (value : Bytes) :
    38 ∉ encodeComponent value ∧ 61 ∉ encodeComponent value := by
  have hplain : isComponentChar 38 = false ∧ isComponentChar 61 = false := by
    simp [isComponentChar]
  constructor
  · intro h
    exact absurd (encodeComponent_isComponentChar value h) (by simp [hplain.1])
  · intro h
    exact absurd (encodeComponent_isComponentChar value h) (by simp [hplain.2])

theorem hexValue_hexDigit : ∀ value < 16, hexValue? (hexDigit value) = some value := by
  decide

theorem percentDecode_encodeByte (b : UInt8) (rest : Wide) :
    percentDecode (encodeByte b ++ rest) = (percentDecode rest).map (b :: ·) := by
  unfold encodeByte
  split
  · rename_i hunreserved
    have hplain : b.toUInt16 ≠ 37 ∧ b.toUInt16 < 128 := by
      simp only [isUnreserved, decide_eq_true_eq, UInt8.le_iff_toNat_le, UInt16.lt_iff_toNat_lt,
        ← UInt8.toNat_inj, ne_eq, ← UInt16.toNat_inj, UInt8.toNat_toUInt16, UInt8.reduceToNat,
        UInt16.reduceToNat] at hunreserved ⊢
      omega
    rw [List.singleton_append, percentDecode_plain hplain.1 hplain.2, UInt8.toUInt8_toUInt16]
  · have hb := b.toNat_lt
    have hhigh : b.toNat >>> 4 = b.toNat / 16 := Nat.shiftRight_eq_div_pow ..
    have hlow : b.toNat &&& 0x0F = b.toNat % 16 := Nat.and_two_pow_sub_one_eq_mod _ 4
    rw [hhigh, hlow]
    have hvalue : UInt8.ofNat (16 * (b.toNat / 16) + b.toNat % 16) = b := by
      rw [Nat.div_add_mod]
      exact UInt8.ofNat_toNat
    have hdecode := percentDecode_digits (hexValue_hexDigit (b.toNat / 16) (by omega))
      (hexValue_hexDigit (b.toNat % 16) (by omega)) rest
    rw [hvalue] at hdecode
    exact hdecode

theorem percentDecode_encodeComponent (value : Bytes) :
    percentDecode (encodeComponent value) = some value := by
  unfold encodeComponent
  induction value with
  | nil => rfl
  | cons b value ih =>
    rw [List.flatMap_cons, percentDecode_encodeByte, ih]
    rfl

end SteamSalesTray.Network
