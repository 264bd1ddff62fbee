import Mathlib.Data.Nat.Bitwise

/-! Little-endian notation of natural numbers in a fixed number of bytes, and words that are put
together from their bytes by shifts. -/

namespace LittleEndian

def value : List UInt8 → Nat
  | [] => 0
  | b :: rest => b.toNat + 256 * value rest

/-- The lowest `width` bytes of `n`, the lowest first. -/
def bytes : Nat → Nat → List UInt8
  | 0, _ => []
  | width + 1, n => UInt8.ofNat n :: bytes width (n / 256)

@[simp] theorem length_bytes (width n : Nat) : (bytes width n).length = width := by
  induction width generalizing n with
  | zero => rfl
  | succ width ih => simp [bytes, ih]

theorem value_bytes {width n : Nat} (h : n < 256 ^ width) : value (bytes width n) = n := by
  induction width generalizing n with
  | zero =>
    rw [pow_zero] at h
    exact (Nat.lt_one_iff.mp h).symm
  | succ width ih =>
    rw [pow_succ] at h
    have hb : (UInt8.ofNat n).toNat = n % 256 := UInt8.toNat_ofNat'
    rw [bytes, value, ih (Nat.div_lt_of_lt_mul (by omega)), hb]
    omega

theorem bytes_value (bs : List UInt8) : bytes bs.length (value bs) = bs := by
  induction bs with
  | nil => rfl
  | cons b rest ih =>
    have hb := b.toNat_lt
    have hrest : (b.toNat + 256 * value rest) / 256 = value rest := by omega
    have hhead : UInt8.ofNat (b.toNat + 256 * value rest) = b := by
      apply UInt8.toNat_inj.mp
      rw [UInt8.toNat_ofNat']
      omega
    rw [List.length_cons, value, bytes, hrest, hhead, ih]

/-- Two notations of one length that stand for one number are the same. -/
theorem value_injective {bs cs : List UInt8} (hlength : bs.length = cs.length)
    (h : value bs = value cs) : bs = cs := by
  rw [← bytes_value bs, ← bytes_value cs, hlength, h]

theorem or_shift (n b k : Nat) (hn : n < 2 ^ k) : n ||| (b <<< k) = n + b * 2 ^ k := by
  rw [Nat.lor_comm, ← Nat.shiftLeft_add_eq_or_of_lt hn, Nat.shiftLeft_eq, Nat.add_comm]

theorem toNat_word16 (b c : UInt8) :
    (b.toUInt16 ||| (c.toUInt16 <<< 8)).toNat = value [b, c] := by
  have hb := b.toNat_lt
  have hc := c.toNat_lt
  have hshift : c.toNat <<< 8 % 2 ^ 16 = c.toNat <<< 8 := by
    rw [Nat.shiftLeft_eq]
    omega
  simp only [UInt16.toNat_or, UInt16.toNat_shiftLeft, UInt8.toNat_toUInt16]
  show b.toNat ||| c.toNat <<< 8 % 2 ^ 16 = _
  rw [hshift, or_shift _ _ _ hb]
  simp only [value]
  omega

theorem toNat_word32 (b c d e : UInt8) :
    (b.toUInt32 ||| (c.toUInt32 <<< 8) ||| (d.toUInt32 <<< 16) ||| (e.toUInt32 <<< 24)).toNat =
      value [b, c, d, e] := by
  have hb := b.toNat_lt
  have hc := c.toNat_lt
  have hd := d.toNat_lt
  have he := e.toNat_lt
  have hshift : ∀ {x k : Nat}, x < 256 → k ≤ 24 → x <<< k % 2 ^ 32 = x <<< k := by
    intro x k hx hk
    rw [Nat.shiftLeft_eq]
    refine Nat.mod_eq_of_lt ?_
    calc x * 2 ^ k ≤ x * 2 ^ 24 := Nat.mul_le_mul_left _ (Nat.pow_le_pow_right (by decide) hk)
      _ < 2 ^ 32 := by omega
  simp only [UInt32.toNat_or, UInt32.toNat_shiftLeft, UInt8.toNat_toUInt32]
  show b.toNat ||| c.toNat <<< 8 % 2 ^ 32 ||| d.toNat <<< 16 % 2 ^ 32 |||
    e.toNat <<< 24 % 2 ^ 32 = _
  have h2 := or_shift b.toNat c.toNat 8 hb
  have h3 := or_shift (b.toNat + c.toNat * 2 ^ 8) d.toNat 16 (by omega)
  have h4 := or_shift (b.toNat + c.toNat * 2 ^ 8 + d.toNat * 2 ^ 16) e.toNat 24 (by omega)
  rw [hshift hc (by decide), hshift hd (by decide), hshift he (by decide), h2, h3, h4]
  simp only [value]
  omega

end LittleEndian
