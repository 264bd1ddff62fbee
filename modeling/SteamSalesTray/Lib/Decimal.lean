import Mathlib.Data.Nat.Digits.Lemmas

/-! The decimal notation of natural numbers: at least one digit, the most significant first, and
no leading zero except in `0` itself. -/

namespace Decimal

/-- The decimal digits of `n`, the most significant first. -/
def digits (n : Nat) : List Nat := if n = 0 then [0] else (Nat.digits 10 n).reverse

theorem digits_lt {n d : Nat} (h : d ∈ digits n) : d < 10 := by
  unfold digits at h
  split at h
  · simp at h
    omega
  · exact Nat.digits_lt_base (by decide) (List.mem_reverse.mp h)

theorem digits_ne_nil (n : Nat) : digits n ≠ [] := by
  unfold digits
  split
  · simp
  · simpa [Nat.digits_eq_nil_iff_eq_zero]

theorem length_digits_le {n w : Nat} (hw : 0 < w) (h : n < 10 ^ w) : (digits n).length ≤ w := by
  unfold digits
  split
  · exact hw
  · rw [List.length_reverse]
    exact (Nat.digits_length_le_iff (by decide) n).mpr h

def value (ds : List Nat) : Nat := Nat.ofDigits 10 ds.reverse

theorem value_digits (n : Nat) : value (digits n) = n := by
  unfold value digits
  split
  · simp [*]
  · rw [List.reverse_reverse, Nat.ofDigits_digits]

theorem value_cons (d : Nat) (ds : List Nat) : value (d :: ds) = d * 10 ^ ds.length + value ds := by
  unfold value
  rw [List.reverse_cons, Nat.ofDigits_append, Nat.ofDigits_singleton, List.length_reverse,
    Nat.mul_comm, Nat.add_comm]

theorem value_lt {ds : List Nat} (h : ∀ d ∈ ds, d < 10) : value ds < 10 ^ ds.length := by
  have hlt := Nat.ofDigits_lt_base_pow_length (b := 10) (l := ds.reverse) (by decide)
    fun d hd => h d (List.mem_reverse.mp hd)
  rwa [List.length_reverse] at hlt

/-- Numbers in two parts are compared by the first, and then by the second. -/
theorem mul_add_lt_iff {p d e v w : Nat} (hv : v < p) (hw : w < p) :
    d * p + v < e * p + w ↔ d < e ∨ d = e ∧ v < w := by
  rcases Nat.lt_trichotomy d e with hlt | rfl | hgt
  · have hmul := Nat.mul_le_mul_right p (Nat.succ_le_of_lt hlt)
    rw [Nat.succ_mul] at hmul
    omega
  · omega
  · have hmul := Nat.mul_le_mul_right p (Nat.succ_le_of_lt hgt)
    rw [Nat.succ_mul] at hmul
    omega

/-- At least `width` digits, with zeros in front. -/
def padded (width n : Nat) : List Nat := List.replicate (width - (digits n).length) 0 ++ digits n

theorem padded_lt {width n d : Nat} (h : d ∈ padded width n) : d < 10 := by
  rcases List.mem_append.mp h with hzero | hdigit
  · rw [List.eq_of_mem_replicate hzero]
    decide
  · exact digits_lt hdigit

theorem length_padded {width n : Nat} (hw : 0 < width) (h : n < 10 ^ width) :
    (padded width n).length = width := by
  have hle := length_digits_le hw h
  rw [padded, List.length_append, List.length_replicate]
  omega

theorem value_padded (width n : Nat) : value (padded width n) = n := by
  have hdigits := value_digits n
  unfold value at hdigits ⊢
  rw [padded, List.reverse_append, List.reverse_replicate, Nat.ofDigits_append_replicate_zero,
    hdigits]

end Decimal
