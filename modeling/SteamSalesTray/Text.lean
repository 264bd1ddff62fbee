import Mathlib.Data.List.Lex
import Mathlib.Data.List.TakeWhile
import Mathlib.Order.Defs.LinearOrder
import SteamSalesTray.Lib.Decimal

/-! The program's strings: `std::string` as bytes, compared byte by byte, and `std::wstring` as
UTF-16 code units. -/

namespace SteamSalesTray

abbrev Bytes := List UInt8

abbrev Wide := List UInt16

instance byteOrder : LinearOrder UInt8 where
  le_refl := UInt8.le_refl
  le_trans _ _ _ := UInt8.le_trans
  le_antisymm _ _ := UInt8.le_antisymm
  le_total := UInt8.le_total
  lt_iff_le_not_ge a b := by
    simp only [UInt8.le_iff_toNat_le, UInt8.lt_iff_toNat_lt]
    omega
  toDecidableLE := inferInstance
  toDecidableLT := inferInstance
  toDecidableEq := inferInstance

theorem eq_nil_of_le_nil {text : Bytes} (h : text ≤ []) : text = [] :=
  (List.lex_nil_or_eq_nil text).resolve_left (not_lt_of_ge h)

def ascii (s : String) : Bytes := s.toList.map fun c => UInt8.ofNat c.toNat

def wide (s : String) : Wide := s.toList.map fun c => UInt16.ofNat c.toNat

/-- `std::to_string` of an unsigned number. -/
def decimal (n : Nat) : Bytes := (Decimal.digits n).map fun d => UInt8.ofNat (48 + d)

/-- An unsigned number with at least `width` digits, as `%0` prints it. -/
def paddedDecimal (width n : Nat) : Bytes :=
  (Decimal.padded width n).map fun d => UInt8.ofNat (48 + d)

/-- `std::to_string` of a signed number. -/
def signedDecimal (i : Int) : Bytes :=
  if i < 0 then ascii "-" ++ decimal i.natAbs else decimal i.natAbs

/-- The number that a decimal notation stands for. -/
def number (text : Bytes) : Nat := Decimal.value (text.map fun b => b.toNat - 48)

theorem number_map {ds : List Nat} (h : ∀ d ∈ ds, d < 10) :
    number (ds.map fun d => UInt8.ofNat (48 + d)) = Decimal.value ds := by
  rw [number, List.map_map]
  congr 1
  refine List.map_congr_left (fun d hd => ?_) |>.trans (List.map_id _)
  have := h d hd
  show (UInt8.ofNat (48 + d)).toNat - 48 = d
  rw [UInt8.toNat_ofNat']
  omega

@[simp] theorem number_decimal (n : Nat) : number (decimal n) = n := by
  rw [decimal, number_map fun _ => Decimal.digits_lt, Decimal.value_digits]

theorem decimal_injective : Function.Injective decimal :=
  Function.LeftInverse.injective number_decimal

theorem decimal_zero : decimal 0 = ascii "0" := by decide

@[simp] theorem decimal_ne_nil (n : Nat) : decimal n ≠ [] := by
  simpa [decimal] using Decimal.digits_ne_nil n

theorem decimal_eq_zero {n : Nat} : decimal n = ascii "0" ↔ n = 0 := by
  rw [← decimal_zero]
  exact decimal_injective.eq_iff

theorem isDigit_of_lt {d : Nat} (h : d < 10) :
    48 ≤ UInt8.ofNat (48 + d) ∧ UInt8.ofNat (48 + d) ≤ 57 := by
  simp only [UInt8.le_iff_toNat_le, UInt8.toNat_ofNat', UInt8.reduceToNat]
  omega

theorem decimal_isDigit {n : Nat} {c : UInt8} (h : c ∈ decimal n) : 48 ≤ c ∧ c ≤ 57 := by
  obtain ⟨d, hd, rfl⟩ := List.mem_map.mp h
  exact isDigit_of_lt (Decimal.digits_lt hd)

theorem paddedDecimal_isDigit {width n : Nat} {c : UInt8} (h : c ∈ paddedDecimal width n) :
    48 ≤ c ∧ c ≤ 57 := by
  obtain ⟨d, hd, rfl⟩ := List.mem_map.mp h
  exact isDigit_of_lt (Decimal.padded_lt hd)

@[simp] theorem number_paddedDecimal (width n : Nat) : number (paddedDecimal width n) = n := by
  rw [paddedDecimal, number_map fun _ => Decimal.padded_lt, Decimal.value_padded]

theorem length_paddedDecimal {width n : Nat} (hw : 0 < width) (h : n < 10 ^ width) :
    (paddedDecimal width n).length = width := by
  rw [paddedDecimal, List.length_map, Decimal.length_padded hw h]

theorem takeWhile_decimal (n : Nat) :
    (decimal n).takeWhile (fun c => 48 ≤ c ∧ c ≤ 57) = decimal n :=
  List.takeWhile_eq_self_iff.mpr fun _ hc => decide_eq_true (decimal_isDigit hc)

theorem number_cons (b : UInt8) (text : Bytes) :
    number (b :: text) = (b.toNat - 48) * 10 ^ text.length + number text := by
  rw [number, List.map_cons, Decimal.value_cons, List.length_map]
  rfl

theorem number_lt {text : Bytes} (h : ∀ b ∈ text, 48 ≤ b ∧ b ≤ 57) :
    number text < 10 ^ text.length := by
  have hdigits : ∀ d ∈ text.map fun b => b.toNat - 48, d < 10 := by
    intro d hd
    obtain ⟨b, hb, rfl⟩ := List.mem_map.mp hd
    have := (h b hb).2
    simp only [UInt8.le_iff_toNat_le, UInt8.reduceToNat] at this
    omega
  have hlt := Decimal.value_lt hdigits
  rwa [List.length_map] at hlt

/-- Of two decimal notations of one length, the lesser text has the lesser number. -/
theorem lt_iff_number_lt {text text' : Bytes} (hlength : text.length = text'.length)
    (h : ∀ b ∈ text, 48 ≤ b ∧ b ≤ 57) (h' : ∀ b ∈ text', 48 ≤ b ∧ b ≤ 57) :
    text < text' ↔ number text < number text' := by
  induction text generalizing text' with
  | nil =>
    obtain rfl := List.length_eq_zero_iff.mp hlength.symm
    simp
  | cons b text ih =>
    obtain ⟨b', text', rfl⟩ := List.exists_of_length_succ text' hlength.symm
    obtain ⟨hb, htext⟩ := List.forall_mem_cons.mp h
    obtain ⟨hb', htext'⟩ := List.forall_mem_cons.mp h'
    have hlength' : text.length = text'.length := Nat.succ_inj.mp hlength
    have hlt := number_lt htext
    have hlt' := number_lt htext'
    rw [hlength'] at hlt
    rw [List.cons_lt_cons_iff, ih hlength' htext htext', number_cons, number_cons, hlength',
      Decimal.mul_add_lt_iff hlt hlt']
    simp only [UInt8.le_iff_toNat_le, UInt8.reduceToNat, UInt8.lt_iff_toNat_lt,
      ← UInt8.toNat_inj] at hb hb' ⊢
    omega

theorem paddedDecimal_lt_iff {width m n : Nat} (hw : 0 < width) (hm : m < 10 ^ width)
    (hn : n < 10 ^ width) : paddedDecimal width m < paddedDecimal width n ↔ m < n := by
  have hlength := (length_paddedDecimal hw hm).trans (length_paddedDecimal hw hn).symm
  rw [lt_iff_number_lt hlength (fun _ => paddedDecimal_isDigit) fun _ => paddedDecimal_isDigit,
    number_paddedDecimal, number_paddedDecimal]

theorem paddedDecimal_inj {width m n : Nat} : paddedDecimal width m = paddedDecimal width n ↔
    m = n := by
  refine ⟨fun h => ?_, congrArg _⟩
  rw [← number_paddedDecimal width m, h, number_paddedDecimal]

/-- Texts with first parts of one length are compared by these, and then by what follows. -/
theorem append_lt_append_iff {first first' rest rest' : Bytes}
    (h : first.length = first'.length) :
    first ++ rest < first' ++ rest' ↔ first < first' ∨ first = first' ∧ rest < rest' := by
  induction first generalizing first' with
  | nil =>
    obtain rfl := List.length_eq_zero_iff.mp h.symm
    simp
  | cons b first ih =>
    obtain ⟨b', first', rfl⟩ := List.exists_of_length_succ first' h.symm
    rw [List.cons_append, List.cons_append, List.cons_lt_cons_iff, List.cons_lt_cons_iff,
      ih (Nat.succ_inj.mp h), List.cons.injEq]
    tauto

theorem signedDecimal_natCast (n : Nat) : signedDecimal n = decimal n :=
  if_neg (by omega)

theorem signedDecimal_injective : Function.Injective signedDecimal := by
  -- A digit is not the sign.
  have hsign : ∀ m n : Nat, ascii "-" ++ decimal m ≠ decimal n := by
    intro m n h
    have hminus : (45 : UInt8) ∈ decimal n := h ▸ List.mem_cons_self
    exact absurd (decimal_isDigit hminus).1 (by decide)
  intro i j h
  unfold signedDecimal at h
  split at h <;> split at h
  · have habs := decimal_injective (List.append_cancel_left h)
    omega
  · exact absurd h (hsign _ _)
  · exact absurd h.symm (hsign _ _)
  · have habs := decimal_injective h
    omega

/-- The last of some texts that is not empty; the empty text if there is none. -/
def lastNonEmpty (texts : List Bytes) : Bytes :=
  (texts.reverse.find? fun text => text ≠ []).getD []

@[simp] theorem lastNonEmpty_nil : lastNonEmpty [] = [] := rfl

theorem lastNonEmpty_singleton (text : Bytes) : lastNonEmpty [text] = text := by
  by_cases h : text = [] <;> simp [lastNonEmpty, h]

theorem lastNonEmpty_append (texts later : List Bytes) :
    lastNonEmpty (texts ++ later) =
      if lastNonEmpty later = [] then lastNonEmpty texts else lastNonEmpty later := by
  unfold lastNonEmpty
  rw [List.reverse_append, List.find?_append]
  cases h : later.reverse.find? fun text => text ≠ [] with
  | none => simp
  | some last =>
    have hne : last ≠ [] := by simpa using List.find?_some h
    simp [hne]

theorem lastNonEmpty_concat (texts : List Bytes) (text : Bytes) :
    lastNonEmpty (texts ++ [text]) = if text = [] then lastNonEmpty texts else text := by
  rw [lastNonEmpty_append, lastNonEmpty_singleton]

/-- The order does not matter where at most one text is not empty. -/
theorem lastNonEmpty_perm {texts texts' : List Bytes} (h : texts.Perm texts')
    (hone : (texts.filter fun text => text ≠ []).length ≤ 1) :
    lastNonEmpty texts = lastNonEmpty texts' := by
  have hlast : ∀ texts, lastNonEmpty texts = (texts.filter fun text => text ≠ []).getLastD [] := by
    simp [lastNonEmpty]
  have hfilter := h.filter fun text => text ≠ []
  rw [hlast, hlast]
  match hnames : texts.filter fun text => text ≠ [], hone with
  | [], _ =>
    rw [hnames] at hfilter
    rw [List.nil_perm.mp hfilter]
  | [text], _ =>
    rw [hnames] at hfilter
    rw [List.singleton_perm.mp hfilter]

end SteamSalesTray
