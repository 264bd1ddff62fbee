import Mathlib.Data.List.DropRight
import SteamSalesTray.Platform.StringUtil

/-! `WideToUtf8` and then `Utf8ToWide`: a well-formed text comes back as it was. -/

namespace SteamSalesTray.Platform

/-- The code points that are no surrogates. -/
def Scalar (c : Nat) : Prop := c < 0xD800 ∨ 0xE000 ≤ c ∧ c < 0x110000

instance (c : Nat) : Decidable (Scalar c) := inferInstanceAs (Decidable (_ ∨ _))

/-- Well-formed UTF-16: each surrogate is one of a pair. -/
def Paired : List Nat → Prop
  | [] => True
  | [c] => ¬(0xD800 ≤ c ∧ c < 0xE000)
  | c :: c' :: rest =>
    if 0xD800 ≤ c ∧ c < 0xDC00 ∧ 0xDC00 ≤ c' ∧ c' < 0xE000 then Paired rest
    else ¬(0xD800 ≤ c ∧ c < 0xE000) ∧ Paired (c' :: rest)

def IsUtf16 (w : Wide) : Prop := Paired (w.map UInt16.toNat)

/-! ### UTF-8 -/

/-- The bytes of a code point as numbers. -/
def octets (c : Nat) : List Nat := (utf8 c).map UInt8.toNat

theorem map_toNat_ofNat {l : List Nat} (h : ∀ n ∈ l, n < 256) :
    (l.map UInt8.ofNat).map UInt8.toNat = l := by
  rw [List.map_map]
  refine (List.map_congr_left fun n hn => ?_).trans (List.map_id l)
  show (UInt8.ofNat n).toNat = n
  rw [UInt8.toNat_ofNat']
  exact Nat.mod_eq_of_lt (h n hn)

theorem octets_eq {c : Nat} (h : c < 0x110000) : octets c =
    if c < 0x80 then [c]
    else if c < 0x800 then [0xC0 + c / 0x40, 0x80 + c % 0x40]
    else if c < 0x10000 then [0xE0 + c / 0x1000, 0x80 + c / 0x40 % 0x40, 0x80 + c % 0x40]
    else [0xF0 + c / 0x40000, 0x80 + c / 0x1000 % 0x40, 0x80 + c / 0x40 % 0x40,
      0x80 + c % 0x40] := by
  refine map_toNat_ofNat ?_
  split
  · simp
    omega
  · split
    · simp
      omega
    · split
      · simp
        omega
      · simp
        omega

theorem Scalar.lt {c : Nat} (h : Scalar c) : c < 0x110000 := by
  unfold Scalar at h
  omega

/-- The bytes of a code point are decoded whatever follows them. -/
theorem decodeHead_octets {c : Nat} (h : Scalar c) : ∃ b tail, octets c = b :: tail ∧
    ∀ x y z rest, decodeHead b (tail ++ x :: y :: z :: rest) = some (c, tail.length + 1) := by
  rw [octets_eq h.lt]
  unfold Scalar at h
  split
  · rename_i hone
    refine ⟨c, [], rfl, fun x y z rest => ?_⟩
    simp only [List.nil_append, decodeHead]
    rw [if_pos hone]
    rfl
  · rename_i hone
    split
    · rename_i htwo
      refine ⟨_, _, rfl, fun x y z rest => ?_⟩
      simp only [List.cons_append, List.nil_append, decodeHead]
      rw [if_neg (by omega), if_pos (by omega)]
      refine congrArg some (Prod.ext ?_ rfl)
      show (0xC0 + c / 0x40 - 0xC0) * 0x40 + (0x80 + c % 0x40 - 0x80) = c
      omega
    · rename_i htwo
      split
      · rename_i hthree
        refine ⟨_, _, rfl, fun x y z rest => ?_⟩
        have hvalue : (0xE0 + c / 0x1000 - 0xE0) * 0x1000 + (0x80 + c / 0x40 % 0x40 - 0x80) * 0x40 +
            (0x80 + c % 0x40 - 0x80) = c := by omega
        simp only [List.cons_append, List.nil_append, decodeHead, hvalue]
        rw [if_neg (by omega), if_neg (by omega), if_pos (by omega)]
        rfl
      · rename_i hthree
        refine ⟨_, _, rfl, fun x y z rest => ?_⟩
        have hvalue : (0xF0 + c / 0x40000 - 0xF0) * 0x40000 +
            (0x80 + c / 0x1000 % 0x40 - 0x80) * 0x1000 + (0x80 + c / 0x40 % 0x40 - 0x80) * 0x40 +
            (0x80 + c % 0x40 - 0x80) = c := by omega
        simp only [List.cons_append, List.nil_append, decodeHead, hvalue]
        rw [if_neg (by omega), if_neg (by omega), if_neg (by omega), if_pos (by omega)]
        rfl

theorem go_octets {c : Nat} (h : Scalar c) (fuel : Nat) (rest : List Nat) :
    utf8ToWide.go (fuel + 1) (octets c ++ rest) = utf16 c ++ utf8ToWide.go fuel rest := by
  obtain ⟨b, tail, hoctets, hdecode⟩ := decodeHead_octets h
  obtain ⟨x, y, z, more, hmore⟩ : ∃ x y z more, rest ++ [0, 0, 0] = x :: y :: z :: more := by
    rcases rest with _ | ⟨x, _ | ⟨y, _ | ⟨z, rest⟩⟩⟩
    · exact ⟨0, 0, 0, [], rfl⟩
    · exact ⟨x, 0, 0, [0], rfl⟩
    · exact ⟨x, y, 0, [0, 0], rfl⟩
    · exact ⟨x, y, z, rest ++ [0, 0, 0], rfl⟩
  rw [hoctets, List.cons_append, utf8ToWide.go, List.append_assoc, hmore, hdecode]
  dsimp only
  rw [Nat.add_sub_cancel, List.drop_left]

theorem octets_ne_nil {c : Nat} (h : Scalar c) : octets c ≠ [] := by
  obtain ⟨b, tail, hoctets, -⟩ := decodeHead_octets h
  rw [hoctets]
  exact List.cons_ne_nil b tail

theorem go_flatMap {cs : List Nat} (h : ∀ c ∈ cs, Scalar c) {fuel : Nat}
    (hfuel : (cs.flatMap octets).length ≤ fuel) :
    utf8ToWide.go fuel (cs.flatMap octets) = cs.flatMap utf16 := by
  induction cs generalizing fuel with
  | nil => cases fuel <;> rfl
  | cons c rest ih =>
    obtain ⟨hc, hrest⟩ := List.forall_mem_cons.mp h
    have hpos := List.length_pos_iff.mpr (octets_ne_nil hc)
    rw [List.flatMap_cons, List.length_append] at hfuel
    obtain ⟨fuel, rfl⟩ : ∃ n, fuel = n + 1 := ⟨fuel - 1, by omega⟩
    rw [List.flatMap_cons, go_octets hc, ih hrest (by omega), List.flatMap_cons]

theorem utf8ToWide_flatMap {cs : List Nat} (h : ∀ c ∈ cs, Scalar c) :
    utf8ToWide (cs.flatMap utf8) = cs.flatMap utf16 := by
  have hmap : (cs.flatMap utf8).map UInt8.toNat = cs.flatMap octets := List.map_flatMap
  rw [utf8ToWide, hmap]
  refine go_flatMap h ?_
  rw [← hmap, List.length_map]

/-! ### UTF-16 -/

def units (c : Nat) : List Nat := (utf16 c).map UInt16.toNat

theorem units_eq {c : Nat} (h : c < 0x110000) : units c =
    if c < 0x10000 then [c]
    else [0xD800 + (c - 0x10000) / 0x400, 0xDC00 + (c - 0x10000) % 0x400] := by
  unfold units utf16
  split
  · simp only [List.map_cons, List.map_nil, UInt16.toNat_ofNat']
    rw [Nat.mod_eq_of_lt (by omega)]
  · simp only [List.map_cons, List.map_nil, UInt16.toNat_ofNat']
    rw [Nat.mod_eq_of_lt (by omega), Nat.mod_eq_of_lt (by omega)]

theorem codePoints_units {c : Nat} (h : Scalar c) (rest : List Nat) :
    codePoints (units c ++ rest) = c :: codePoints rest := by
  rw [units_eq h.lt]
  unfold Scalar at h
  split
  · cases rest with
    | nil =>
      show codePoints [c] = [c]
      rw [codePoints, if_neg (by omega)]
    | cons c' rest =>
      rw [List.cons_append, List.nil_append, codePoints, if_neg (by omega), if_neg (by omega)]
  · have hvalue : 0x10000 + (0xD800 + (c - 0x10000) / 0x400 - 0xD800) * 0x400 +
        (0xDC00 + (c - 0x10000) % 0x400 - 0xDC00) = c := by omega
    rw [List.cons_append, List.cons_append, List.nil_append, codePoints, if_pos (by omega), hvalue]

theorem codePoints_flatMap {cs : List Nat} (h : ∀ c ∈ cs, Scalar c) :
    codePoints (cs.flatMap units) = cs := by
  induction cs with
  | nil => rfl
  | cons c rest ih =>
    obtain ⟨hc, hrest⟩ := List.forall_mem_cons.mp h
    rw [List.flatMap_cons, codePoints_units hc, ih hrest]

theorem wideToUtf8_flatMap {cs : List Nat} (h : ∀ c ∈ cs, Scalar c) :
    wideToUtf8 (cs.flatMap utf16) = cs.flatMap utf8 := by
  have hmap : (cs.flatMap utf16).map UInt16.toNat = cs.flatMap units := List.map_flatMap
  rw [wideToUtf8, hmap, codePoints_flatMap h]

theorem scalar_codePoints {l : List Nat} (h : ∀ c ∈ l, c < 0x10000) :
    ∀ c ∈ codePoints l, Scalar c := by
  induction l using codePoints.induct with
  | case1 => exact nofun
  | case2 c =>
    have hc := h c (by simp)
    simp only [codePoints, List.mem_singleton, forall_eq]
    unfold Scalar
    split <;> omega
  | case3 c c' rest hpair ih =>
    rw [codePoints, if_pos hpair]
    refine List.forall_mem_cons.mpr ⟨?_, ih fun c hc => h c (by simp [hc])⟩
    unfold Scalar
    omega
  | case4 c c' rest hpair ih =>
    have hc := h c (by simp)
    rw [codePoints, if_neg hpair]
    refine List.forall_mem_cons.mpr ⟨?_, ih fun c hc => h c (List.mem_cons_of_mem _ hc)⟩
    unfold Scalar
    split <;> omega

/-- The code points have the units that they were read from exactly if these are well-formed. -/
theorem flatMap_codePoints_iff {l : List Nat} (h : ∀ c ∈ l, c < 0x10000) :
    (codePoints l).flatMap units = l ↔ Paired l := by
  induction l using codePoints.induct with
  | case1 => simp [codePoints, Paired]
  | case2 c =>
    have hc := h c (by simp)
    simp only [codePoints, Paired, List.flatMap_cons, List.flatMap_nil, List.append_nil]
    split
    · rename_i hsurrogate
      rw [units_eq (by omega), if_pos (by omega)]
      refine iff_of_false (fun hsame => ?_) fun hplain => hplain hsurrogate
      have := (List.cons.inj hsame).1
      omega
    · rename_i hplain
      rw [units_eq (by omega), if_pos hc]
      simp [hplain]
  | case3 c c' rest hpair ih =>
    have hrest := ih fun c hc => h c (by simp [hc])
    rw [codePoints, if_pos hpair, Paired, if_pos hpair, ← hrest, List.flatMap_cons,
      units_eq (by omega), if_neg (by omega)]
    have hhigh :
        0xD800 + (0x10000 + (c - 0xD800) * 0x400 + (c' - 0xDC00) - 0x10000) / 0x400 = c := by omega
    have hlow :
        0xDC00 + (0x10000 + (c - 0xD800) * 0x400 + (c' - 0xDC00) - 0x10000) % 0x400 = c' := by omega
    rw [hhigh, hlow]
    simp
  | case4 c c' rest hpair ih =>
    have hc := h c (by simp)
    have hrest := ih fun c hc => h c (List.mem_cons_of_mem _ hc)
    rw [codePoints, if_neg hpair, Paired, if_neg hpair, ← hrest, List.flatMap_cons]
    split
    · rename_i hsurrogate
      rw [units_eq (by omega), if_pos (by omega)]
      refine iff_of_false (fun hsame => ?_) fun hplain => hplain.1 hsurrogate
      have := (List.cons.inj hsame).1
      omega
    · rename_i hplain
      rw [units_eq (by omega), if_pos hc]
      simp [hplain]

theorem toNat_lt_of_mem {w : Wide} : ∀ c ∈ w.map UInt16.toNat, c < 0x10000 := by
  intro c hc
  obtain ⟨u, -, rfl⟩ := List.mem_map.mp hc
  exact u.toNat_lt

theorem map_toNat_injective : Function.Injective (List.map UInt16.toNat) :=
  List.map_injective_iff.mpr fun _ _ => UInt16.toNat_inj.mp

/-- A wide text is well-formed exactly if it is that of some code points. -/
theorem isUtf16_iff {w : Wide} :
    IsUtf16 w ↔ ∃ cs : List Nat, (∀ c ∈ cs, Scalar c) ∧ w = cs.flatMap utf16 := by
  have hunits : ∀ cs : List Nat, (cs.flatMap utf16).map UInt16.toNat = cs.flatMap units :=
    fun _ => List.map_flatMap
  unfold IsUtf16
  rw [← flatMap_codePoints_iff toNat_lt_of_mem]
  constructor
  · intro h
    refine ⟨codePoints (w.map UInt16.toNat), scalar_codePoints toNat_lt_of_mem,
      map_toNat_injective ?_⟩
    rw [hunits]
    exact h.symm
  · rintro ⟨cs, hcs, rfl⟩
    rw [hunits, codePoints_flatMap hcs]

/-- A well-formed text comes back from UTF-8 as it was. -/
theorem utf8ToWide_wideToUtf8 {w : Wide} (h : IsUtf16 w) : utf8ToWide (wideToUtf8 w) = w := by
  obtain ⟨cs, hcs, rfl⟩ := isUtf16_iff.mp h
  rw [wideToUtf8_flatMap hcs, utf8ToWide_flatMap hcs]

/-! ### Parts of a text -/

/-- A unit that is no surrogate can be taken from the front. -/
theorem paired_cons {c : Nat} (hc : ¬(0xD800 ≤ c ∧ c < 0xE000)) (rest : List Nat) :
    Paired (c :: rest) ↔ Paired rest := by
  cases rest with
  | nil => simp [Paired, hc]
  | cons c' rest =>
    rw [Paired, if_neg (by omega)]
    simp [hc]

/-- And from the end. -/
theorem paired_concat {c : Nat} (hc : ¬(0xD800 ≤ c ∧ c < 0xE000)) (l : List Nat) :
    Paired (l ++ [c]) ↔ Paired l := by
  induction l using Paired.induct with
  | case1 => simp [Paired, hc]
  | case2 d =>
    simp only [List.cons_append, List.nil_append, Paired]
    rw [if_neg (by omega)]
    simp [hc]
  | case3 d d' rest hpair ih =>
    rw [List.cons_append, List.cons_append, Paired, if_pos hpair, Paired, if_pos hpair, ih]
  | case4 d d' rest hpair ih =>
    rw [List.cons_append, List.cons_append, Paired, if_neg hpair, Paired, if_neg hpair,
      ← List.cons_append, ih]

/-- What is left of a text when units that are no surrogates are taken from both its ends. -/
theorem IsUtf16.trimmed {p : UInt16 → Bool} (hp : ∀ c, p c = true → c < 0xD800) {w : Wide}
    (h : IsUtf16 w) : IsUtf16 ((w.dropWhile p).rdropWhile p) := by
  have hplain : ∀ c, p c = true → ¬(0xD800 ≤ c.toNat ∧ c.toNat < 0xE000) := by
    intro c hc
    have hlt : c.toNat < 0xD800 := UInt16.lt_iff_toNat_lt.mp (hp c hc)
    omega
  have hfront : ∀ w : Wide, IsUtf16 w → IsUtf16 (w.dropWhile p) := by
    intro w
    induction w with
    | nil => exact id
    | cons c rest ih =>
      intro h
      rw [List.dropWhile_cons]
      split
      · rename_i hc
        exact ih ((paired_cons (hplain c hc) _).mp h)
      · exact h
  have hback : ∀ w : Wide, IsUtf16 w → IsUtf16 (w.rdropWhile p) := by
    intro w
    induction w using List.reverseRecOn with
    | nil => exact id
    | append_singleton rest c ih =>
      intro h
      by_cases hc : p c = true
      · rw [List.rdropWhile_concat_pos p _ _ hc]
        refine ih ((paired_concat (hplain c hc) _).mp ?_)
        unfold IsUtf16 at h
        rwa [List.map_append] at h
      · rwa [List.rdropWhile_concat_neg p _ _ hc]
  exact hback _ (hfront w h)

/-- A text has at most three bytes for each of its units. -/
theorem length_wideToUtf8_le (w : Wide) : (wideToUtf8 w).length ≤ 3 * w.length := by
  have hutf8 : ∀ c < 0x10000, (utf8 c).length ≤ 3 := by
    intro c hc
    unfold utf8
    rw [List.length_map]
    rw [if_pos hc]
    split_ifs <;> simp
  have hany : ∀ c, (utf8 c).length ≤ 4 := by
    intro c
    unfold utf8
    rw [List.length_map]
    split_ifs <;> simp
  suffices h : ∀ l : List Nat, (∀ c ∈ l, c < 0x10000) →
      ((codePoints l).flatMap utf8).length ≤ 3 * l.length by
    have hle := h (w.map UInt16.toNat) toNat_lt_of_mem
    rwa [List.length_map] at hle
  -- A pair of surrogates has four bytes for its two units.
  intro l hl
  induction l using codePoints.induct with
  | case1 => exact Nat.le_refl _
  | case2 c =>
    have hc := hl c (by simp)
    simp only [codePoints, List.flatMap_cons, List.flatMap_nil, List.append_nil]
    refine hutf8 _ ?_
    split <;> omega
  | case3 c c' rest hpair ih =>
    have hrest := ih fun c hc => hl c (by simp [hc])
    rw [codePoints, if_pos hpair, List.flatMap_cons, List.length_append]
    have hpairs := hany (0x10000 + (c - 0xD800) * 0x400 + (c' - 0xDC00))
    simp only [List.length_cons]
    omega
  | case4 c c' rest hpair ih =>
    have hrest := ih fun c hc => hl c (List.mem_cons_of_mem _ hc)
    have hc := hl c (by simp)
    have hfirst := hutf8 (if 0xD800 ≤ c ∧ c < 0xE000 then 0xFFFD else c) (by split <;> omega)
    rw [codePoints, if_neg hpair, List.flatMap_cons, List.length_append]
    simp only [List.length_cons] at hrest ⊢
    omega

end SteamSalesTray.Platform
