import Mathlib.Data.List.Infix
import Mathlib.Data.List.TakeWhile

/-! Searching in a text, and masking what follows each occurrence of a key up to a stop. -/

namespace Search

variable {α : Type} [DecidableEq α]

/-- The index of the first occurrence of `needle`. -/
def indexOf (needle : List α) : List α → Option Nat
  | [] => if needle = [] then some 0 else none
  | c :: rest => if needle <+: c :: rest then some 0 else (indexOf needle rest).map (· + 1)

/-- `std::basic_string::find`. -/
def find (text needle : List α) (pos : Nat) : Option Nat :=
  if pos ≤ text.length then (indexOf needle (text.drop pos)).map (pos + ·) else none

/-- `std::basic_string::find_first_of`. -/
def findFirstOf (text set : List α) (pos : Nat) : Option Nat :=
  ((text.drop pos).findIdx? (· ∈ set)).map (pos + ·)

/-- `std::basic_string::replace`. -/
def replace (text : List α) (pos count : Nat) (new : List α) : List α :=
  text.take pos ++ new ++ text.drop (pos + count)

theorem prefix_of_indexOf {needle text : List α} {i : Nat} (h : indexOf needle text = some i) :
    needle <+: text.drop i := by
  induction text generalizing i with
  | nil =>
    unfold indexOf at h
    split at h
    · rename_i hneedle
      exact hneedle ▸ List.nil_prefix
    · cases h
  | cons c rest ih =>
    unfold indexOf at h
    split at h
    · rename_i hprefix
      obtain rfl := Option.some.inj h
      exact hprefix
    · obtain ⟨j, hj, rfl⟩ := Option.map_eq_some_iff.mp h
      exact ih hj

theorem indexOf_bound {needle text : List α} {i : Nat} (hneedle : needle ≠ [])
    (h : indexOf needle text = some i) : i + needle.length ≤ text.length := by
  have hlength := (prefix_of_indexOf h).length_le
  have hpos := List.length_pos_iff.mpr hneedle
  rw [List.length_drop] at hlength
  omega

/-- A first occurrence is found whatever follows it. -/
theorem indexOf_append {needle text : List α} {i : Nat} (h : indexOf needle text = some i)
    (rest : List α) (hneedle : needle ≠ []) : indexOf needle (text ++ rest) = some i := by
  induction text generalizing i with
  | nil => simp [indexOf, hneedle] at h
  | cons c text ih =>
    have hbound := indexOf_bound hneedle h
    unfold indexOf at h
    rw [List.cons_append, indexOf]
    split at h
    · rename_i hprefix
      have hlonger : needle <+: c :: (text ++ rest) := hprefix.trans (List.prefix_append _ rest)
      rw [if_pos hlonger, h]
    · rename_i hnot
      obtain ⟨j, hj, rfl⟩ := Option.map_eq_some_iff.mp h
      rw [if_neg, ih hj]
      · rfl
      · intro hprefix
        have hshort := indexOf_bound hneedle hj
        refine hnot (List.prefix_of_prefix_length_le hprefix (List.prefix_append _ rest) ?_)
        simp only [List.length_cons]
        omega

theorem indexOf_of_prefix {needle text : List α} (h : needle <+: text) :
    indexOf needle text = some 0 := by
  cases text with
  | nil => simp [indexOf, List.prefix_nil.mp h]
  | cons c rest => simp [indexOf, h]

/-- The occurrence that ends a text is found unless there is an earlier one. -/
theorem exists_indexOf (before needle : List α) :
    ∃ i ≤ before.length, indexOf needle (before ++ needle) = some i := by
  induction before with
  | nil => exact ⟨0, Nat.le_refl 0, indexOf_of_prefix (by simp)⟩
  | cons c before ih =>
    obtain ⟨i, hi, hfound⟩ := ih
    rw [List.cons_append, indexOf]
    split
    · exact ⟨0, by omega, rfl⟩
    · exact ⟨i + 1, by simpa using hi, by rw [hfound]; rfl⟩

theorem find_some {text needle : List α} {pos found : Nat}
    (h : find text needle pos = some found) :
    ∃ i, found = pos + i ∧ indexOf needle (text.drop pos) = some i := by
  unfold find at h
  split at h
  · obtain ⟨i, hi, rfl⟩ := Option.map_eq_some_iff.mp h
    exact ⟨i, rfl, hi⟩
  · cases h

theorem find_none {text needle : List α} {pos : Nat} (hpos : pos ≤ text.length)
    (h : find text needle pos = none) : indexOf needle (text.drop pos) = none := by
  rw [find, if_pos hpos] at h
  exact Option.map_eq_none_iff.mp h

theorem find_bound {text needle : List α} {pos found : Nat} (hneedle : needle ≠ [])
    (h : find text needle pos = some found) :
    pos ≤ found ∧ found + needle.length ≤ text.length := by
  obtain ⟨i, rfl, hi⟩ := find_some h
  have hbound := indexOf_bound hneedle hi
  have hpos := List.length_pos_iff.mpr hneedle
  rw [List.length_drop] at hbound
  omega

/-- `find_first_of` with the end of the text where there is none of the characters. -/
theorem findFirstOf_getD {text : List α} {start : Nat} (h : start ≤ text.length) (set : List α) :
    (findFirstOf text set start).getD text.length =
      start + (text.drop start).findIdx (· ∈ set) := by
  rw [findFirstOf, List.findIdx_eq_getD_findIdx?]
  cases (text.drop start).findIdx? (· ∈ set) with
  | none =>
    simp
    omega
  | some i => rfl

omit [DecidableEq α] in
theorem take_replace {text : List α} {pos : Nat} (h : pos ≤ text.length) (count : Nat)
    (new : List α) : (replace text pos count new).take (pos + new.length) = text.take pos ++ new :=
  List.take_left' (by simp [h])

omit [DecidableEq α] in
theorem drop_replace {text : List α} {pos : Nat} (h : pos ≤ text.length) (count : Nat)
    (new : List α) : (replace text pos count new).drop (pos + new.length) =
      text.drop (pos + count) :=
  List.drop_left' (by simp [h])

omit [DecidableEq α] in
theorem le_length_replace {text : List α} {pos : Nat} (h : pos ≤ text.length) (count : Nat)
    (new : List α) : pos + new.length ≤ (replace text pos count new).length := by
  simp [replace]
  omega

/-! ### Masking -/

/-- A key whose occurrences do not overlap, the mask of the value that follows it, and the
characters that end a value.  None of these is in the key. -/
structure Masking (α : Type) where
  key : List α
  mask : List α
  stop : α → Bool
  key_ne_nil : key ≠ []
  key_running : ∀ c ∈ key, stop c = false
  key_borderless : ∀ n < key.length, 0 < n → ¬key.drop n <+: key

namespace Masking

variable (f : Masking α)

/-- What follows the value that a text begins with. -/
def afterValue (text : List α) : List α := text.dropWhile fun c => !f.stop c

omit [DecidableEq α] in
theorem afterValue_length (text : List α) : (f.afterValue text).length ≤ text.length :=
  (List.dropWhile_suffix _).length_le

/-- From left to right, the value after each key is replaced by the mask. -/
def masked (text : List α) : List α :=
  match _h : indexOf f.key text with
  | none => text
  | some i =>
    text.take (i + f.key.length) ++ f.mask ++
      masked (f.afterValue (text.drop (i + f.key.length)))
termination_by text.length
decreasing_by
  have hbound := indexOf_bound f.key_ne_nil _h
  have hpos := List.length_pos_iff.mpr f.key_ne_nil
  have hafter := f.afterValue_length (text.drop (i + f.key.length))
  rw [List.length_drop] at hafter
  omega

theorem masked_some {text : List α} {i : Nat} (h : indexOf f.key text = some i) :
    f.masked text = text.take (i + f.key.length) ++ f.mask ++
      f.masked (f.afterValue (text.drop (i + f.key.length))) := by
  rw [masked]
  split
  · rename_i hnone
    rw [hnone] at h
    cases h
  · rename_i j hj
    obtain rfl := Option.some.inj (hj.symm.trans h)
    rfl

theorem masked_none {text : List α} (h : indexOf f.key text = none) : f.masked text = text := by
  rw [masked]
  split
  · rfl
  · rename_i hj
    rw [hj] at h
    cases h

omit [DecidableEq α] in
theorem afterValue_of_running {value : List α} (h : ∀ c ∈ value, f.stop c = false) (rest : List α) :
    f.afterValue (value ++ rest) = f.afterValue rest :=
  List.dropWhile_append_of_pos fun c hc => by simp [h c hc]

omit [DecidableEq α] in
theorem afterValue_stop {c : α} (h : f.stop c = true) (rest : List α) :
    f.afterValue (c :: rest) = c :: rest :=
  List.dropWhile_cons_of_neg (by simp [h])

omit [DecidableEq α] in
/-- An occurrence of the key that begins before another one ends before it. -/
theorem key_apart {before : List α} {i : Nat} (h : f.key <+: (before ++ f.key).drop i)
    (hi : i < before.length) : i + f.key.length ≤ before.length := by
  by_contra hlong
  rw [List.drop_append_of_le_length (Nat.le_of_lt hi)] at h
  have hborder := h.drop (before.length - i)
  rw [List.drop_left' (by simp)] at hborder
  exact f.key_borderless (before.length - i) (by omega) (by omega) hborder

omit [DecidableEq α] in
theorem afterValue_eq_nil {value : List α} (h : f.afterValue value = []) :
    ∀ c ∈ value, f.stop c = false := by
  simpa [afterValue, List.dropWhile_eq_nil_iff] using h

/-- What stands after a key up to a stop has no influence, whatever stands before and after. -/
theorem masked_value {v w : List α} (hv : ∀ c ∈ v, f.stop c = false)
    (hw : ∀ c ∈ w, f.stop c = false) {d : α} (hd : f.stop d = true) (before after : List α) :
    f.masked (before ++ f.key ++ (v ++ d :: after)) =
      f.masked (before ++ f.key ++ (w ++ d :: after)) := by
  have hvalue : ∀ u, (∀ c ∈ u, f.stop c = false) →
      f.afterValue (u ++ d :: after) = d :: after := by
    intro u hu
    rw [f.afterValue_of_running hu, f.afterValue_stop hd]
  induction hn : before.length using Nat.strongRecOn generalizing before with
  | _ n ih =>
    obtain ⟨i, hi, hfound⟩ := exists_indexOf before f.key
    rw [f.masked_some (indexOf_append hfound (v ++ d :: after) f.key_ne_nil),
      f.masked_some (indexOf_append hfound (w ++ d :: after) f.key_ne_nil)]
    obtain rfl | hlt := Nat.eq_or_lt_of_le hi
    · have hlength : (before ++ f.key).length = before.length + f.key.length := by simp
      simp only [List.take_left' hlength, List.drop_left' hlength, hvalue v hv, hvalue w hw]
    · have hapart := f.key_apart (prefix_of_indexOf hfound) hlt
      have htake : ∀ u, (before ++ f.key ++ u).take (i + f.key.length) =
          before.take (i + f.key.length) := fun u => by
        rw [List.append_assoc, List.take_append_of_le_length hapart]
      have hdrop : ∀ u, (before ++ f.key ++ u).drop (i + f.key.length) =
          before.drop (i + f.key.length) ++ f.key ++ u := fun u => by
        rw [List.append_assoc, List.drop_append_of_le_length hapart, List.append_assoc]
      rw [htake, htake, hdrop, hdrop]
      congr 1
      generalize hrest : before.drop (i + f.key.length) = rest
      have hshort : rest.length < n := by
        have := List.length_pos_iff.mpr f.key_ne_nil
        rw [← hrest, List.length_drop]
        omega
      -- The value of this occurrence ends before the key, or takes the key and its value with it.
      by_cases hafter : f.afterValue rest = []
      · have hskip : ∀ u, f.afterValue (rest ++ f.key ++ u) = f.afterValue u := fun u => by
          rw [List.append_assoc, f.afterValue_of_running (f.afterValue_eq_nil hafter),
            f.afterValue_of_running f.key_running]
        rw [hskip, hskip, hvalue v hv, hvalue w hw]
      · have hstays : ∀ u, f.afterValue (rest ++ f.key ++ u) = f.afterValue rest ++ f.key ++ u :=
          fun u => by
            rw [List.append_assoc, List.append_assoc]
            exact List.dropWhile_append.trans (if_neg (by simpa [afterValue] using hafter))
        rw [hstays, hstays]
        exact ih _ (Nat.lt_of_le_of_lt (f.afterValue_length rest) hshort) _ rfl

end Masking

end Search
