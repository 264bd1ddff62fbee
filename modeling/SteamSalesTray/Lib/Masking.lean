import SteamSalesTray.Lib.Search

/-! What a masked text is, said without a search: which parts of the text are kept, what every
occurrence of the key is followed by, and that masking it once more changes nothing. -/

namespace Search

variable {α : Type}

/-- The key occurs in the text at no place before `n`. -/
def AbsentBefore (key : List α) (n : Nat) (text : List α) : Prop :=
  ∀ i < n, ¬key <+: text.drop i

namespace Masking

variable (f : Masking α)

/-- The text is at its end or begins with a character that ends a value. -/
def Stopped (text : List α) : Prop := ∀ c ∈ text.head?, f.stop c = true

/-- `out` is `text` with the value after each key replaced by the mask, from left to right. -/
inductive Masks : List α → List α → Prop where
  | plain {text : List α} (habsent : ∀ i, ¬f.key <+: text.drop i) : Masks text text
  /-- The first key of the text, the value up to the next stop or the end, and the rest. -/
  | key {before value rest out : List α}
      (hfirst : AbsentBefore f.key before.length (before ++ f.key ++ (value ++ rest)))
      (hvalue : ∀ c ∈ value, f.stop c = false) (hrest : f.Stopped rest) (hout : Masks rest out) :
      Masks (before ++ f.key ++ (value ++ rest)) (before ++ f.key ++ (f.mask ++ out))

/-- Every key in the text is followed by the mask, and this by a stop or the end. -/
def Covered (text : List α) : Prop :=
  ∀ i, f.key <+: text.drop i →
    ∃ rest, text.drop (i + f.key.length) = f.mask ++ rest ∧ f.Stopped rest

end Masking

section Occurrences

variable [DecidableEq α] {needle : List α}

theorem absentBefore_of_indexOf {text : List α} {i : Nat} (h : indexOf needle text = some i) :
    AbsentBefore needle i text := by
  induction text generalizing i with
  | nil =>
    unfold indexOf at h
    split at h
    · obtain rfl := Option.some.inj h
      exact fun j hj => absurd hj (Nat.not_lt_zero j)
    · cases h
  | cons c rest ih =>
    unfold indexOf at h
    split at h
    · obtain rfl := Option.some.inj h
      exact fun j hj => absurd hj (Nat.not_lt_zero j)
    · rename_i hnot
      obtain ⟨k, hk, rfl⟩ := Option.map_eq_some_iff.mp h
      intro j hj
      cases j with
      | zero => exact hnot
      | succ j => exact ih hk j (by omega)

theorem absent_of_indexOf (hneedle : needle ≠ []) {text : List α} (h : indexOf needle text = none)
    (i : Nat) : ¬needle <+: text.drop i := by
  induction text generalizing i with
  | nil => simpa using hneedle
  | cons c rest ih =>
    unfold indexOf at h
    split at h
    · cases h
    · rename_i hnot
      cases i with
      | zero => exact hnot
      | succ i => exact ih (Option.map_eq_none_iff.mp h) i

theorem indexOf_of_absent {text : List α} (h : ∀ i, ¬needle <+: text.drop i) :
    indexOf needle text = none := by
  cases hi : indexOf needle text with
  | none => rfl
  | some i => exact absurd (prefix_of_indexOf hi) (h i)

theorem indexOf_of_first (hneedle : needle ≠ []) {text : List α} {i : Nat}
    (hfirst : AbsentBefore needle i text) (hi : needle <+: text.drop i) :
    indexOf needle text = some i := by
  cases hfound : indexOf needle text with
  | none => exact absurd hi (absent_of_indexOf hneedle hfound i)
  | some j =>
    rcases Nat.lt_trichotomy i j with hlt | rfl | hgt
    · exact absurd hi (absentBefore_of_indexOf hfound i hlt)
    · rfl
    · exact absurd (prefix_of_indexOf hfound) (hfirst j hgt)

end Occurrences

namespace Masking

variable [DecidableEq α] (f : Masking α)

omit [DecidableEq α] in
theorem stopped_afterValue (text : List α) : f.Stopped (f.afterValue text) := by
  intro c hc
  have h := List.head?_dropWhile_not (fun c => !f.stop c) text
  rw [← afterValue, Option.mem_def.mp hc] at h
  simpa using h

variable {f}

omit [DecidableEq α] in
theorem Stopped.afterValue_eq {text : List α} (h : f.Stopped text) : f.afterValue text = text := by
  cases text with
  | nil => rfl
  | cons c rest => exact f.afterValue_stop (h c rfl) rest

/-- A text in which the key comes first at `before.length`, with a value that ends at `rest`. -/
theorem masked_key {before value rest : List α}
    (hfirst : AbsentBefore f.key before.length (before ++ f.key ++ (value ++ rest)))
    (hvalue : ∀ c ∈ value, f.stop c = false) (hrest : f.Stopped rest) :
    f.masked (before ++ f.key ++ (value ++ rest)) =
      before ++ f.key ++ (f.mask ++ f.masked rest) := by
  have hlength : (before ++ f.key).length = before.length + f.key.length := List.length_append
  have hfound := indexOf_of_first f.key_ne_nil hfirst (by simp)
  rw [f.masked_some hfound, List.take_left' hlength, List.drop_left' hlength,
    f.afterValue_of_running hvalue, hrest.afterValue_eq, List.append_assoc]

variable (f)

theorem masks_masked (text : List α) : f.Masks text (f.masked text) := by
  induction text using masked.induct (f := f) with
  | case1 text h =>
    rw [f.masked_none h]
    exact .plain (absent_of_indexOf f.key_ne_nil h)
  | case2 text i h ih =>
    obtain ⟨tail, htail⟩ := prefix_of_indexOf h
    have htext : text.take i ++ f.key ++
        (tail.takeWhile (fun c => !f.stop c) ++ f.afterValue tail) = text := by
      rw [afterValue, List.takeWhile_append_dropWhile, List.append_assoc, htail,
        List.take_append_drop]
    have hlength : (text.take i).length = i := by
      have := indexOf_bound f.key_ne_nil h
      rw [List.length_take]
      omega
    have hdrop : text.drop (i + f.key.length) = tail := by
      rw [← List.drop_drop, ← htail, List.drop_left]
    have hvalue : ∀ c ∈ tail.takeWhile (fun c => !f.stop c), f.stop c = false := fun c hc => by
      simpa using List.mem_takeWhile_imp hc
    have hfirst : AbsentBefore f.key (text.take i).length text := by
      rw [hlength]
      exact absentBefore_of_indexOf h
    rw [hdrop] at ih
    generalize text.take i = before at htext hlength hfirst
    subst htext
    rw [masked_key hfirst hvalue (f.stopped_afterValue tail)]
    exact .key hfirst hvalue (f.stopped_afterValue tail) ih

/-- The masked text is the one text that replaces every value and nothing else. -/
theorem masks_iff {text out : List α} : f.Masks text out ↔ out = f.masked text := by
  constructor
  · intro h
    induction h with
    | plain habsent => exact (f.masked_none (indexOf_of_absent habsent)).symm
    | key hfirst hvalue hrest _ ih => rw [masked_key hfirst hvalue hrest, ih]
  · rintro rfl
    exact f.masks_masked text

/-! ### The keys of a masked text -/

section Covered

variable {f} {before rest : List α}

omit [DecidableEq α] in
/-- Whether the key occurs at `i` is decided by the characters up to its end. -/
theorem key_prefix_short {front : List α} {i : Nat} (h : i + f.key.length ≤ front.length)
    (tail : List α) : f.key <+: (front ++ tail).drop i ↔ f.key <+: front.drop i := by
  rw [List.drop_append_of_le_length (by omega)]
  constructor
  · intro hprefix
    refine List.prefix_of_prefix_length_le hprefix (List.prefix_append _ tail) ?_
    rw [List.length_drop]
    omega
  · exact fun hprefix => hprefix.trans (List.prefix_append _ tail)

omit [DecidableEq α] in
theorem absentBefore_key {tail tail' : List α}
    (h : AbsentBefore f.key before.length (before ++ f.key ++ tail)) :
    AbsentBefore f.key before.length (before ++ f.key ++ tail') := by
  intro i hi hprefix
  have hshort : i + f.key.length ≤ (before ++ f.key).length := by
    rw [List.length_append]
    omega
  exact h i hi ((key_prefix_short hshort tail).mpr ((key_prefix_short hshort tail').mp hprefix))

omit [DecidableEq α] in
/-- Where a key occurs after a first one that is masked: in what follows the mask. -/
theorem key_after_mask (hmask : ∀ c ∈ f.mask, c ∉ f.key) {i : Nat}
    (hi : before.length < i) (h : f.key <+: (before ++ f.key ++ (f.mask ++ rest)).drop i) :
    ∃ j, i = (before ++ f.key ++ f.mask).length + j := by
  obtain ⟨c, key, hkey⟩ := List.exists_cons_of_ne_nil f.key_ne_nil
  rcases Nat.lt_or_ge i (before.length + f.key.length) with hinside | hbeyond
  · -- The key would begin with an end of its own.
    have hdrop : (before ++ f.key ++ (f.mask ++ rest)).drop i =
        f.key.drop (i - before.length) ++ (f.mask ++ rest) := by
      rw [List.append_assoc, List.drop_append, List.drop_eq_nil_of_le (Nat.le_of_lt hi),
        List.nil_append, List.drop_append_of_le_length (by omega)]
    rw [hdrop] at h
    refine absurd (List.prefix_of_prefix_length_le (List.prefix_append _ _) h ?_)
      (f.key_borderless (i - before.length) (by omega) (by omega))
    rw [List.length_drop]
    omega
  · rcases Nat.lt_or_ge i (before ++ f.key ++ f.mask).length with hinside | hbeyond
    · -- The key would begin with a character of the mask.
      have hlength : (before ++ f.key).length = before.length + f.key.length := List.length_append
      rw [List.length_append, hlength] at hinside
      have hdrop : (before ++ f.key ++ (f.mask ++ rest)).drop i =
          f.mask.drop (i - (before ++ f.key).length) ++ rest := by
        rw [List.drop_append, List.drop_eq_nil_of_le (by omega), List.nil_append,
          List.drop_append_of_le_length (by omega)]
      obtain ⟨m, mask, hm⟩ := List.exists_cons_of_ne_nil
        (l := f.mask.drop (i - (before ++ f.key).length)) (by simp; omega)
      have hmem : m ∈ f.mask := List.mem_of_mem_drop (by rw [hm]; exact List.mem_cons_self)
      rw [hdrop, hm, hkey, List.cons_append, List.cons_prefix_cons] at h
      refine absurd ?_ (hmask m hmem)
      rw [hkey, h.1]
      exact List.mem_cons_self
    · exact ⟨i - (before ++ f.key ++ f.mask).length, by omega⟩

omit [DecidableEq α] in
theorem Covered.tail {front : List α} (h : f.Covered (front ++ rest)) : f.Covered rest := by
  intro i hi
  obtain ⟨rest', hdrop, hrest'⟩ := h (front.length + i) (by simpa using hi)
  exact ⟨rest', by simpa [Nat.add_assoc] using hdrop, hrest'⟩

omit [DecidableEq α] in
theorem Covered.key (hmask : ∀ c ∈ f.mask, c ∉ f.key) {tail : List α}
    (hfirst : AbsentBefore f.key before.length (before ++ f.key ++ tail)) (hrest : f.Stopped rest)
    (h : f.Covered rest) : f.Covered (before ++ f.key ++ (f.mask ++ rest)) := by
  intro i hi
  rcases Nat.lt_trichotomy i before.length with hlt | rfl | hgt
  · exact absurd hi (absentBefore_key hfirst i hlt)
  · exact ⟨rest, List.drop_left' List.length_append, hrest⟩
  · obtain ⟨j, rfl⟩ := key_after_mask hmask hgt hi
    rw [← List.append_assoc] at hi ⊢
    rw [List.drop_length_add_append] at hi
    obtain ⟨rest', hdrop, hrest'⟩ := h j hi
    refine ⟨rest', ?_, hrest'⟩
    rw [Nat.add_assoc, List.drop_length_add_append, hdrop]

theorem stopped_masked {text : List α} (h : f.Stopped text) : f.Stopped (f.masked text) := by
  have hout := f.masks_masked text
  generalize f.masked text = out at hout
  cases hout with
  | plain _ => exact h
  | key _ _ _ _ =>
    intro c hc
    have hkey := f.key_ne_nil
    rw [List.head?_append_of_ne_nil _ (by simp [hkey])] at hc
    refine h c ?_
    rwa [List.head?_append_of_ne_nil _ (by simp [hkey])]

end Covered

theorem covered_masked (hmask : ∀ c ∈ f.mask, c ∉ f.key) (text : List α) :
    f.Covered (f.masked text) := by
  have h := f.masks_masked text
  generalize f.masked text = out at h
  induction h with
  | plain habsent => exact fun i hi => absurd hi (habsent i)
  | key hfirst hvalue hrest hout ih =>
    rw [f.masks_iff.mp hout] at ih ⊢
    exact Covered.key hmask hfirst (stopped_masked hrest) ih

/-- Where every key is covered, its value is the mask already. -/
theorem masked_of_covered (hmask : ∀ c ∈ f.mask, f.stop c = false) {text : List α}
    (h : f.Covered text) : f.masked text = text := by
  have hout := f.masks_masked text
  generalize f.masked text = out at hout
  induction hout with
  | plain _ => rfl
  | @key before value rest out hfirst hvalue hrest _ ih =>
    have hlength : (before ++ f.key).length = before.length + f.key.length := List.length_append
    obtain ⟨rest', hdrop, hrest'⟩ := h before.length (by simp)
    rw [List.drop_left' hlength] at hdrop
    -- What follows the mask is what follows the value.
    have hafter := congrArg f.afterValue hdrop
    rw [f.afterValue_of_running hvalue, hrest.afterValue_eq, f.afterValue_of_running hmask,
      hrest'.afterValue_eq] at hafter
    subst hafter
    rw [List.append_cancel_right hdrop, ih]
    rw [← List.append_assoc] at h
    exact h.tail

theorem masked_masked (hstop : ∀ c ∈ f.mask, f.stop c = false) (hmask : ∀ c ∈ f.mask, c ∉ f.key)
    (text : List α) : f.masked (f.masked text) = f.masked text :=
  f.masked_of_covered hstop (f.covered_masked hmask text)

end Masking

end Search
