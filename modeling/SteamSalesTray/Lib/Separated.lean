import Mathlib.Data.List.Basic

/-! Texts in which a separator stands between groups of one size, counted from the right, as in
`1,234,567`. -/

/-- `text` is `items` with `sep` between each full group of `size` items from the right and the
further items to its left. -/
inductive Separated {α : Type} (sep : α) (size : Nat) : List α → List α → Prop where
  | within {items : List α} (hne : items ≠ []) (hlength : items.length ≤ size) :
      Separated sep size items items
  | group {items text last : List α} (h : Separated sep size items text)
      (hlast : last.length = size) : Separated sep size (items ++ last) (text ++ sep :: last)

namespace Separated

variable {α : Type} {sep : α} {size : Nat} {items text : List α}

theorem items_ne_nil (h : Separated sep size items text) : items ≠ [] := by
  induction h with
  | within hne => exact hne
  | group _ _ ih => exact fun hnil => ih (List.append_eq_nil_iff.mp hnil).1

theorem head? (h : Separated sep size items text) : text.head? = items.head? := by
  induction h with
  | within => rfl
  | @group items text last h hlast ih =>
    obtain ⟨item, rest, rfl⟩ := List.exists_cons_of_ne_nil h.items_ne_nil
    obtain ⟨c, text', rfl⟩ : ∃ c text', text = c :: text' := by
      cases text with
      | nil => cases ih
      | cons c text' => exact ⟨c, text', rfl⟩
    exact ih

/-- Without the separators the items are left. -/
theorem filter_eq [DecidableEq α] (h : Separated sep size items text) (hsep : sep ∉ items) :
    (text.filter fun c => c ≠ sep) = items := by
  have hkeep : ∀ l : List α, sep ∉ l → (l.filter fun c => c ≠ sep) = l := by
    intro l hl
    refine List.filter_eq_self.mpr fun c hc => decide_eq_true ?_
    rintro rfl
    exact hl hc
  induction h with
  | within => exact hkeep _ hsep
  | @group items text last h hlast ih =>
    obtain ⟨hitems, hlast'⟩ : sep ∉ items ∧ sep ∉ last := by simpa using hsep
    rw [List.filter_append, List.filter_cons_of_neg (by simp), ih hitems, hkeep last hlast']

end Separated
