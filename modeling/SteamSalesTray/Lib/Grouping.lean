import Mathlib.Algebra.BigOperators.Group.List.Basic
import Mathlib.Algebra.Order.Group.Int.Sum
import Mathlib.Data.List.Dedup
import Mathlib.Data.List.Sort

/-! Sums of a list of rows by group, as `GROUP BY` computes them, and groups in the order in which
their keys are first seen, as a loop computes them that keeps one value for each key. -/

namespace Grouping

variable {α κ : Type} [DecidableEq κ]

/-- One pair for each key that occurs, with the sum of `f` over the rows of that key. -/
def groupSum (key : α → κ) (f : α → Int) (l : List α) : List (κ × Int) :=
  (l.map key).dedup.map fun k => (k, ((l.filter fun a => key a = k).map f).sum)

theorem keys_groupSum (key : α → κ) (f : α → Int) (l : List α) :
    (groupSum key f l).map Prod.fst = (l.map key).dedup := by
  simp [groupSum, Function.comp_def]

theorem nodup_keys_groupSum (key : α → κ) (f : α → Int) (l : List α) :
    ((groupSum key f l).map Prod.fst).Nodup := by
  rw [keys_groupSum]
  exact List.nodup_dedup _

theorem mem_groupSum {key : α → κ} {f : α → Int} {l : List α} {p : κ × Int} :
    p ∈ groupSum key f l ↔
      (∃ a ∈ l, key a = p.1) ∧ p.2 = ((l.filter fun a => key a = p.1).map f).sum := by
  obtain ⟨k, x⟩ := p
  simp only [groupSum, List.mem_map, List.mem_dedup, Prod.mk.injEq]
  constructor
  · rintro ⟨_, ⟨a, ha, rfl⟩, rfl, rfl⟩
    exact ⟨⟨a, ha, rfl⟩, rfl⟩
  · rintro ⟨hkey, hx⟩
    exact ⟨k, hkey, rfl, hx.symm⟩

theorem sum_ite_key {ks : List κ} (hks : ks.Nodup) {k₀ : κ} (hk : k₀ ∈ ks) (x : Int) :
    (ks.map fun k => if k₀ = k then x else 0).sum = x := by
  have h := List.sum_map_ite_eq ks (fun _ => x) (fun _ => 0) k₀
  simpa [eq_comm, List.count_eq_one_of_mem hks hk] using h

/-- The rows with none of the keys. -/
def others (key : α → κ) (ks : List κ) (l : List α) : List α := l.filter fun a => key a ∉ ks

theorem others_append (key : α → κ) (ks : List κ) (l l' : List α) :
    others key ks (l ++ l') = others key ks l ++ others key ks l' := List.filter_append ..

theorem others_concat (key : α → κ) (ks : List κ) (k : κ) (l : List α) :
    others key (ks ++ [k]) l = (others key ks l).filter fun a => key a ≠ k := by
  unfold others
  rw [List.filter_filter]
  refine List.filter_congr fun a _ => ?_
  simp [not_or, and_comm]

theorem others_dedup (key : α → κ) (ks : List κ) (l : List α) :
    others key ks.dedup l = others key ks l :=
  List.filter_congr fun _ _ => by simp

theorem others_filter (key : α → κ) (ks : List κ) (p : α → Bool) (l : List α) :
    others key ks (l.filter p) = (others key ks l).filter p := by
  simp [others, List.filter_filter, Bool.and_comm]

theorem others_eq_nil {key : α → κ} {ks : List κ} {l : List α} (h : ∀ a ∈ l, key a ∈ ks) :
    others key ks l = [] :=
  List.filter_eq_nil_iff.mpr fun a ha => by simpa using h a ha

/-- The sum of the rows, split into those of the other keys and the groups of some distinct keys. -/
theorem sum_split {ks : List κ} (hks : ks.Nodup) (key : α → κ) (f : α → Int) (l : List α) :
    (l.map f).sum = ((others key ks l).map f).sum +
      (ks.map fun k => ((l.filter fun a => key a = k).map f).sum).sum := by
  unfold others
  induction l with
  | nil => simp
  | cons a l ih =>
    have hstep : ∀ k, (((a :: l).filter fun b => key b = k).map f).sum =
        (if key a = k then f a else 0) + ((l.filter fun b => key b = k).map f).sum := by
      intro k
      by_cases h : key a = k
      · simp [h]
      · simp [h]
    simp only [hstep]
    rw [List.sum_map_add, List.map_cons, List.sum_cons, ih]
    by_cases h : key a ∈ ks
    · rw [sum_ite_key hks h, List.filter_cons_of_neg (by simpa using h)]
      omega
    · have hnone : (ks.map fun k => if key a = k then f a else 0).sum = 0 := by
        refine List.sum_eq_zero fun x hx => ?_
        obtain ⟨k, hk, rfl⟩ := List.mem_map.mp hx
        refine if_neg ?_
        rintro rfl
        exact h hk
      rw [hnone, List.filter_cons_of_pos (by simpa using h), List.map_cons, List.sum_cons]
      omega

/-- Distinct keys that cover every row split the sum of the rows. -/
theorem sum_fibers {ks : List κ} (hks : ks.Nodup) (key : α → κ) (f : α → Int) {l : List α}
    (hl : ∀ a ∈ l, key a ∈ ks) :
    (ks.map fun k => ((l.filter fun a => key a = k).map f).sum).sum = (l.map f).sum := by
  rw [sum_split hks key f l, others_eq_nil hl]
  simp

/-- The sums of the groups add up to the sum of the rows. -/
theorem sum_groupSum (key : α → κ) (f : α → Int) (l : List α) :
    ((groupSum key f l).map Prod.snd).sum = (l.map f).sum := by
  have h := sum_fibers (List.nodup_dedup (l.map key)) key f (l := l)
    fun a ha => List.mem_dedup.mpr (List.mem_map_of_mem ha)
  simpa [groupSum, Function.comp_def] using h

/-! ### Groups in first-seen order -/

theorem eraseDups_concat (l : List κ) (k : κ) :
    (l ++ [k]).eraseDups = if k ∈ l then l.eraseDups else l.eraseDups ++ [k] := by
  rw [List.eraseDups_append]
  by_cases h : k ∈ l
  · simp [List.removeAll, h]
  · simp [List.removeAll, h, List.eraseDups_cons]

theorem nodup_eraseDups (l : List κ) : l.eraseDups.Nodup := by
  induction l using List.reverseRecOn with
  | nil => exact .nil
  | append_singleton l k ih =>
    rw [eraseDups_concat]
    split
    · exact ih
    · rename_i h
      simpa using ih.concat (by simpa using h)

theorem eraseDups_filter (p : κ → Bool) (l : List κ) :
    (l.filter p).eraseDups = l.eraseDups.filter p := by
  induction l using List.reverseRecOn with
  | nil => rfl
  | append_singleton l k ih =>
    rw [List.filter_append, eraseDups_concat]
    by_cases hp : p k = true
    · rw [List.filter_cons_of_pos hp, List.filter_nil, eraseDups_concat, ih]
      by_cases h : k ∈ l <;> simp [h, hp]
    · rw [List.filter_cons_of_neg hp, List.filter_nil, List.append_nil, ih]
      by_cases h : k ∈ l <;> simp [h, hp]

/-- The rows of one key. -/
def fiber (key : α → κ) (l : List α) (k : κ) : List α := l.filter fun a => key a = k

/-- One value for each key that occurs, made of its rows, in the order of the keys' first rows. -/
def groupMap {β : Type} (key : α → κ) (value : κ → List α → β) (l : List α) : List β :=
  (l.map key).eraseDups.map fun k => value k (fiber key l k)

/-- The values of `later` are merged into those of the same key, and follow where there is none. -/
def mergeBy {β : Type} (key : β → κ) (merge : β → β → β) (rows later : List β) : List β :=
  (rows.map fun row => ((later.find? fun r => key r = key row).map (merge row)).getD row) ++
    later.filter fun r => key r ∉ rows.map key

section GroupMap

variable {β : Type} (key : α → κ) {value : κ → List α → β} {keyOf : β → κ}

theorem fiber_append (l l' : List α) (k : κ) :
    fiber key (l ++ l') k = fiber key l k ++ fiber key l' k := List.filter_append ..

theorem fiber_eq_nil {l : List α} {k : κ} : fiber key l k = [] ↔ k ∉ l.map key := by
  simp [fiber, List.filter_eq_nil_iff]

variable (hkey : ∀ k l, keyOf (value k l) = k)
include hkey

theorem keys_groupMap (l : List α) : (groupMap key value l).map keyOf = (l.map key).eraseDups := by
  unfold groupMap
  rw [List.map_map]
  exact (List.map_congr_left fun k _ => hkey k _).trans (List.map_id _)

theorem nodup_keys_groupMap (l : List α) : ((groupMap key value l).map keyOf).Nodup := by
  rw [keys_groupMap key hkey]
  exact nodup_eraseDups _

theorem find_groupMap (l : List α) (k : κ) :
    ((groupMap key value l).find? fun r => keyOf r = k) =
      if k ∈ l.map key then some (value k (fiber key l k)) else none := by
  have hfind : ∀ ks : List κ,
      ((ks.map fun k => value k (fiber key l k)).find? fun r => keyOf r = k) =
        if k ∈ ks then some (value k (fiber key l k)) else none := by
    intro ks
    induction ks with
    | nil => rfl
    | cons k' ks ih =>
      by_cases h : k' = k
      · subst h
        simp [hkey]
      · have h' : k ≠ k' := Ne.symm h
        simpa [List.find?_cons, hkey, h, h'] using ih
  unfold groupMap
  rw [hfind]
  simp

theorem filter_groupMap (l : List α) (k : κ) :
    ((groupMap key value l).filter fun r => keyOf r = k) =
      if k ∈ l.map key then [value k (fiber key l k)] else [] := by
  have hsame : ((fun r => decide (keyOf r = k)) ∘ fun k => value k (fiber key l k)) =
      fun k' => decide (k' = k) := by
    funext k'
    simp only [Function.comp_apply, hkey]
  unfold groupMap
  rw [List.filter_map, hsame, List.filter_eq]
  split
  · rename_i hk
    rw [List.count_eq_one_of_mem (nodup_eraseDups _) (List.mem_eraseDups.mpr hk)]
    rfl
  · rename_i hk
    rw [List.count_eq_zero_of_not_mem (mt List.mem_eraseDups.mp hk)]
    rfl

/-- The groups of a concatenation are the merged groups of its parts. -/
theorem groupMap_append {merge : β → β → β}
    (hmerge : ∀ k l l', l ≠ [] → l' ≠ [] → value k (l ++ l') = merge (value k l) (value k l'))
    (l l' : List α) :
    groupMap key value (l ++ l') =
      mergeBy keyOf merge (groupMap key value l) (groupMap key value l') := by
  have hold : ∀ k ∈ (l.map key).eraseDups, value k (fiber key (l ++ l') k) =
      (((groupMap key value l').find? fun r => keyOf r = k).map
        (merge (value k (fiber key l k)))).getD (value k (fiber key l k)) := by
    intro k hk
    have hne : fiber key l k ≠ [] := mt (fiber_eq_nil key).mp (not_not.mpr (by simpa using hk))
    rw [find_groupMap key hkey, fiber_append]
    by_cases hk' : k ∈ l'.map key
    · rw [if_pos hk']
      exact hmerge k _ _ hne (mt (fiber_eq_nil key).mp (not_not.mpr hk'))
    · rw [if_neg hk', (fiber_eq_nil key).mpr hk', List.append_nil]
      rfl
  have hnew : ∀ k, k ∉ l.map key → value k (fiber key (l ++ l') k) = value k (fiber key l' k) := by
    intro k hk
    rw [fiber_append, (fiber_eq_nil key).mpr hk, List.nil_append]
  have hkeys : (l'.map key).removeAll (l.map key) =
      (l'.map key).filter fun k => k ∉ l.map key := by
    simp only [List.removeAll, List.elem_eq_mem, decide_not]
  unfold mergeBy
  rw [keys_groupMap key hkey]
  conv_lhs => rw [groupMap, List.map_append, List.eraseDups_append, List.map_append, hkeys,
    eraseDups_filter]
  congr 1
  · have hgroups : groupMap key value l =
      (l.map key).eraseDups.map fun k => value k (fiber key l k) := rfl
    rw [hgroups, List.map_map]
    refine List.map_congr_left fun k hk => ?_
    rw [hold k hk, Function.comp_apply, hkey]
  · conv_rhs => rw [groupMap, List.filter_map]
    have hsame : ((fun r => decide (keyOf r ∉ (l.map key).eraseDups)) ∘
        fun k => value k (fiber key l' k)) = fun k => decide (k ∉ l.map key) := by
      funext k
      simp only [Function.comp_apply, hkey, List.mem_eraseDups]
    rw [hsame]
    refine List.map_congr_left fun k hk => hnew k ?_
    simpa using (List.mem_filter.mp hk).2

end GroupMap

end Grouping
