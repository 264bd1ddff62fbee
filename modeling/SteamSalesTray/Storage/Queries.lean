import SteamSalesTray.Lib.Grouping
import SteamSalesTray.Storage.Tables

/-! What the program's `SELECT` statements return, and how they agree on tables that keep the
schema's keys and foreign key. -/

namespace SteamSalesTray.Storage

open Grouping

structure ProductRow where
  appId : Int
  displayName : Bytes
  units : Int
deriving DecidableEq, Repr

/-- `COLLATE NOCASE`: the 26 upper case letters of ASCII count as their lower case. -/
def nocase (name : Bytes) : Bytes :=
  name.map fun b => if 65 ≤ b ∧ b ≤ 90 then b + 32 else b

/-- `ORDER BY units DESC, display_name COLLATE NOCASE`. -/
def ProductRow.Precedes (a b : ProductRow) : Prop :=
  b.units < a.units ∨ a.units = b.units ∧ nocase a.displayName ≤ nocase b.displayName

instance : DecidableRel ProductRow.Precedes :=
  fun a b => inferInstanceAs (Decidable (b.units < a.units ∨
    a.units = b.units ∧ nocase a.displayName ≤ nocase b.displayName))

namespace Tables

/-- `COALESCE(SUM(net_units_sold),0)` over some rows. -/
def sumNet (rows : List DailySales) : Int := (rows.map DailySales.netUnitsSold).sum

def sumForDate (date : Bytes) (t : Tables) : Int := sumNet (t.dateRows date)

def rangeRows (startDate endDate : Bytes) (t : Tables) : List DailySales :=
  t.daily.filter fun r => startDate ≤ r.financialDate ∧ r.financialDate ≤ endDate

def sumForRange (startDate endDate : Bytes) (t : Tables) : Int :=
  sumNet (t.rangeRows startDate endDate)

def sumLifetime (t : Tables) : Int := sumNet t.daily

/-- The rows of the left join of one product with the sales of a date. -/
def leftJoin (date : Bytes) (t : Tables) (p : Product) : List ProductRow :=
  match (t.dateRows date).filter fun r => r.appId = p.appId with
  | [] => [⟨p.appId, p.displayName, 0⟩]
  | rows => rows.map fun r => ⟨p.appId, p.displayName, r.netUnitsSold⟩

def queryDate (date : Bytes) (t : Tables) : List ProductRow :=
  (t.products.flatMap (t.leftJoin date)).insertionSort ProductRow.Precedes

def join (rows : List DailySales) (t : Tables) : List (DailySales × Product) :=
  rows.flatMap fun r => (t.products.filter fun p => p.appId = r.appId).map fun p => (r, p)

/-- `GROUP BY app_id, display_name`. -/
def productKey (x : DailySales × Product) : Int × Bytes := (x.2.appId, x.2.displayName)

/-- Some sales rows joined with their products, `SUM(net_units_sold)` by product. -/
def unitsByProduct (rows : List DailySales) (t : Tables) : List ProductRow :=
  (groupSum productKey (fun x => x.1.netUnitsSold) (t.join rows)).map fun g => ⟨g.1.1, g.1.2, g.2⟩

def groupedUnits (rows : List DailySales) (t : Tables) : List ProductRow :=
  (t.unitsByProduct rows).insertionSort ProductRow.Precedes

def queryRange (startDate endDate : Bytes) (t : Tables) : List ProductRow :=
  t.groupedUnits (t.rangeRows startDate endDate)

def queryLifetime (t : Tables) : List ProductRow := t.groupedUnits t.daily

def storedDates (t : Tables) : List Bytes := (t.daily.map DailySales.financialDate).dedup

/-- The keys of the schema and its foreign key. -/
structure Valid (t : Tables) : Prop where
  productIds : (t.products.map Product.appId).Nodup
  dailyKeys : (t.daily.map fun r => (r.financialDate, r.appId)).Nodup
  known : ∀ r ∈ t.daily, ∃ p ∈ t.products, p.appId = r.appId

theorem valid_fresh : Valid Tables.fresh := ⟨List.nodup_nil, List.nodup_nil, by simp [fresh]⟩

theorem Valid.deleteDate {t : Tables} (h : Valid t) (date : Bytes) : Valid (t.deleteDate date) where
  productIds := h.productIds
  dailyKeys := h.dailyKeys.sublist (List.filter_sublist.map _)
  known r hr := h.known r (List.mem_of_mem_filter hr)

theorem Valid.upsertProduct {t : Tables} (h : Valid t) (p : Product) :
    Valid (t.upsertProduct p) where
  productIds := by
    unfold Tables.upsertProduct
    split
    · have hids : (t.products.map fun q => if q.appId = p.appId then p else q).map Product.appId =
          t.products.map Product.appId := by
        rw [List.map_map]
        apply List.map_congr_left
        intro q _
        by_cases hq : q.appId = p.appId <;> simp [hq]
      exact hids ▸ h.productIds
    · rename_i hnone
      rw [List.map_append, List.map_singleton]
      refine List.Nodup.append h.productIds (List.nodup_singleton _) ?_
      intro x hx hx'
      obtain ⟨q, hq, rfl⟩ := List.mem_map.mp hx
      exact hnone ⟨q, hq, by simpa using hx'⟩
  dailyKeys := by
    rw [upsertProduct_daily]
    exact h.dailyKeys
  known r hr := by
    rw [upsertProduct_daily] at hr
    obtain ⟨q, hq, hqr⟩ := h.known r hr
    exact (mem_upsertProduct p t r.appId).mpr (.inr ⟨q, hq, hqr⟩)

theorem Valid.insertDaily {t t' : Tables} (h : Valid t) {r : DailySales}
    (ht : t.insertDaily r = some t') : Valid t' := by
  unfold Tables.insertDaily at ht
  split at ht
  · cases ht
  · rename_i hok
    cases ht
    simp only [not_or, not_not] at hok
    obtain ⟨hfree, p, hp, hpr⟩ := hok
    refine ⟨h.productIds, ?_, ?_⟩
    · rw [List.map_append, List.map_singleton]
      refine List.Nodup.append h.dailyKeys (List.nodup_singleton _) ?_
      intro x hx hx'
      obtain ⟨s, hs, rfl⟩ := List.mem_map.mp hx
      exact hfree ⟨s, hs, by simpa using hx'⟩
    · intro s hs
      rcases List.mem_append.mp hs with hs | hs
      · exact h.known s hs
      · obtain rfl := List.mem_singleton.mp hs
        exact ⟨p, hp, hpr⟩

theorem Valid.deleteAllDaily {t : Tables} (h : Valid t) : Valid t.deleteAllDaily :=
  ⟨h.productIds, List.nodup_nil, by simp [Tables.deleteAllDaily]⟩

theorem Valid.deleteAllProducts {t t' : Tables} (h : Valid t)
    (ht : t.deleteAllProducts = some t') : Valid t' := by
  unfold Tables.deleteAllProducts at ht
  split at ht
  · cases ht
  · rename_i hnone
    cases ht
    have hempty : t.daily = [] := by
      by_contra hne
      obtain ⟨r, hr⟩ := List.exists_mem_of_ne_nil _ hne
      obtain ⟨p, hp, hpr⟩ := h.known r hr
      exact hnone ⟨r, hr, p, hp, hpr⟩
    exact ⟨List.nodup_nil, h.dailyKeys, by simp [hempty]⟩

theorem Valid.updateSyncState {t : Tables} (h : Valid t) (f : SyncState → SyncState) :
    Valid (t.updateSyncState f) :=
  ⟨h.productIds, h.dailyKeys, h.known⟩

/-! ### The views agree -/

section Views

variable {t : Tables} (h : Valid t)
include h

theorem Valid.dateRow (date : Bytes) (app : Int) :
    (t.dateRows date).filter (fun r => r.appId = app) = [] ∨
      ∃ r, (t.dateRows date).filter (fun r => r.appId = app) = [r] := by
  have hkeys : (((t.dateRows date).filter fun r => r.appId = app).map
      fun r => (r.financialDate, r.appId)).Nodup :=
    h.dailyKeys.sublist ((List.filter_sublist.trans List.filter_sublist).map _)
  have hall : ∀ r ∈ (t.dateRows date).filter (fun r => r.appId = app),
      (r.financialDate, r.appId) = (date, app) := by
    intro r hr
    simp only [dateRows, List.filter_filter, List.mem_filter, Bool.and_eq_true,
      decide_eq_true_eq] at hr
    rw [hr.2.1, hr.2.2]
  generalize (t.dateRows date).filter (fun r => r.appId = app) = rows at hkeys hall ⊢
  rcases rows with _ | ⟨r, _ | ⟨r', rest⟩⟩
  · exact .inl rfl
  · exact .inr ⟨r, rfl⟩
  · have hsame := (hall r (by simp)).trans (hall r' (by simp)).symm
    simp [hsame] at hkeys

theorem Valid.leftJoin_ids (date : Bytes) (p : Product) :
    (t.leftJoin date p).map ProductRow.appId = [p.appId] := by
  unfold leftJoin
  rcases h.dateRow date p.appId with hrows | ⟨r, hrows⟩
  · rw [hrows]
    rfl
  · rw [hrows]
    rfl

omit h in
theorem leftJoin_sum (date : Bytes) (p : Product) :
    ((t.leftJoin date p).map ProductRow.units).sum =
      sumNet ((t.dateRows date).filter fun r => r.appId = p.appId) := by
  unfold leftJoin
  split
  · rename_i hrows
    simp [hrows, sumNet]
  · simp [sumNet, Function.comp_def]

theorem Valid.queryDate_ids (date : Bytes) :
    ((t.queryDate date).map ProductRow.appId).Perm (t.products.map Product.appId) := by
  have hmap : (t.products.flatMap (t.leftJoin date)).map ProductRow.appId =
      t.products.map Product.appId := by
    rw [List.map_flatMap]
    simp only [h.leftJoin_ids, ← List.map_eq_flatMap]
  exact hmap ▸ (List.perm_insertionSort _ _).map _

theorem Valid.queryDate_sum (date : Bytes) :
    ((t.queryDate date).map ProductRow.units).sum = t.sumForDate date := by
  rw [queryDate, ((List.perm_insertionSort _ _).map ProductRow.units).sum_eq, List.map_flatMap,
    List.flatMap, List.sum_flatten, List.map_map]
  have hjoin : (List.sum ∘ fun p => (t.leftJoin date p).map ProductRow.units) =
      fun p => sumNet ((t.dateRows date).filter fun r => r.appId = p.appId) :=
    funext (leftJoin_sum date)
  rw [hjoin, sumForDate, sumNet]
  have hfib := sum_fibers h.productIds DailySales.appId DailySales.netUnitsSold
    (l := t.dateRows date) fun r hr => by
      obtain ⟨p, hp, hpr⟩ := h.known r (List.mem_of_mem_filter hr)
      exact List.mem_map.mpr ⟨p, hp, hpr⟩
  rw [← hfib, List.map_map]
  rfl

theorem Valid.queryDate_units {date : Bytes} {row : ProductRow}
    (hrow : row ∈ t.queryDate date) :
    row.units = sumNet ((t.dateRows date).filter fun r => r.appId = row.appId) := by
  obtain ⟨p, -, hp⟩ := List.mem_flatMap.mp ((List.mem_insertionSort _).mp hrow)
  have hid : row.appId = p.appId := by
    have hmem := List.mem_map_of_mem (f := ProductRow.appId) hp
    rw [h.leftJoin_ids] at hmem
    exact List.mem_singleton.mp hmem
  have hone : t.leftJoin date p = [row] := by
    have hlength := congrArg List.length (h.leftJoin_ids date p)
    rw [List.length_map] at hlength
    obtain ⟨only, honly⟩ := List.length_eq_one_iff.mp hlength
    rw [honly] at hp ⊢
    rw [List.mem_singleton.mp hp]
  have hsum := leftJoin_sum (t := t) date p
  rw [hone, List.map_singleton, List.sum_singleton] at hsum
  rw [hsum, hid]

theorem Valid.productOf {r : DailySales} (hr : r ∈ t.daily) :
    ∃ p ∈ t.products, p.appId = r.appId ∧ t.products.filter (fun p => p.appId = r.appId) = [p] := by
  obtain ⟨p, hp, hpr⟩ := h.known r hr
  refine ⟨p, hp, hpr, ?_⟩
  have hids := h.productIds
  clear hr
  generalize t.products = ps at hp hids
  induction ps with
  | nil => cases hp
  | cons q ps ih =>
    obtain ⟨hq, hps⟩ := List.nodup_cons.mp hids
    rcases List.mem_cons.mp hp with rfl | hp
    · have hrest : ps.filter (fun q => q.appId = r.appId) = [] := by
        rw [List.filter_eq_nil_iff]
        intro q' hq' hsame
        exact hq (List.mem_map.mpr ⟨q', hq', by simpa [hpr] using hsame⟩)
      rw [List.filter_cons_of_pos (by simpa using hpr), hrest]
    · have hne : q.appId ≠ r.appId := by
        intro hsame
        exact hq (List.mem_map.mpr ⟨p, hp, hpr.trans hsame.symm⟩)
      rw [List.filter_cons_of_neg (by simpa using hne)]
      exact ih hp hps

theorem Valid.join_fst {rows : List DailySales} (hrows : ∀ r ∈ rows, r ∈ t.daily) :
    (t.join rows).map Prod.fst = rows := by
  induction rows with
  | nil => rfl
  | cons r rows ih =>
    obtain ⟨p, _, _, hp⟩ := h.productOf (hrows r (by simp))
    have hrest := ih fun r' hr' => hrows r' (by simp [hr'])
    simp only [join, List.flatMap_cons, List.map_append] at hrest ⊢
    rw [hrest, hp]
    rfl

omit h in
theorem mem_join {rows : List DailySales} {x : DailySales × Product} (hx : x ∈ t.join rows) :
    x.1 ∈ rows ∧ x.2 ∈ t.products ∧ x.2.appId = x.1.appId := by
  obtain ⟨r, hr, hx⟩ := List.mem_flatMap.mp hx
  obtain ⟨p, hp, rfl⟩ := List.mem_map.mp hx
  exact ⟨hr, List.mem_of_mem_filter hp, by simpa using (List.mem_filter.mp hp).2⟩

theorem Valid.product_ext {p q : Product} (hp : p ∈ t.products) (hq : q ∈ t.products)
    (hpq : p.appId = q.appId) : p = q :=
  List.inj_on_of_nodup_map h.productIds hp hq hpq

theorem Valid.productKey_eq {rows : List DailySales} {x y : DailySales × Product}
    (hx : x ∈ t.join rows) (hy : y ∈ t.join rows) (hxy : (productKey x).1 = (productKey y).1) :
    productKey x = productKey y := by
  have hsame := h.product_ext (mem_join hx).2.1 (mem_join hy).2.1 hxy
  simp only [productKey, hsame]

omit h in
theorem groupedUnits_perm (rows : List DailySales) :
    (t.groupedUnits rows).Perm (t.unitsByProduct rows) :=
  List.perm_insertionSort _ _

section Grouped

variable {rows : List DailySales} (hrows : ∀ r ∈ rows, r ∈ t.daily)
include hrows

theorem Valid.groupedUnits_sum :
    ((t.groupedUnits rows).map ProductRow.units).sum = sumNet rows := by
  rw [((groupedUnits_perm rows).map ProductRow.units).sum_eq, unitsByProduct, List.map_map]
  have hfst := congrArg (List.map DailySales.netUnitsSold) (h.join_fst hrows)
  rw [List.map_map] at hfst
  rw [sumNet, ← hfst]
  exact sum_groupSum productKey (fun x => x.1.netUnitsSold) (t.join rows)

theorem Valid.mem_groupedUnits_ids (app : Int) :
    app ∈ (t.groupedUnits rows).map ProductRow.appId ↔ ∃ r ∈ rows, r.appId = app := by
  rw [((groupedUnits_perm rows).map ProductRow.appId).mem_iff, unitsByProduct, List.map_map,
    List.mem_map]
  constructor
  · rintro ⟨g, hg, rfl⟩
    obtain ⟨⟨x, hx, hxg⟩, _⟩ := mem_groupSum.mp hg
    refine ⟨x.1, (mem_join hx).1, ?_⟩
    rw [← (mem_join hx).2.2]
    exact congrArg Prod.fst hxg
  · rintro ⟨r, hr, rfl⟩
    obtain ⟨p, _, hpr, hp⟩ := h.productOf (hrows r hr)
    have hx : (r, p) ∈ t.join rows :=
      List.mem_flatMap.mpr ⟨r, hr, List.mem_map.mpr ⟨p, by rw [hp]; simp, rfl⟩⟩
    have hkey : productKey (r, p) ∈ (groupSum productKey (fun x => x.1.netUnitsSold)
        (t.join rows)).map Prod.fst := by
      rw [keys_groupSum]
      exact List.mem_dedup.mpr (List.mem_map_of_mem hx)
    obtain ⟨g, hg, hgk⟩ := List.mem_map.mp hkey
    exact ⟨g, hg, (congrArg Prod.fst hgk).trans hpr⟩

omit hrows in
theorem Valid.nodup_groupedUnits_ids :
    ((t.groupedUnits rows).map ProductRow.appId).Nodup := by
  refine ((groupedUnits_perm rows).map ProductRow.appId).nodup_iff.mpr ?_
  have hnodup := nodup_keys_groupSum productKey (fun x => x.1.netUnitsSold) (t.join rows)
  have hinj := List.Nodup.map_on (f := Prod.fst) ?_ hnodup
  · rw [List.map_map] at hinj
    rw [unitsByProduct, List.map_map]
    exact hinj
  · intro k hk k' hk' hkk
    rw [keys_groupSum, List.mem_dedup, List.mem_map] at hk hk'
    obtain ⟨x, hx, rfl⟩ := hk
    obtain ⟨y, hy, rfl⟩ := hk'
    exact h.productKey_eq hx hy hkk

theorem Valid.groupedUnits_units {row : ProductRow} (hrow : row ∈ t.groupedUnits rows) :
    row.units = sumNet (rows.filter fun r => r.appId = row.appId) := by
  obtain ⟨g, hg, rfl⟩ := List.mem_map.mp ((groupedUnits_perm rows).mem_iff.mp hrow)
  obtain ⟨⟨x0, hx0, hkey0⟩, hsum⟩ := mem_groupSum.mp hg
  have hgroup : ((t.join rows).filter fun x => productKey x = g.1) =
      (t.join rows).filter fun x => x.1.appId = g.1.1 := by
    apply List.filter_congr
    intro x hx
    rw [decide_eq_decide, ← (mem_join hx).2.2]
    constructor
    · exact fun hxg => congrArg Prod.fst hxg
    · intro hxg
      rw [← hkey0]
      exact h.productKey_eq hx hx0 (hxg.trans (congrArg Prod.fst hkey0).symm)
  have hfst : (rows.filter fun r => r.appId = g.1.1) =
      ((t.join rows).filter fun x => x.1.appId = g.1.1).map Prod.fst := by
    conv_lhs => rw [← h.join_fst hrows]
    rw [List.filter_map]
    rfl
  rw [hsum, hgroup, sumNet, hfst, List.map_map]
  rfl

end Grouped

omit h in
/-- The rows of one date of a range. -/
theorem rangeRows_filter {startDate endDate d : Bytes} (hd : startDate ≤ d ∧ d ≤ endDate) :
    ((t.rangeRows startDate endDate).filter fun r => r.financialDate = d) = t.dateRows d := by
  rw [rangeRows, dateRows, List.filter_filter]
  apply List.filter_congr
  intro r _
  by_cases hr : r.financialDate = d
  · simp [hr, hd]
  · simp [hr]

omit h in
theorem sumForRange_eq (startDate endDate : Bytes) :
    t.sumForRange startDate endDate =
      ((t.storedDates.filter fun d => startDate ≤ d ∧ d ≤ endDate).map
        fun d => t.sumForDate d).sum := by
  have hnodup : (t.storedDates.filter fun d => startDate ≤ d ∧ d ≤ endDate).Nodup :=
    (List.nodup_dedup _).filter _
  have hfib := sum_fibers hnodup DailySales.financialDate DailySales.netUnitsSold
    (l := t.rangeRows startDate endDate) fun r hr => by
      obtain ⟨hmem, hin⟩ := List.mem_filter.mp hr
      exact List.mem_filter.mpr ⟨List.mem_dedup.mpr (List.mem_map_of_mem hmem), hin⟩
  rw [sumForRange, sumNet, ← hfib]
  congr 1
  apply List.map_congr_left
  intro d hd
  rw [t.rangeRows_filter (of_decide_eq_true (List.mem_filter.mp hd).2), sumForDate, sumNet]

omit h in
theorem sumLifetime_eq : t.sumLifetime = (t.storedDates.map fun d => t.sumForDate d).sum :=
  (sum_fibers (List.nodup_dedup _) DailySales.financialDate DailySales.netUnitsSold fun _ hr =>
    List.mem_dedup.mpr (List.mem_map_of_mem hr)).symm

end Views

end Tables

end SteamSalesTray.Storage
