import SteamSalesTray.Storage.Calls
import SteamSalesTray.Sync.Aggregator

/-! `ReplaceDate` as a law on the tables: it replaces the rows of one date, names the products of
the new rows and leaves everything else, or it changes nothing. -/

namespace SteamSalesTray.Storage

open Sync Steam

namespace Tables

/-! ### Products -/

theorem mem_products_upsertProduct (p q : Product) (t : Tables) :
    q ∈ (t.upsertProduct p).products ↔ q = p ∨ q ∈ t.products ∧ q.appId ≠ p.appId := by
  unfold upsertProduct
  split
  · rename_i h
    obtain ⟨q0, hq0, hid⟩ := h
    rw [List.mem_map]
    constructor
    · rintro ⟨q', hq', rfl⟩
      by_cases hq : q'.appId = p.appId
      · exact .inl (if_pos hq)
      · rw [if_neg hq]
        exact .inr ⟨hq', hq⟩
    · rintro (rfl | ⟨hq, hne⟩)
      · exact ⟨q0, hq0, if_pos hid⟩
      · exact ⟨q, hq, if_neg hne⟩
  · rename_i h
    have hne : ∀ q ∈ t.products, q.appId ≠ p.appId := fun q hq hid => h ⟨q, hq, hid⟩
    rw [List.mem_append, List.mem_singleton]
    constructor
    · rintro (hq | rfl)
      · exact .inr ⟨hq, hne q hq⟩
      · exact .inl rfl
    · rintro (rfl | ⟨hq, _⟩)
      · exact .inr rfl
      · exact .inl hq

/-- A product that is stored as it is, and as no other, is not changed by its upsert. -/
theorem upsertProduct_stored {p : Product} {t : Tables} (hp : p ∈ t.products)
    (honly : ∀ q ∈ t.products, q.appId = p.appId → q = p) : t.upsertProduct p = t := by
  unfold upsertProduct
  rw [if_pos ⟨p, hp, rfl⟩]
  have hmap : (t.products.map fun q => if q.appId = p.appId then p else q) = t.products := by
    refine (List.map_congr_left fun q hq => ?_).trans (List.map_id _)
    split
    · rename_i hid
      exact (honly q hq hid).symm
    · rfl
  rw [hmap]

/-- The row of `products` that a sales row stores. -/
def productOf (nowUtc : Bytes) (row : DailyProductRow) : Product :=
  ⟨row.appId, storedName row, nowUtc⟩

theorem storeRow_products (date nowUtc : Bytes) (t : Tables) (row : DailyProductRow) :
    (t.storeRow date nowUtc row).products = (t.upsertProduct (productOf nowUtc row)).products := rfl

theorem mem_products_foldl_storeRow {date nowUtc : Bytes} {rows : List DailyProductRow} {t : Tables}
    (hrows : (rows.map DailyProductRow.appId).Nodup) (q : Product) :
    q ∈ (rows.foldl (storeRow date nowUtc) t).products ↔
      (∃ row ∈ rows, q = productOf nowUtc row) ∨
        q ∈ t.products ∧ q.appId ∉ rows.map DailyProductRow.appId := by
  induction rows generalizing t with
  | nil => simp
  | cons row rows ih =>
    obtain ⟨hrow, hrest⟩ := List.nodup_cons.mp hrows
    rw [List.foldl_cons, ih hrest, storeRow_products, mem_products_upsertProduct]
    have hnew : q = productOf nowUtc row → q.appId ∉ rows.map DailyProductRow.appId := by
      rintro rfl
      exact hrow
    have hid : (productOf nowUtc row).appId = row.appId := rfl
    rw [List.exists_mem_cons_iff]
    simp only [List.map_cons, List.mem_cons, not_or, hid]
    constructor
    · rintro (hlater | ⟨hq | ⟨hq, hne⟩, hnot⟩)
      · exact .inl (.inr hlater)
      · exact .inl (.inl hq)
      · exact .inr ⟨hq, hne, hnot⟩
    · rintro ((hq | hlater) | ⟨hq, hne, hnot⟩)
      · exact .inr ⟨.inl hq, hnew hq⟩
      · exact .inl hlater
      · exact .inr ⟨.inr ⟨hq, hne⟩, hnot⟩

theorem mem_products_replaced {rows : List DailyProductRow}
    (hrows : (rows.map DailyProductRow.appId).Nodup) (date nowUtc : Bytes) (t : Tables)
    (q : Product) :
    q ∈ (t.replaced date rows nowUtc).products ↔
      (∃ row ∈ rows, q = productOf nowUtc row) ∨
        q ∈ t.products ∧ q.appId ∉ rows.map DailyProductRow.appId :=
  mem_products_foldl_storeRow hrows q

theorem foldl_storeRow_products_stored {date nowUtc : Bytes} {rows : List DailyProductRow}
    {t : Tables} (hmem : ∀ row ∈ rows, productOf nowUtc row ∈ t.products)
    (honly : ∀ row ∈ rows, ∀ q ∈ t.products, q.appId = row.appId → q = productOf nowUtc row) :
    (rows.foldl (storeRow date nowUtc) t).products = t.products := by
  induction rows generalizing t with
  | nil => rfl
  | cons row rows ih =>
    have hsame : (t.storeRow date nowUtc row).products = t.products := by
      rw [storeRow_products, upsertProduct_stored (hmem row (by simp)) (honly row (by simp))]
    rw [List.foldl_cons, ih ?_ ?_, hsame]
    · intro row' hrow'
      rw [hsame]
      exact hmem row' (by simp [hrow'])
    · intro row' hrow'
      rw [hsame]
      exact honly row' (by simp [hrow'])

/-! ### Replacing twice -/

theorem replaced_replaced {rows : List DailyProductRow}
    (hrows : (rows.map DailyProductRow.appId).Nodup) (date nowUtc : Bytes) (t : Tables) :
    (t.replaced date rows nowUtc).replaced date rows nowUtc = t.replaced date rows nowUtc := by
  have hproducts : ((t.replaced date rows nowUtc).replaced date rows nowUtc).products =
      (t.replaced date rows nowUtc).products := by
    refine foldl_storeRow_products_stored (t := (t.replaced date rows nowUtc).deleteDate date)
      (fun row hrow => ?_) fun row hrow q hq hid => ?_
    · exact (mem_products_replaced hrows date nowUtc t _).mpr (.inl ⟨row, hrow, rfl⟩)
    · rcases (mem_products_replaced hrows date nowUtc t q).mp hq with ⟨row', hrow', rfl⟩ | ⟨_, hq⟩
      · rw [List.inj_on_of_nodup_map hrows hrow' hrow hid]
      · exact absurd (List.mem_map.mpr ⟨row, hrow, hid.symm⟩) hq
  have hdaily : ((t.replaced date rows nowUtc).replaced date rows nowUtc).daily =
      (t.replaced date rows nowUtc).daily := by
    have hnone : (rows.map (·.toDaily date)).filter (fun r => r.financialDate ≠ date) = [] := by
      simp [DailyProductRow.toDaily]
    simp only [replaced_daily, List.filter_append, List.filter_filter, hnone, List.append_nil,
      Bool.and_self]
  have hsync : ((t.replaced date rows nowUtc).replaced date rows nowUtc).syncState =
      (t.replaced date rows nowUtc).syncState := replaced_syncState _ _ _ _
  generalize (t.replaced date rows nowUtc).replaced date rows nowUtc = twice at *
  generalize t.replaced date rows nowUtc = once at *
  obtain ⟨products, daily, syncState⟩ := twice
  obtain ⟨rfl, rfl, rfl⟩ : products = once.products ∧ daily = once.daily ∧
    syncState = once.syncState := ⟨hproducts, hdaily, hsync⟩
  rfl

theorem replaced_daily_comm {date other : Bytes} (h : other ≠ date)
    (rows rows' : List DailyProductRow) (nowUtc nowUtc' : Bytes) (t : Tables) :
    ((t.replaced date rows nowUtc).replaced other rows' nowUtc').daily.Perm
      ((t.replaced other rows' nowUtc').replaced date rows nowUtc).daily := by
  have hkeep : ∀ {a b : Bytes}, a ≠ b → ∀ rows : List DailyProductRow,
      (rows.map (·.toDaily a)).filter (fun r => r.financialDate ≠ b) = rows.map (·.toDaily a) := by
    intro a b hab rows
    rw [List.filter_eq_self]
    simp [DailyProductRow.toDaily, hab]
  simp only [replaced_daily, List.filter_append, List.filter_filter, hkeep h.symm, hkeep h,
    List.append_assoc]
  have hfilter : (t.daily.filter fun r => decide (r.financialDate ≠ other) &&
      decide (r.financialDate ≠ date)) = t.daily.filter fun r =>
        decide (r.financialDate ≠ date) && decide (r.financialDate ≠ other) :=
    List.filter_congr fun r _ => Bool.and_comm _ _
  rw [hfilter]
  exact (List.perm_append_comm).append_left _

end Tables

/-! ### The call -/

namespace Database

/-- The connection is open, outside any transaction, and keeps the constraints of the schema. -/
structure Ready (db : Database) : Prop where
  isOpen : db.isOpen = true
  outside : db.conn.tx = none
  valid : db.conn.committed.Valid

def afterReplace (date : Bytes) (rows : List DailyProductRow) (nowUtc : Bytes) (db : Database) :
    Database :=
  (db.replaceDate noFaults date rows nowUtc).2

/-- What a call without faults does. -/
structure ReplacesOneDate (date : Bytes) (rows : List DailyProductRow) (nowUtc : Bytes)
    (db : Database) : Prop where
  returns : (db.replaceDate noFaults date rows nowUtc).1 = true ↔
    (rows.map DailyProductRow.appId).Nodup
  aggregated : ∀ records, (db.replaceDate noFaults date (aggregateDate records) nowUtc).1 = true
  ready : (db.afterReplace date rows nowUtc).Ready
  stored : (rows.map DailyProductRow.appId).Nodup →
    (db.afterReplace date rows nowUtc).conn.committed.dateRows date = rows.map (·.toDaily date)
  otherDates : ∀ other, other ≠ date →
    (db.afterReplace date rows nowUtc).conn.committed.dateRows other =
      db.conn.committed.dateRows other
  unnamed : ∀ q : Product, q.appId ∉ rows.map DailyProductRow.appId →
    (q ∈ (db.afterReplace date rows nowUtc).conn.committed.products ↔
      q ∈ db.conn.committed.products)
  named : (rows.map DailyProductRow.appId).Nodup → ∀ row ∈ rows,
    ∃ p ∈ (db.afterReplace date rows nowUtc).conn.committed.products, p.appId = row.appId
  rejected : ¬(rows.map DailyProductRow.appId).Nodup → db.afterReplace date rows nowUtc = db
  twice : (db.afterReplace date rows nowUtc).afterReplace date rows nowUtc =
    db.afterReplace date rows nowUtc
  commutes : ∀ other rows' nowUtc', other ≠ date →
    ((db.afterReplace date rows nowUtc).afterReplace other rows' nowUtc').conn.committed.daily.Perm
      ((db.afterReplace other rows' nowUtc').afterReplace date rows nowUtc).conn.committed.daily

section Replace

variable {db : Database} (h : db.Ready)
include h

theorem Ready.replaceDate_distinct {rows : List DailyProductRow}
    (hrows : (rows.map DailyProductRow.appId).Nodup) (date nowUtc : Bytes) :
    db.replaceDate noFaults date rows nowUtc =
      (true, ⟨db.isOpen, ⟨db.conn.committed.replaced date rows nowUtc, none⟩⟩) :=
  Write.run_noFaults h.isOpen h.outside (w := .replaceDate date rows nowUtc) hrows

omit h in
theorem replaceDate_repeated {rows : List DailyProductRow}
    (hrows : ¬(rows.map DailyProductRow.appId).Nodup) (date nowUtc : Bytes) :
    db.replaceDate noFaults date rows nowUtc = (false, db) :=
  (Write.run_cases noFaults (.replaceDate date rows nowUtc) db).resolve_right fun h =>
    absurd h.1 hrows

theorem Ready.afterReplace_distinct {rows : List DailyProductRow}
    (hrows : (rows.map DailyProductRow.appId).Nodup) (date nowUtc : Bytes) :
    db.afterReplace date rows nowUtc =
      ⟨db.isOpen, ⟨db.conn.committed.replaced date rows nowUtc, none⟩⟩ :=
  congrArg Prod.snd (h.replaceDate_distinct hrows date nowUtc)

omit h in
theorem afterReplace_repeated {rows : List DailyProductRow}
    (hrows : ¬(rows.map DailyProductRow.appId).Nodup) (date nowUtc : Bytes) :
    db.afterReplace date rows nowUtc = db :=
  congrArg Prod.snd (replaceDate_repeated hrows date nowUtc)

theorem Ready.afterReplace (date : Bytes) (rows : List DailyProductRow) (nowUtc : Bytes) :
    (db.afterReplace date rows nowUtc).Ready := by
  by_cases hrows : (rows.map DailyProductRow.appId).Nodup
  · rw [h.afterReplace_distinct hrows]
    exact ⟨h.isOpen, rfl, h.valid.result (w := .replaceDate date rows nowUtc) hrows⟩
  · rw [afterReplace_repeated hrows]
    exact h

theorem Ready.replace_twice (date : Bytes) (rows : List DailyProductRow) (nowUtc : Bytes) :
    (db.afterReplace date rows nowUtc).afterReplace date rows nowUtc =
      db.afterReplace date rows nowUtc := by
  by_cases hrows : (rows.map DailyProductRow.appId).Nodup
  · rw [(h.afterReplace date rows nowUtc).afterReplace_distinct hrows,
      h.afterReplace_distinct hrows, Tables.replaced_replaced hrows]
  · rw [afterReplace_repeated hrows, afterReplace_repeated hrows]

theorem Ready.replace_comm {date other : Bytes} (hdates : other ≠ date)
    (rows rows' : List DailyProductRow) (nowUtc nowUtc' : Bytes) :
    ((db.afterReplace date rows nowUtc).afterReplace other rows' nowUtc').conn.committed.daily.Perm
      ((db.afterReplace other rows' nowUtc').afterReplace date rows nowUtc).conn.committed.daily :=
    by
  by_cases hrows : (rows.map DailyProductRow.appId).Nodup
  · by_cases hrows' : (rows'.map DailyProductRow.appId).Nodup
    · rw [(h.afterReplace date rows nowUtc).afterReplace_distinct hrows',
        h.afterReplace_distinct hrows,
        (h.afterReplace other rows' nowUtc').afterReplace_distinct hrows,
        h.afterReplace_distinct hrows']
      exact Tables.replaced_daily_comm hdates rows rows' nowUtc nowUtc' db.conn.committed
    · rw [afterReplace_repeated hrows', afterReplace_repeated hrows']
  · rw [afterReplace_repeated hrows, afterReplace_repeated hrows]

theorem replaces_one_date (date : Bytes) (rows : List DailyProductRow) (nowUtc : Bytes) :
    db.ReplacesOneDate date rows nowUtc where
  returns := by
    constructor
    · intro hdone
      by_contra hrows
      rw [replaceDate_repeated hrows] at hdone
      cases hdone
    · intro hrows
      rw [h.replaceDate_distinct hrows]
  aggregated records := by
    rw [h.replaceDate_distinct (nodup_aggregateDate records)]
  ready := h.afterReplace date rows nowUtc
  stored hrows := by
    rw [h.afterReplace_distinct hrows]
    exact Tables.dateRows_replaced_self date rows nowUtc db.conn.committed
  otherDates other hother := by
    by_cases hrows : (rows.map DailyProductRow.appId).Nodup
    · rw [h.afterReplace_distinct hrows]
      exact Tables.dateRows_replaced_ne hother rows nowUtc db.conn.committed
    · rw [afterReplace_repeated hrows]
  unnamed q hq := by
    by_cases hrows : (rows.map DailyProductRow.appId).Nodup
    · rw [h.afterReplace_distinct hrows]
      refine (Tables.mem_products_replaced hrows date nowUtc db.conn.committed q).trans ?_
      constructor
      · rintro (⟨row, hrow, rfl⟩ | ⟨hmem, _⟩)
        · exact absurd (List.mem_map.mpr ⟨row, hrow, rfl⟩) hq
        · exact hmem
      · exact fun hmem => .inr ⟨hmem, hq⟩
    · rw [afterReplace_repeated hrows]
  named hrows row hrow := by
    rw [h.afterReplace_distinct hrows]
    exact ⟨Tables.productOf nowUtc row, (Tables.mem_products_replaced hrows date nowUtc
      db.conn.committed _).mpr (.inl ⟨row, hrow, rfl⟩), rfl⟩
  rejected hrows := afterReplace_repeated hrows date nowUtc
  twice := h.replace_twice date rows nowUtc
  commutes other rows' nowUtc' hother := h.replace_comm hother rows rows' nowUtc nowUtc'

end Replace

theorem ready_fresh : Database.fresh.Ready := ⟨rfl, rfl, Tables.valid_fresh⟩

/-- One product on the first date, and that one and another on the second. -/
def twoDates : Database :=
  (Database.fresh.afterReplace (ascii "2026/07/17") [⟨480, ascii "git gud", 3, 4, 1⟩]
    (ascii "2026-07-19T00:00:00Z")).afterReplace (ascii "2026/07/18")
      [⟨480, ascii "git gud", 1, 1, 0⟩, ⟨570, [], 2, 2, 0⟩] (ascii "2026-07-19T00:00:00Z")

theorem replaces_one_date_twoDates :
    let rows := [⟨570, ascii "two", 5, 5, 0⟩, ⟨730, [], 1, 2, 1⟩]
    (twoDates.replaceDate noFaults (ascii "2026/07/18") rows (ascii "2026-07-20T00:00:00Z")).1 =
        true ∧ twoDates.conn.committed.daily.length = 3 ∧
      twoDates.ReplacesOneDate (ascii "2026/07/18") rows (ascii "2026-07-20T00:00:00Z") :=
  ⟨by decide +kernel, by decide +kernel,
    replaces_one_date ((ready_fresh.afterReplace _ _ _).afterReplace _ _ _) _ _ _⟩

end Database

end SteamSalesTray.Storage
