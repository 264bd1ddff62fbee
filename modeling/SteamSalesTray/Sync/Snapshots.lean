import SteamSalesTray.Storage.Calls
import SteamSalesTray.Sync.Notification

/-! What the two snapshots of a pass say about the tables that they are taken of. -/

namespace SteamSalesTray.Sync

open Storage

def lifetimeUnits (t : Tables) (app : Int) : Int :=
  Tables.sumNet (t.daily.filter fun r => r.appId = app)

def HasRows (t : Tables) (app : Int) : Prop := ∃ r ∈ t.daily, r.appId = app

theorem lifetimeUnits_congr {t t' : Tables} (h : t'.daily = t.daily) (app : Int) :
    lifetimeUnits t' app = lifetimeUnits t app := by
  unfold lifetimeUnits
  rw [h]

theorem lifetimeUnits_of_not_hasRows {t : Tables} {app : Int} (h : ¬HasRows t app) :
    lifetimeUnits t app = 0 := by
  have hnone : (t.daily.filter fun r => r.appId = app) = [] :=
    List.filter_eq_nil_iff.mpr fun r hr hsame => h ⟨r, hr, by simpa using hsame⟩
  rw [lifetimeUnits, hnone]
  rfl

namespace Snapshot

def entryOf (row : ProductUnits) : Int × AppLifetime := (row.appId, ⟨row.displayName, row.units⟩)

theorem ofRows_eq {rows : List ProductUnits} (h : (rows.map ProductUnits.appId).Nodup) :
    ofRows rows = rows.map entryOf := by
  suffices hfold : ∀ map : Snapshot, (∀ row ∈ rows, ∀ entry ∈ map, entry.1 ≠ row.appId) →
      rows.foldl assign map = map ++ rows.map entryOf from hfold [] (by simp)
  induction rows with
  | nil => simp
  | cons row rows ih =>
    intro map hmap
    obtain ⟨hrow, hrows⟩ := List.nodup_cons.mp h
    have hassign : assign map row = map ++ [entryOf row] := by
      unfold assign
      have hkept : ∀ entry ∈ map, (entry.1 ≠ row.appId : Bool) = true := fun entry hentry => by
        simpa using hmap row (by simp) entry hentry
      rw [List.filter_eq_self.mpr hkept]
      rfl
    rw [List.foldl_cons, hassign, ih hrows, List.append_assoc]
    · rfl
    · intro row' hrow' entry hentry
      rcases List.mem_append.mp hentry with hentry | hentry
      · exact hmap row' (by simp [hrow']) entry hentry
      · obtain rfl := List.mem_singleton.mp hentry
        exact fun hsame => hrow (List.mem_map.mpr ⟨row', hrow', hsame.symm⟩)

theorem unitsOf_map_entryOf {rows : List ProductUnits} {app units : Int}
    (hrows : ∀ row ∈ rows, row.appId = app → row.units = units)
    (hnone : app ∉ rows.map ProductUnits.appId → units = 0) :
    unitsOf (rows.map entryOf) app = units := by
  unfold unitsOf
  induction rows with
  | nil => exact (hnone List.not_mem_nil).symm
  | cons row rows ih =>
    rw [List.map_cons, entryOf, List.lookup_cons]
    by_cases happ : app = row.appId
    · rw [beq_iff_eq.mpr happ]
      exact hrows row (by simp) happ.symm
    · rw [beq_false_of_ne happ]
      exact ih (fun row' hrow' => hrows row' (by simp [hrow']))
        fun hrest => hnone (by simpa [happ] using hrest)

end Snapshot

/-- The map has the lifetime units of every product, 0 where there are no rows. -/
def Records (map : Snapshot) (t : Tables) : Prop := ∀ app, map.unitsOf app = lifetimeUnits t app

/-- The entries are of the products with rows, with their lifetime units. -/
structure Reports (entries : Snapshot) (t : Tables) : Prop where
  units : ∀ entry ∈ entries, entry.2.units = lifetimeUnits t entry.1
  found : ∀ app, HasRows t app → ∃ entry ∈ entries, entry.1 = app

theorem Reports.congr {entries : Snapshot} {t t' : Tables} (h : Reports entries t)
    (hdaily : t'.daily = t.daily) : Reports entries t' where
  units entry hentry := by
    rw [lifetimeUnits_congr hdaily]
    exact h.units entry hentry
  found app := by
    rintro ⟨r, hr, happ⟩
    exact h.found app ⟨r, hdaily ▸ hr, happ⟩

theorem Reports.perm {entries entries' : Snapshot} {t : Tables} (h : Reports entries t)
    (hperm : entries'.Perm entries) : Reports entries' t where
  units entry hentry := h.units entry (hperm.mem_iff.mp hentry)
  found app happ := by
    obtain ⟨entry, hentry, hsame⟩ := h.found app happ
    exact ⟨entry, hperm.mem_iff.mpr hentry, hsame⟩

/-- The entries are of exactly the products with rows, each once. -/
structure Mirrors (entries : Snapshot) (t : Tables) : Prop extends Reports entries t where
  nodup : (entries.map Prod.fst).Nodup
  rows : ∀ entry ∈ entries, HasRows t entry.1

theorem Mirrors.congr {entries : Snapshot} {t t' : Tables} (h : Mirrors entries t)
    (hdaily : t'.daily = t.daily) : Mirrors entries t' where
  toReports := h.toReports.congr hdaily
  nodup := h.nodup
  rows entry hentry := by
    obtain ⟨r, hr, happ⟩ := h.rows entry hentry
    exact ⟨r, hdaily ▸ hr, happ⟩

theorem Mirrors.perm {entries entries' : Snapshot} {t : Tables} (h : Mirrors entries t)
    (hperm : entries'.Perm entries) : Mirrors entries' t where
  toReports := h.toReports.perm hperm
  nodup := (hperm.map Prod.fst).nodup_iff.mpr h.nodup
  rows entry hentry := h.rows entry (hperm.mem_iff.mp hentry)

section Lifetime

variable {db : Database} (hopen : db.isOpen = true) (h : db.conn.visible.Valid)
include hopen h

theorem queryLifetime_units {row : ProductUnits} (hrow : row ∈ db.queryLifetime none) :
    row.units = lifetimeUnits db.conn.visible row.appId ∧ HasRows db.conn.visible row.appId := by
  simp only [Database.queryLifetime, Database.runProductQuery, Database.rowsRead, hopen,
    if_true] at hrow
  obtain ⟨r, hr, rfl⟩ := List.mem_map.mp hrow
  have hids := h.mem_groupedUnits_ids (fun _ hr => hr) r.appId
  exact ⟨h.groupedUnits_units (fun _ hr => hr) hr, hids.mp (List.mem_map_of_mem hr)⟩

theorem mem_queryLifetime (app : Int) :
    app ∈ (db.queryLifetime none).map ProductUnits.appId ↔ HasRows db.conn.visible app := by
  unfold Database.queryLifetime
  rw [runProductQuery_ids hopen]
  exact h.mem_groupedUnits_ids (fun _ hr => hr) app

theorem ofRows_queryLifetime :
    Snapshot.ofRows (db.queryLifetime none) = (db.queryLifetime none).map Snapshot.entryOf := by
  apply Snapshot.ofRows_eq
  unfold Database.queryLifetime
  rw [runProductQuery_ids hopen]
  exact h.nodup_groupedUnits_ids

theorem records_queryLifetime :
    Records (Snapshot.ofRows (db.queryLifetime none)) db.conn.visible := by
  intro app
  rw [ofRows_queryLifetime hopen h]
  refine Snapshot.unitsOf_map_entryOf (fun row hrow happ => ?_) fun hnone => ?_
  · exact happ ▸ (queryLifetime_units hopen h hrow).1
  · exact lifetimeUnits_of_not_hasRows (mt (mem_queryLifetime hopen h app).mpr hnone)

theorem reports_queryLifetime :
    Reports (Snapshot.ofRows (db.queryLifetime none)) db.conn.visible := by
  rw [ofRows_queryLifetime hopen h]
  refine ⟨fun entry hentry => ?_, fun app happ => ?_⟩
  · obtain ⟨row, hrow, rfl⟩ := List.mem_map.mp hentry
    exact (queryLifetime_units hopen h hrow).1
  · obtain ⟨row, hrow, hsame⟩ := List.mem_map.mp ((mem_queryLifetime hopen h app).mpr happ)
    exact ⟨Snapshot.entryOf row, List.mem_map_of_mem hrow, hsame⟩

theorem mirrors_queryLifetime :
    Mirrors (Snapshot.ofRows (db.queryLifetime none)) db.conn.visible where
  toReports := reports_queryLifetime hopen h
  nodup := by
    rw [ofRows_queryLifetime hopen h, List.map_map]
    show ((db.queryLifetime none).map ProductUnits.appId).Nodup
    unfold Database.queryLifetime
    rw [runProductQuery_ids hopen]
    exact h.nodup_groupedUnits_ids
  rows entry hentry := by
    rw [ofRows_queryLifetime hopen h] at hentry
    obtain ⟨row, hrow, rfl⟩ := List.mem_map.mp hentry
    exact (queryLifetime_units hopen h hrow).2

end Lifetime

/-- What a pass reports for a product: the change of its lifetime units between the snapshots. -/
theorem delta_eq {before after : Snapshot} {base t : Tables} (hbefore : Records before base)
    (hafter : Reports after t) {entry : Int × AppLifetime} (hentry : entry ∈ after) :
    delta before entry = lifetimeUnits t entry.1 - lifetimeUnits base entry.1 := by
  rw [delta, hafter.units entry hentry, hbefore]

end SteamSalesTray.Sync
