import SteamSalesTray.Storage.Calls
import SteamSalesTray.Sync.Aggregator

/-! The stored names of the products: a name that Steam has supplied is kept, unless a later date
brings a row of the product without a name. -/

namespace SteamSalesTray.Sync

open Transaction Storage Steam

structure Replace where
  faults : Faults
  date : Bytes
  rows : List DailyProductRow
  nowUtc : Bytes

namespace Replace

def write (c : Replace) : Write := .replaceDate c.date c.rows c.nowUtc

def run (c : Replace) (db : Database) : Bool × Database :=
  Database.replaceDate c.faults c.date c.rows c.nowUtc db

end Replace

/-- The names that Steam has supplied, with those of some more rows. -/
def learn (known : Int → Option Bytes) (rows : List DailyProductRow) : Int → Option Bytes :=
  rows.foldl (fun known row app =>
    if row.appId = app ∧ row.displayName ≠ [] then some row.displayName else known app) known

/-- Each product with a known name is stored under it. -/
def NamesKept (known : Int → Option Bytes) (t : Tables) : Prop :=
  ∀ app name, known app = some name → t.nameOf app = some name

/-- In every state of a sequence of calls, each product is stored under the last name that Steam
has supplied in a call that returned true. -/
def AlwaysNamed (known : Int → Option Bytes) (db : Database) : List Replace → Prop
  | [] => NamesKept known db.conn.committed
  | c :: calls =>
    NamesKept known db.conn.committed ∧
      AlwaysNamed (if (c.run db).1 then learn known c.rows else known) (c.run db).2 calls

/-- No call that goes through has a row without a name of a product whose known name differs from
the placeholder. -/
def NoneForgotten (known : Int → Option Bytes) (db : Database) : List Replace → Prop
  | [] => True
  | c :: calls =>
    (c.write.GoesThrough c.faults db → ∀ row ∈ c.rows, row.displayName = [] →
      ∀ name, known row.appId = some name → name = ascii "App " ++ signedDecimal row.appId) ∧
      NoneForgotten (if (c.run db).1 then learn known c.rows else known) (c.run db).2 calls

theorem learn_of_notMem {known : Int → Option Bytes} {rows : List DailyProductRow} {app : Int}
    (h : app ∉ rows.map DailyProductRow.appId) : learn known rows app = known app := by
  unfold learn
  induction rows generalizing known with
  | nil => rfl
  | cons row rows ih =>
    simp only [List.map_cons, List.mem_cons, not_or] at h
    rw [List.foldl_cons, ih h.2, if_neg fun hrow => h.1 hrow.1.symm]

theorem learn_of_mem {known : Int → Option Bytes} {rows : List DailyProductRow}
    (hrows : (rows.map DailyProductRow.appId).Nodup) {row : DailyProductRow} (h : row ∈ rows) :
    learn known rows row.appId =
      if row.displayName ≠ [] then some row.displayName else known row.appId := by
  induction rows generalizing known with
  | nil => cases h
  | cons first rows ih =>
    obtain ⟨hfirst, hrest⟩ := List.nodup_cons.mp hrows
    show learn _ rows row.appId = _
    rcases List.mem_cons.mp h with rfl | h
    · rw [learn_of_notMem hfirst]
      simp
    · have hne : first.appId ≠ row.appId := fun hsame =>
        hfirst (hsame ▸ List.mem_map_of_mem h)
      rw [ih hrest h]
      simp [hne]

theorem namesKept_replaced_iff {known : Int → Option Bytes} {t : Tables} (h : NamesKept known t)
    (date nowUtc : Bytes) {rows : List DailyProductRow}
    (hrows : (rows.map DailyProductRow.appId).Nodup) :
    NamesKept (learn known rows) (t.replaced date rows nowUtc) ↔
      ∀ row ∈ rows, row.displayName = [] → ∀ name, known row.appId = some name →
        name = ascii "App " ++ signedDecimal row.appId := by
  constructor
  · intro hkept row hrow hempty name hname
    have hlearn : learn known rows row.appId = some name := by
      rw [learn_of_mem hrows hrow, if_neg (by simp [hempty]), hname]
    have hstored := hkept row.appId name hlearn
    rw [Tables.nameOf_replaced_of_mem hrows hrow] at hstored
    simpa [storedName, hempty, eq_comm] using hstored
  · intro hnone app name hname
    by_cases happ : app ∈ rows.map DailyProductRow.appId
    · obtain ⟨row, hrow, rfl⟩ := List.mem_map.mp happ
      rw [Tables.nameOf_replaced_of_mem hrows hrow]
      rw [learn_of_mem hrows hrow] at hname
      by_cases hempty : row.displayName = []
      · rw [if_neg (by simp [hempty])] at hname
        rw [hnone row hrow hempty name hname]
        simp [storedName, hempty]
      · rw [if_pos hempty] at hname
        rw [← hname]
        simp [storedName, hempty]
    · rw [Tables.nameOf_replaced_of_notMem happ]
      rw [learn_of_notMem happ] at hname
      exact h app name hname

theorem AlwaysNamed.now {known : Int → Option Bytes} {db : Database} {calls : List Replace}
    (h : AlwaysNamed known db calls) : NamesKept known db.conn.committed := by
  cases calls with
  | nil => exact h
  | cons c calls => exact h.1

theorem alwaysNamed_iff_of_namesKept {known : Int → Option Bytes} {db : Database}
    (h : NamesKept known db.conn.committed) (calls : List Replace) :
    AlwaysNamed known db calls ↔ NoneForgotten known db calls := by
  induction calls generalizing known db with
  | nil => exact ⟨fun _ => trivial, fun _ => h⟩
  | cons c calls ih =>
    simp only [AlwaysNamed, NoneForgotten, h, true_and]
    have hthrough := Write.run_true_iff c.faults c.write db
    cases hrun : (c.run db).1 with
    | false =>
      have hcommitted : (c.run db).2.conn.committed = db.conn.committed :=
        Write.run_false (w := c.write) hrun
      have hfails : ¬c.write.GoesThrough c.faults db := fun hc =>
        Bool.false_ne_true (hrun.symm.trans (hthrough.mpr hc))
      rw [if_neg Bool.false_ne_true, ih (hcommitted ▸ h)]
      exact ⟨fun hrest => ⟨fun hc => absurd hc hfails, hrest⟩, fun hrest => hrest.2⟩
    | true =>
      have hc := hthrough.mp hrun
      have hconn : (c.run db).2.conn = ⟨db.conn.committed.replaced c.date c.rows c.nowUtc, none⟩ :=
        Write.run_true (w := c.write) hrun
      have hkept := namesKept_replaced_iff h c.date c.nowUtc hc.2.2.2.2.1
      rw [if_pos rfl]
      constructor
      · intro hrest
        have hnow := hrest.now
        rw [hconn] at hnow
        refine ⟨fun _ => hkept.mp hnow, (ih ?_).mp hrest⟩
        rwa [hconn]
      · rintro ⟨hnone, hrest⟩
        refine (ih ?_).mpr hrest
        rw [hconn]
        exact hkept.mpr (hnone hc)

/-- Whatever dates are replaced, and whatever fails, each product stays stored under the last name
that Steam has supplied for it, exactly if no stored row lacks a name that is known. -/
theorem alwaysNamed_iff (db : Database) (calls : List Replace) :
    AlwaysNamed (fun _ => none) db calls ↔ NoneForgotten (fun _ => none) db calls :=
  alwaysNamed_iff_of_namesKept (fun _ _ h => by cases h) calls

def namelessSale : DetailedSalesRecord :=
  ⟨ascii "Package", ascii "Steam", 480, [], 1, 1, 0⟩

/-- Two dates are stored, the first with the name of the product and the second without. -/
theorem name_forgotten :
    ¬∀ (db : Database) (calls : List Replace), AlwaysNamed (fun _ => none) db calls := by
  intro h
  have hkept := h Database.fresh
    [⟨noFaults, ascii "2026/07/17", aggregateDate [{ namelessSale with
        primaryAppName := ascii "git gud" }], ascii "2026-07-20T00:00:00Z"⟩,
      ⟨noFaults, ascii "2026/07/18", aggregateDate [namelessSale],
        ascii "2026-07-20T00:00:00Z"⟩]
  have hname := hkept.2.2 480 (ascii "git gud") (by decide +kernel)
  exact absurd hname (by decide +kernel)

end SteamSalesTray.Sync
