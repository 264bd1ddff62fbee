import SteamSalesTray.Storage.Database

/-! Sequences of calls on a new database: whatever steps fail, the tables keep the keys of the
schema, and so all reads agree with each other. -/

namespace SteamSalesTray.Storage

open Transaction

namespace Tables

theorem Valid.upserted {t : Tables} (h : Valid t) (p : Product) {t' : Tables}
    (ht : some (t.upsertProduct p) = some t') : Valid t' := by
  obtain rfl := Option.some.inj ht
  exact h.upsertProduct p

theorem valid_rowStatement {faults : Faults} {date nowUtc : Bytes} {i : Nat}
    {rows : List DailyProductRow} {s : Statement Tables}
    (hs : s ∈ rowStatements faults date nowUtc i rows) {t t' : Tables} (h : Valid t)
    (ht : s.apply t = some t') : Valid t' := by
  induction rows generalizing i with
  | nil => cases hs
  | cons row rows ih =>
    simp only [rowStatements, List.mem_cons] at hs
    rcases hs with rfl | rfl | hs
    · exact h.upserted _ ht
    · exact h.insertDaily ht
    · exact ih hs

theorem valid_statement {faults : Faults} {w : Write} {s : Statement Tables}
    (hs : s ∈ w.statements faults) {t t' : Tables} (h : Valid t) (ht : s.apply t = some t') :
    Valid t' := by
  cases w with
  | replaceDate date rows nowUtc =>
    simp only [Write.statements, replaceDateStatements, List.mem_append, List.mem_cons,
      List.not_mem_nil, or_false] at hs
    rcases hs with (rfl | rfl | rfl | rfl) | hs
    · exact Option.some.inj ht ▸ h
    · exact Option.some.inj ht ▸ h.deleteDate date
    · exact Option.some.inj ht ▸ h
    · exact Option.some.inj ht ▸ h
    · exact valid_rowStatement hs h ht
  | clearAllSales =>
    simp only [Write.statements, clearAllSalesStatements, List.mem_cons, List.not_mem_nil,
      or_false] at hs
    rcases hs with rfl | rfl | rfl
    · exact Option.some.inj ht ▸ h.deleteAllDaily
    · exact h.deleteAllProducts ht
    · exact Option.some.inj ht ▸ h.updateSyncState _

theorem Valid.result {t : Tables} (h : Valid t) {w : Write} (hw : w.Distinct) :
    Valid (w.result t) := by
  have hcompletes : w.Completes noFaults := by cases w <;> simp [Write.Completes, noFaults]
  have happly := (Write.applyAll_statements noFaults w t _).mpr ⟨hcompletes, hw, rfl⟩
  exact applyAll_keeps happly h fun s hs _ _ ha => valid_statement hs ha

theorem Valid.written {t : Tables} (h : Valid t) (u : Database.SyncStateWrite) :
    Valid (t.written u) :=
  ⟨h.productIds, h.dailyKeys, h.known⟩

end Tables

/-- A call on the database, with what its SQL steps come to. -/
inductive Call where
  | write (faults : Faults) (w : Write)
  | setSyncState (faults : Faults) (update : Database.SyncStateWrite)

def Call.run (db : Database) : Call → Database
  | .write faults w => (w.run faults db).2
  | .setSyncState faults update => (db.writeSyncState faults update).2

def Database.afterCalls (db : Database) (calls : List Call) : Database := calls.foldl Call.run db

theorem Call.run_both {P : Tables → Prop} {db : Database} (h : db.conn.Both P) (c : Call)
    (hwrite : ∀ faults w, c = .write faults w → w.Distinct → ∀ t, P t → P (w.result t))
    (hset : ∀ update t, P t → P (t.written update)) :
    (c.run db).conn.Both P ∧ (c.run db).isOpen = db.isOpen := by
  cases c with
  | write faults w =>
    refine ⟨?_, Write.run_isOpen faults w db⟩
    rcases Write.run_cases faults w db with hfail | ⟨hdistinct, _, _, hbecomes, _⟩
    · have hsame : Call.run db (.write faults w) = db := congrArg Prod.snd hfail
      rwa [hsame]
    · exact hbecomes.both h (hwrite faults w rfl hdistinct _ h.2)
  | setSyncState faults update =>
    refine ⟨?_, Database.writeSyncState_isOpen faults update db⟩
    rcases Database.writeSyncState_cases faults update db with hfail | ⟨_, hbecomes, _⟩
    · have hsame : Call.run db (.setSyncState faults update) = db := congrArg Prod.snd hfail
      rwa [hsame]
    · exact hbecomes.both h (hset update _ h.2)

theorem Database.valid_afterCalls {db : Database} (h : db.conn.Both Tables.Valid)
    (calls : List Call) :
    (db.afterCalls calls).conn.Both Tables.Valid ∧ (db.afterCalls calls).isOpen = db.isOpen := by
  induction calls generalizing db with
  | nil => exact ⟨h, rfl⟩
  | cons c calls ih =>
    obtain ⟨hboth, hopen⟩ := Call.run_both h c (fun _ _ _ hw _ ht => ht.result hw)
      fun update _ ht => ht.written update
    obtain ⟨hboth', hopen'⟩ := ih hboth
    exact ⟨hboth', hopen'.trans hopen⟩

/-! ### The reads of one database -/

def unitsTotal (rows : List ProductUnits) : Int := (rows.map ProductUnits.units).sum

/-- The rows list exactly the products that satisfy `p`, each once. -/
def ListsOnce (rows : List ProductUnits) (p : Int → Prop) : Prop :=
  (rows.map ProductUnits.appId).Nodup ∧ ∀ app, app ∈ rows.map ProductUnits.appId ↔ p app

/-- The reads of a connection agree with each other and with the tables that it sees. -/
structure ViewsAgree (db : Database) : Prop where
  known : ∀ r ∈ db.conn.visible.daily, ∃ p ∈ db.conn.visible.products, p.appId = r.appId
  once : (db.conn.visible.daily.map fun r => (r.financialDate, r.appId)).Nodup
  date_products : ∀ date, ListsOnce (db.queryDate none date) fun app =>
    ∃ p ∈ db.conn.visible.products, p.appId = app
  date_sum : ∀ date, unitsTotal (db.queryDate none date) = db.sumForDate none date
  range_products : ∀ a b, ListsOnce (db.queryRange none a b) fun app =>
    ∃ r ∈ db.conn.visible.daily, a ≤ r.financialDate ∧ r.financialDate ≤ b ∧ r.appId = app
  range_sum : ∀ a b, unitsTotal (db.queryRange none a b) = db.sumForRange none a b
  range_dates : ∀ a b, db.sumForRange none a b =
    ((db.conn.visible.storedDates.filter fun d => a ≤ d ∧ d ≤ b).map (db.sumForDate none ·)).sum
  lifetime_sum : unitsTotal (db.queryLifetime none) = db.sumLifetime none
  lifetime_dates : db.sumLifetime none =
    (db.conn.visible.storedDates.map (db.sumForDate none ·)).sum

section Reads

variable {db : Database} (hopen : db.isOpen = true)
include hopen

theorem runProductQuery_ids (query : Tables → List ProductRow) :
    (db.runProductQuery none query).map ProductUnits.appId =
      (query db.conn.visible).map ProductRow.appId := by
  simp [Database.runProductQuery, Database.rowsRead, hopen, Function.comp_def]

theorem runProductQuery_total (query : Tables → List ProductRow) :
    unitsTotal (db.runProductQuery none query) =
      ((query db.conn.visible).map ProductRow.units).sum := by
  simp [unitsTotal, Database.runProductQuery, Database.rowsRead, hopen, Function.comp_def]

theorem runScalarSum_eq (sum : Tables → Int) :
    db.runScalarSum none sum = sum db.conn.visible := by
  simp [Database.runScalarSum, hopen]

theorem viewsAgree_of_valid (h : db.conn.visible.Valid) : ViewsAgree db where
  known := h.known
  once := h.dailyKeys
  date_products date := by
    unfold ListsOnce Database.queryDate
    rw [runProductQuery_ids hopen]
    have hperm := h.queryDate_ids date
    exact ⟨hperm.nodup_iff.mpr h.productIds, fun app => hperm.mem_iff.trans List.mem_map⟩
  date_sum date := by
    unfold Database.queryDate Database.sumForDate
    rw [runProductQuery_total hopen, runScalarSum_eq hopen]
    exact h.queryDate_sum date
  range_products a b := by
    unfold ListsOnce Database.queryRange
    rw [runProductQuery_ids hopen]
    refine ⟨h.nodup_groupedUnits_ids, fun app => ?_⟩
    refine (h.mem_groupedUnits_ids (fun r hr => List.mem_of_mem_filter hr) app).trans ?_
    simp [and_assoc]
  range_sum a b := by
    unfold Database.queryRange Database.sumForRange
    rw [runProductQuery_total hopen, runScalarSum_eq hopen]
    exact h.groupedUnits_sum fun r hr => List.mem_of_mem_filter hr
  range_dates a b := by
    unfold Database.sumForRange Database.sumForDate
    simp only [runScalarSum_eq hopen]
    exact Tables.sumForRange_eq a b
  lifetime_sum := by
    unfold Database.queryLifetime Database.sumLifetime
    rw [runProductQuery_total hopen, runScalarSum_eq hopen]
    exact h.groupedUnits_sum fun _ hr => hr
  lifetime_dates := by
    unfold Database.sumLifetime Database.sumForDate
    simp only [runScalarSum_eq hopen]
    exact Tables.sumLifetime_eq

end Reads

/-- In every database that calls make of a new one, with any faults, the reads of the connection
agree, and so do those of another connection, which sees what is committed. -/
theorem views_agree (calls : List Call) :
    ViewsAgree (Database.fresh.afterCalls calls) ∧
      ViewsAgree ⟨true, ⟨(Database.fresh.afterCalls calls).conn.committed, none⟩⟩ := by
  have hfresh : Database.fresh.conn.Both Tables.Valid := ⟨Tables.valid_fresh, Tables.valid_fresh⟩
  obtain ⟨⟨hcommitted, hvisible⟩, hopen⟩ := Database.valid_afterCalls hfresh calls
  exact ⟨viewsAgree_of_valid hopen hvisible, viewsAgree_of_valid rfl hcommitted⟩

end SteamSalesTray.Storage
