import SteamSalesTray.Storage.Database

/-! The schema of the database file and the migrations that `Database::Open` applies: wherever one
fails, the file is at a version that is completely applied, and keeps its data. -/

namespace SteamSalesTray.Storage

open Transaction

/-- `sync_state`: whether it has the column `backfill_cursor`, and its row if it has one. -/
structure SyncTable where
  cursorColumn : Bool
  row : Option SyncState
deriving DecidableEq

/-- The tables and indexes in a database file; `none` is a table that does not exist. -/
structure File where
  schemaVersion : Option (List Int)
  syncState : Option SyncTable
  products : Option (List Product)
  dailyProductSales : Option (List DailySales)
  appIndex : Bool
  dateIndex : Bool
deriving DecidableEq

def SyncState.unseeded (s : SyncState) : SyncState := { s with backfillCursor := none }

/-- The checkpoint of an interrupted backfill is the newest date that is stored. -/
def SyncState.seeded (daily : List DailySales) (s : SyncState) : SyncState :=
  if s.changedDatesHighwatermark = ascii "0" ∧ daily ≠ [] then
    { s with backfillCursor := (daily.map DailySales.financialDate).max? }
  else s

namespace File

def empty : File := ⟨none, none, none, none, false, false⟩

/-- A file at version 1, whose `sync_state` has no cursor. -/
def version1 (row : Option SyncState) (products : List Product) (daily : List DailySales) : File :=
  ⟨some [1], some ⟨false, row.map SyncState.unseeded⟩, some products, some daily, true, true⟩

def version2 (row : Option SyncState) (products : List Product) (daily : List DailySales) : File :=
  ⟨some [2], some ⟨true, row⟩, some products, some daily, true, true⟩

/-! ### The statements -/

def createSchemaVersion (f : File) : Option File :=
  if f.schemaVersion.isSome then none else some { f with schemaVersion := some [] }

def createSyncState (f : File) : Option File :=
  if f.syncState.isSome then none else some { f with syncState := some ⟨false, none⟩ }

def createProducts (f : File) : Option File :=
  if f.products.isSome then none else some { f with products := some [] }

def createDailyProductSales (f : File) : Option File :=
  if f.dailyProductSales.isSome then none else some { f with dailyProductSales := some [] }

def createAppIndex (f : File) : Option File :=
  if f.dailyProductSales.isNone ∨ f.appIndex then none else some { f with appIndex := true }

def createDateIndex (f : File) : Option File :=
  if f.dailyProductSales.isNone ∨ f.dateIndex then none else some { f with dateIndex := true }

def insertSyncState (f : File) : Option File :=
  match f.syncState with
  | some ⟨column, none⟩ =>
    some { f with syncState := some ⟨column, some ⟨ascii "0", none, none, none, none⟩⟩ }
  | _ => none

def insertSchemaVersion (f : File) : Option File :=
  f.schemaVersion.map fun versions => { f with schemaVersion := some (versions ++ [1]) }

/-- `ALTER TABLE sync_state ADD COLUMN`, with `NULL` in a row that exists. -/
def addBackfillCursor (f : File) : Option File :=
  match f.syncState with
  | some ⟨false, row⟩ => some { f with syncState := some ⟨true, row.map SyncState.unseeded⟩ }
  | _ => none

def seedBackfillCursor (f : File) : Option File :=
  match f.syncState, f.dailyProductSales with
  | some ⟨true, row⟩, some daily =>
    some { f with syncState := some ⟨true, row.map (SyncState.seeded daily)⟩ }
  | _, _ => none

def updateSchemaVersion (f : File) : Option File :=
  f.schemaVersion.map fun versions => { f with schemaVersion := some (versions.map fun _ => 2) }

end File

/-! ### The migrations -/

inductive MigrationStep where
  | readVersion
  | beginV1
  | createSchemaVersion
  | createSyncState
  | createProducts
  | createDailyProductSales
  | createAppIndex
  | createDateIndex
  | insertSyncState
  | insertSchemaVersion
  | commitV1
  | beginV2
  | addBackfillCursor
  | seedBackfillCursor
  | updateSchemaVersion
  | commitV2
deriving DecidableEq, Repr

abbrev MigrationFaults := MigrationStep → Outcome

def noMigrationFaults : MigrationFaults := fun _ => .done

def kSchemaV1 (faults : MigrationFaults) : List (Statement File) :=
  [⟨faults .createSchemaVersion, File.createSchemaVersion⟩,
    ⟨faults .createSyncState, File.createSyncState⟩,
    ⟨faults .createProducts, File.createProducts⟩,
    ⟨faults .createDailyProductSales, File.createDailyProductSales⟩,
    ⟨faults .createAppIndex, File.createAppIndex⟩,
    ⟨faults .createDateIndex, File.createDateIndex⟩,
    ⟨faults .insertSyncState, File.insertSyncState⟩,
    ⟨faults .insertSchemaVersion, File.insertSchemaVersion⟩]

def kSchemaV2 (faults : MigrationFaults) : List (Statement File) :=
  [⟨faults .addBackfillCursor, File.addBackfillCursor⟩,
    ⟨faults .seedBackfillCursor, File.seedBackfillCursor⟩,
    ⟨faults .updateSchemaVersion, File.updateSchemaVersion⟩]

def kTargetSchemaVersion : Int := 2

/-- 0 where there is no version or it cannot be read. -/
def getSchemaVersion (faults : MigrationFaults) (c : Connection File) : Int :=
  match faults .readVersion, c.visible.schemaVersion with
  | .done, some (version :: _) => version
  | _, _ => 0

/-- The step to `target`, taken from a lower version alone; `none` is a failed step. -/
def applyStep (target : Int) (begins : Outcome) (steps : List (Statement File))
    (commits : Outcome) (version : Int) (c : Connection File) : Option Int × Connection File :=
  if version < target then
    match c.transact begins steps commits with
    | (true, c) => (some target, c)
    | (false, c) => (none, c)
  else (some version, c)

def applyMigrations (faults : MigrationFaults) (c : Connection File) : Bool × Connection File :=
  match applyStep 1 (faults .beginV1) (kSchemaV1 faults) (faults .commitV1)
    (getSchemaVersion faults c) c with
  | (none, c) => (false, c)
  | (some version, c) =>
    match applyStep 2 (faults .beginV2) (kSchemaV2 faults) (faults .commitV2) version c with
    | (none, c) => (false, c)
    | (some version, c) => (decide (kTargetSchemaVersion ≤ version), c)

/-- `Database::Open` on what is committed in the file.  A connection that does not open, or whose
migrations fail, is closed. -/
def openFile (opens : Bool) (faults : MigrationFaults) (f : File) : Bool × File :=
  if opens then
    match applyMigrations faults ⟨f, none⟩ with
    | (true, c) => (true, c.committed)
    | (false, c) => (false, c.drop.committed)
  else (false, f)

/-! ### Files that are completely at a version -/

namespace File

/-- The files that are completely at version 0, 1 or 2, with any rows. -/
inductive Complete : File → Prop where
  | empty : Complete .empty
  | version1 (row products daily) : Complete (.version1 row products daily)
  | version2 (row products daily) : Complete (.version2 row products daily)

def AtVersion (version : Int) (f : File) : Prop := f.schemaVersion = some [version]

/-- What one step of the migrations makes of a complete file. -/
inductive Upgrade : File → File → Prop where
  | schemaV1 : Upgrade .empty (.version1 (some Tables.fresh.syncState) [] [])
  | schemaV2 (row products daily) :
      Upgrade (.version1 row products daily)
        (.version2 (row.map fun s => s.unseeded.seeded daily) products daily)

/-- Every row of the sales tables and every value of `sync_state` in `f` is in `f'`. -/
structure Kept (f f' : File) : Prop where
  products : ∀ rows, f.products = some rows → f'.products = some rows
  daily : ∀ rows, f.dailyProductSales = some rows → f'.dailyProductSales = some rows
  syncState : ∀ t s, f.syncState = some t → t.row = some s →
    ∃ t' s', f'.syncState = some t' ∧ t'.row = some s' ∧ s'.unseeded = s.unseeded ∧
      (t.cursorColumn = true → t' = t)

/-- The checkpoint is the greatest date in the file where the mark is "0" and sales rows exist, and
otherwise `NULL`. -/
def CursorSeeded (f : File) : Prop :=
  ∀ s daily, f.syncState = some ⟨true, some s⟩ → f.dailyProductSales = some daily →
    if s.changedDatesHighwatermark = ascii "0" ∧ daily ≠ [] then
      ∃ date, s.backfillCursor = some date ∧
        IsGreatest (fun d => ∃ r ∈ daily, r.financialDate = d) date
    else s.backfillCursor = none

theorem Kept.refl (f : File) : f.Kept f where
  products _ h := h
  daily _ h := h
  syncState t s ht hs := ⟨t, s, ht, hs, rfl, fun _ => rfl⟩

theorem Kept.trans {f g k : File} (h : f.Kept g) (h' : g.Kept k) : f.Kept k where
  products rows hrows := h'.products rows (h.products rows hrows)
  daily rows hrows := h'.daily rows (h.daily rows hrows)
  syncState t s ht hs := by
    obtain ⟨t1, s1, ht1, hs1, hvalues, hcolumn⟩ := h.syncState t s ht hs
    obtain ⟨t2, s2, ht2, hs2, hvalues', hcolumn'⟩ := h'.syncState t1 s1 ht1 hs1
    refine ⟨t2, s2, ht2, hs2, hvalues'.trans hvalues, fun hc => ?_⟩
    obtain rfl := hcolumn hc
    exact hcolumn' hc

end File

@[simp] theorem SyncState.unseeded_unseeded (s : SyncState) : s.unseeded.unseeded = s.unseeded :=
  rfl

@[simp] theorem SyncState.unseeded_seeded (daily : List DailySales) (s : SyncState) :
    (s.seeded daily).unseeded = s.unseeded := by
  unfold seeded
  split <;> rfl

@[simp] theorem SyncState.seeded_mark (daily : List DailySales) (s : SyncState) :
    (s.seeded daily).changedDatesHighwatermark = s.changedDatesHighwatermark := by
  unfold seeded
  split <;> rfl

theorem exists_greatest_date {daily : List DailySales} (h : daily ≠ []) :
    ∃ date, (daily.map DailySales.financialDate).max? = some date ∧
      IsGreatest (fun d => ∃ r ∈ daily, r.financialDate = d) date := by
  have hmax : ((daily.map DailySales.financialDate).max?).isSome := by
    simpa [List.isSome_max?_iff] using h
  obtain ⟨date, hdate⟩ := Option.isSome_iff_exists.mp hmax
  obtain ⟨hmem, hge⟩ := List.max?_eq_some_iff.mp hdate
  refine ⟨date, hdate, List.mem_map.mp hmem, fun d hd => ?_⟩
  exact hge d (List.mem_map.mpr hd)

namespace File

theorem Upgrade.complete {f f' : File} (h : f.Upgrade f') : f'.Complete := by
  cases h with
  | schemaV1 => exact .version1 (some Tables.fresh.syncState) [] []
  | schemaV2 row products daily => exact .version2 _ products daily

theorem Upgrade.kept {f f' : File} (h : f.Upgrade f') : f.Kept f' := by
  cases h with
  | schemaV1 => exact ⟨nofun, nofun, nofun⟩
  | schemaV2 row products daily =>
    refine ⟨fun rows h => h, fun rows h => h, ?_⟩
    rintro t s ⟨⟩ hs
    obtain ⟨s0, rfl, rfl⟩ := Option.map_eq_some_iff.mp hs
    exact ⟨_, _, rfl, rfl, by simp, nofun⟩

theorem Upgrade.not_newest {f f' : File} (h : f.Upgrade f') : ¬f.AtVersion 2 := by
  cases h with
  | schemaV1 => nofun
  | schemaV2 row products daily => simp [AtVersion, version1]

theorem Upgrade.cursorSeeded {f f' : File} (h : f.Upgrade f') : f'.CursorSeeded := by
  cases h with
  | schemaV1 => nofun
  | schemaV2 row products daily =>
    rintro s _ hs ⟨⟩
    obtain ⟨s0, rfl, rfl⟩ : ∃ s0, row = some s0 ∧ s0.unseeded.seeded daily = s := by
      simpa [version2] using hs
    rw [SyncState.seeded_mark]
    unfold SyncState.seeded
    split
    · rename_i hseed
      exact exists_greatest_date hseed.2
    · rfl

end File

/-! ### Opening -/

theorem kSchemaV1_upgrades {f t : File} (hf : f.Complete) (faults : MigrationFaults)
    (h : applyAll (kSchemaV1 faults) f = some t) : f.Upgrade t := by
  have hscript := applyAll_script h
  cases hf with
  | empty =>
    obtain rfl := Option.some.inj hscript
    exact .schemaV1
  | version1 row products daily => cases hscript
  | version2 row products daily => cases hscript

theorem kSchemaV2_upgrades {f t : File} (hf : f.Complete) (faults : MigrationFaults)
    (h : applyAll (kSchemaV2 faults) f = some t) : f.Upgrade t ∧ t.AtVersion 2 := by
  have hscript := applyAll_script h
  cases hf with
  | empty => cases hscript
  | version1 row products daily =>
    have hmade := File.Upgrade.schemaV2 row products daily
    cases row <;> obtain rfl := Option.some.inj hscript <;> exact ⟨hmade, rfl⟩
  | version2 row products daily => cases hscript

/-- A step is not taken, or commits what its script makes, or fails and commits nothing. -/
theorem applyStep_cases (target : Int) (begins : Outcome) (steps : List (Statement File))
    (commits : Outcome) (version : Int) (f : File) :
    (target ≤ version ∧
        applyStep target begins steps commits version ⟨f, none⟩ = (some version, ⟨f, none⟩)) ∨
      (∃ t, applyAll steps f = some t ∧
        applyStep target begins steps commits version ⟨f, none⟩ = (some target, ⟨t, none⟩)) ∨
      ∃ tx, applyStep target begins steps commits version ⟨f, none⟩ = (none, ⟨f, tx⟩) := by
  unfold applyStep
  split
  · refine .inr ?_
    have hcases := Connection.transact_cases begins steps commits ⟨f, none⟩
    have hfalse := @Connection.transact_false _ begins steps commits ⟨f, none⟩
    generalize Connection.transact begins steps commits ⟨f, none⟩ = r at hcases hfalse ⊢
    obtain ⟨ok, c, tx⟩ := r
    cases ok with
    | false =>
      obtain rfl : c = f := hfalse rfl
      exact .inr ⟨tx, rfl⟩
    | true =>
      obtain ⟨⟨⟩⟩ | ⟨t, -, ht, -, hdone⟩ := hcases
      obtain ⟨rfl, rfl⟩ := Connection.mk.inj (hdone rfl)
      exact .inl ⟨c, ht, rfl⟩
  · rename_i hge
    exact .inl ⟨by omega, rfl⟩

/-- What is read as the version of a complete file: its version, or 0. -/
theorem getSchemaVersion_newest {f : File} (hf : f.Complete) (faults : MigrationFaults)
    (h : 2 ≤ getSchemaVersion faults ⟨f, none⟩) : f.AtVersion 2 := by
  unfold getSchemaVersion at h
  split at h
  · rename_i version rest _ hversion
    cases hf with
    | empty => cases hversion
    | version1 row products daily =>
      obtain ⟨rfl, rfl⟩ : 1 = version ∧ [] = rest := by
        simpa [File.version1, Connection.visible] using hversion
      omega
    | version2 row products daily => rfl
  · omega

/-- The second step leaves the file at the newest version, or fails and commits nothing. -/
theorem applyStep_kSchemaV2 {f : File} (hf : f.Complete) (faults : MigrationFaults) (version : Int)
    (hversion : 2 ≤ version → f.AtVersion 2) :
    (∃ version' f', 2 ≤ version' ∧
        applyStep 2 (faults .beginV2) (kSchemaV2 faults) (faults .commitV2) version ⟨f, none⟩ =
          (some version', ⟨f', none⟩) ∧
        Relation.ReflTransGen File.Upgrade f f' ∧ f'.AtVersion 2) ∨
      ∃ tx, applyStep 2 (faults .beginV2) (kSchemaV2 faults) (faults .commitV2) version ⟨f, none⟩ =
        (none, ⟨f, tx⟩) := by
  obtain ⟨hge, h⟩ | ⟨t, ht, h⟩ | h := applyStep_cases 2 (faults .beginV2) (kSchemaV2 faults)
    (faults .commitV2) version f
  · exact .inl ⟨version, f, hge, h, .refl, hversion hge⟩
  · obtain ⟨hstep, hnewest⟩ := kSchemaV2_upgrades hf faults ht
    exact .inl ⟨2, t, le_rfl, h, .single hstep, hnewest⟩
  · exact .inr h

/-- One opening takes whole steps of the migrations, and succeeds only at the newest version. -/
theorem openFile_upgrades {f : File} (hf : f.Complete) (opens : Bool) (faults : MigrationFaults) :
    Relation.ReflTransGen File.Upgrade f (openFile opens faults f).2 ∧
      ((openFile opens faults f).1 = true → (openFile opens faults f).2.AtVersion 2) := by
  cases opens with
  | false => exact ⟨.refl, nofun⟩
  | true =>
    unfold openFile applyMigrations
    obtain ⟨-, h⟩ | ⟨t, ht, h⟩ | ⟨tx, h⟩ := applyStep_cases 1 (faults .beginV1) (kSchemaV1 faults)
      (faults .commitV1) (getSchemaVersion faults ⟨f, none⟩) f
    · rw [h]
      obtain ⟨version', f', hge, h2, hsteps, hnewest⟩ | ⟨tx, h2⟩ :=
        applyStep_kSchemaV2 hf faults _ (getSchemaVersion_newest hf faults)
      · simp only [h2, kTargetSchemaVersion, hge, decide_true]
        exact ⟨hsteps, fun _ => hnewest⟩
      · simp only [h2]
        exact ⟨.refl, nofun⟩
    · have hstep := kSchemaV1_upgrades hf faults ht
      rw [h]
      obtain ⟨version', f', hge, h2, hsteps, hnewest⟩ | ⟨tx, h2⟩ :=
        applyStep_kSchemaV2 hstep.complete faults 1 (by omega)
      · simp only [h2, kTargetSchemaVersion, hge, decide_true]
        exact ⟨.head hstep hsteps, fun _ => hnewest⟩
      · simp only [h2]
        exact ⟨.single hstep, nofun⟩
    · rw [h]
      exact ⟨.refl, nofun⟩

theorem File.Complete.afterUpgrades {f f' : File} (hf : f.Complete)
    (h : Relation.ReflTransGen File.Upgrade f f') : f'.Complete := by
  induction h with
  | refl => exact hf
  | tail _ hstep _ => exact hstep.complete

/-! ### Opening again -/

/-- The file after these openings, each with what fails in it. -/
def File.afterOpens (f : File) (attempts : List (Bool × MigrationFaults)) : File :=
  attempts.foldl (fun f attempt => (openFile attempt.1 attempt.2 f).2) f

theorem afterOpens_upgrades {f : File} (hf : f.Complete)
    (attempts : List (Bool × MigrationFaults)) :
    Relation.ReflTransGen File.Upgrade f (f.afterOpens attempts) := by
  induction attempts generalizing f with
  | nil => exact .refl
  | cons attempt rest ih =>
    have hsteps := (openFile_upgrades hf attempt.1 attempt.2).1
    exact hsteps.trans (ih (hf.afterUpgrades hsteps))

theorem openFile_afterUpgrades {f f' : File} (h : Relation.ReflTransGen File.Upgrade f f') :
    openFile true noMigrationFaults f' = openFile true noMigrationFaults f := by
  induction h with
  | refl => rfl
  | tail _ hstep ih =>
    rw [← ih]
    cases hstep with
    | schemaV1 => rfl
    | schemaV2 row products daily => cases row <;> rfl

theorem openFile_noMigrationFaults {f : File} (hf : f.Complete) :
    (openFile true noMigrationFaults f).1 = true := by
  cases hf with
  | empty => rfl
  | version1 row products daily => rfl
  | version2 row products daily => rfl

theorem openFile_newest {f : File} (hf : f.Complete) (h : f.AtVersion 2) :
    openFile true noMigrationFaults f = (true, f) := by
  cases hf with
  | empty => cases h
  | version1 row products daily => simp [File.AtVersion, File.version1] at h
  | version2 row products daily => rfl

theorem kept_afterUpgrades {f f' : File} (h : Relation.ReflTransGen File.Upgrade f f') :
    f.Kept f' := by
  induction h with
  | refl => exact .refl f
  | tail _ hstep ih => exact ih.trans hstep.kept

/-- From a complete file at any version, after any number of openings of which each may fail
anywhere: an opening leaves the file complete at a version, keeps every row and value, succeeds at
the newest version alone and then has what an opening without failures makes of the first file,
changes nothing in a file that is newest already, and seeds the checkpoint when it gets there. -/
theorem open_migrates {f : File} (hf : f.Complete) (attempts : List (Bool × MigrationFaults))
    (opens : Bool) (faults : MigrationFaults) :
    let r := openFile opens faults (f.afterOpens attempts)
    r.2.Complete ∧ f.Kept r.2 ∧
      (r.1 = true → r.2.AtVersion 2 ∧ r = openFile true noMigrationFaults f) ∧
      (f.AtVersion 2 → r.2 = f) ∧
      (¬f.AtVersion 2 → r.2.AtVersion 2 → r.2.CursorSeeded) ∧
      (openFile true noMigrationFaults f).1 = true ∧
      openFile true noMigrationFaults (f.afterOpens attempts) =
        openFile true noMigrationFaults f := by
  have hbefore := afterOpens_upgrades hf attempts
  obtain ⟨hopen, hnewest⟩ := openFile_upgrades (hf.afterUpgrades hbefore) opens faults
  have hsteps := hbefore.trans hopen
  have hcomplete := hf.afterUpgrades hsteps
  refine ⟨hcomplete, kept_afterUpgrades hsteps, fun hok => ⟨hnewest hok, ?_⟩, fun hf2 => ?_,
    fun hold hnew => ?_, openFile_noMigrationFaults hf, openFile_afterUpgrades hbefore⟩
  · rw [← openFile_afterUpgrades hsteps, openFile_newest hcomplete (hnewest hok), ← hok]
  · obtain h | ⟨g, hstep, -⟩ := hsteps.cases_head
    · exact h.symm
    · exact absurd hf2 hstep.not_newest
  · obtain h | ⟨g, -, hstep⟩ := hsteps.cases_tail
    · rw [h] at hnew
      exact absurd hnew hold
    · exact hstep.cursorSeeded

/-- A file of version 1 whose first backfill was interrupted. -/
def interruptedBackfill : File :=
  .version1 (some Tables.fresh.syncState) [⟨480, ascii "Portal", ascii "2024-05-02"⟩]
    [⟨ascii "2024/05/01", 480, 3, 1, 2⟩, ⟨ascii "2024/05/02", 480, 5, 0, 5⟩]

theorem open_migrates_interrupted :
    let faults : MigrationFaults := fun step =>
      if step = .seedBackfillCursor then .failed else .done
    let f := interruptedBackfill.afterOpens [(true, faults)]
    f = interruptedBackfill ∧ (openFile true noMigrationFaults f).1 = true ∧
      (openFile true noMigrationFaults f).2.CursorSeeded ∧
      ((openFile true noMigrationFaults f).2.syncState.bind SyncTable.row).bind
        SyncState.backfillCursor = some (ascii "2024/05/02") := by
  intro faults f
  have h := open_migrates (.version1 _ _ _ : interruptedBackfill.Complete) [(true, faults)] true
    noMigrationFaults
  exact ⟨by decide, by decide, h.2.2.2.2.1 (by unfold File.AtVersion; decide) rfl, by decide⟩

end SteamSalesTray.Storage
