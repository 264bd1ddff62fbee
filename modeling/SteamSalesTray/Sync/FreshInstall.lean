import SteamSalesTray.Sync.Effects

/-! Clearing the cache is a fresh install: what survives `ClearAllSales` never comes back in a
request or in the data, however the passes go on. -/

namespace SteamSalesTray.Sync

open Interaction Transaction Storage Steam

/-! ### Equal caches -/

/-- The tables differ at most in the time of the last check and in the last error. -/
structure SameCache (t t' : Tables) : Prop where
  products : t.products = t'.products
  daily : t.daily = t'.daily
  mark : t.syncState.changedDatesHighwatermark = t'.syncState.changedDatesHighwatermark
  lastSync : t.syncState.lastSuccessfulSyncUtc = t'.syncState.lastSuccessfulSyncUtc
  cursor : t.syncState.backfillCursor = t'.syncState.backfillCursor

theorem sameCache_cleared (t : Tables) : SameCache t.cleared .fresh := ⟨rfl, rfl, rfl, rfl, rfl⟩

theorem SameCache.upsertProduct {t t' : Tables} (h : SameCache t t') (p : Product) :
    SameCache (t.upsertProduct p) (t'.upsertProduct p) := by
  have hproducts : (t.upsertProduct p).products = (t'.upsertProduct p).products := by
    unfold Tables.upsertProduct
    rw [h.products]
    split <;> rfl
  exact ⟨hproducts, by simpa using h.daily, by simpa using h.mark, by simpa using h.lastSync,
    by simpa using h.cursor⟩

theorem SameCache.insertDaily {t t' : Tables} (h : SameCache t t') (r : DailySales) :
    Option.Rel SameCache (t.insertDaily r) (t'.insertDaily r) := by
  unfold Tables.insertDaily
  rw [h.products, h.daily]
  split
  · exact .none
  · exact .some ⟨rfl, rfl, h.mark, h.lastSync, h.cursor⟩

theorem SameCache.deleteAllProducts {t t' : Tables} (h : SameCache t t') :
    Option.Rel SameCache t.deleteAllProducts t'.deleteAllProducts := by
  unfold Tables.deleteAllProducts
  rw [h.products, h.daily]
  split
  · exact .none
  · exact .some ⟨rfl, rfl, h.mark, h.lastSync, h.cursor⟩

theorem SameCache.written {t t' : Tables} (h : SameCache t t') (u : Database.SyncStateWrite) :
    SameCache (t.written u) (t'.written u) := by
  obtain ⟨hproducts, hdaily, hmark, hsync, hcursor⟩ := h
  cases u with
  | changedDatesHighwatermark highwatermark => exact ⟨hproducts, hdaily, rfl, hsync, hcursor⟩
  | lastSuccessfulCheckUtc iso8601 => exact ⟨hproducts, hdaily, hmark, hsync, hcursor⟩
  | lastSuccessfulSyncUtc iso8601 => exact ⟨hproducts, hdaily, hmark, rfl, hcursor⟩
  | lastError message => exact ⟨hproducts, hdaily, hmark, hsync, hcursor⟩
  | backfillCursor date => exact ⟨hproducts, hdaily, hmark, hsync, rfl⟩

theorem respects_rowStatements (faults : Faults) (date nowUtc : Bytes) (i : Nat)
    (rows : List DailyProductRow) :
    ∀ s ∈ rowStatements faults date nowUtc i rows, s.Respects SameCache := by
  induction rows generalizing i with
  | nil => simp [rowStatements]
  | cons row rows ih =>
    simp only [rowStatements, List.forall_mem_cons]
    exact ⟨fun t t' h => .some (h.upsertProduct _), fun t t' h => h.insertDaily _, ih (i + 1)⟩

theorem respects_statements (faults : Faults) (w : Write) :
    ∀ s ∈ w.statements faults, s.Respects SameCache := by
  cases w with
  | replaceDate date rows nowUtc =>
    have hdelete : ∀ t t', SameCache t t' → SameCache (t.deleteDate date) (t'.deleteDate date) :=
      fun t t' h =>
        ⟨h.products, congrArg (List.filter _) h.daily, h.mark, h.lastSync, h.cursor⟩
    simp only [Write.statements, replaceDateStatements, List.forall_mem_append,
      List.forall_mem_cons]
    exact ⟨⟨fun _ _ h => .some h, fun t t' h => .some (hdelete t t' h), fun _ _ h => .some h,
      fun _ _ h => .some h, by simp⟩, respects_rowStatements faults date nowUtc 0 rows⟩
  | clearAllSales =>
    simp only [Write.statements, clearAllSalesStatements, List.forall_mem_cons]
    exact ⟨fun t t' h => .some ⟨h.products, rfl, h.mark, h.lastSync, h.cursor⟩,
      fun t t' h => h.deleteAllProducts,
      fun t t' h => .some ⟨h.products, h.daily, rfl, rfl, rfl⟩, by simp⟩

/-! ### Equal services -/

structure SameDatabase (db db' : Database) : Prop where
  isOpen : db.isOpen = db'.isOpen
  conn : db.conn.Related SameCache db'.conn

/-- What a pass can read of the two worlds is equal. -/
structure SameService (w w' : World) : Prop where
  db : SameDatabase w.db w'.db
  requested : w.clearCacheRequested = w'.clearCacheRequested
  notify : w.notifyOnNewUnits = w'.notifyOnNewUnits

theorem SameDatabase.write {db db' : Database} (h : SameDatabase db db') (faults : Faults)
    (w : Write) :
    (w.run faults db).1 = (w.run faults db').1 ∧
      SameDatabase (w.run faults db).2 (w.run faults db').2 := by
  cases hopen : db.isOpen with
  | false =>
    rw [Write.run_closed hopen, Write.run_closed (h.isOpen ▸ hopen)]
    exact ⟨rfl, h⟩
  | true =>
    rw [Write.run_open hopen, Write.run_open (h.isOpen ▸ hopen)]
    obtain ⟨hresult, hconn⟩ := h.conn.transact (respects_statements faults w)
      (faults .beginImmediate) (faults .commit)
    exact ⟨hresult, h.isOpen, hconn⟩

theorem SameDatabase.writeSyncState {db db' : Database} (h : SameDatabase db db')
    (faults : Faults) (u : Database.SyncStateWrite) :
    (db.writeSyncState faults u).1 = (db'.writeSyncState faults u).1 ∧
      SameDatabase (db.writeSyncState faults u).2 (db'.writeSyncState faults u).2 := by
  rw [Database.writeSyncState_eq, Database.writeSyncState_eq]
  unfold Database.setSyncState
  rw [h.isOpen]
  split
  · have hrespects : Statement.Respects SameCache
        ⟨faults .update, fun t => some (t.updateSyncState (SyncState.written · u))⟩ :=
      fun t t' h => .some (h.written u)
    obtain ⟨hresult, hconn⟩ := h.conn.exec hrespects
    exact ⟨hresult, rfl, hconn⟩
  · exact ⟨rfl, h⟩

section Reads

variable {db db' : Database} (h : SameDatabase db db') (limit : Option Nat)
include h

theorem SameDatabase.getChangedDatesHighwatermark :
    db.getChangedDatesHighwatermark limit = db'.getChangedDatesHighwatermark limit := by
  unfold Database.getChangedDatesHighwatermark Database.readSyncState
  rw [h.isOpen, h.conn.visible.mark]

theorem SameDatabase.getBackfillCursor :
    db.getBackfillCursor limit = db'.getBackfillCursor limit := by
  unfold Database.getBackfillCursor Database.readSyncState
  dsimp only
  rw [h.isOpen, h.conn.visible.cursor]

theorem SameDatabase.queryLifetime : db.queryLifetime limit = db'.queryLifetime limit := by
  have hrows : db.conn.visible.queryLifetime = db'.conn.visible.queryLifetime := by
    unfold Tables.queryLifetime Tables.groupedUnits Tables.unitsByProduct Tables.join
    rw [h.conn.visible.products, h.conn.visible.daily]
  unfold Database.queryLifetime Database.runProductQuery
  rw [h.isOpen, hrows]

theorem SameDatabase.sumForDate (date : Bytes) :
    db.sumForDate limit date = db'.sumForDate limit date := by
  unfold Database.sumForDate Database.runScalarSum Tables.sumForDate Tables.dateRows
  rw [h.isOpen, h.conn.visible.daily]

end Reads

theorem exec_same (op : Op) (reply : Reply) {w w' : World} (h : SameService w w') :
    (World.exec op reply w).1 = (World.exec op reply w').1 ∧
      SameService (World.exec op reply w).2 (World.exec op reply w').2 := by
  have hkeep : ∀ {db db' : Database}, SameDatabase db db' →
      SameService { w with db := db } { w' with db := db' } := fun hdb =>
    ⟨hdb, h.requested, h.notify⟩
  cases op with
  | isOpen => exact ⟨h.db.isOpen, h⟩
  | openDatabase => exact ⟨rfl, hkeep ⟨rfl, h.db.conn.drop⟩⟩
  | takeClearRequest => exact ⟨h.requested, h.db, rfl, h.notify⟩
  | clearAllSales =>
    obtain ⟨hresult, hdb⟩ := h.db.write reply.faults .clearAllSales
    exact ⟨hresult, hkeep hdb⟩
  | getChangedDatesHighwatermark => exact ⟨h.db.getChangedDatesHighwatermark reply.readLimit, h⟩
  | getNotifyOnNewUnits => exact ⟨h.notify, h⟩
  | write update =>
    obtain ⟨hresult, hdb⟩ := h.db.writeSyncState reply.faults update
    exact ⟨hresult, hkeep hdb⟩
  | getBackfillCursor => exact ⟨h.db.getBackfillCursor reply.readLimit, h⟩
  | queryLifetime => exact ⟨h.db.queryLifetime reply.readLimit, h⟩
  | replaceDate date rows nowUtc =>
    obtain ⟨hresult, hdb⟩ := h.db.write reply.faults (.replaceDate date rows nowUtc)
    exact ⟨hresult, hkeep hdb⟩
  | sumForDate date => exact ⟨h.db.sumForDate reply.readLimit date, h⟩
  | _ => exact ⟨rfl, h.db, h.requested, h.notify⟩

theorem act_notify (move : Move) {w w' : World} (h : w.notifyOnNewUnits = w'.notifyOnNewUnits) :
    (w.act move).notifyOnNewUnits = (w'.act move).notifyOnNewUnits := by
  cases move with
  | setNotifyOnNewUnits on => rfl
  | handleMessage =>
    show w.handleMessage.notifyOnNewUnits = w'.handleMessage.notifyOnNewUnits
    rw [w.handleMessage_rest, w'.handleMessage_rest]
    exact h
  | _ => exact h

theorem act_same (move : Move) {w w' : World} (h : SameService w w') :
    SameService (w.act move) (w'.act move) := by
  refine ⟨?_, ?_, ?_⟩
  · rw [World.act_db, World.act_db]
    exact h.db
  · cases move with
    | requestClearCache => rfl
    | handleMessage =>
      show w.handleMessage.clearCacheRequested = w'.handleMessage.clearCacheRequested
      rw [w.handleMessage_rest, w'.handleMessage_rest]
      exact h.requested
    | _ => exact h.requested
  · exact act_notify move h.notify

/-- The requests to the server, the latest first. -/
def requests : List Happened → List Op
  | [] => []
  | .call (.getChangedDates key highwatermark) _ _ :: past =>
    .getChangedDates key highwatermark :: requests past
  | .call (.getAllDetailedSalesForDate key date) _ _ :: past =>
    .getAllDetailedSalesForDate key date :: requests past
  | _ :: past => requests past

structure SameRun (s s' : Record) : Prop where
  service : SameService s.state s'.state
  requests : requests s.past = requests s'.past

theorem requests_call {past past' : List Happened} (h : requests past = requests past') (op : Op)
    (answer answer' : op.Answer) (after after' : World) :
    requests (.call op answer after :: past) = requests (.call op answer' after' :: past') := by
  cases op with
  | getChangedDates key highwatermark =>
    exact congrArg (Op.getChangedDates key highwatermark :: ·) h
  | getAllDetailedSalesForDate key date =>
    exact congrArg (Op.getAllDetailedSalesForDate key date :: ·) h
  | _ => exact h

theorem service_agrees : service.traced.Agrees SameRun where
  exec op reply s s' h := by
    obtain ⟨hanswer, hservice⟩ := exec_same op reply h.service
    exact ⟨hanswer, hservice, requests_call h.requests op _ _ _ _⟩
  act move _ _ h := ⟨act_same move h.service, h.requests⟩
  crash _ _ h := ⟨⟨⟨rfl, h.service.db.conn.drop⟩, rfl, h.service.notify⟩, h.requests⟩

/-! ### Up to the clear -/

/-- A call from before the cache is read: it does not ask for the clear request either. -/
def Op.Early : Op → Prop
  | .post _ | .updateStatus _ | .isOpen | .openDatabase => True
  | _ => False

/-- The program comes, by early calls alone, to take a clear request, clears the cache if there is
one, and goes on with `rest` in any case, unless it ends without taking a request. -/
inductive TakesRequest (rest : Worker Exit) : Worker Exit → Prop where
  | take (next : Bool → Worker Exit)
      (hrequested : next true = .call .clearAllSales fun _ => rest) (hnone : next false = rest)
      (hrest : ∀ taken, (next taken).Every fun op => op ≠ .takeClearRequest) :
      TakesRequest rest (.call .takeClearRequest next)
  | early (op : Op) (hop : op.Early) (next : op.Answer → Worker Exit)
      (hnext : ∀ answer, TakesRequest rest (next answer)) : TakesRequest rest (.call op next)
  | ends (p : Worker Exit) (hp : p.Every fun op => op ≠ .takeClearRequest) : TakesRequest rest p

/-- What a pass does once a clear request has been dealt with. -/
def afterClear : Worker Exit := do
  let key ← loadKey
  if key.isEmpty then
    failPass .missingApiKey (wide "No API key configured.") none .missingApiKey
  else syncWithKey key

theorem not_take_of_routine {op : Op} (h : op.Routine) : op ≠ .takeClearRequest := by
  rintro rfl
  exact h

theorem not_take_of_listed {op : Op} (h : op.Listed) : op ≠ .takeClearRequest := by
  rintro rfl
  exact h

theorem syncWithKey_takes_none (key : Bytes) :
    (syncWithKey key).Every fun op => op ≠ .takeClearRequest := by
  refine ⟨nofun, fun hwm => ⟨nofun, fun notifyEnabled => ⟨nofun, fun ⟨r, changed⟩ => ?_⟩⟩⟩
  show Program.Every _ (if r.ok = true then _ else _)
  split
  · refine ⟨nofun, fun now => ⟨nofun, fun _ => ?_⟩⟩
    show Program.Every _ (if _ then _ else _)
    split
    · exact (finishUnchanged_storing _).mono fun _ h => not_take_of_listed h.listed
    · exact (syncChanged_listed _ _ _ _ _).mono fun _ => not_take_of_listed
  · exact (failPass_routine _ _ _ _).mono fun _ => not_take_of_routine

theorem afterClear_takes_none : afterClear.Every fun op => op ≠ .takeClearRequest := by
  unfold afterClear
  refine (loadKey_routine.mono fun _ => not_take_of_routine).bind fun key => ?_
  split
  · exact (failPass_routine _ _ _ _).mono fun _ => not_take_of_routine
  · exact syncWithKey_takes_none key

theorem runSynchronization_takes : TakesRequest afterClear runSynchronization := by
  have hfail : TakesRequest afterClear
      (failPass .databaseError (wide "Could not open the local cache.") none .databaseError) :=
    .ends _ ((failPass_routine _ _ _ _).mono fun _ => not_take_of_routine)
  have hopened : TakesRequest afterClear (clearIfRequested >>= fun _ => afterClear) := by
    refine .take _ rfl rfl fun taken => ?_
    cases taken with
    | true => exact ⟨nofun, fun _ => afterClear_takes_none⟩
    | false => exact afterClear_takes_none
  refine .early (.post .syncStarted) trivial _ fun _ => ?_
  refine .early (.updateStatus _) trivial _ fun _ => ?_
  refine .early .isOpen trivial _ fun isOpen => ?_
  cases isOpen with
  | true => exact hopened
  | false =>
    refine .early .openDatabase trivial _ fun opened => ?_
    cases opened with
    | true => exact hopened
    | false => exact hfail

/-- The second database is new, and otherwise the two services agree on what early calls read. -/
structure BesideFresh (s s' : Record) : Prop where
  isOpen : s.state.db.isOpen = s'.state.db.isOpen
  fresh : s'.state.db.conn = ⟨.fresh, none⟩
  notify : s.state.notifyOnNewUnits = s'.state.notifyOnNewUnits
  requests : requests s.past = requests s'.past

abbrev PassConfig := Config Op Op.Answer Record Exit

/-- A pass beside the same pass on a new database, up to the call that takes the clear request. -/
inductive Beside : PassConfig → PassConfig → Prop where
  | early (s s' : Record) (p : Worker Exit) (hp : TakesRequest afterClear p)
      (h : BesideFresh s s') (hflag : s'.state.clearCacheRequested = false) :
      Beside ⟨s, some p⟩ ⟨s', some p⟩
  | past (s : Record) (c' : PassConfig) (p : Worker Exit)
      (hp : p.Every fun op => op ≠ .takeClearRequest) : Beside ⟨s, some p⟩ c'

def requestsClear : Event Reply Move → Bool
  | .act .requestClearCache => true
  | _ => false

/-- The same events without the requests to clear the cache. -/
def withoutRequests (es : List (Event Reply Move)) : List (Event Reply Move) :=
  es.filter fun e => !requestsClear e

theorem BesideFresh.act {s s' : Record} (h : BesideFresh s s') (move : Move) :
    BesideFresh (service.traced.act move s) (service.traced.act move s') := by
  have hdb : ∀ s : Record, (service.traced.act move s).state.db = s.state.db := fun s =>
    World.act_db s.state move
  refine ⟨?_, ?_, act_notify move h.notify, h.requests⟩
  · rw [hdb, hdb]
    exact h.isOpen
  · rw [hdb]
    exact h.fresh

theorem BesideFresh.early {s s' : Record} (h : BesideFresh s s') {op : Op} (hop : op.Early)
    (reply : Reply) :
    (service.traced.exec op reply s).1 = (service.traced.exec op reply s').1 ∧
      BesideFresh (service.traced.exec op reply s).2 (service.traced.exec op reply s').2 ∧
      (service.traced.exec op reply s').2.state.clearCacheRequested =
        s'.state.clearCacheRequested := by
  obtain ⟨hisOpen, hfresh, hnotify, hrequests⟩ := h
  cases op with
  | post message => exact ⟨rfl, ⟨hisOpen, hfresh, hnotify, hrequests⟩, rfl⟩
  | updateStatus update => exact ⟨rfl, ⟨hisOpen, hfresh, hnotify, hrequests⟩, rfl⟩
  | isOpen => exact ⟨hisOpen, ⟨hisOpen, hfresh, hnotify, hrequests⟩, rfl⟩
  | openDatabase =>
    exact ⟨rfl, ⟨rfl, congrArg Connection.drop hfresh, hnotify, hrequests⟩, rfl⟩
  | _ => exact hop.elim

theorem Beside.call {c c' : PassConfig} (h : Beside c c') (reply : Reply) :
    Beside (service.traced.step runSynchronization c (.call reply))
      (service.traced.step runSynchronization c' (.call reply)) := by
  cases h with
  | early s s' p hp hfresh hflag =>
    cases hp with
    | take next hrequested hnone hrest => exact .past _ _ _ (hrest _)
    | early op hop next hnext =>
      obtain ⟨hanswer, hbeside, hkeep⟩ := hfresh.early hop reply
      show Beside ⟨_, some (next (service.traced.exec op reply s).1)⟩
        ⟨_, some (next (service.traced.exec op reply s').1)⟩
      rw [hanswer]
      exact .early _ _ _ (hnext _) hbeside (hkeep.trans hflag)
    | ends p hp =>
      cases p with
      | ret value => exact .past _ _ _ hp
      | call op next => exact .past _ _ _ (hp.2 _)
  | past s c' p hp =>
    cases p with
    | ret value => exact .past _ _ _ hp
    | call op next => exact .past _ _ _ (hp.2 _)

theorem Beside.run {c c' : PassConfig} (h : Beside c c') {es : List (Event Reply Move)}
    (hes : ∀ e ∈ es, e.Within) :
    Beside (service.traced.run runSynchronization c es)
      (service.traced.run runSynchronization c' (withoutRequests es)) := by
  induction es generalizing c c' with
  | nil => exact h
  | cons e es ih =>
    obtain ⟨hwithin, hrest⟩ := List.forall_mem_cons.mp hes
    cases e with
    | start => exact hwithin.elim
    | kill => exact hwithin.elim
    | call reply => exact ih (h.call reply) hrest
    | act move =>
      by_cases hmove : move = .requestClearCache
      · subst hmove
        refine @ih _ c' ?_ hrest
        cases h with
        | early s s' p hp hfresh hflag =>
          exact .early _ s' p hp ⟨hfresh.isOpen, hfresh.fresh, hfresh.notify, hfresh.requests⟩ hflag
        | past s c' p hp => exact .past _ c' p hp
      · have hkeep : withoutRequests (.act move :: es) = .act move :: withoutRequests es := by
          refine List.filter_cons_of_pos ?_
          cases move with
          | requestClearCache => exact absurd rfl hmove
          | _ => rfl
        rw [hkeep]
        refine ih ?_ hrest
        cases h with
        | early s s' p hp hfresh hflag =>
          exact .early _ _ p hp (hfresh.act move)
            ((World.act_clearCacheRequested s'.state hmove).trans hflag)
        | past s c' p hp => exact .past _ _ p hp

theorem Beside.taking {c c' : PassConfig} (h : Beside c c') (hc : c.Calls .takeClearRequest) :
    ∃ next : Bool → Worker Exit, (next true = .call .clearAllSales fun _ => afterClear) ∧
      next false = afterClear ∧ c.current = some (.call .takeClearRequest next) ∧
      c'.current = some (.call .takeClearRequest next) ∧ BesideFresh c.state c'.state ∧
      c'.state.state.clearCacheRequested = false := by
  obtain ⟨next, hcurrent⟩ := hc
  cases h with
  | past s c' p hp =>
    obtain rfl := Option.some.inj hcurrent
    exact absurd rfl hp.1
  | early s s' p hp hfresh hflag =>
    obtain rfl := Option.some.inj hcurrent
    cases hp with
    | take next hrequested hnone hrest => exact ⟨next, hrequested, hnone, rfl, rfl, hfresh, hflag⟩
    | early op hop next hnext => exact hop.elim
    | ends p hp => exact absurd rfl hp.1

/-! ### From the clear on -/

/-- The clear is called in the one run, and the other goes on without it. -/
structure Clearing (c c' : PassConfig) : Prop where
  calls : c.current = some (.call .clearAllSales fun _ => afterClear)
  skips : c'.current = some afterClear
  fresh : BesideFresh c.state c'.state
  flag : c.state.state.clearCacheRequested = c'.state.state.clearCacheRequested

theorem Beside.clearing {c c' : PassConfig} (h : Beside c c') (hc : c.Calls .takeClearRequest)
    (hrequested : c.state.state.clearCacheRequested = true) (reply : Reply) :
    Clearing (service.traced.step runSynchronization c (.call reply))
      (service.traced.step runSynchronization c' (.call reply)) := by
  obtain ⟨next, htrue, hfalse, hcurrent, hcurrent', hfresh, hflag⟩ := h.taking hc
  obtain ⟨s, current⟩ := c
  obtain ⟨s', current'⟩ := c'
  dsimp only at hcurrent hcurrent' hfresh hflag hrequested
  subst hcurrent hcurrent'
  refine ⟨?_, ?_, ⟨hfresh.isOpen, hfresh.fresh, hfresh.notify, hfresh.requests⟩, rfl⟩
  · show some (next s.state.clearCacheRequested) = _
    rw [hrequested, htrue]
  · show some (next s'.state.clearCacheRequested) = _
    rw [hflag, hfalse]

theorem Clearing.moves {c c' : PassConfig} (h : Clearing c c') (moves : List Move) :
    Clearing (service.traced.run runSynchronization c (moves.map .act))
      (service.traced.run runSynchronization c' (moves.map .act)) := by
  induction moves generalizing c c' with
  | nil => exact h
  | cons move moves ih =>
    refine ih ⟨h.calls, h.skips, h.fresh.act move, ?_⟩
    by_cases hmove : move = .requestClearCache
    · subst hmove
      rfl
    · exact (World.act_clearCacheRequested c.state.state hmove).trans
        (h.flag.trans (World.act_clearCacheRequested c'.state.state hmove).symm)

theorem Clearing.sameRun {c c' : PassConfig} (h : Clearing c c') {reply : Reply}
    (hdone : (World.exec .clearAllSales reply c.state.state).1 = true) :
    SameRun (service.traced.exec .clearAllSales reply c.state).2 c'.state := by
  have hconn : (World.exec .clearAllSales reply c.state.state).2.db.conn =
      ⟨c.state.state.db.conn.committed.cleared, none⟩ :=
    Write.run_true (w := .clearAllSales) hdone
  have hisOpen := World.exec_isOpen .clearAllSales reply c.state.state nofun
  refine ⟨⟨⟨hisOpen.trans h.fresh.isOpen, ?_⟩, h.flag, h.fresh.notify⟩, h.fresh.requests⟩
  show (World.exec .clearAllSales reply c.state.state).2.db.conn.Related SameCache _
  rw [hconn, h.fresh.fresh]
  exact ⟨sameCache_cleared _, .none⟩

theorem Clearing.run {c c' : PassConfig} (h : Clearing c c') {reply : Reply}
    (hdone : (World.exec .clearAllSales reply c.state.state).1 = true)
    (es : List (Event Reply Move)) :
    SameRun (service.traced.run runSynchronization c (.call reply :: es)).state
      (service.traced.run runSynchronization c' es).state := by
  have hsame := h.sameRun hdone
  obtain ⟨s, current⟩ := c
  obtain ⟨s', current'⟩ := c'
  obtain ⟨rfl, rfl, -, -⟩ := h
  exact service_agrees.run runSynchronization hsame (some afterClear) es

/-- A pass that takes a clear request whose `ClearAllSales` succeeds, and whatever follows it, ends
in the cache and makes the requests of the same events without the clear on a new database. -/
theorem clear_is_fresh_install {w w' : World} (hisOpen : w.db.isOpen = w'.db.isOpen)
    (hfresh : w'.db.conn = ⟨.fresh, none⟩) (hnotify : w.notifyOnNewUnits = w'.notifyOnNewUnits)
    (hnone : w'.clearCacheRequested = false) {pre post : List (Event Reply Move)}
    {moves : List Move} {taking clearing : Reply} (hpre : ∀ e ∈ pre, e.Within)
    (htakes : (service.run runSynchronization ⟨w, none⟩ (.start :: pre)).Calls .takeClearRequest)
    (hrequested : (w.after (.start :: pre)).clearCacheRequested = true)
    (hdone : (World.exec .clearAllSales clearing
      (w.after (.start :: (pre ++ .call taking :: moves.map .act)))).1 = true) :
    SameRun
      (w.recordAfter
        (.start :: (pre ++ .call taking :: (moves.map .act ++ .call clearing :: post))))
      (w'.recordAfter
        (.start :: (withoutRequests pre ++ .call taking :: (moves.map .act ++ post)))) := by
  have hstart : Beside ⟨⟨w, []⟩, some runSynchronization⟩ ⟨⟨w', []⟩, some runSynchronization⟩ :=
    .early _ _ _ runSynchronization_takes ⟨hisOpen, hfresh, hnotify, rfl⟩ hnone
  have hbeside := hstart.run hpre
  have hforget := Machine.forget_run service runSynchronization
    (⟨⟨w, []⟩, some runSynchronization⟩ : PassConfig)
  have htakes' : (service.traced.run runSynchronization ⟨⟨w, []⟩, some runSynchronization⟩
      pre).Calls .takeClearRequest := by
    obtain ⟨next, hnext⟩ := htakes
    exact ⟨next, (congrArg Config.current (hforget pre)).trans hnext⟩
  have hrequested' : (service.traced.run runSynchronization ⟨⟨w, []⟩, some runSynchronization⟩
      pre).state.state.clearCacheRequested = true :=
    (congrArg (·.state.clearCacheRequested) (hforget pre)).trans hrequested
  have hclearing := (hbeside.clearing htakes' hrequested' taking).moves moves
  rw [← Machine.run_cons, ← Machine.run_append, ← Machine.run_cons,
    ← Machine.run_append] at hclearing
  have hdone' : (World.exec .clearAllSales clearing (service.traced.run runSynchronization
      ⟨⟨w, []⟩, some runSynchronization⟩ (pre ++ .call taking :: moves.map .act)).state.state).1 =
        true := by
    have hstate := congrArg Config.state (hforget (pre ++ .call taking :: moves.map .act))
    exact (congrArg (fun s => (World.exec .clearAllSales clearing s).1) hstate).trans hdone
  have hsame := hclearing.run hdone' post
  rw [← Machine.run_append, ← Machine.run_append] at hsame
  simp only [List.append_assoc, List.cons_append] at hsame
  exact hsame

/-- A request comes while a pass begins. -/
def requestedPass : List (Event Reply Move) :=
  open Sample in calls 2 (reply [] 2 []) ++ [.act .requestClearCache] ++ calls 1 (reply [] 2 [])

/-- The pass stores the first date and cannot fetch the second, and the next one goes on from
there. -/
def clearedPasses : List (Event Reply Move) :=
  open Sample in
  calls 15 (reply [july18, july17] 2 [sale 1]) ++ calls 5 (offline (reply [july18, july17] 2 [])) ++
    [.start] ++ calls 30 (reply [july18, july17] 2 [sale 2])

def reinstalled : World := { Sample.stored with db := .fresh }

theorem clear_is_fresh_install_stored :
    SameRun
      (Sample.stored.recordAfter (.start :: (requestedPass ++ .call (Sample.reply [] 2 []) ::
        (([] : List Move).map .act ++ .call (Sample.reply [] 2 []) :: clearedPasses))))
      (reinstalled.recordAfter (.start :: (withoutRequests requestedPass ++
        .call (Sample.reply [] 2 []) :: (([] : List Move).map .act ++ clearedPasses)))) :=
  @clear_is_fresh_install Sample.stored reinstalled rfl rfl rfl rfl requestedPass clearedPasses []
    (Sample.reply [] 2 []) (Sample.reply [] 2 []) (by decide) ⟨_, rfl⟩ rfl (by decide +kernel)

end SteamSalesTray.Sync
