import SteamSalesTray.Sync.Service

/-! What each call of a pass does to the tables, and the parts of a pass whose calls change nothing
of note. -/

namespace SteamSalesTray.Sync

open Interaction Transaction Storage Steam

namespace Op

/-- What the call makes of the tables when it succeeds. -/
def effect (t : Tables) : Op → Tables
  | .clearAllSales => t.cleared
  | .write update => t.written update
  | .replaceDate date rows nowUtc => t.replaced date rows nowUtc
  | _ => t

/-- Reads, plain messages and the updates of `sync_state` that record a time or an error. -/
def Routine : Op → Prop
  | .post .syncStarted | .post .totalsChanged | .updateStatus (.publish _) | .openDatabase
  | .takeClearRequest | .clearAllSales | .getChangedDates _ _ | .getAllDetailedSalesForDate _ _
  | .replaceDate _ _ _ | .write (.changedDatesHighwatermark _) | .write (.backfillCursor _) => False
  | _ => True

/-- The calls that fetch and store the changed dates, with the routine ones. -/
def Storing : Op → Prop
  | .post .syncStarted | .post .totalsChanged | .updateStatus (.publish _) | .openDatabase
  | .takeClearRequest | .clearAllSales | .getChangedDates _ _ => False
  | _ => True

/-- The calls of a pass that has its change list. -/
def Listed : Op → Prop
  | .openDatabase | .takeClearRequest | .clearAllSales | .getChangedDates _ _ => False
  | _ => True

/-- The calls that store a change list. -/
def Follows : Op → Prop
  | .isOpen | .openDatabase | .takeClearRequest | .clearAllSales | .hasStoredKey | .loadKey
  | .getChangedDatesHighwatermark | .getNotifyOnNewUnits | .getChangedDates _ _
  | .utcNowIso8601 => False
  | _ => True

/-- The calls that neither ask for changed dates nor touch the database. -/
def Preliminary : Op → Prop
  | .openDatabase | .clearAllSales | .getChangedDates _ _ | .write _ | .replaceDate _ _ _ => False
  | _ => True

theorem Routine.storing {op : Op} (h : op.Routine) : op.Storing := by
  cases op with
  | post message => cases message <;> trivial
  | updateStatus update => cases update <;> trivial
  | openDatabase => exact h
  | takeClearRequest => exact h
  | clearAllSales => exact h
  | getChangedDates key highwatermark => exact h
  | _ => trivial

theorem Storing.listed {op : Op} (h : op.Storing) : op.Listed := by
  cases op with
  | openDatabase => exact h
  | takeClearRequest => exact h
  | clearAllSales => exact h
  | getChangedDates key highwatermark => exact h
  | _ => trivial

theorem Follows.listed {op : Op} (h : op.Follows) : op.Listed := by
  cases op with
  | openDatabase => exact h
  | takeClearRequest => exact h
  | clearAllSales => exact h
  | getChangedDates key highwatermark => exact h
  | _ => trivial

def Distinct : Op → Prop
  | .replaceDate _ rows _ => (rows.map DailyProductRow.appId).Nodup
  | _ => True

end Op

/-- `t'` has the data of `t`: only the times and the error in `sync_state` may differ. -/
structure SameData (t t' : Tables) : Prop where
  daily : t'.daily = t.daily
  products : t'.products = t.products
  mark : t'.syncState.changedDatesHighwatermark = t.syncState.changedDatesHighwatermark
  cursor : t'.syncState.backfillCursor = t.syncState.backfillCursor

@[refl] theorem SameData.refl (t : Tables) : SameData t t := ⟨rfl, rfl, rfl, rfl⟩

/-- A property that routine updates of `sync_state` leave true. -/
def Lasts (v : Tables → Prop) : Prop := ∀ t t', SameData t t' → v t → v t'

theorem Op.Routine.sameData {op : Op} (h : op.Routine) (t : Tables) : SameData t (op.effect t) := by
  cases op with
  | write update =>
    cases update with
    | changedDatesHighwatermark highwatermark => exact h.elim
    | backfillCursor date => exact h.elim
    | lastSuccessfulCheckUtc iso8601 => exact ⟨rfl, rfl, rfl, rfl⟩
    | lastSuccessfulSyncUtc iso8601 => exact ⟨rfl, rfl, rfl, rfl⟩
    | lastError message => exact ⟨rfl, rfl, rfl, rfl⟩
  | clearAllSales => exact h.elim
  | replaceDate date rows nowUtc => exact h.elim
  | _ => exact ⟨rfl, rfl, rfl, rfl⟩

/-- The call leaves the data and the connection as they are. -/
def Op.Quiet (op : Op) : Prop := op ≠ .openDatabase ∧ ∀ t, SameData t (op.effect t)

theorem Op.Routine.quiet {op : Op} (h : op.Routine) : op.Quiet := by
  refine ⟨?_, h.sameData⟩
  rintro rfl
  exact h

/-! ### Parts of a pass -/

theorem post_routine {message : Message} (h : (Op.post message).Routine) :
    (post message).Every Op.Routine := ⟨h, fun _ => trivial⟩

theorem updateStatus_routine {update : StatusUpdate} (h : (Op.updateStatus update).Routine) :
    (perform (.updateStatus update)).Every Op.Routine := ⟨h, fun _ => trivial⟩

theorem write_routine {update : Database.SyncStateWrite} (h : (Op.write update).Routine) :
    (write update).Every Op.Routine := ⟨h, fun _ => trivial⟩

theorem post_quiet (message : Message) : (post message).Every Op.Quiet :=
  ⟨⟨nofun, fun _ => .refl _⟩, fun _ => trivial⟩

theorem publish_quiet (notification : Wide) : (publish notification).Every Op.Quiet :=
  ⟨⟨nofun, fun _ => .refl _⟩, fun _ => (post_quiet .totalsChanged).bind fun _ =>
    post_quiet .syncCompleted⟩

theorem failPass_every {P : Op → Prop} {status : SyncStatus} {message : Wide}
    {lastError : Option Bytes} (hstatus : P (.updateStatus (.set status message)))
    (hwrite : ∀ e, P (.write (.lastError e))) (hpost : P (.post .syncFailed)) (exit : Exit) :
    (failPass status message lastError exit).Every P := by
  cases lastError with
  | none => exact ⟨hstatus, fun _ => ⟨hpost, fun _ => trivial⟩⟩
  | some e => exact ⟨hstatus, fun _ => ⟨hwrite e, fun _ => ⟨hpost, fun _ => trivial⟩⟩⟩

theorem failPass_routine (status : SyncStatus) (message : Wide) (lastError : Option Bytes)
    (exit : Exit) : (failPass status message lastError exit).Every Op.Routine :=
  failPass_every trivial (fun _ => trivial) trivial exit

theorem ensureOpen_every {P : Op → Prop} (hisOpen : P .isOpen) (hopen : P .openDatabase) :
    ensureOpen.Every P := by
  refine ⟨hisOpen, fun opened => ?_⟩
  cases opened with
  | true => trivial
  | false => exact ⟨hopen, fun _ => trivial⟩

theorem clearIfRequested_every {P : Op → Prop} (htake : P .takeClearRequest)
    (hclear : P .clearAllSales) : clearIfRequested.Every P := by
  refine ⟨htake, fun taken => ?_⟩
  cases taken with
  | true => exact ⟨hclear, fun _ => trivial⟩
  | false => trivial

theorem loadKey_every {P : Op → Prop} (hhas : P .hasStoredKey) (hload : P .loadKey) :
    loadKey.Every P := by
  refine ⟨hhas, fun hasKey => ?_⟩
  cases hasKey with
  | false => trivial
  | true => exact ⟨hload, fun _ => trivial⟩

theorem loadKey_routine : loadKey.Every Op.Routine := loadKey_every trivial trivial

theorem readCursor_every {P : Op → Prop} (hread : P .getBackfillCursor) (initial : Bool) :
    (readCursor initial).Every P := by
  cases initial with
  | false => trivial
  | true => exact ⟨hread, fun _ => trivial⟩

theorem readCursor_routine (initial : Bool) : (readCursor initial).Every Op.Routine :=
  readCursor_every trivial initial

theorem snapshotBefore_every {P : Op → Prop} (hquery : P .queryLifetime) (compare : Bool) :
    (snapshotBefore compare).Every P := by
  cases compare with
  | false => trivial
  | true => exact ⟨hquery, fun _ => trivial⟩

theorem snapshotBefore_routine (compare : Bool) : (snapshotBefore compare).Every Op.Routine :=
  snapshotBefore_every trivial compare

theorem notificationAfter_every {P : Op → Prop} (hquery : P .queryLifetime) (htoday : P .steamToday)
    (hsum : ∀ date, P (.sumForDate date)) (hiterate : ∀ map, P (.iterate map)) (before : Snapshot) :
    (notificationAfter before).Every P :=
  ⟨hquery, fun _ => ⟨htoday, fun _ => ⟨hsum _, fun _ => ⟨hiterate _, fun _ => trivial⟩⟩⟩⟩

theorem notificationAfter_routine (before : Snapshot) :
    (notificationAfter before).Every Op.Routine :=
  notificationAfter_every trivial trivial (fun _ => trivial) (fun _ => trivial) before

theorem advanceMark_every {P : Op → Prop} {resultHighwatermark : Bytes}
    (hwrite : P (.write (.changedDatesHighwatermark resultHighwatermark))) :
    (advanceMark resultHighwatermark).Every P := by
  unfold advanceMark
  split
  · trivial
  · exact ⟨hwrite, fun _ => trivial⟩

theorem advanceMark_storing (resultHighwatermark : Bytes) :
    (advanceMark resultHighwatermark).Every Op.Storing := advanceMark_every trivial

theorem checkpoint_every {P : Op → Prop} {date : Bytes} (hwrite : P (.write (.backfillCursor date)))
    (initial : Bool) : (checkpoint initial date).Every P := by
  cases initial with
  | false => trivial
  | true => exact ⟨hwrite, fun _ => trivial⟩

theorem checkpoint_storing (initial : Bool) (date : Bytes) :
    (checkpoint initial date).Every Op.Storing := checkpoint_every trivial initial

theorem syncDates_every {P : Op → Prop} {key now : Bytes}
    (hfetch : ∀ date, P (.getAllDetailedSalesForDate key date))
    (hreplace : ∀ date rows, P (.replaceDate date rows now))
    (hcursor : ∀ date, P (.write (.backfillCursor date))) (hdone : P (.updateStatus .dateDone))
    (hprogress : P (.post .syncProgress))
    (hstatus : ∀ status message, P (.updateStatus (.set status message)))
    (herror : ∀ e, P (.write (.lastError e))) (hpost : P (.post .syncFailed)) (initial : Bool)
    (todo : List Bytes) : (syncDates key now initial todo).Every P := by
  have hfail : ∀ status message lastError exit,
      (failPass status message lastError exit >>= fun exit => pure (some exit)).Every P :=
    fun _ _ _ exit => (failPass_every (hstatus _ _) herror hpost exit).bind fun _ => trivial
  induction todo with
  | nil => trivial
  | cons date rest ih =>
    refine ⟨hfetch date, fun ⟨pr, records⟩ => ?_⟩
    show Program.Every _ (if pr.ok = true then _ else _)
    split
    · refine ⟨hreplace date _, fun saved => ?_⟩
      cases saved with
      | true =>
        refine (checkpoint_every (hcursor date) initial).bind fun _ => ?_
        exact ⟨hdone, fun _ => ⟨hprogress, fun _ => ih⟩⟩
      | false =>
        exact hfail .databaseError (wide "Failed to save sales data.")
          (some (ascii "database write failed")) .replaceFailed
    · exact hfail _ _ _ _

theorem syncDates_storing (key now : Bytes) (initial : Bool) (todo : List Bytes) :
    (syncDates key now initial todo).Every Op.Storing :=
  syncDates_every (fun _ => trivial) (fun _ _ => trivial) (fun _ => trivial) trivial trivial
    (fun _ _ => trivial) (fun _ => trivial) trivial initial todo

theorem finishStored_follows (now : Bytes) (initial notifyEnabled : Bool)
    (resultHighwatermark : Bytes) (before : Snapshot) :
    (finishStored now initial notifyEnabled resultHighwatermark before).Every Op.Follows := by
  have hpublish : ∀ notification exit, (publish notification >>= fun _ => pure exit :
      Worker Exit).Every Op.Follows := fun _ _ =>
    ⟨trivial, fun _ => ⟨trivial, fun _ => ⟨trivial, fun _ => trivial⟩⟩⟩
  unfold finishStored
  refine (advanceMark_every trivial).bind fun _ => (checkpoint_every trivial _).bind fun _ => ?_
  refine ⟨trivial, fun _ => ⟨trivial, fun _ => ?_⟩⟩
  show Program.Every _ (if _ then _ else _)
  split
  · refine (notificationAfter_every trivial trivial (fun _ => trivial) (fun _ => trivial)
      before).bind ?_
    exact fun ⟨after, notification⟩ => hpublish _ _
  · exact hpublish _ _

theorem syncChanged_follows (key now : Bytes) (initial notifyEnabled : Bool)
    (changed : ChangedDates) :
    (syncChanged key now initial notifyEnabled changed).Every Op.Follows := by
  unfold syncChanged
  refine (readCursor_every trivial initial).bind fun cursor => ?_
  refine ⟨trivial, fun _ => ⟨trivial, fun _ => ?_⟩⟩
  refine (snapshotBefore_every trivial _).bind fun before => ?_
  refine (syncDates_every (fun _ => trivial) (fun _ _ => trivial) (fun _ => trivial) trivial trivial
    (fun _ _ => trivial) (fun _ => trivial) trivial initial _).bind fun failed => ?_
  cases failed with
  | some exit => trivial
  | none => exact finishStored_follows _ _ _ _ _

theorem syncChanged_listed (key now : Bytes) (initial notifyEnabled : Bool)
    (changed : ChangedDates) :
    (syncChanged key now initial notifyEnabled changed).Every Op.Listed :=
  (syncChanged_follows key now initial notifyEnabled changed).mono fun _ h => h.listed

theorem finishUnchanged_storing (resultHighwatermark : Bytes) :
    (finishUnchanged resultHighwatermark).Every Op.Storing :=
  (advanceMark_storing resultHighwatermark).bind fun _ =>
    ⟨trivial, fun _ => ⟨trivial, fun _ => ⟨trivial, fun _ => trivial⟩⟩⟩

/-- A pass, from its parts: it fails if the database does not open or there is no key, and goes on
with the key otherwise. -/
theorem runSynchronization_spec {σ ε ι : Type} {K : Contract Op Op.Answer σ ε ι}
    {P Started Begun Cleared Keyed : σ → Prop} {Opened : Bool → σ → Prop} {Q : Exit → σ → Prop}
    (hstarted : K.Spec P (post .syncStarted) fun _ => Started)
    (hsyncing : K.Spec Started (setStatus .syncing (wide "Updating…")) fun _ => Begun)
    (hopen : K.Spec Begun ensureOpen Opened)
    (hclosed : K.Spec (Opened false) (failPass .databaseError
      (wide "Could not open the local cache.") none .databaseError) Q)
    (hclear : K.Spec (Opened true) clearIfRequested fun _ => Cleared)
    (hkey : K.Spec Cleared loadKey fun _ => Keyed)
    (hmissing : K.Spec Keyed (failPass .missingApiKey (wide "No API key configured.") none
      .missingApiKey) Q)
    (hsync : ∀ key, K.Spec Keyed (syncWithKey key) Q) : K.Spec P runSynchronization Q := by
  unfold runSynchronization
  refine hstarted.bind fun _ => hsyncing.bind fun _ => hopen.bind fun opened => ?_
  cases opened with
  | false => exact hclosed
  | true =>
    refine hclear.bind fun _ => hkey.bind fun key => ?_
    split
    · exact hmissing
    · exact hsync key

/-! ### How the parts end -/

def Exit.Failed : Exit → Prop
  | .upToDate | .stored _ => False
  | _ => True

theorem failPass_returns (status : SyncStatus) (message : Wide) (lastError : Option Bytes)
    (exit : Exit) : (failPass status message lastError exit).Returns (· = exit) := by
  intro _
  cases lastError with
  | none => exact fun _ => rfl
  | some e => exact fun _ _ => rfl

/-- The loop ends with an exit only where it fails. -/
theorem syncDates_returns (key now : Bytes) (initial : Bool) (todo : List Bytes) :
    (syncDates key now initial todo).Returns fun failed => ∀ exit, failed = some exit →
      exit.Failed := by
  have hfail : ∀ status message lastError exit, exit.Failed →
      (failPass status message lastError exit >>= fun exit => pure (some exit)).Returns
        fun failed => ∀ exit, failed = some exit → exit.Failed := by
    intro status message lastError exit hexit
    refine (failPass_returns status message lastError exit).bind ?_
    rintro _ rfl _ ⟨⟩
    exact hexit
  induction todo with
  | nil => exact fun _ => nofun
  | cons date rest ih =>
    rintro ⟨pr, records⟩
    show Program.Returns _ (if pr.ok = true then _ else _)
    split
    · intro saved
      cases saved with
      | true =>
        exact (Program.returns_any (checkpoint initial date)).bind fun _ _ => fun _ => fun _ => ih
      | false =>
        exact hfail .databaseError (wide "Failed to save sales data.")
          (some (ascii "database write failed")) .replaceFailed trivial
    · exact hfail _ _ _ .detailedSalesFailed trivial

/-! ### What a call changes -/

def Shows (v : Tables → Prop) (w : World) : Prop := w.db.isOpen = true ∧ v w.db.conn.visible

namespace World

variable (op : Op) (reply : Reply) (w : World)

@[simp] theorem exec_server : (exec op reply w).2.server = w.server := by cases op <;> rfl

/-- The calls of a pass leave the connection as it is, or close an open transaction by opening the
database anew, or show their effect. -/
theorem exec_conn :
    (exec op reply w).2.db.conn = w.db.conn ∨
      (op = .openDatabase ∧ (exec op reply w).2.db.conn = w.db.conn.drop) ∨
      (op ≠ .openDatabase ∧ op.Distinct ∧
        w.db.conn.Becomes (op.effect w.db.conn.visible) (exec op reply w).2.db.conn) := by
  cases op with
  | openDatabase => exact .inr (.inl ⟨rfl, rfl⟩)
  | clearAllSales =>
    rcases Write.run_cases reply.faults .clearAllSales w.db with h | h
    · exact .inl (congrArg (·.2.conn) h)
    · exact .inr (.inr ⟨nofun, h.1, h.2.2.2.1⟩)
  | replaceDate date rows nowUtc =>
    rcases Write.run_cases reply.faults (.replaceDate date rows nowUtc) w.db with h | h
    · exact .inl (congrArg (·.2.conn) h)
    · exact .inr (.inr ⟨nofun, h.1, h.2.2.2.1⟩)
  | write update =>
    rcases Database.writeSyncState_cases reply.faults update w.db with h | h
    · exact .inl (congrArg (·.2.conn) h)
    · exact .inr (.inr ⟨nofun, trivial, h.2.1⟩)
  | _ => exact .inl rfl

theorem exec_both {P : Tables → Prop} (h : w.db.conn.Both P)
    (heffect : op.Distinct → P (op.effect w.db.conn.visible)) :
    (exec op reply w).2.db.conn.Both P := by
  rcases exec_conn op reply w with hconn | ⟨_, hconn⟩ | ⟨_, hdistinct, hbecomes⟩
  · exact hconn ▸ h
  · exact hconn ▸ h.drop
  · exact hbecomes.both h (heffect hdistinct)

theorem exec_visible (hop : op ≠ .openDatabase) :
    (exec op reply w).2.db.conn.visible = w.db.conn.visible ∨
      (exec op reply w).2.db.conn.visible = op.effect w.db.conn.visible := by
  rcases exec_conn op reply w with hconn | ⟨h, _⟩ | ⟨_, _, hbecomes⟩
  · exact .inl (congrArg _ hconn)
  · exact absurd h hop
  · exact .inr hbecomes.visible

theorem exec_lasts (hop : op.Quiet) {v : Tables → Prop} (hv : Lasts v)
    (h : v w.db.conn.visible) : v (exec op reply w).2.db.conn.visible := by
  rcases exec_visible op reply w hop.1 with hsame | heffect
  · exact hsame ▸ h
  · exact heffect ▸ hv _ _ (hop.2 _) h

theorem exec_isOpen (hop : op ≠ .openDatabase) :
    (exec op reply w).2.db.isOpen = w.db.isOpen := by
  cases op with
  | openDatabase => exact absurd rfl hop
  | clearAllSales => exact Write.run_isOpen reply.faults .clearAllSales w.db
  | replaceDate date rows nowUtc =>
    exact Write.run_isOpen reply.faults (.replaceDate date rows nowUtc) w.db
  | write update => exact Database.writeSyncState_isOpen reply.faults update w.db
  | _ => rfl

theorem exec_closed (hop : op ≠ .openDatabase) (hclosed : w.db.isOpen = false) :
    (exec op reply w).2.db = w.db := by
  cases op with
  | openDatabase => exact absurd rfl hop
  | clearAllSales => exact congrArg Prod.snd (Write.run_closed hclosed reply.faults .clearAllSales)
  | replaceDate date rows nowUtc =>
    exact congrArg Prod.snd (Write.run_closed hclosed reply.faults (.replaceDate date rows nowUtc))
  | write update =>
    show (Database.writeSyncState reply.faults update w.db).2 = w.db
    rw [Database.writeSyncState_eq, Database.setSyncState, if_neg (by simp [hclosed])]
  | _ => rfl

theorem exec_preliminary (hop : op.Preliminary) : (exec op reply w).2.db = w.db := by
  cases op with
  | openDatabase => exact hop.elim
  | clearAllSales => exact hop.elim
  | write update => exact hop.elim
  | replaceDate date rows nowUtc => exact hop.elim
  | _ => rfl

theorem exec_clearCacheRequested (hop : op ≠ .takeClearRequest) :
    (exec op reply w).2.clearCacheRequested = w.clearCacheRequested := by
  cases op with
  | takeClearRequest => exact absurd rfl hop
  | _ => rfl

theorem handleMessage_rest :
    w.handleMessage =
      { w with queue := w.handleMessage.queue, balloons := w.handleMessage.balloons } := by
  unfold handleMessage
  split
  · rfl
  · split <;> rfl
  · rfl

@[simp] theorem act_db (move : Move) : (w.act move).db = w.db := by
  cases move with
  | handleMessage => exact (congrArg World.db w.handleMessage_rest).trans rfl
  | _ => rfl

theorem act_server_same {move : Move}
    (hmove : ∀ gap date records, move ≠ .serverChange gap date records) :
    (w.act move).server = w.server := by
  cases move with
  | serverChange gap date records => exact absurd rfl (hmove gap date records)
  | handleMessage => exact (congrArg World.server w.handleMessage_rest).trans rfl
  | _ => rfl

theorem act_server (move : Move) :
    (w.act move).server = w.server ∨
      ∃ gap date records, (w.act move).server = w.server.push gap date records := by
  cases move with
  | serverChange gap date records => exact .inr ⟨gap, date, records, rfl⟩
  | _ => exact .inl (w.act_server_same nofun)

theorem act_clearCacheRequested {move : Move} (hmove : move ≠ .requestClearCache) :
    (w.act move).clearCacheRequested = w.clearCacheRequested := by
  cases move with
  | requestClearCache => exact absurd rfl hmove
  | handleMessage => exact (congrArg World.clearCacheRequested w.handleMessage_rest).trans rfl
  | _ => rfl

theorem exec_replaceDate_true {date nowUtc : Bytes} {rows : List DailyProductRow}
    (h : (exec (.replaceDate date rows nowUtc) reply w).1 = true) :
    (exec (.replaceDate date rows nowUtc) reply w).2.db.conn =
      ⟨w.db.conn.visible.replaced date rows nowUtc, none⟩ := by
  rcases Write.run_cases reply.faults (.replaceDate date rows nowUtc) w.db with hfail | hok
  · have hfalse : (exec (.replaceDate date rows nowUtc) reply w).1 = false :=
      congrArg Prod.fst hfail
    rw [hfalse] at h
    cases h
  · exact hok.2.2.2.2 h

end World

end SteamSalesTray.Sync
