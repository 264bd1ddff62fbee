import SteamSalesTray.Sync.Effects

/-! A pass in which no call fails succeeds, whatever is in the tables and whatever the server
answers, and leaves no transaction open. -/

namespace SteamSalesTray.Sync

open Interaction Transaction Storage Steam

/-- No step of the call fails, the database opens, a key is stored, and the server answers. -/
structure Faultless (reply : Reply) : Prop where
  faults : reply.faults = noFaults
  readLimit : reply.readLimit = none
  opens : reply.opens = true
  hasKey : reply.hasKey = true
  key : ∃ key, reply.key = some key ∧ key ≠ []
  changed : reply.changed.1.ok = true
  sales : reply.sales.1.ok = true

def faultlessContract : Contract Op Op.Answer World Reply Move where
  machine := service
  rules :=
    { start := fun _ => True
      call := fun _ reply _ => Faultless reply
      act := fun _ _ => True
      kill := fun _ => False }
  inv w := w.db.conn.tx = none
  inv_act move w _ h := by
    show (w.act move).db.conn.tx = none
    rw [World.act_db]
    exact h

/-- The database is open. -/
def Opened (w : World) : Prop := w.db.isOpen = true

namespace Recovery

theorem stable_opened : faultlessContract.Stable Opened := by
  intro move w _ _ h
  show (w.act move).db.isOpen = true
  rw [World.act_db]
  exact h

/-- A write without faults leaves no transaction open. -/
theorem run_closed_tx {db : Database} (h : db.conn.tx = none) (w : Write) :
    (w.run noFaults db).2.conn.tx = none := by
  rcases Write.run_cases noFaults w db with hsame | ⟨hdistinct, -, -, -, -⟩
  · rw [hsame]
    exact h
  · cases hopen : db.isOpen with
    | false =>
      rw [Write.run_closed hopen]
      exact h
    | true => rw [Write.run_noFaults hopen h hdistinct]

theorem inv_exec {op : Op} {reply : Reply} {w : World} (hreply : Faultless reply)
    (h : w.db.conn.tx = none) : (World.exec op reply w).2.db.conn.tx = none := by
  cases op with
  | openDatabase => rfl
  | clearAllSales =>
    show (Write.clearAllSales.run reply.faults w.db).2.conn.tx = none
    rw [hreply.faults]
    exact run_closed_tx h _
  | replaceDate date rows nowUtc =>
    show ((Write.replaceDate date rows nowUtc).run reply.faults w.db).2.conn.tx = none
    rw [hreply.faults]
    exact run_closed_tx h _
  | write update =>
    show (w.db.writeSyncState reply.faults update).2.conn.tx = none
    rcases Database.writeSyncState_cases reply.faults update w.db with hsame | ⟨-, -, hdone⟩
    · rw [hsame]
      exact h
    · rw [hdone h]
  | _ => exact h

/-- A call that does not open the database, with what the reply makes of its answer. -/
theorem call (op : Op) (hop : op ≠ .openDatabase) {Q : op.Answer → Prop}
    (h : ∀ reply w, Faultless reply → Opened w → w.db.conn.tx = none → Q (w.exec op reply).1) :
    faultlessContract.Spec Opened (perform op) fun answer w => Opened w ∧ Q answer :=
  Contract.Spec.perform stable_opened
    (fun answer => stable_opened.and (Contract.stable_const (Q answer)))
    fun w reply hinv hopened hreply => ⟨inv_exec hreply hinv,
      (World.exec_isOpen op reply w hop).trans hopened, h reply w hreply hopened hinv⟩

/-- Calls that leave the database as open as it is. -/
theorem goes {α : Type} {p : Worker α} (hp : p.Every (· ≠ .openDatabase)) :
    faultlessContract.Spec Opened p fun _ => Opened :=
  Contract.Spec.every stable_opened <| hp.mono fun op hop w reply hinv hopened hreply =>
    ⟨inv_exec hreply hinv, (World.exec_isOpen op reply w hop).trans hopened⟩

theorem listed {α : Type} {p : Worker α} (hp : p.Every Op.Listed) :
    faultlessContract.Spec Opened p fun _ => Opened := by
  refine goes (hp.mono ?_)
  rintro _ hop rfl
  exact hop

theorem done {α : Type} {value : α} {R : α → Prop} (h : R value) :
    faultlessContract.Spec Opened (pure value) fun value w => Opened w ∧ R value :=
  Contract.Spec.ret stable_opened fun _ _ hopened => ⟨hopened, h⟩

theorem replaceDate_succeeds {reply : Reply} (hreply : Faultless reply) {w : World}
    (hopened : Opened w) (h : w.db.conn.tx = none) {date now : Bytes}
    {records : List DetailedSalesRecord} :
    (w.exec (.replaceDate date (aggregateDate records) now) reply).1 = true := by
  have hdistinct : (Write.replaceDate date (aggregateDate records) now).Distinct :=
    nodup_aggregateDate records
  show ((Write.replaceDate date (aggregateDate records) now).run reply.faults w.db).1 = true
  rw [hreply.faults, Write.run_noFaults hopened h hdistinct]

theorem syncDates_succeeds (key now : Bytes) (initial : Bool) (todo : List Bytes) :
    faultlessContract.Spec Opened (syncDates key now initial todo)
      fun failed w => Opened w ∧ failed = none := by
  induction todo with
  | nil => exact done rfl
  | cons date rest ih =>
    have hfetch := call (.getAllDetailedSalesForDate key date) nofun
      (Q := fun answer => answer.1.ok = true) fun reply w hreply _ _ => hreply.sales
    have hreplace : ∀ records, faultlessContract.Spec Opened
        (perform (.replaceDate date (aggregateDate records) now))
        fun saved w => Opened w ∧ saved = true := fun records =>
      call (.replaceDate date (aggregateDate records) now) nofun fun reply w hreply hopened hinv =>
        replaceDate_succeeds hreply hopened hinv
    refine hfetch.bind ?_
    rintro ⟨pr, records⟩
    refine .given fun hok => ?_
    show faultlessContract.Spec _ (if pr.ok = true then _ else _) _
    rw [if_pos hok]
    refine (hreplace records).bind fun saved => .given ?_
    rintro rfl
    refine (listed (checkpoint_every trivial initial)).bind fun _ => ?_
    refine (listed (p := perform (.updateStatus .dateDone)) ⟨trivial, fun _ => trivial⟩).bind
      fun _ => ?_
    exact (listed (p := post .syncProgress) ⟨trivial, fun _ => trivial⟩).bind fun _ => ih

theorem finishStored_returns (now : Bytes) (initial notifyEnabled : Bool)
    (resultHighwatermark : Bytes) (before : Snapshot) :
    (finishStored now initial notifyEnabled resultHighwatermark before).Returns
      fun exit => ¬exit.Failed := by
  have hpublish : ∀ (notification : Wide) compared,
      (publish notification >>= fun _ => pure (Exit.stored compared)).Returns
        fun exit => ¬exit.Failed := fun notification compared =>
    (Program.returns_any (publish notification)).bind fun _ _ => id
  unfold finishStored
  refine (Program.returns_any _).bind fun _ _ => (Program.returns_any _).bind fun _ _ => ?_
  refine (Program.returns_any _).bind fun _ _ => (Program.returns_any _).bind fun _ _ => ?_
  show Program.Returns _ (if _ then _ else _)
  split
  · exact (Program.returns_any _).bind fun ⟨after, notification⟩ _ => hpublish notification _
  · exact hpublish [] _

theorem syncChanged_succeeds (key now : Bytes) (initial notifyEnabled : Bool)
    (changed : ChangedDates) :
    faultlessContract.Spec Opened (syncChanged key now initial notifyEnabled changed)
      fun exit w => Opened w ∧ ¬exit.Failed := by
  refine (listed (readCursor_every trivial initial)).bind fun cursor => ?_
  refine (listed (p := perform (.updateStatus _)) ⟨trivial, fun _ => trivial⟩).bind fun _ => ?_
  refine (listed (p := post .syncProgress) ⟨trivial, fun _ => trivial⟩).bind fun _ => ?_
  refine (listed (snapshotBefore_every trivial _)).bind fun before => ?_
  refine (syncDates_succeeds key now initial _).bind fun failed => .given ?_
  rintro rfl
  have hlisted := (finishStored_follows now initial notifyEnabled changed.resultHighwatermark
    before).mono fun _ h => h.listed
  exact (listed hlisted).returns
    (finishStored_returns now initial notifyEnabled _ before)

theorem syncWithKey_succeeds (key : Bytes) :
    faultlessContract.Spec Opened (syncWithKey key) fun exit w => Opened w ∧ ¬exit.Failed := by
  have hperform : ∀ op : Op, op ≠ .openDatabase →
      faultlessContract.Spec Opened (perform op) fun _ => Opened :=
    fun op hop => goes ⟨hop, fun _ => trivial⟩
  have hlist : ∀ hwm, faultlessContract.Spec Opened (perform (.getChangedDates key hwm))
      fun answer w => Opened w ∧ answer.1.ok = true := fun hwm =>
    call (.getChangedDates key hwm) nofun fun reply w hreply _ _ => hreply.changed
  refine (hperform .getChangedDatesHighwatermark nofun).bind fun hwm => ?_
  refine (hperform .getNotifyOnNewUnits nofun).bind fun notifyEnabled => ?_
  refine (hlist hwm).bind ?_
  rintro ⟨r, changed⟩
  refine .given fun hok => ?_
  show faultlessContract.Spec _ (if r.ok = true then _ else _) _
  rw [if_pos hok]
  refine (hperform .utcNowIso8601 nofun).bind fun now => ?_
  refine (listed (p := write (.lastSuccessfulCheckUtc now)) ⟨trivial, fun _ => trivial⟩).bind
    fun _ => ?_
  show faultlessContract.Spec _ (if _ then _ else _) _
  split
  · have hends : (finishUnchanged changed.resultHighwatermark).Returns fun exit => ¬exit.Failed :=
      (Program.returns_any (advanceMark _)).bind fun _ _ => fun _ _ _ => id
    exact (listed ((finishUnchanged_storing _).mono fun _ h => h.listed)).returns hends
  · exact syncChanged_succeeds key now _ notifyEnabled changed

theorem ensureOpen_succeeds :
    faultlessContract.Spec (fun _ => True) ensureOpen fun opened w => Opened w ∧ opened = true := by
  have hstable : ∀ opened, faultlessContract.Stable fun w => opened = true → Opened w := by
    intro opened move w hmove hinv hw hopened
    exact stable_opened move w hmove hinv (hw hopened)
  have hisOpen : faultlessContract.Spec (fun _ => True) (perform .isOpen)
      fun opened w => opened = true → Opened w :=
    Contract.Spec.perform (Contract.stable_const True) hstable fun _ _ hinv _ _ => ⟨hinv, id⟩
  refine hisOpen.bind fun opened => ?_
  cases opened with
  | true =>
    exact Contract.Spec.ret (hstable true) fun _ _ hopened => ⟨hopened rfl, rfl⟩
  | false =>
    refine (Contract.Spec.perform (Contract.stable_const True)
      (fun opened => stable_opened.and (Contract.stable_const _))
      fun w reply _ _ hreply => ?_).pre fun _ _ _ => trivial
    exact ⟨rfl, hreply.opens, hreply.opens⟩

theorem loadKey_succeeds :
    faultlessContract.Spec Opened loadKey fun key w => Opened w ∧ key ≠ [] := by
  have hstored := call .hasStoredKey nofun (Q := fun stored => stored = true)
    fun reply w hreply _ _ => hreply.hasKey
  have hload := call .loadKey nofun (Q := fun answer => answer.getD [] ≠ [])
    fun reply w hreply _ _ => by
      obtain ⟨key, hkey, hne⟩ := hreply.key
      show reply.key.getD [] ≠ []
      rw [hkey]
      exact hne
  refine hstored.bind fun stored => .given ?_
  rintro rfl
  exact hload.bind fun key => .given fun hne => done hne

end Recovery

open Recovery in
/-- A pass in which nothing fails succeeds, and leaves no transaction open. -/
theorem faultless_pass_succeeds :
    faultlessContract.Spec (fun _ => True) runSynchronization fun exit _ => ¬exit.Failed := by
  have hany : ∀ {α : Type} {p : Worker α}, p.Every (· ≠ .openDatabase) →
      faultlessContract.Spec (fun _ => True) p fun _ _ => True := fun hp =>
    Contract.Spec.every (Contract.stable_const True) <| hp.mono
      fun _ _ _ _ hinv _ hreply => ⟨inv_exec hreply hinv, trivial⟩
  unfold runSynchronization
  refine (hany (p := post .syncStarted) ⟨nofun, fun _ => trivial⟩).bind fun _ => ?_
  refine (hany (p := setStatus _ _) ⟨nofun, fun _ => trivial⟩).bind fun _ => ?_
  refine ensureOpen_succeeds.bind fun opened => .given ?_
  rintro rfl
  refine (goes (clearIfRequested_every nofun nofun)).bind fun _ => ?_
  refine loadKey_succeeds.bind fun key => .given fun hne => ?_
  rw [if_neg (by simpa using hne)]
  exact (syncWithKey_succeeds key).post fun _ _ h => h.2

end SteamSalesTray.Sync
