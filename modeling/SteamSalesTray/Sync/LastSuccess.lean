import SteamSalesTray.Sync.Effects
import SteamSalesTray.Sync.WorkerLoop
import SteamSalesTray.UI.SalesWindow

/-! The time of the last success: what the passes make of it, and what the start-up check and the
sales window read. -/

namespace SteamSalesTray.Sync

open Interaction Transaction Storage Steam Platform

/-! ### What a record says about the passes -/

/-- What has happened so far.  `last` is the time taken in the last completed pass with changed
dates, unless the sales were cleared after it.  The rest is about the pass that runs or ran last:
the time that it has taken, the dates of its change list, whether it has cleared the sales, whether
it has stored the time of its success but not posted its end, and what it has posted then. -/
structure SyncTimes where
  last : Option Bytes
  taken : Bytes
  dates : List Bytes
  cleared : Bool
  finishing : Bool
  ended : Option Message
deriving DecidableEq

namespace SyncTimes

def initial (stored : Option Bytes) : SyncTimes := ⟨stored, [], [], false, false, none⟩

def clear (t : SyncTimes) : SyncTimes := { t with last := none, cleared := true }

def next (t : SyncTimes) : Happened → SyncTimes
  | .call (.post .syncStarted) _ _ =>
    { t with taken := [], dates := [], cleared := false, ended := none }
  | .call .clearAllSales true _ => t.clear
  | .call (.getChangedDates _ _) answer _ => { t with dates := answer.2.dates }
  | .call .utcNowIso8601 text _ => { t with taken := text }
  | .call (.write (.lastSuccessfulSyncUtc _)) true _ => { t with finishing := true }
  | .call (.post .syncCompleted) _ _ =>
    { t with
      last := if t.dates.isEmpty then t.last else some t.taken
      finishing := false
      ended := some .syncCompleted }
  | .call (.post .syncFailed) _ _ => { t with ended := some .syncFailed }
  | _ => t

/-- The time that is stored: that of the last success, or of one that has yet to be announced. -/
def persisted (t : SyncTimes) : Option Bytes := if t.finishing then some t.taken else t.last

end SyncTimes

/-- The record has the newest event first. -/
def syncTimes (stored : Option Bytes) (past : List Happened) : SyncTimes :=
  past.foldr (fun e t => t.next e) (.initial stored)

/-- The stored time of the last success. -/
def World.lastSuccess (w : World) : Option Bytes :=
  w.db.conn.committed.syncState.lastSuccessfulSyncUtc

/-- What is stored is what the record says, and the time of the last success is one of the clock,
unless it is from before the run. -/
structure Tracked (stored : Option Bytes) (s : Record) : Prop where
  persisted : s.state.lastSuccess = (syncTimes stored s.past).persisted
  real : ∀ text, (syncTimes stored s.past).last = some text → stored = some text ∨ IsTimestamp text

/-- How a pass ends: it completes with changed dates and takes the time of the last success, or
that is as it was before the pass, unless the pass has cleared it. -/
structure PassEnds (before : Option Bytes) (t : SyncTimes) : Prop where
  idle : t.finishing = false
  outcome : t.ended = some .syncCompleted ∧ t.dates ≠ [] ∧ t.last = some t.taken ∨
    (t.ended = some .syncFailed ∨ t.ended = some .syncCompleted ∧ t.dates = []) ∧
      (t.last = before ∨ t.cleared = true ∧ t.last = none)

/-- The worker that starts in `start` goes on without a pass; it opens the database as the process
before it has `left` it. -/
def SkipsFirstPass (start : WorkerLoop.Worker) (now : SystemTime) (limit : Option Nat)
    (opens : Bool) (left : Connection Tables) : Prop :=
  (start.step (.checkLastSuccess (secondsSinceUtc now
    (Database.getLastSuccessfulSyncUtc limit ⟨opens, left.drop⟩)))).map WorkerLoop.Worker.place =
      some .resettingDeadline

/-- What is stored, what the next start makes of it, and what the window shows of it. -/
structure ReadBack (t : SyncTimes) (w : World) : Prop where
  persisted : w.lastSuccess = t.persisted
  skips : t.finishing = false → ∀ start now limit opens, start.place = .starting →
    (SkipsFirstPass start now limit opens w.db.conn ↔ opens = true ∧ limit ≠ some 0 ∧
      ∃ text, t.last = some text ∧ secondsSinceUtc now text ≤ WorkerLoop.kStartupFreshnessSeconds)
  line : ∀ utcNow errorLimit syncLimit opens,
    (∃ message, UI.updateStatusLine utcNow errorLimit syncLimit
        ⟨opens, ⟨w.db.conn.committed, none⟩⟩ = wide "⚠ " ++ message) ∨
      (UI.updateStatusLine utcNow errorLimit syncLimit ⟨opens, ⟨w.db.conn.committed, none⟩⟩ =
          wide "Not yet synced" ∧
        (opens = true → syncLimit ≠ some 0 → t.persisted = none)) ∨
      ∃ text, t.persisted = some text ∧
        UI.updateStatusLine utcNow errorLimit syncLimit ⟨opens, ⟨w.db.conn.committed, none⟩⟩ =
          UI.relativeUpdated utcNow text

/-! ### Which runs keep it -/

/-- The time of a success is written, outside any transaction, and the clock gives timestamps. -/
def StoresSuccess (reply : Reply) (s : Record) : Op → Prop
  | .write (.lastSuccessfulSyncUtc iso8601) => s.state.db.conn.tx = none ∧
    (World.exec (.write (.lastSuccessfulSyncUtc iso8601)) reply s.state).1 = true
  | .utcNowIso8601 => IsTimestamp reply.text
  | _ => True

/-- The process is not killed between the write of a success and the message of it. -/
def successRules (stored : Option Bytes) : Rules Op Record Reply Move where
  start _ := True
  call op reply s := StoresSuccess reply s op
  act _ _ := True
  kill s := (syncTimes stored s.past).finishing = false

def successContract (stored : Option Bytes) : Contract Op Op.Answer Record Reply Move where
  machine := service.traced
  rules := successRules stored
  inv := Tracked stored
  inv_act := by
    intro move s _ h
    refine ⟨?_, h.real⟩
    exact (congrArg (fun db : Database => db.conn.committed.syncState.lastSuccessfulSyncUtc)
      (World.act_db s.state move)).trans h.persisted

namespace SuccessRuns

variable {stored : Option Bytes} {α : Type}

/-- What the record says about the passes has the property. -/
def Told (stored : Option Bytes) (P : SyncTimes → Prop) (s : Record) : Prop :=
  P (syncTimes stored s.past)

theorem stable_told (P : SyncTimes → Prop) : (successContract stored).Stable (Told stored P) :=
  fun _ _ _ _ h => h

/-- The calls that the record says nothing of. -/
def Untold : Op → Prop
  | .post .syncStarted | .post .syncCompleted | .post .syncFailed | .clearAllSales
  | .getChangedDates _ _ | .utcNowIso8601 | .write (.lastSuccessfulSyncUtc _) => False
  | _ => True

theorem next_untold {op : Op} (hop : Untold op) (t : SyncTimes) (answer : op.Answer)
    (after : World) : t.next (.call op answer after) = t := by
  cases op with
  | post message =>
    cases message with
    | syncStarted | syncCompleted | syncFailed => exact hop.elim
    | _ => rfl
  | write update =>
    cases update with
    | lastSuccessfulSyncUtc iso8601 => exact hop.elim
    | _ => rfl
  | clearAllSales | getChangedDates key highwatermark | utcNowIso8601 => exact hop.elim
  | _ => rfl

/-- The calls that leave the stored time as it is. -/
def KeepsTime : Op → Prop
  | .clearAllSales | .write (.lastSuccessfulSyncUtc _) => False
  | _ => True

theorem Untold.keepsTime {op : Op} (h : Untold op) : KeepsTime op := by
  cases op with
  | write update => cases update <;> first | exact h.elim | trivial
  | clearAllSales => exact h.elim
  | _ => trivial

theorem effect_keepsTime {op : Op} (hop : KeepsTime op) (t : Tables) :
    (op.effect t).syncState.lastSuccessfulSyncUtc = t.syncState.lastSuccessfulSyncUtc := by
  cases op with
  | clearAllSales => exact hop.elim
  | write update =>
    cases update with
    | lastSuccessfulSyncUtc iso8601 => exact hop.elim
    | _ => rfl
  | replaceDate date rows nowUtc =>
    exact congrArg SyncState.lastSuccessfulSyncUtc (Tables.replaced_syncState date rows nowUtc t)
  | _ => rfl

theorem exec_lastSuccess {op : Op} (hop : KeepsTime op) (reply : Reply) (w : World) :
    (World.exec op reply w).2.lastSuccess = w.lastSuccess := by
  unfold World.lastSuccess
  rcases World.exec_conn op reply w with hconn | ⟨-, hconn⟩ | ⟨-, -, hbecomes⟩
  · rw [hconn]
  · rw [hconn]
    rfl
  · generalize (World.exec op reply w).2.db.conn = conn at hbecomes
    cases hbecomes with
    | inTransaction => rfl
    | atOnce htx =>
      rw [effect_keepsTime hop, Connection.visible_of_closed htx]

theorem exec_clearAllSales_lastSuccess (reply : Reply) (w : World) :
    (World.exec .clearAllSales reply w).1 = true ∧
        (World.exec .clearAllSales reply w).2.lastSuccess = none ∨
      (World.exec .clearAllSales reply w).1 = false ∧
        (World.exec .clearAllSales reply w).2.lastSuccess = w.lastSuccess := by
  cases hdone : (Write.clearAllSales.run reply.faults w.db).1 with
  | true =>
    have hconn := Write.run_true hdone
    exact .inl ⟨hdone, congrArg (·.committed.syncState.lastSuccessfulSyncUtc) hconn⟩
  | false =>
    have hcommitted := Write.run_false hdone
    exact .inr ⟨hdone, congrArg (·.syncState.lastSuccessfulSyncUtc) hcommitted⟩

theorem exec_success {iso8601 : Bytes} {reply : Reply} {s : Record}
    (h : StoresSuccess reply s (.write (.lastSuccessfulSyncUtc iso8601))) :
    (World.exec (.write (.lastSuccessfulSyncUtc iso8601)) reply s.state).2.lastSuccess =
      some iso8601 := by
  obtain ⟨htx, hdone⟩ := h
  rcases Database.writeSyncState_cases reply.faults (.lastSuccessfulSyncUtc iso8601) s.state.db with
    hfail | ⟨-, -, hconn⟩
  · exact absurd ((congrArg Prod.fst hfail).symm.trans hdone) Bool.false_ne_true
  · exact congrArg (·.committed.syncState.lastSuccessfulSyncUtc) (hconn htx)

/-! ### What a call makes of the record -/

theorem persisted_idle {t : SyncTimes} (h : t.finishing = false) : t.persisted = t.last := by
  rw [SyncTimes.persisted, h, if_neg Bool.false_ne_true]

/-- A call after which the record says `t`, and what is stored goes with that. -/
theorem tracked_next {op : Op} {reply : Reply} {s : Record} {t : SyncTimes} {P : SyncTimes → Prop}
    (hnext : syncTimes stored (service.traced.exec op reply s).2.past = t)
    (hpersisted : (World.exec op reply s.state).2.lastSuccess = t.persisted)
    (hreal : ∀ text, t.last = some text → stored = some text ∨ IsTimestamp text) (h : P t) :
    Tracked stored (service.traced.exec op reply s).2 ∧
      Told stored P (service.traced.exec op reply s).2 := by
  subst hnext
  exact ⟨⟨hpersisted, hreal⟩, h⟩

/-- A call that keeps the last success and the stored time, while there is nothing to announce. -/
theorem tracked_idle {op : Op} (hop : KeepsTime op) {reply : Reply} {s : Record} {t : SyncTimes}
    {P : SyncTimes → Prop} (hs : Tracked stored s)
    (hidle : (syncTimes stored s.past).finishing = false)
    (hnext : syncTimes stored (service.traced.exec op reply s).2.past = t)
    (hidle' : t.finishing = false) (hlast : t.last = (syncTimes stored s.past).last) (h : P t) :
    Tracked stored (service.traced.exec op reply s).2 ∧
      Told stored P (service.traced.exec op reply s).2 := by
  refine tracked_next hnext ?_ (fun text htext => hs.real text (hlast.symm.trans htext)) h
  rw [exec_lastSuccess hop, hs.persisted, persisted_idle hidle, persisted_idle hidle', hlast]

theorem untold_call {op : Op} (hop : Untold op) (reply : Reply) {P : SyncTimes → Prop} {s : Record}
    (hs : Tracked stored s) (h : Told stored P s) :
    Tracked stored (service.traced.exec op reply s).2 ∧
      Told stored P (service.traced.exec op reply s).2 :=
  tracked_next (next_untold hop _ _ _)
    ((exec_lastSuccess hop.keepsTime reply s.state).trans hs.persisted) hs.real h

theorem untold_spec (P : SyncTimes → Prop) {p : Worker α} (hp : p.Every Untold) :
    (successContract stored).Spec (Told stored P) p fun _ => Told stored P :=
  Contract.Spec.every (stable_told P)
    (hp.mono fun _ hop _ reply hs h _ => untold_call hop reply hs h)

/-! ### The pass -/

/-- Since the pass started, with the last success at `before`, that has been cleared at most. -/
structure Under (before : Option Bytes) (t : SyncTimes) : Prop where
  idle : t.finishing = false
  since : t.last = before ∨ t.cleared = true ∧ t.last = none

/-- The pass has its change list and its time. -/
structure Working (before : Option Bytes) (dates : List Bytes) (now : Bytes) (t : SyncTimes) :
    Prop extends Under before t where
  dates : t.dates = dates
  taken : t.taken = now

/-- The pass has stored the time of its success. -/
structure Finishing (dates : List Bytes) (now : Bytes) (t : SyncTimes) : Prop where
  finishing : t.finishing = true
  dates : t.dates = dates
  taken : t.taken = now

theorem started_spec (before : Option Bytes) :
    (successContract stored).Spec (Told stored fun t => t.finishing = false ∧ t.last = before)
      (post .syncStarted) fun _ => Told stored (Under before) := by
  refine Contract.Spec.perform (stable_told _) (fun _ => stable_told _) fun s reply hs h _ => ?_
  have hop : KeepsTime (.post .syncStarted) := trivial
  exact tracked_idle hop hs h.1 rfl h.1 rfl ⟨h.1, .inl h.2⟩

theorem failPass_spec (before : Option Bytes) (status : SyncStatus) (message : Wide)
    (lastError : Option Bytes) (exit : Exit) :
    (successContract stored).Spec (Told stored (Under before))
      (failPass status message lastError exit) fun _ => Told stored (PassEnds before) := by
  have hend : (successContract stored).Spec (Told stored (Under before))
      (post .syncFailed >>= fun _ => pure exit) fun _ => Told stored (PassEnds before) := by
    refine Contract.Spec.call (stable_told _) (R := fun _ => Told stored (PassEnds before)) ?_
      fun _ => Contract.Spec.done (stable_told _)
    intro s reply hs h _
    have hop : KeepsTime (.post .syncFailed) := trivial
    exact tracked_idle hop hs h.idle rfl h.idle rfl ⟨h.idle, .inr ⟨.inl rfl, h.since⟩⟩
  have hstatus : (successContract stored).Spec (Told stored (Under before))
      (setStatus status message) fun _ => Told stored (Under before) :=
    untold_spec _ ⟨trivial, fun _ => trivial⟩
  cases lastError with
  | none => exact hstatus.bind fun _ => hend
  | some e =>
    have hwrite : (successContract stored).Spec (Told stored (Under before))
        (write (.lastError e)) fun _ => Told stored (Under before) :=
      untold_spec _ ⟨trivial, fun _ => trivial⟩
    exact hstatus.bind fun _ => hwrite.bind fun _ => hend

theorem clear_call (before : Option Bytes) (reply : Reply) {s : Record} (hs : Tracked stored s)
    (h : Told stored (Under before) s) :
    Tracked stored (service.traced.exec .clearAllSales reply s).2 ∧
      Told stored (Under before) (service.traced.exec .clearAllSales reply s).2 := by
  have hnext : syncTimes stored (service.traced.exec .clearAllSales reply s).2.past =
      (syncTimes stored s.past).next (.call .clearAllSales
        (World.exec .clearAllSales reply s.state).1 (World.exec .clearAllSales reply s.state).2) :=
    rfl
  rcases exec_clearAllSales_lastSuccess reply s.state with ⟨hanswer, hlast⟩ | ⟨hanswer, hlast⟩
  · have hcleared : syncTimes stored (service.traced.exec .clearAllSales reply s).2.past =
        (syncTimes stored s.past).clear := by
      rw [hnext, hanswer]
      rfl
    have hnone := persisted_idle (t := (syncTimes stored s.past).clear) h.idle
    exact tracked_next hcleared (hlast.trans hnone.symm) nofun ⟨h.idle, .inr ⟨rfl, rfl⟩⟩
  · have hsame : syncTimes stored (service.traced.exec .clearAllSales reply s).2.past =
        syncTimes stored s.past := by
      rw [hnext, hanswer]
      rfl
    exact tracked_next hsame (hlast.trans hs.persisted) hs.real h

theorem clearIfRequested_spec (before : Option Bytes) :
    (successContract stored).Spec (Told stored (Under before)) clearIfRequested
      fun _ => Told stored (Under before) := by
  refine Contract.Spec.call (stable_told _) (R := fun _ => Told stored (Under before)) ?_
    fun taken => ?_
  · intro s reply hs h _
    have hop : Untold .takeClearRequest := trivial
    exact untold_call hop reply hs h
  · cases taken with
    | false => exact Contract.Spec.done (stable_told _)
    | true =>
      refine Contract.Spec.call (stable_told _) (R := fun _ => Told stored (Under before)) ?_
        fun _ => Contract.Spec.done (stable_told _)
      exact fun s reply hs h _ => clear_call before reply hs h

theorem finishUnchanged_spec (before : Option Bytes) (now resultHighwatermark : Bytes) :
    (successContract stored).Spec (Told stored (Working before [] now))
      (finishUnchanged resultHighwatermark) fun _ => Told stored (PassEnds before) := by
  unfold finishUnchanged
  refine (untold_spec _ (advanceMark_every trivial)).bind fun _ => ?_
  refine (untold_spec _ (p := write (.lastError [])) ⟨trivial, fun _ => trivial⟩).bind fun _ => ?_
  refine (untold_spec _ (p := perform (.updateStatus .upToDate))
    ⟨trivial, fun _ => trivial⟩).bind fun _ => ?_
  refine Contract.Spec.call (stable_told _) (R := fun _ => Told stored (PassEnds before)) ?_
    fun _ => Contract.Spec.done (stable_told _)
  intro s reply hs h _
  have hlast : (syncTimes stored (service.traced.exec (.post .syncCompleted) reply s).2.past).last =
      (syncTimes stored s.past).last := by
    show (if (syncTimes stored s.past).dates.isEmpty then _ else _) = _
    rw [h.dates]
    rfl
  have hop : KeepsTime (.post .syncCompleted) := trivial
  refine tracked_idle hop hs h.idle rfl rfl hlast ⟨rfl, .inr ⟨.inr ⟨rfl, h.dates⟩, ?_⟩⟩
  exact h.since.imp hlast.trans fun ⟨hcleared, hnone⟩ => ⟨hcleared, hlast.trans hnone⟩

theorem syncDates_spec (before : Option Bytes) (dates : List Bytes) (key now : Bytes)
    (initial : Bool) (todo : List Bytes) :
    (successContract stored).Spec (Told stored (Working before dates now))
      (syncDates key now initial todo) fun failed =>
        if failed.isSome then Told stored (PassEnds before)
        else Told stored (Working before dates now) := by
  have hstable : ∀ failed : Option Exit, (successContract stored).Stable
      (if failed.isSome then Told stored (PassEnds before)
        else Told stored (Working before dates now)) := by
    intro failed
    split <;> exact stable_told _
  have hfail : ∀ status message lastError exit, (successContract stored).Spec
      (Told stored (Working before dates now))
      (failPass status message lastError exit >>= fun exit => pure (some exit)) fun failed =>
        if failed.isSome then Told stored (PassEnds before)
          else Told stored (Working before dates now) := by
    intro status message lastError exit
    refine ((failPass_spec before status message lastError exit).pre fun _ _ h =>
      h.toUnder).bind fun exit => ?_
    exact Contract.Spec.ret (stable_told _) fun _ _ h => h
  induction todo with
  | nil => exact Contract.Spec.ret (stable_told _) fun _ _ h => h
  | cons date rest ih =>
    refine Contract.Spec.bind (R := fun _ => Told stored (Working before dates now))
      (untold_spec _ ⟨trivial, fun _ => trivial⟩) fun ⟨pr, records⟩ => ?_
    show (successContract stored).Spec _ (if pr.ok = true then _ else _) _
    split
    · refine Contract.Spec.bind (R := fun _ => Told stored (Working before dates now))
        (untold_spec _ ⟨trivial, fun _ => trivial⟩) fun saved => ?_
      cases saved with
      | true =>
        refine (untold_spec _ (checkpoint_every trivial initial)).bind fun _ => ?_
        refine (untold_spec _ (p := perform (.updateStatus .dateDone))
          ⟨trivial, fun _ => trivial⟩).bind fun _ => ?_
        exact (untold_spec _ (p := post .syncProgress) ⟨trivial, fun _ => trivial⟩).bind fun _ => ih
      | false =>
        exact hfail .databaseError (wide "Failed to save sales data.")
          (some (ascii "database write failed")) .replaceFailed
    · exact hfail _ _ _ _

theorem publish_spec (before : Option Bytes) {dates : List Bytes} (hdates : dates ≠ [])
    {now : Bytes} (hnow : IsTimestamp now) (notification : Wide) :
    (successContract stored).Spec (Told stored (Finishing dates now)) (publish notification)
      fun _ => Told stored (PassEnds before) := by
  refine (untold_spec _ (p := perform (.updateStatus (.publish notification)))
    ⟨trivial, fun _ => trivial⟩).bind fun _ => ?_
  refine (untold_spec _ (p := post .totalsChanged) ⟨trivial, fun _ => trivial⟩).bind fun _ => ?_
  refine Contract.Spec.perform (stable_told _) (fun _ => stable_told _) fun s reply hs h _ => ?_
  have hchanged : (syncTimes stored s.past).dates ≠ [] :=
    fun hnil => hdates (h.dates.symm.trans hnil)
  have hlast : (syncTimes stored (service.traced.exec (.post .syncCompleted) reply s).2.past).last =
      some (syncTimes stored s.past).taken := by
    show (if (syncTimes stored s.past).dates.isEmpty then _ else _) = _
    exact if_neg (by simpa using hchanged)
  have hpersisted : (syncTimes stored s.past).persisted = some (syncTimes stored s.past).taken :=
    if_pos h.finishing
  refine tracked_next rfl (hs.persisted.trans (hpersisted.trans hlast.symm))
    (fun text htext => .inr ?_) ⟨rfl, .inl ⟨rfl, hchanged, hlast⟩⟩
  obtain rfl := Option.some.inj (hlast.symm.trans htext)
  exact h.taken ▸ hnow

theorem success_call (before : Option Bytes) {dates : List Bytes} {now : Bytes} {reply : Reply}
    {s : Record} (hs : Tracked stored s) (h : Told stored (Working before dates now) s)
    (hrule : StoresSuccess reply s (.write (.lastSuccessfulSyncUtc now))) :
    Tracked stored (service.traced.exec (.write (.lastSuccessfulSyncUtc now)) reply s).2 ∧
      Told stored (Finishing dates now)
        (service.traced.exec (.write (.lastSuccessfulSyncUtc now)) reply s).2 := by
  have hnext : syncTimes stored
      (service.traced.exec (.write (.lastSuccessfulSyncUtc now)) reply s).2.past =
        { syncTimes stored s.past with finishing := true } := by
    show (syncTimes stored s.past).next (.call (.write (.lastSuccessfulSyncUtc now))
      (World.exec (.write (.lastSuccessfulSyncUtc now)) reply s.state).1 _) = _
    rw [hrule.2]
    rfl
  exact tracked_next hnext ((exec_success hrule).trans (congrArg some h.taken.symm)) hs.real
    ⟨rfl, h.dates, h.taken⟩

theorem finishStored_spec (before : Option Bytes) {dates : List Bytes} (hdates : dates ≠ [])
    {now : Bytes} (hnow : IsTimestamp now) (initial notifyEnabled : Bool)
    (resultHighwatermark : Bytes) (earlier : Snapshot) :
    (successContract stored).Spec (Told stored (Working before dates now))
      (finishStored now initial notifyEnabled resultHighwatermark earlier)
      fun _ => Told stored (PassEnds before) := by
  have hsuccess : (successContract stored).Spec (Told stored (Working before dates now))
      (write (.lastSuccessfulSyncUtc now)) fun _ => Told stored (Finishing dates now) := by
    refine Contract.Spec.call (stable_told _) (R := fun _ => Told stored (Finishing dates now)) ?_
      fun _ => Contract.Spec.done (stable_told _)
    exact fun s reply hs h hrule => success_call before hs h hrule
  unfold finishStored
  refine (untold_spec _ (advanceMark_every trivial)).bind fun _ => ?_
  refine (untold_spec _ (checkpoint_every trivial initial)).bind fun _ => ?_
  refine hsuccess.bind fun _ => ?_
  refine (untold_spec _ (p := write (.lastError [])) ⟨trivial, fun _ => trivial⟩).bind fun _ => ?_
  split
  · have hafter : (notificationAfter earlier).Every Untold :=
      notificationAfter_every trivial trivial (fun _ => trivial) (fun _ => trivial) earlier
    refine (untold_spec _ hafter).bind fun ⟨after, notification⟩ => ?_
    refine (publish_spec before hdates hnow notification).bind fun _ => ?_
    exact Contract.Spec.done (stable_told _)
  · refine (publish_spec before hdates hnow []).bind fun _ => ?_
    exact Contract.Spec.done (stable_told _)

theorem syncChanged_spec (before : Option Bytes) {now : Bytes} (hnow : IsTimestamp now)
    (key : Bytes) (initial notifyEnabled : Bool) (changed : ChangedDates)
    (hdates : changed.dates ≠ []) :
    (successContract stored).Spec (Told stored (Working before changed.dates now))
      (syncChanged key now initial notifyEnabled changed)
      fun _ => Told stored (PassEnds before) := by
  unfold syncChanged
  refine (untold_spec _ (readCursor_every trivial initial)).bind fun cursor => ?_
  refine (untold_spec _ (p := perform (.updateStatus (.totalDates _)))
    ⟨trivial, fun _ => trivial⟩).bind fun _ => ?_
  refine (untold_spec _ (p := post .syncProgress) ⟨trivial, fun _ => trivial⟩).bind fun _ => ?_
  refine (untold_spec _ (snapshotBefore_every trivial _)).bind fun earlier => ?_
  refine (syncDates_spec before changed.dates key now initial _).bind fun failed => ?_
  cases failed with
  | some exit => exact Contract.Spec.done (stable_told _)
  | none => exact finishStored_spec before hdates hnow initial notifyEnabled _ earlier

theorem syncWithKey_spec (before : Option Bytes) (key : Bytes) :
    (successContract stored).Spec (Told stored (Under before)) (syncWithKey key)
      fun _ => Told stored (PassEnds before) := by
  unfold syncWithKey
  refine (untold_spec _ (p := perform .getChangedDatesHighwatermark)
    ⟨trivial, fun _ => trivial⟩).bind fun hwm => ?_
  refine (untold_spec _ (p := perform .getNotifyOnNewUnits)
    ⟨trivial, fun _ => trivial⟩).bind fun notifyEnabled => ?_
  refine Contract.Spec.call (stable_told _)
    (R := fun answer => Told stored fun t => Under before t ∧ t.dates = answer.2.dates) ?_
    fun ⟨r, changed⟩ => ?_
  · intro s reply hs h _
    have hop : KeepsTime (.getChangedDates key hwm) := trivial
    exact tracked_idle hop hs h.idle rfl h.idle rfl ⟨⟨h.idle, h.since⟩, rfl⟩
  · show (successContract stored).Spec _ (if r.ok = true then _ else _) _
    split
    · refine Contract.Spec.call (stable_told _) (R := fun now s =>
        IsTimestamp now ∧ Told stored (Working before changed.dates now) s) ?_ fun now => ?_
      · intro s reply hs h hnow
        have hop : KeepsTime .utcNowIso8601 := trivial
        obtain ⟨hinv, hworking⟩ := tracked_idle hop hs h.1.idle rfl h.1.idle rfl
          (P := Working before changed.dates reply.text) ⟨⟨h.1.idle, h.1.since⟩, h.2, rfl⟩
        exact ⟨hinv, hnow, hworking⟩
      · intro s hs ⟨hnow, h⟩
        have hcheck : (successContract stored).Spec
            (Told stored (Working before changed.dates now)) (write (.lastSuccessfulCheckUtc now))
            fun _ => Told stored (Working before changed.dates now) :=
          untold_spec _ ⟨trivial, fun _ => trivial⟩
        refine hcheck.bind (fun _ => ?_) s hs h
        split
        · rename_i hempty
          have hnil : changed.dates = [] := List.isEmpty_iff.mp hempty
          rw [hnil]
          exact finishUnchanged_spec before now _
        · rename_i hchanged
          exact syncChanged_spec before hnow key _ notifyEnabled changed
            fun hnil => hchanged (by rw [hnil]; rfl)
    · exact (failPass_spec before _ _ _ _).pre fun _ _ h => h.1

theorem pass_spec (before : Option Bytes) :
    (successContract stored).Spec (Told stored fun t => t.finishing = false ∧ t.last = before)
      runSynchronization fun _ => Told stored (PassEnds before) :=
  runSynchronization_spec (started_spec before) (untold_spec _ ⟨trivial, fun _ => trivial⟩)
    (untold_spec _ (ensureOpen_every trivial trivial)) (failPass_spec before _ _ _ _)
    (clearIfRequested_spec before) (untold_spec _ (loadKey_every trivial trivial))
    (failPass_spec before _ _ _ _) (syncWithKey_spec before)

theorem crash_tracked {s : Record} (hidle : Told stored (fun t => t.finishing = false) s)
    (hs : Tracked stored s) :
    Tracked stored (service.traced.crash s) ∧
      Told stored (fun t => t.finishing = false) (service.traced.crash s) :=
  ⟨⟨hs.persisted, hs.real⟩, hidle⟩

theorem good_run {w : World} {es : List (Event Reply Move)}
    (hes : (successRules w.lastSuccess).Admitted service.traced runSynchronization
      ⟨⟨w, []⟩, none⟩ es) :
    (successContract w.lastSuccess).Good (Told w.lastSuccess fun t => t.finishing = false)
      (fun _ => Told w.lastSuccess fun t => t.finishing = false)
      (service.traced.run runSynchronization ⟨⟨w, []⟩, none⟩ es) := by
  have hstart : Tracked w.lastSuccess ⟨w, []⟩ := ⟨rfl, fun _ htext => .inl htext⟩
  refine Contract.sound (K := successContract w.lastSuccess) (stable_told _)
    (fun s hkill hs => crash_tracked hkill hs) (fun _ _ _ h => h) ?_ (fun _ _ _ h => h)
    (Contract.Good.between hstart rfl) hes
  intro s hs hidle
  exact Contract.Spec.mono (pass_spec (syncTimes w.lastSuccess s.past).last) (fun _ _ h => h)
    (fun _ _ h => PassEnds.idle h) s hs ⟨hidle, rfl⟩

end SuccessRuns

theorem skipsFirstPass_iff {start : WorkerLoop.Worker} (hstart : start.place = .starting)
    (now : SystemTime) (limit : Option Nat) (opens : Bool) (left : Connection Tables) :
    SkipsFirstPass start now limit opens left ↔ opens = true ∧ limit ≠ some 0 ∧
      ∃ text, left.committed.syncState.lastSuccessfulSyncUtc = some text ∧
        secondsSinceUtc now text ≤ WorkerLoop.kStartupFreshnessSeconds := by
  have hplace : ∀ age : Int, ((start.step (.checkLastSuccess age)).map WorkerLoop.Worker.place =
      some .resettingDeadline) ↔ age ≤ WorkerLoop.kStartupFreshnessSeconds := by
    intro age
    rw [← Int.not_lt]
    simp only [WorkerLoop.Worker.step, hstart, Option.map_some, Option.some.injEq]
    split
    · rename_i hold
      refine ⟨?_, fun h => absurd hold h⟩
      rintro ⟨⟩
    · rename_i hfresh
      exact ⟨fun _ => hfresh, fun _ => rfl⟩
  have hold : ¬kVeryOld ≤ WorkerLoop.kStartupFreshnessSeconds := by decide
  rw [SkipsFirstPass, hplace, Database.getLastSuccessfulSyncUtc_eq, Connection.drop_visible]
  split
  · rename_i hread
    cases left.committed.syncState.lastSuccessfulSyncUtc with
    | none =>
      refine ⟨fun h => absurd h hold, ?_⟩
      rintro ⟨-, -, text, ⟨⟩, -⟩
    | some text =>
      refine ⟨fun h => ⟨hread.1, hread.2, text, rfl, h⟩, ?_⟩
      rintro ⟨-, -, _, ⟨⟩, h⟩
      exact h
  · rename_i hread
    refine ⟨fun h => absurd h hold, ?_⟩
    rintro ⟨hopens, hlimit, -⟩
    exact absurd ⟨hopens, hlimit⟩ hread

theorem readBack_of_persisted {t : SyncTimes} {w : World} (h : w.lastSuccess = t.persisted) :
    ReadBack t w where
  persisted := h
  skips hidle start now limit opens hstart := by
    rw [skipsFirstPass_iff hstart]
    have hlast : w.db.conn.committed.syncState.lastSuccessfulSyncUtc = t.last :=
      h.trans (SuccessRuns.persisted_idle hidle)
    rw [hlast]
  line utcNow errorLimit syncLimit opens := by
    have hline := UI.updateStatusLine_cases utcNow errorLimit syncLimit
      ⟨opens, ⟨w.db.conn.committed, none⟩⟩
    have hstored : (Connection.mk w.db.conn.committed none).visible.syncState.lastSuccessfulSyncUtc
        = t.persisted := h
    rw [hstored] at hline
    exact hline

/-- In every run in which the time of each success is stored, what is stored is the time of the last
pass that completed with changed dates, since the last clear; it is that time that the next start
and the window go by, and the age of it is the time since then. -/
theorem last_success_tracked {w : World} {es : List (Event Reply Move)}
    (hes : (successRules w.lastSuccess).Admitted service.traced runSynchronization
      ⟨⟨w, []⟩, none⟩ es) :
    ReadBack (syncTimes w.lastSuccess (w.recordAfter es).past) (w.after es) ∧
      (∀ text, (syncTimes w.lastSuccess (w.recordAfter es).past).last = some text →
        w.lastSuccess = some text ∨ ∃ st : SystemTime, st.IsTime ∧ utcNowIso8601 st = text ∧
          ∀ now : SystemTime, now.IsTime → secondsSinceUtc now text =
            ((fileTime now - fileTime st.second) / ticksPerSecond : Nat)) ∧
      ∀ es' value c', Execution (successRules w.lastSuccess) service.traced runSynchronization
          (service.traced.run runSynchronization ⟨⟨w, []⟩, none⟩ es) es' value c' →
        PassEnds (syncTimes w.lastSuccess (w.recordAfter es).past).last
          (syncTimes w.lastSuccess c'.state.past) ∧
        c'.state.state.lastSuccess = (syncTimes w.lastSuccess c'.state.past).last := by
  have hgood := SuccessRuns.good_run hes
  refine ⟨?_, fun text htext => ?_, fun es' value c' hpass => ?_⟩
  · rw [← World.recordAfter_state]
    exact readBack_of_persisted hgood.inv.persisted
  · rcases hgood.inv.real text htext with hstored | ⟨st, hst, rfl⟩
    · exact .inl hstored
    · exact .inr ⟨st, hst, rfl, fun now hnow => secondsSinceUtc_utcNow hnow hst⟩
  · have hidle := hgood.of_idle hpass.idle fun _ _ _ h => h
    obtain ⟨hinv, hends⟩ := (SuccessRuns.pass_spec _).execution hpass hgood.inv ⟨hidle, rfl⟩
    exact ⟨hends, hinv.persisted.trans (SuccessRuns.persisted_idle hends.idle)⟩

instance (stored : Option Bytes) : DecidablePred (successRules stored).start :=
  fun _ => .isTrue trivial

instance (stored : Option Bytes) (op : Op) (reply : Reply) (s : Record) :
    Decidable ((successRules stored).call op reply s) :=
  match op with
  | .write (.lastSuccessfulSyncUtc _) => inferInstanceAs (Decidable (_ = none ∧ _ = true))
  | .utcNowIso8601 => inferInstanceAs (Decidable (IsTimestamp _))
  | .write (.changedDatesHighwatermark _) | .write (.lastSuccessfulCheckUtc _)
  | .write (.lastError _) | .write (.backfillCursor _) | .post _ | .updateStatus _ | .isOpen
  | .openDatabase | .takeClearRequest | .clearAllSales | .hasStoredKey | .loadKey
  | .getChangedDatesHighwatermark | .getNotifyOnNewUnits | .getChangedDates _ _
  | .getBackfillCursor | .queryLifetime | .iterate _ | .getAllDetailedSalesForDate _ _
  | .replaceDate _ _ _ | .steamToday | .sumForDate _ => .isTrue trivial

instance (stored : Option Bytes) (move : Move) (s : Record) :
    Decidable ((successRules stored).act move s) := .isTrue trivial

instance (stored : Option Bytes) : DecidablePred (successRules stored).kill :=
  fun _ => inferInstanceAs (Decidable (_ = false))

/-- A pass that stores a date. -/
def changedRun : List (Event Reply Move) :=
  open Sample in
  .start :: calls 28 (reply [july18] 3 [sale 5])

/-- A pass, some days later, that finds no changes. -/
def checkCalls : List (Event Reply Move) :=
  open Sample in
  calls 15 { reply [] 3 [] with text := ascii "2026-07-24T00:00:00Z" }

def afterCheck : Config Op Op.Answer Record Exit :=
  service.traced.run runSynchronization
    (service.traced.run runSynchronization ⟨⟨Sample.stored, []⟩, none⟩ changedRun)
    (.start :: checkCalls)

theorem last_success_tracked_checked :
    ReadBack (syncTimes Sample.stored.lastSuccess (Sample.stored.recordAfter changedRun).past)
        (Sample.stored.after changedRun) ∧
      PassEnds (some (ascii "2026-07-20T00:00:00Z"))
        (syncTimes Sample.stored.lastSuccess afterCheck.state.past) := by
  have htracked := @last_success_tracked Sample.stored changedRun (by decide +kernel)
  obtain ⟨hread, -, hpasses⟩ := htracked
  have hends := hpasses checkCalls .upToDate afterCheck
    ⟨by decide +kernel, by decide, by decide +kernel, rfl, by decide +kernel⟩
  have hlast : (syncTimes Sample.stored.lastSuccess
      (Sample.stored.recordAfter changedRun).past).last = some (ascii "2026-07-20T00:00:00Z") := by
    decide +kernel
  exact ⟨hread, hlast ▸ hends.1⟩

/-- A pass that completes without changed dates does not count: the stored time stays that of the
pass before it, even where no write fails. -/
theorem last_success_behind :
    ¬∀ (w : World) (es : List (Event Reply Move)),
      (successRules w.lastSuccess).Admitted service.traced runSynchronization ⟨⟨w, []⟩, none⟩ es →
      (∀ reply, .call reply ∈ es → reply.faults = noFaults) →
      (syncTimes w.lastSuccess (w.recordAfter es).past).ended = some .syncCompleted →
      (w.after es).lastSuccess = some (syncTimes w.lastSuccess (w.recordAfter es).past).taken := by
  intro h
  have hfaults : ∀ reply, .call reply ∈ changedRun ++ .start :: checkCalls →
      reply.faults = noFaults := by
    intro reply hreply
    simp only [changedRun, checkCalls, Sample.calls, List.cons_append, List.mem_cons,
      List.mem_append, List.mem_replicate, reduceCtorEq, false_or, Event.call.injEq] at hreply
    rcases hreply with ⟨-, rfl⟩ | ⟨-, rfl⟩ <;> rfl
  have hstored := h Sample.stored (changedRun ++ .start :: checkCalls) (by decide +kernel) hfaults
    (by decide +kernel)
  exact absurd hstored (by decide +kernel)

end SteamSalesTray.Sync
