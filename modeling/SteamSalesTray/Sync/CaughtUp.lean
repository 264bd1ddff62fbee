import SteamSalesTray.Sync.MarkRuns
import SteamSalesTray.Sync.Messages
import SteamSalesTray.Sync.PartnerData

/-! A pass that succeeds has everything that the server had when it began, and no run stores rows of
a date that the server has never changed. -/

namespace SteamSalesTray.Sync

open Interaction Transaction Storage Steam

/-! ### A pass that succeeds -/

/-- Every date whose latest change has an id of at most `top`, which is no less than `known`, is
stored. -/
def View.caughtUp (known : Nat) : View where
  holds log t := ∃ top, known ≤ top ∧ (View.pending top []).holds log t
  push := fun ⟨top, hknown, h⟩ => ⟨top, hknown, View.push _ h⟩
  same := fun hsame ⟨top, hknown, h⟩ => ⟨top, hknown, View.same _ hsame h⟩

/-- The pass has its change list, of a mark that is no less than `known`. -/
def View.listedFrom (known : Nat) (positive initial : Bool) (changed : ChangedDates) : View where
  holds log t := ∃ top, known ≤ top ∧ (positive = true → top ≠ 0) ∧
    changed.resultHighwatermark = decimal top ∧
      ((View.pending top changed.dates).and (.given (initial = true) (.covered top))).holds log t
  push := fun ⟨top, hknown, htop, hmark, h⟩ => ⟨top, hknown, htop, hmark, View.push _ h⟩
  same := fun hsame ⟨top, hknown, htop, hmark, h⟩ =>
    ⟨top, hknown, htop, hmark, View.same _ hsame h⟩

/-- What the connection sees, with the status that a pass that has succeeded leaves. -/
def Rests (v : View) (w : World) : Prop := Sees v w ∧ w.status.status = .idle

theorem Rests.act {v : View} {w : World} (h : Rests v w) (move : Move) : Rests v (w.act move) := by
  obtain ⟨⟨hopen, hv⟩, hidle⟩ := h
  refine ⟨⟨?_, ?_⟩, ?_⟩
  · rw [World.act_db]
    exact hopen
  · rw [World.act_db]
    rcases World.act_server w move with hsame | ⟨gap, date, records, hpush⟩
    · rw [hsame]
      exact hv
    · rw [hpush]
      exact v.push hv
  · rw [act_status]
    exact hidle

/-- The server has come to the id `known`. -/
def Knows (known : Nat) (w : World) : Prop := known ≤ w.server.greatestId

namespace CaughtUp

open MarkRuns

variable {positive : Bool} {known top : Nat}

theorem stable_rests (v : View) : (markContract positive).Stable (Rests v) :=
  fun move _ _ _ h => h.act move

theorem stable_knows : (markContract positive).Stable (Knows known) := by
  intro move w _ _ h
  show known ≤ (w.act move).server.greatestId
  have hle : known ≤ w.server.greatestId := h
  rcases World.act_server w move with hsame | ⟨gap, date, records, hpush⟩
  · rw [hsame]
    exact hle
  · rw [hpush, ChangeLog.greatestId_push]
    omega

theorem knows_kept {α : Type} (p : Worker α) :
    p.Every fun op => ∀ w reply, Knows known w → Knows known (World.exec op reply w).2 := by
  refine Program.every_of_forall (fun op w reply h => ?_) p
  unfold Knows
  rw [World.exec_server]
  exact h

theorem post_rests (v : View) (message : Message) :
    (markContract positive).Spec (Rests v) (post message) fun _ => Rests v := by
  have hop : (Op.post message).Quiet := ⟨nofun, fun _ => .refl _⟩
  refine Contract.Spec.perform (stable_rests v) (fun _ => stable_rests v) fun w reply hinv h _ => ?_
  have hafter : MarkInvariant positive (World.exec (.post message) reply w).2 := inv_quiet hop hinv
  have hsees : Sees v (World.exec (.post message) reply w).2 := sees_quiet hop h.1
  exact ⟨hafter, hsees, h.2⟩

/-- The update of the status that ends a pass. -/
theorem idle_rests (v : View) {update : StatusUpdate}
    (hupdate : ∀ now st, (update.apply now st).status = .idle) :
    (markContract positive).Spec (Sees v) (perform (.updateStatus update)) fun _ => Rests v := by
  have hop : (Op.updateStatus update).Quiet := ⟨nofun, fun _ => .refl _⟩
  exact Contract.Spec.perform (stable v) (fun _ => stable_rests v) fun w reply hinv h _ =>
    ⟨inv_quiet hop hinv, sees_quiet hop h, hupdate _ _⟩

theorem publish_rests (v : View) (notification : Wide) :
    (markContract positive).Spec (Sees v) (publish notification) fun _ => Rests v :=
  (idle_rests v fun _ _ => rfl).bind fun _ => (post_rests v .totalsChanged).bind fun _ =>
    post_rests v .syncCompleted

theorem advanceMark_caughtUp (htop : positive = true → top ≠ 0) :
    (markContract positive).Spec (Sees (.pending top [])) (advanceMark (decimal top))
      fun _ => Sees (.pending top []) := by
  unfold advanceMark write
  rw [if_neg (by simp)]
  have hop : Op.write (.changedDatesHighwatermark (decimal top)) ≠ .openDatabase := nofun
  refine call hop (R := fun _ => .pending top []) ?_ ?_ fun _ => ?_
  · rintro w _ ⟨_, hpending⟩
    exact ⟨top, htop, sound_of_pending hpending⟩
  · rintro reply w _ hsees _
    exact (sees_exec hop hsees.1 hsees.2 hsees.2).2
  · exact Contract.Spec.done (stable _)

theorem finishUnchanged_caughtUp (htop : positive = true → top ≠ 0) :
    (markContract positive).Spec (Sees (.pending top [])) (finishUnchanged (decimal top))
      fun _ => Rests (.pending top []) := by
  refine (advanceMark_caughtUp htop).bind fun _ => ?_
  refine (routine (write_routine (by trivial)) _).bind fun _ => ?_
  refine (idle_rests _ fun _ _ => rfl).bind fun _ => ?_
  exact (post_rests _ .syncCompleted).bind fun _ => Contract.Spec.done (stable_rests _)

theorem finishStored_caughtUp (now : Bytes) (initial notifyEnabled : Bool)
    (htop : positive = true → top ≠ 0) (before : Snapshot) :
    (markContract positive).Spec (Sees (.pending top []))
      (finishStored now initial notifyEnabled (decimal top) before)
      fun _ => Rests (.pending top []) := by
  unfold finishStored
  refine (advanceMark_caughtUp htop).bind fun _ => ?_
  refine (checkpoint_spec initial [] fun _ _ h => h).bind fun _ => ?_
  refine (routine (write_routine (by trivial)) _).bind fun _ => ?_
  refine (routine (write_routine (by trivial)) _).bind fun _ => ?_
  by_cases hnotify : (notifyEnabled && !initial) = true
  · rw [if_pos hnotify]
    refine (routine (notificationAfter_routine before) _).bind fun ⟨after, notification⟩ => ?_
    exact (publish_rests _ notification).bind fun _ => Contract.Spec.done (stable_rests _)
  · rw [if_neg hnotify]
    exact (publish_rests _ []).bind fun _ => Contract.Spec.done (stable_rests _)

/-- What ends with a failure has nothing to show. -/
theorem failed {p : Worker Exit} {P : World → Prop} {Q : Exit → World → Prop}
    {R : Exit → World → Prop} (hp : (markContract positive).Spec P p R)
    (hfailed : p.Returns Exit.Failed) :
    (markContract positive).Spec P p fun exit w => ¬exit.Failed → Q exit w :=
  (hp.returns hfailed).post fun _ _ h hnot => absurd h.2 hnot

theorem syncChanged_caughtUp (key now : Bytes) (initial notifyEnabled : Bool)
    {changed : ChangedDates} (htop : positive = true → top ≠ 0) (hknown : known ≤ top)
    (hmark : changed.resultHighwatermark = decimal top) :
    (markContract positive).Spec
      (Sees ((View.pending top changed.dates).and (.given (initial = true) (.covered top))))
      (syncChanged key now initial notifyEnabled changed)
      fun exit w => ¬exit.Failed → Rests (.caughtUp known) w := by
  unfold syncChanged
  refine (readCursor_spec initial top changed.dates).bind fun cursor => ?_
  refine (routine (updateStatus_routine (by trivial)) _).bind fun _ => ?_
  refine (routine (post_routine (by trivial)) _).bind fun _ => ?_
  refine (routine (snapshotBefore_routine _) _).bind fun before => ?_
  refine ((syncDates_spec key now initial top _).returns
    (syncDates_returns key now initial _)).bind fun failed => ?_
  cases failed with
  | some exit =>
    have hdone : (markContract positive).Spec (fun _ => exit.Failed) (pure exit)
        fun exit w => ¬exit.Failed → Rests (.caughtUp known) w :=
      Contract.Spec.ret (Contract.stable_const _) fun _ _ hfailed hnot => absurd hfailed hnot
    exact hdone.pre fun _ _ h => h.2 exit rfl
  | none =>
    rw [hmark]
    refine (finishStored_caughtUp now initial notifyEnabled htop before).mono
      (fun _ _ h => h.1 rfl) fun _ w h _ => ?_
    exact ⟨⟨h.1.1, top, hknown, h.1.2⟩, h.2⟩

theorem getChangedDates_caughtUp (key hwm : Bytes) :
    (markContract positive).Spec (fun w => Sees (.markIs hwm) w ∧ Knows known w)
      (perform (.getChangedDates key hwm)) fun answer => Sees (if answer.1.ok then
        .listedFrom known positive (decide (hwm = ascii "0") || hwm.isEmpty) answer.2
        else .anything) := by
  refine Contract.Spec.perform ((stable _).and stable_knows) (fun _ => stable _) ?_
  rintro w reply hinv ⟨hw, hknows⟩ hrules
  refine ⟨hinv, hw.1, ?_⟩
  show (if reply.changed.1.ok then _ else _ : View).holds _ _
  split
  · rename_i hok
    obtain ⟨m, _, hsound⟩ := hinv.1.2
    have hne : hwm ≠ [] := by
      rw [← hw.2, hsound.mark]
      exact decimal_ne_nil m
    have hinitial : (decide (hwm = ascii "0") || hwm.isEmpty) = true → hwm = ascii "0" := by
      simp [hne]
    obtain ⟨top, htop, hmark, hlisted⟩ := listed_of_honest hinitial hinv hw.2 hrules hok
    have hlists : w.server.Lists hwm reply.changed.2 := (markRules_call hrules).1.2 hok
    have hgreatest : top = w.server.greatestId := decimal_injective (hmark.symm.trans hlists.mark)
    exact ⟨top, hgreatest ▸ hknows, htop, hmark, hlisted⟩
  · trivial

theorem syncWithKey_caughtUp (key : Bytes) :
    (markContract positive).Spec (fun w => Sees .anything w ∧ Knows known w) (syncWithKey key)
      fun exit w => ¬exit.Failed → Rests (.caughtUp known) w := by
  unfold syncWithKey
  have hnotify : (perform .getNotifyOnNewUnits).Every Op.Routine := ⟨trivial, fun _ => trivial⟩
  have hnow : (perform .utcNowIso8601).Every Op.Routine := ⟨trivial, fun _ => trivial⟩
  refine (readMark_spec.frame stable_knows (knows_kept _)).bind fun hwm => ?_
  refine ((routine hnotify _).frame stable_knows (knows_kept _)).bind fun notifyEnabled => ?_
  refine (getChangedDates_caughtUp key hwm).bind ?_
  rintro ⟨r, changed⟩
  show (markContract positive).Spec _ (if r.ok then _ else _) _
  by_cases hok : r.ok = true
  · rw [if_pos hok, if_pos hok]
    refine (routine hnow _).bind fun now => ?_
    refine (routine (write_routine (by trivial)) _).bind fun _ => ?_
    rintro w hinv ⟨hopen, top, hknown, htop, hmark, hlisted⟩
    split
    · rename_i hempty
      rw [hmark]
      have hpending : Sees (.pending top []) w := by
        refine ⟨hopen, ?_⟩
        have hpending := hlisted.1
        rwa [List.isEmpty_iff.mp hempty] at hpending
      refine (finishUnchanged_caughtUp htop).post (fun _ w h _ => ?_) w hinv
        hpending
      exact ⟨⟨h.1.1, top, hknown, h.1.2⟩, h.2⟩
    · exact syncChanged_caughtUp key now _ notifyEnabled htop hknown hmark w hinv ⟨hopen, hlisted⟩
  · rw [if_neg hok, if_neg hok]
    refine failed (routine (failPass_routine _ _ _ _) _) ?_
    exact (failPass_returns _ _ _ _).mono fun _ h => h ▸ trivial

/-- A pass that succeeds has stored everything that the server had when it began. -/
theorem pass_caughtUp :
    (markContract positive).Spec (Knows known) runSynchronization
      fun exit w => ¬exit.Failed → Rests (.caughtUp known) w := by
  have hknows : ∀ {α : Type} {p : Worker α} {P : World → Prop} {Q : α → World → Prop},
      (markContract positive).Spec P p Q → (markContract positive).Spec
        (fun w => P w ∧ Knows known w) p fun value w => Q value w ∧ Knows known w :=
    fun hp => hp.frame stable_knows (knows_kept _)
  have hfail : ∀ status message lastError exit, exit.Failed →
      (markContract positive).Spec (fun _ => True) (failPass status message lastError exit)
        fun exit w => ¬exit.Failed → Rests (.caughtUp known) w :=
    fun status message lastError exit hexit => failed (routine_any (failPass_routine _ _ _ _))
      ((failPass_returns _ _ _ _).mono fun _ h => h ▸ hexit)
  refine (runSynchronization_spec (hknows (quiet_any (post_quiet .syncStarted)))
    (hknows (routine_any (updateStatus_routine (by trivial)))) (hknows ensureOpen_spec)
    ((hfail _ _ _ .databaseError trivial).pre fun _ _ _ => trivial)
    ((hknows clearIfRequested_spec).pre fun _ _ h => ⟨h.1 rfl, h.2⟩)
    (hknows (routine loadKey_routine _))
    ((hfail _ _ _ .missingApiKey trivial).pre fun _ _ _ => trivial)
    syncWithKey_caughtUp).pre fun _ _ h => ⟨trivial, h⟩

end CaughtUp

/-! ### The dates of the rows -/

theorem changedDates_push {log : ChangeLog} {date : Bytes} (h : date ∈ changedDates log)
    (gap : Nat) (changed : Bytes) (records : List DetailedSalesRecord) :
    date ∈ changedDates (log.push gap changed records) := by
  unfold changedDates ChangeLog.push at *
  rw [List.mem_dedup] at *
  exact List.mem_cons_of_mem _ h

theorem Dated.push {log : ChangeLog} {t : Tables} (h : Dated log t) (gap : Nat) (date : Bytes)
    (records : List DetailedSalesRecord) : Dated (log.push gap date records) t :=
  fun r hr => changedDates_push (h r hr) gap date records

theorem Dated.replaced {log : ChangeLog} {t : Tables} (h : Dated log t) {date : Bytes}
    (hdate : date ∈ changedDates log) (rows : List DailyProductRow) (nowUtc : Bytes) :
    Dated log (t.replaced date rows nowUtc) := by
  intro r hr
  rw [Tables.replaced_daily, List.mem_append] at hr
  obtain hold | hnew := hr
  · exact h r (List.mem_of_mem_filter hold)
  · obtain ⟨row, -, rfl⟩ := List.mem_map.mp hnew
    exact hdate

/-- The call replaces no date. -/
def Op.AddsNoRows (op : Op) : Prop := ∀ date rows nowUtc, op ≠ .replaceDate date rows nowUtc

theorem Dated.effect {log : ChangeLog} {t : Tables} (h : Dated log t) {op : Op}
    (hop : op.AddsNoRows) : Dated log (op.effect t) := by
  cases op with
  | replaceDate date rows nowUtc => exact absurd rfl (hop date rows nowUtc)
  | clearAllSales => exact nofun
  | _ => exact h

def datedContract : Contract Op Op.Answer World Reply Move where
  machine := service
  rules := serverRules
  inv w := w.db.conn.Both (Dated w.server)
  inv_act move w _ h := by
    show (w.act move).db.conn.Both (Dated (w.act move).server)
    rw [World.act_db]
    rcases World.act_server w move with hsame | ⟨gap, date, records, hpush⟩
    · rw [hsame]
      exact h
    · rw [hpush]
      exact h.mono fun _ ht => ht.push gap date records

/-- The server has changed the dates. -/
def Changed (dates : List Bytes) (w : World) : Prop := ∀ date ∈ dates, date ∈ changedDates w.server

namespace DatedRuns

theorem stable_changed (dates : List Bytes) : datedContract.Stable (Changed dates) := by
  intro move w _ _ h date hdate
  show date ∈ changedDates (w.act move).server
  rcases World.act_server w move with hsame | ⟨gap, date', records, hpush⟩
  · rw [hsame]
    exact h date hdate
  · rw [hpush]
    exact changedDates_push (h date hdate) gap date' records

theorem inv_exec {op : Op} {reply : Reply} {w : World} (h : w.db.conn.Both (Dated w.server))
    (heffect : Dated w.server (op.effect w.db.conn.visible)) :
    (World.exec op reply w).2.db.conn.Both (Dated (World.exec op reply w).2.server) := by
  rw [World.exec_server]
  exact World.exec_both op reply w h fun _ => heffect

theorem changed_exec {dates : List Bytes} {op : Op} {reply : Reply} {w : World}
    (h : Changed dates w) : Changed dates (World.exec op reply w).2 := by
  unfold Changed
  rw [World.exec_server]
  exact h

theorem plain {α : Type} {p : Worker α} (hp : p.Every Op.AddsNoRows) (dates : List Bytes) :
    datedContract.Spec (Changed dates) p fun _ => Changed dates := by
  refine Contract.Spec.every (stable_changed dates) (hp.mono fun op hop w reply hinv h _ => ?_)
  exact ⟨inv_exec hinv (hinv.2.effect hop), changed_exec h⟩

theorem routine {α : Type} {p : Worker α} (hp : p.Every Op.Routine) (dates : List Bytes) :
    datedContract.Spec (Changed dates) p fun _ => Changed dates := by
  refine plain (hp.mono fun op hop => ?_) dates
  rintro date rows nowUtc rfl
  exact hop

theorem syncDates_spec (key now : Bytes) (initial : Bool) (todo : List Bytes) :
    datedContract.Spec (Changed todo) (syncDates key now initial todo) fun _ => Changed [] := by
  have hnone : ∀ dates w, Changed dates w → Changed [] w := fun _ _ _ => nofun
  induction todo with
  | nil => exact Contract.Spec.done (stable_changed [])
  | cons date rest ih =>
    have hfail : ∀ status message lastError exit, datedContract.Spec (Changed (date :: rest))
        (failPass status message lastError exit >>= fun exit => pure (some exit))
        fun _ => Changed [] := fun status message lastError exit =>
      (routine (failPass_routine status message lastError exit) _).bind fun _ =>
        Contract.Spec.ret (stable_changed _) fun w _ h => hnone _ w h
    have hfetch : (perform (.getAllDetailedSalesForDate key date)).Every Op.AddsNoRows :=
      ⟨nofun, fun _ => trivial⟩
    refine (plain hfetch _).bind ?_
    rintro ⟨pr, records⟩
    show datedContract.Spec _ (if pr.ok = true then _ else _) _
    split
    · have hreplace : datedContract.Spec (Changed (date :: rest))
          (perform (.replaceDate date (aggregateDate records) now))
          fun _ => Changed (date :: rest) :=
        Contract.Spec.perform (stable_changed _) (fun _ => stable_changed _) fun w _ hinv h _ =>
          ⟨inv_exec hinv (hinv.2.replaced (h date List.mem_cons_self) _ _), changed_exec h⟩
      refine hreplace.bind fun saved => ?_
      cases saved with
      | true =>
        have hdone : (perform (.updateStatus .dateDone)).Every Op.AddsNoRows :=
          ⟨nofun, fun _ => trivial⟩
        have hpost : (post .syncProgress).Every Op.AddsNoRows := ⟨nofun, fun _ => trivial⟩
        refine (plain (checkpoint_every nofun initial) _).bind fun _ => ?_
        refine (plain hdone _).bind fun _ => (plain hpost _).bind fun _ => ?_
        exact ih.pre fun w _ h d hd => h d (List.mem_cons_of_mem _ hd)
      | false => exact hfail _ _ _ _
    · exact hfail _ _ _ _

theorem finishStored_plain (now : Bytes) (initial notifyEnabled : Bool)
    (resultHighwatermark : Bytes) (before : Snapshot) :
    (finishStored now initial notifyEnabled resultHighwatermark before).Every Op.AddsNoRows := by
  have hpublish : ∀ (notification : Wide) (exit : Exit),
      (publish notification >>= fun _ => pure exit).Every Op.AddsNoRows := fun _ _ =>
    ⟨nofun, fun _ => ⟨nofun, fun _ => ⟨nofun, fun _ => trivial⟩⟩⟩
  unfold finishStored
  refine (advanceMark_every nofun).bind fun _ => (checkpoint_every nofun initial).bind fun _ => ?_
  refine ⟨nofun, fun _ => ⟨nofun, fun _ => ?_⟩⟩
  show Program.Every _ (if _ then _ else _)
  split
  · exact (notificationAfter_every nofun nofun (fun _ => nofun) (fun _ => nofun) before).bind
      fun ⟨after, notification⟩ => hpublish notification _
  · exact hpublish [] _

theorem syncChanged_spec (key now : Bytes) (initial notifyEnabled : Bool)
    (changed : ChangedDates) :
    datedContract.Spec (Changed changed.dates)
      (syncChanged key now initial notifyEnabled changed) fun _ => Changed [] := by
  unfold syncChanged
  refine (routine (readCursor_routine initial) _).bind fun cursor => ?_
  refine (routine (updateStatus_routine (by trivial)) _).bind fun _ => ?_
  refine (routine (post_routine (by trivial)) _).bind fun _ => ?_
  refine (routine (snapshotBefore_routine _) _).bind fun before => ?_
  have htodo : ∀ w, Changed changed.dates w →
      Changed (datesToProcess initial cursor changed.dates) w := fun w h date hdate =>
    h date ((List.mem_insertionSort _).mp (List.mem_of_mem_filter hdate))
  refine ((syncDates_spec key now initial _).pre fun w _ h => htodo w h).bind fun failed => ?_
  cases failed with
  | some exit => exact Contract.Spec.done (stable_changed [])
  | none => exact plain (finishStored_plain now initial notifyEnabled _ before) []

theorem syncWithKey_spec (key : Bytes) :
    datedContract.Spec (Changed []) (syncWithKey key) fun _ => Changed [] := by
  have hread : (perform .getChangedDatesHighwatermark).Every Op.AddsNoRows :=
    ⟨nofun, fun _ => trivial⟩
  have hnotify : (perform .getNotifyOnNewUnits).Every Op.AddsNoRows := ⟨nofun, fun _ => trivial⟩
  have hnow : (perform .utcNowIso8601).Every Op.AddsNoRows := ⟨nofun, fun _ => trivial⟩
  refine (plain hread _).bind fun hwm => (plain hnotify _).bind fun notifyEnabled => ?_
  have hlist : datedContract.Spec (Changed []) (perform (.getChangedDates key hwm))
      fun answer => Changed (if answer.1.ok then answer.2.dates else []) := by
    refine Contract.Spec.perform (stable_changed _) (fun _ => stable_changed _) ?_
    intro w reply hinv _ hrules
    refine ⟨hinv, ?_⟩
    show Changed (if reply.changed.1.ok then reply.changed.2.dates else []) w
    split
    · rename_i hok
      have hlists : w.server.Lists hwm reply.changed.2 := hrules.2 hok
      intro date hdate
      obtain ⟨c, -, hlatest, -⟩ := hlists.sound date hdate
      exact mem_changedDates.mpr (by rw [hlatest]; rfl)
    · exact nofun
  refine hlist.bind ?_
  rintro ⟨r, changed⟩
  show datedContract.Spec _ (if r.ok = true then _ else _) _
  by_cases hok : r.ok = true
  · rw [if_pos hok, if_pos hok]
    refine (plain hnow _).bind fun now => ?_
    refine (routine (write_routine (by trivial)) _).bind fun _ => ?_
    show datedContract.Spec _ (if _ then _ else _) _
    split
    · refine (plain ?_ _).post fun _ _ _ => nofun
      exact (advanceMark_every nofun).bind fun _ => ⟨nofun, fun _ => ⟨nofun, fun _ => ⟨nofun,
        fun _ => trivial⟩⟩⟩
    · exact syncChanged_spec key now _ notifyEnabled changed
  · rw [if_neg hok, if_neg hok]
    exact routine (failPass_routine _ _ _ _) []

theorem pass_spec :
    datedContract.Spec (Changed []) runSynchronization fun _ => Changed [] := by
  refine runSynchronization_spec (plain ?_ []) (routine (updateStatus_routine (by trivial)) [])
    (plain (ensureOpen_every nofun nofun) []) (routine (failPass_routine _ _ _ _) [])
    (plain (clearIfRequested_every nofun nofun) []) (routine loadKey_routine [])
    (routine (failPass_routine _ _ _ _) []) syncWithKey_spec
  exact ⟨nofun, fun _ => trivial⟩

theorem inv_run {w : World} (hw : w.db.conn.Both (Dated w.server)) {es : List (Event Reply Move)}
    (hes : serverRules.Admitted service runSynchronization ⟨w, none⟩ es) :
    (w.after es).db.conn.Both (Dated (w.after es).server) :=
  Contract.sound_inv (K := datedContract) (fun _ _ h => h.drop) (fun _ _ _ => nofun) pass_spec hw
    hes

end DatedRuns

/-! ### The tables of a run -/

/-- What the mark covers is stored, and nothing of other dates than the server's. -/
structure Follows (w : World) : Prop where
  sound : w.db.conn.Both fun t => ∃ m, MarkSound w.server m t
  dated : w.db.conn.Both (Dated w.server)

theorem Follows.markInvariant {w : World} (h : Follows w) : MarkInvariant false w :=
  ⟨h.sound.mono fun _ ⟨m, hm⟩ => ⟨m, nofun, hm⟩, nofun⟩

theorem Follows.run {w : World} (hw : Follows w) {es : List (Event Reply Move)}
    (hes : resumeRules.Admitted service runSynchronization ⟨w, none⟩ es) :
    Follows (w.after es) where
  sound := (MarkRuns.inv_run hw.markInvariant hes).1.mono fun _ ⟨m, _, hm⟩ => ⟨m, hm⟩
  dated := DatedRuns.inv_run hw.dated <| hes.mono fun c e he => by
    obtain ⟨w, current⟩ := c
    cases e with
    | start => trivial
    | kill => trivial
    | act move => trivial
    | call reply =>
      rcases current with _ | _ | ⟨op, next⟩
      · trivial
      · trivial
      · exact he.1

/-- Where the server has changed nothing since, all that it has is kept. -/
theorem keeps_of_caughtUp {log : ChangeLog} {t : Tables}
    (h : (View.caughtUp log.greatestId).holds log t) (hdated : Dated log t) (date : Bytes) :
    Keeps log t date := by
  obtain ⟨top, hknown, -, hstored⟩ := h
  cases hlatest : log.latest date with
  | none => exact hdated.keeps hlatest
  | some c =>
    have hid := ChangeLog.latest_le_greatestId hlatest
    obtain ⟨hmem, rfl⟩ := ChangeLog.mem_of_latest hlatest
    have hstores : Stores t c := (hstored c hmem hlatest (by omega)).resolve_left nofun
    unfold Keeps
    rw [ChangeLog.content_of_latest hlatest]
    exact hstores

end SteamSalesTray.Sync
