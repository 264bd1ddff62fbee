import SteamSalesTray.Sync.MarkSound

/-! Every run keeps the mark sound: incremental passes always, and passes that resume a backfill
when the dates that they skip have not changed on the server. -/

namespace SteamSalesTray.Sync

open Interaction Transaction Storage Steam

/-- A run without clear requests where `positive`, a run with resumed backfills otherwise. -/
def markRules : Bool → Rules Op World Reply Move
  | true => noClearRules
  | false => resumeRules

theorem markRules_call {positive : Bool} {op : Op} {reply : Reply} {w : World}
    (h : (markRules positive).call op reply w) :
    (reply.readLimit = none ∧ Honest reply w op) ∧
      (positive = false → CoveredIsCurrent reply w op) := by
  cases positive with
  | true => exact ⟨h, nofun⟩
  | false => exact ⟨h.1, fun _ => h.2⟩

/-- The mark is sound in the committed and in the visible tables, and where it is to stay above 0
nothing asks for a clear. -/
def MarkInvariant (positive : Bool) (w : World) : Prop :=
  w.db.conn.Both ((View.sound positive).holds w.server) ∧
    (positive = true → w.clearCacheRequested = false)

def markContract (positive : Bool) : Contract Op Op.Answer World Reply Move where
  machine := service
  rules := markRules positive
  inv := MarkInvariant positive
  inv_act := by
    rintro move w hmove ⟨hboth, hclear⟩
    refine ⟨?_, fun hpositive => ?_⟩
    · show (w.act move).db.conn.Both ((View.sound positive).holds (w.act move).server)
      rw [World.act_db]
      rcases World.act_server w move with hsame | ⟨gap, date, records, hpush⟩
      · rw [hsame]
        exact hboth
      · rw [hpush]
        exact hboth.mono fun _ h => (View.sound positive).push h
    · subst hpositive
      exact (World.act_clearCacheRequested w hmove).trans (hclear rfl)

def Sees (v : View) (w : World) : Prop :=
  w.db.isOpen = true ∧ v.holds w.server w.db.conn.visible

namespace MarkRuns

variable {positive : Bool} {α : Type}

theorem stable (v : View) : (markContract positive).Stable (Sees v) := by
  rintro move w _ _ ⟨hopen, hv⟩
  show (w.act move).db.isOpen = true ∧ v.holds (w.act move).server (w.act move).db.conn.visible
  rw [World.act_db]
  refine ⟨hopen, ?_⟩
  rcases World.act_server w move with hsame | ⟨gap, date, records, hpush⟩
  · rw [hsame]
    exact hv
  · rw [hpush]
    exact v.push hv

theorem inv_exec {op : Op} {reply : Reply} {w : World} (h : MarkInvariant positive w)
    (heffect : (View.sound positive).holds w.server (op.effect w.db.conn.visible)) :
    MarkInvariant positive (World.exec op reply w).2 := by
  refine ⟨?_, fun hpositive => ?_⟩
  · rw [World.exec_server]
    exact World.exec_both op reply w h.1 fun _ => heffect
  · by_cases hop : op = .takeClearRequest
    · subst hop
      rfl
    · exact (World.exec_clearCacheRequested op reply w hop).trans (h.2 hpositive)

theorem inv_quiet {op : Op} (hop : op.Quiet) {reply : Reply} {w : World}
    (h : MarkInvariant positive w) : MarkInvariant positive (World.exec op reply w).2 :=
  inv_exec h ((View.sound positive).same (hop.2 _) h.1.2)

/-- What the connection sees after a call, if both the tables from before and the effect give it. -/
theorem sees_exec {op : Op} (hop : op ≠ .openDatabase) {reply : Reply} {w : World} {v : View}
    (hopen : w.db.isOpen = true) (hsame : v.holds w.server w.db.conn.visible)
    (heffect : v.holds w.server (op.effect w.db.conn.visible)) :
    Sees v (World.exec op reply w).2 := by
  refine ⟨(World.exec_isOpen op reply w hop).trans hopen, ?_⟩
  rw [World.exec_server]
  rcases World.exec_visible op reply w hop with hvis | hvis
  · exact hvis ▸ hsame
  · exact hvis ▸ heffect

theorem sees_quiet {op : Op} (hop : op.Quiet) {reply : Reply} {w : World} {v : View}
    (h : Sees v w) : Sees v (World.exec op reply w).2 :=
  sees_exec hop.1 h.1 h.2 (v.same (hop.2 _) h.2)

theorem quiet {p : Worker α} (hp : p.Every Op.Quiet) (v : View) :
    (markContract positive).Spec (Sees v) p fun _ => Sees v := by
  apply Contract.Spec.every (stable v)
  refine hp.mono fun op hop w reply hinv hv _ => ?_
  exact ⟨inv_quiet hop hinv, sees_quiet hop hv⟩

theorem routine {p : Worker α} (hp : p.Every Op.Routine) (v : View) :
    (markContract positive).Spec (Sees v) p fun _ => Sees v :=
  quiet (hp.mono fun _ hop => hop.quiet) v

theorem quiet_any {p : Worker α} (hp : p.Every Op.Quiet) :
    (markContract positive).Spec (fun _ => True) p fun _ _ => True := by
  apply Contract.Spec.every (Contract.stable_const True)
  exact hp.mono fun op hop w reply hinv _ _ => ⟨inv_quiet hop hinv, trivial⟩

theorem routine_any {p : Worker α} (hp : p.Every Op.Routine) :
    (markContract positive).Spec (fun _ => True) p fun _ _ => True :=
  quiet_any (hp.mono fun _ hop => hop.quiet)

theorem call {op : Op} (hop : op ≠ .openDatabase) {v : View} {next : op.Answer → Worker α}
    {R : op.Answer → View} {Q : α → World → Prop}
    (hsound : ∀ w, MarkInvariant positive w → Sees v w →
      (View.sound positive).holds w.server (op.effect w.db.conn.visible))
    (hR : ∀ reply w, MarkInvariant positive w → Sees v w → (markRules positive).call op reply w →
      (R (World.exec op reply w).1).holds w.server (World.exec op reply w).2.db.conn.visible)
    (hnext : ∀ answer, (markContract positive).Spec (Sees (R answer)) (next answer) Q) :
    (markContract positive).Spec (Sees v) (perform op >>= next) Q := by
  refine Contract.Spec.call (stable v) (R := fun answer => Sees (R answer)) ?_ hnext
  intro w reply hinv hv hrules
  refine ⟨inv_exec hinv (hsound w hinv hv), (World.exec_isOpen op reply w hop).trans hv.1, ?_⟩
  show (R _).holds (World.exec op reply w).2.server _
  rw [World.exec_server]
  exact hR reply w hinv hv hrules

/-! ### The parts of a pass -/

theorem sound_of_pending {log : ChangeLog} {top : Nat} {t : Tables}
    (h : (View.pending top []).holds log t) :
    MarkSound log top (t.written (.changedDatesHighwatermark (decimal top))) where
  mark := rfl
  reached := h.1
  current _ c hc hlatest hid := by
    rcases h.2 c hc hlatest hid with hmem | hstored
    · cases hmem
    · exact hstored

theorem advanceMark_spec {top : Nat} (htop : positive = true → top ≠ 0) :
    (markContract positive).Spec (Sees (.pending top [])) (advanceMark (decimal top))
      fun _ => Sees .anything := by
  unfold advanceMark write
  rw [if_neg (by simp)]
  have hop : Op.write (.changedDatesHighwatermark (decimal top)) ≠ .openDatabase := nofun
  refine call hop (R := fun _ => .anything) ?_ (fun _ _ _ _ _ => trivial) fun _ => ?_
  · rintro w _ ⟨_, hpending⟩
    exact ⟨top, htop, sound_of_pending hpending⟩
  · exact Contract.Spec.done (stable _)

theorem checkpoint_spec (initial : Bool) (date : Bytes) {v : View}
    (hv : ∀ log t, v.holds log t → v.holds log (t.written (.backfillCursor date))) :
    (markContract positive).Spec (Sees v) (checkpoint initial date) fun _ => Sees v := by
  cases initial with
  | false => exact Contract.Spec.done (stable _)
  | true =>
    have hop : Op.write (.backfillCursor date) ≠ .openDatabase := nofun
    refine call hop (R := fun _ => v) ?_ ?_ fun _ => ?_
    · rintro w ⟨⟨_, m, hm, hsound⟩, _⟩ _
      exact ⟨m, hm, hsound.mark, hsound.reached, hsound.current⟩
    · rintro reply w _ hsees _
      exact (sees_exec hop hsees.1 hsees.2 (hv _ _ hsees.2)).2
    · exact Contract.Spec.done (stable _)

theorem fetched_of_honest {top : Nat} {date : Bytes} {todo : List Bytes} {reply : Reply} {w : World}
    (hinv : MarkInvariant positive w) (hv : Sees (.pending top todo) w)
    (hcontent : reply.sales.2 = w.server.content date) :
    (View.fetched top date reply.sales.2).holds w.server w.db.conn.visible := by
  obtain ⟨m, _, hsound⟩ := hinv.1.2
  refine ⟨w.server.greatestId, hv.2.1, Nat.le_refl _, fun m' hm' => ?_,
    fun c _ hlatest _ hdate => ?_⟩
  · have hmm : m' = m := decimal_injective (hm'.symm.trans hsound.mark)
    exact hmm ▸ hsound.reached
  · subst hdate
    rw [hcontent, ChangeLog.content_of_latest hlatest]

theorem sound_replaced {log : ChangeLog} {t : Tables} {m top : Nat} {date nowUtc : Bytes}
    {records : List DetailedSalesRecord} (hsound : MarkSound log m t)
    (hfetched : (View.fetched top date records).holds log t) :
    MarkSound log m (t.replaced date (aggregateDate records) nowUtc) where
  mark := by rw [Tables.replaced_syncState, hsound.mark]
  reached := hsound.reached
  current hm c hc hlatest hid := by
    obtain ⟨n, _, _, hmarks, hrecords⟩ := hfetched
    have hn := hmarks m hsound.mark
    exact stores_replaced (hrecords c hc hlatest (by omega))
      fun _ => hsound.current hm c hc hlatest hid

theorem pending_replaced {log : ChangeLog} {t : Tables} {top : Nat} {date nowUtc : Bytes}
    {rest : List Bytes} {records : List DetailedSalesRecord}
    (hpending : (View.pending top (date :: rest)).holds log t)
    (hfetched : (View.fetched top date records).holds log t) :
    (View.pending top rest).holds log (t.replaced date (aggregateDate records) nowUtc) := by
  obtain ⟨n, htop, _, _, hrecords⟩ := hfetched
  refine ⟨hpending.1, fun c hc hlatest hid => ?_⟩
  by_cases hmem : c.date ∈ rest
  · exact .inl hmem
  · refine .inr (stores_replaced (hrecords c hc hlatest (by omega)) fun hdate => ?_)
    rcases hpending.2 c hc hlatest hid with htodo | hstored
    · rcases List.mem_cons.mp htodo with hsame | hrest
      · exact absurd hsame hdate
      · exact absurd hrest hmem
    · exact hstored

theorem syncDates_spec (key now : Bytes) (initial : Bool) (top : Nat) (todo : List Bytes) :
    (markContract positive).Spec (Sees (.pending top todo)) (syncDates key now initial todo)
      fun failed w => failed = none → Sees (.pending top []) w := by
  -- Each date that is stored leaves what is pending; one that fails ends the loop.
  induction todo with
  | nil => exact Contract.Spec.ret (stable _) fun _ _ h _ => h
  | cons date rest ih =>
    have hfetch : Op.getAllDetailedSalesForDate key date ≠ .openDatabase := nofun
    refine call hfetch (R := fun answer => if answer.1.ok then
      (View.pending top (date :: rest)).and (.fetched top date answer.2) else .anything)
      (fun w hinv _ => hinv.1.2) ?_ ?_
    · intro reply w hinv hv hrules
      show (if reply.sales.1.ok then _ else _ : View).holds _ _
      split
      · rename_i hok
        exact ⟨hv.2, fetched_of_honest hinv hv ((markRules_call hrules).1.2 hok)⟩
      · trivial
    · rintro ⟨pr, records⟩
      show (markContract positive).Spec _ (if pr.ok then _ else _) _
      by_cases hok : pr.ok = true
      · rw [if_pos hok, if_pos hok]
        have hreplace : Op.replaceDate date (aggregateDate records) now ≠ .openDatabase := nofun
        refine call hreplace (R := fun saved => if saved then .pending top rest else .anything)
          ?_ ?_ ?_
        · rintro w hinv ⟨_, _, hfetched⟩
          obtain ⟨m, hm, hsound⟩ := hinv.1.2
          exact ⟨m, hm, sound_replaced hsound hfetched⟩
        · rintro reply w _ ⟨_, hpending, hfetched⟩ _
          split
          · rename_i hsaved
            rw [World.exec_replaceDate_true reply w hsaved]
            exact pending_replaced hpending hfetched
          · trivial
        · intro saved
          cases saved with
          | true =>
            refine (checkpoint_spec initial date fun _ _ h => h).bind fun _ => ?_
            refine (routine (updateStatus_routine (by trivial)) _).bind fun _ => ?_
            refine (routine (post_routine (by trivial)) _).bind fun _ => ?_
            exact ih
          | false =>
            refine (routine (failPass_routine _ _ _ _) _).bind fun exit => ?_
            exact Contract.Spec.ret (stable _) fun _ _ _ => nofun
      · rw [if_neg hok, if_neg hok]
        refine (routine (failPass_routine _ _ _ _) _).bind fun exit => ?_
        exact Contract.Spec.ret (stable _) fun _ _ _ => nofun

theorem finishStored_spec (now : Bytes) (initial notifyEnabled : Bool) {top : Nat}
    (htop : positive = true → top ≠ 0) (before : Snapshot) :
    (markContract positive).Spec (Sees (.pending top []))
      (finishStored now initial notifyEnabled (decimal top) before) fun _ _ => True := by
  unfold finishStored
  refine (advanceMark_spec htop).bind fun _ => ?_
  refine (checkpoint_spec initial [] fun _ _ _ => trivial).bind fun _ => ?_
  refine (routine (write_routine (by trivial)) _).bind fun _ => ?_
  refine (routine (write_routine (by trivial)) _).bind fun _ => ?_
  by_cases hnotify : (notifyEnabled && !initial) = true
  · rw [if_pos hnotify]
    refine (routine (notificationAfter_routine before) _).bind fun ⟨after, notification⟩ => ?_
    refine (quiet (publish_quiet notification) _).bind fun _ => ?_
    exact Contract.Spec.ret (stable _) fun _ _ _ => trivial
  · rw [if_neg hnotify]
    refine (quiet (publish_quiet []) _).bind fun _ => ?_
    exact Contract.Spec.ret (stable _) fun _ _ _ => trivial

theorem finishUnchanged_spec {top : Nat} (htop : positive = true → top ≠ 0) :
    (markContract positive).Spec (Sees (.pending top [])) (finishUnchanged (decimal top))
      fun _ _ => True := by
  refine (advanceMark_spec htop).bind fun _ => ?_
  refine (routine_any ?_).pre fun _ _ _ => trivial
  exact (write_routine (by trivial)).bind fun _ => (updateStatus_routine (by trivial)).bind
    fun _ => (post_routine (by trivial)).bind fun _ => trivial

/-- What an initial pass skips is covered by the cursor. -/
theorem pending_datesToProcess {log : ChangeLog} {top : Nat} {dates : List Bytes} {initial : Bool}
    {cursor : Bytes} {t : Tables} (hpending : (View.pending top dates).holds log t)
    (hcovered : initial = true →
      cursor = t.syncState.backfillCursor.getD [] ∧ (View.covered top).holds log t) :
    (View.pending top (datesToProcess initial cursor dates)).holds log t := by
  refine ⟨hpending.1, fun c hc hlatest hid => ?_⟩
  rcases hpending.2 c hc hlatest hid with hmem | hstored
  · by_cases hskip : initial = true ∧ cursor.isEmpty = false ∧ c.date ≤ cursor
    · obtain ⟨hinitial, hnonempty, hle⟩ := hskip
      obtain ⟨rfl, _, hcov⟩ := hcovered hinitial
      right
      cases hcur : t.syncState.backfillCursor with
      | none => simp [hcur] at hnonempty
      | some cursor =>
        rw [hcur] at hle
        exact hcov cursor hcur c hc hlatest hid hle
    · left
      unfold datesToProcess
      exact List.mem_filter.mpr ⟨(List.mem_insertionSort _).mpr hmem, decide_eq_true hskip⟩
  · exact .inr hstored

theorem readCursor_spec (initial : Bool) (top : Nat) (dates : List Bytes) :
    (markContract positive).Spec
      (Sees ((View.pending top dates).and (.given (initial = true) (.covered top))))
      (readCursor initial) fun cursor =>
        Sees (.pending top (datesToProcess initial cursor dates)) := by
  cases initial with
  | true =>
    refine Contract.Spec.perform (stable _) (fun _ => stable _) fun w reply hinv hw hrules => ?_
    refine ⟨hinv, hw.1, ?_⟩
    obtain ⟨hpending, hcovered⟩ := hw.2
    have hcursor : w.db.getBackfillCursor reply.readLimit =
        w.db.conn.visible.syncState.backfillCursor.getD [] := by
      rw [(markRules_call hrules).1.1]
      exact Database.getBackfillCursor_open hw.1
    show (View.pending top (datesToProcess true (w.db.getBackfillCursor reply.readLimit)
      dates)).holds w.server w.db.conn.visible
    exact pending_datesToProcess hpending fun h => ⟨hcursor, hcovered h⟩
  | false =>
    refine Contract.Spec.ret (stable _) fun w _ hw => ⟨hw.1, ?_⟩
    exact pending_datesToProcess hw.2.1 (by nofun)

theorem syncChanged_spec (key now : Bytes) (initial notifyEnabled : Bool) {changed : ChangedDates}
    {top : Nat} (htop : positive = true → top ≠ 0)
    (hmark : changed.resultHighwatermark = decimal top) :
    (markContract positive).Spec
      (Sees ((View.pending top changed.dates).and (.given (initial = true) (.covered top))))
      (syncChanged key now initial notifyEnabled changed) fun _ _ => True := by
  unfold syncChanged
  refine (readCursor_spec initial top changed.dates).bind fun cursor => ?_
  refine (routine (updateStatus_routine (by trivial)) _).bind fun _ => ?_
  refine (routine (post_routine (by trivial)) _).bind fun _ => ?_
  refine (routine (snapshotBefore_routine _) _).bind fun before => ?_
  refine (syncDates_spec key now initial top _).bind fun failed => ?_
  cases failed with
  | some exit => exact Contract.Spec.ret (fun _ _ _ _ _ => nofun) fun _ _ _ => trivial
  | none =>
    rw [hmark]
    exact (finishStored_spec now initial notifyEnabled htop before).pre fun _ _ h => h rfl

def listed (positive initial : Bool) (changed : ChangedDates) : View where
  holds log t := ∃ top, (positive = true → top ≠ 0) ∧ changed.resultHighwatermark = decimal top ∧
    ((View.pending top changed.dates).and (.given (initial = true) (.covered top))).holds log t
  push := fun ⟨top, htop, hmark, h⟩ => ⟨top, htop, hmark, View.push _ h⟩
  same := fun hsame ⟨top, htop, hmark, h⟩ => ⟨top, htop, hmark, View.same _ hsame h⟩

theorem listed_of_honest {reply : Reply} {w : World} {key hwm : Bytes} {initial : Bool}
    (hinitial : initial = true → hwm = ascii "0") (hinv : MarkInvariant positive w)
    (hmark : w.db.conn.visible.syncState.changedDatesHighwatermark = hwm)
    (hrules : (markRules positive).call (.getChangedDates key hwm) reply w)
    (hok : reply.changed.1.ok = true) :
    (listed positive initial reply.changed.2).holds w.server w.db.conn.visible := by
  obtain ⟨m, hm, hsound⟩ := hinv.1.2
  obtain ⟨⟨_, hhonest⟩, hcond⟩ := markRules_call hrules
  have hlists : w.server.Lists hwm reply.changed.2 := hhonest hok
  have hhwm : hwm = decimal m := hmark.symm.trans hsound.mark
  refine ⟨w.server.greatestId, fun hpositive => ?_, hlists.mark, ⟨Nat.le_refl _, ?_⟩, fun hi => ?_⟩
  · have := hm hpositive
    have := hsound.reached
    omega
  · intro c hc hlatest _
    by_cases hid : c.id ≤ m
    · right
      have hpos := ChangeLog.latest_pos hlatest
      exact hsound.current (by omega) c hc hlatest hid
    · left
      refine hlists.complete c hc hlatest ?_
      rw [hhwm, number_decimal]
      omega
  · cases positive with
    | true =>
      have hzero : m = 0 := decimal_eq_zero.mp (hhwm ▸ hinitial hi)
      exact absurd hzero (hm rfl)
    | false =>
      refine ⟨Nat.le_refl _, fun cursor hcursor c hc hlatest _ hle => ?_⟩
      exact hcond rfl hok (hinitial hi) cursor hcursor c hc hlatest hle

theorem readMark_spec :
    (markContract positive).Spec (Sees .anything) (perform .getChangedDatesHighwatermark)
      fun hwm => Sees (.markIs hwm) := by
  refine Contract.Spec.perform (stable _) (fun _ => stable _) fun w reply hinv hw hrules => ?_
  refine ⟨hinv, hw.1, ?_⟩
  obtain ⟨m, _, hsound⟩ := hinv.1.2
  have hread : w.db.getChangedDatesHighwatermark reply.readLimit =
      w.db.conn.visible.syncState.changedDatesHighwatermark := by
    rw [(markRules_call hrules).1.1]
    exact Database.getChangedDatesHighwatermark_open hw.1 (by simp [hsound.mark])
  exact hread.symm

theorem getChangedDates_spec (key hwm : Bytes) :
    (markContract positive).Spec (Sees (.markIs hwm)) (perform (.getChangedDates key hwm))
      fun answer => Sees (if answer.1.ok then
        listed positive (decide (hwm = ascii "0") || hwm.isEmpty) answer.2 else .anything) := by
  refine Contract.Spec.perform (stable _) (fun _ => stable _) fun w reply hinv hw hrules => ?_
  refine ⟨hinv, hw.1, ?_⟩
  show (if reply.changed.1.ok then _ else _ : View).holds _ _
  split
  · rename_i hok
    refine listed_of_honest (fun hi => ?_) hinv hw.2 hrules hok
    obtain ⟨m, _, hsound⟩ := hinv.1.2
    have hne : hwm ≠ [] := by
      rw [← hw.2, hsound.mark]
      exact decimal_ne_nil m
    simpa [hne] using hi
  · trivial

theorem syncWithKey_spec (key : Bytes) :
    (markContract positive).Spec (Sees .anything) (syncWithKey key) fun _ _ => True := by
  unfold syncWithKey
  have hnotify : (perform .getNotifyOnNewUnits).Every Op.Routine := ⟨trivial, fun _ => trivial⟩
  have hnow : (perform .utcNowIso8601).Every Op.Routine := ⟨trivial, fun _ => trivial⟩
  refine readMark_spec.bind fun hwm => ?_
  refine (routine hnotify _).bind fun notifyEnabled => ?_
  refine (getChangedDates_spec key hwm).bind ?_
  rintro ⟨r, changed⟩
  show (markContract positive).Spec _ (if r.ok then _ else _) _
  by_cases hok : r.ok = true
  · rw [if_pos hok, if_pos hok]
    refine (routine hnow _).bind fun now => ?_
    refine (routine (write_routine (by trivial)) _).bind fun _ => ?_
    rintro w hinv ⟨hopen, top, htop, hmark, hlisted⟩
    split
    · rename_i hempty
      rw [hmark]
      refine finishUnchanged_spec htop w hinv ⟨hopen, ?_⟩
      have hpending := hlisted.1
      rwa [List.isEmpty_iff.mp hempty] at hpending
    · exact syncChanged_spec key now _ notifyEnabled htop hmark w hinv ⟨hopen, hlisted⟩
  · rw [if_neg hok, if_neg hok]
    exact (routine (failPass_routine _ _ _ _) _).post fun _ _ _ => trivial

theorem inv_openDatabase {reply : Reply} {w : World} (h : MarkInvariant positive w) :
    MarkInvariant positive (World.exec .openDatabase reply w).2 := inv_exec h h.1.2

theorem ensureOpen_spec :
    (markContract positive).Spec (fun _ => True) ensureOpen
      fun opened w => opened = true → Sees .anything w := by
  refine Contract.Spec.call (Contract.stable_const True)
    (R := fun opened w => opened = true → w.db.isOpen = true)
    (fun w _ hinv _ _ => ⟨hinv, fun h => h⟩) fun opened => ?_
  cases opened with
  | true =>
    have hstable : (markContract positive).Stable fun w => true = true → w.db.isOpen = true :=
      Contract.stable_of_kept (f := World.db) (fun move w => World.act_db w move)
        fun db => true = true → db.isOpen = true
    exact Contract.Spec.ret hstable fun w _ h _ => ⟨h rfl, trivial⟩
  | false =>
    refine Contract.Spec.perform (fun _ _ _ _ _ => nofun) ?_ fun w reply hinv _ _ => ?_
    · intro opened move w hmove hinv h hopened
      exact stable _ move w hmove hinv (h hopened)
    · exact ⟨inv_openDatabase hinv, fun h => ⟨h, trivial⟩⟩

theorem clearIfRequested_spec :
    (markContract positive).Spec (Sees .anything) clearIfRequested fun _ => Sees .anything := by
  have htake : Op.takeClearRequest ≠ .openDatabase := nofun
  refine call htake (R := fun taken => .fact (positive = true → taken = false))
    (fun w hinv _ => hinv.1.2) (fun reply w hinv _ _ => hinv.2) fun taken => ?_
  cases taken with
  | false => exact Contract.Spec.ret (stable _) fun _ _ h => ⟨h.1, trivial⟩
  | true =>
    have hclear : Op.clearAllSales ≠ .openDatabase := nofun
    refine call hclear (R := fun _ => .anything) ?_ (fun _ _ _ _ _ => trivial) fun _ => ?_
    · rintro w _ ⟨_, hpositive⟩
      exact ⟨0, fun h => absurd (hpositive h) nofun, markSound_zero rfl⟩
    · exact Contract.Spec.done (stable _)

theorem pass_spec :
    (markContract positive).Spec (fun _ => True) runSynchronization fun _ _ => True :=
  runSynchronization_spec (quiet_any (post_quiet .syncStarted))
    (routine_any (updateStatus_routine (by trivial))) ensureOpen_spec
    ((routine_any (failPass_routine _ _ _ _)).pre fun _ _ _ => trivial)
    (clearIfRequested_spec.pre fun _ _ h => h rfl) (routine loadKey_routine _)
    ((routine_any (failPass_routine _ _ _ _)).pre fun _ _ _ => trivial) syncWithKey_spec

theorem inv_crash {w : World} (h : MarkInvariant positive w) : MarkInvariant positive w.crash :=
  ⟨h.1.drop, fun _ => rfl⟩

theorem inv_run {w : World} (hw : MarkInvariant positive w) {es : List (Event Reply Move)}
    (hes : (markRules positive).Admitted service runSynchronization ⟨w, none⟩ es) :
    MarkInvariant positive (w.after es) :=
  Contract.sound_inv (K := markContract positive) (fun _ _ => inv_crash) (fun _ _ _ => trivial)
    pass_spec hw hes

end MarkRuns

/-- A new or just cleared cache. -/
def StartsFresh (w : World) : Prop :=
  w.db.conn.tx = none ∧
    w.db.conn.committed.syncState.changedDatesHighwatermark = ascii "0" ∧
    w.db.conn.committed.syncState.backfillCursor = none

/-- A run from a new cache keeps the mark sound, however often the backfill is interrupted, if no
initial pass gets a change list while a date that its cursor covers is out of date. -/
theorem resumed_mark_sound {w : World} (hw : StartsFresh w) {es : List (Event Reply Move)}
    (hes : resumeRules.Admitted service runSynchronization ⟨w, none⟩ es) :
    (w.after es).db.conn.Both fun t => ∃ m, MarkSound (w.after es).server m t := by
  obtain ⟨htx, hmark, _⟩ := hw
  have hzero : ∀ t, t.syncState.changedDatesHighwatermark = ascii "0" →
      (View.sound false).holds w.server t := fun t ht => ⟨0, nofun, markSound_zero ht⟩
  have hvisible := Connection.visible_of_closed htx
  have hinv : MarkInvariant false w :=
    ⟨⟨hzero _ hmark, hvisible ▸ hzero _ hmark⟩, nofun⟩
  refine (MarkRuns.inv_run hinv hes).1.mono fun t h => ?_
  obtain ⟨m, _, hsound⟩ := h
  exact ⟨m, hsound⟩

/-- The fetch of the second date fails, that date changes, the process is killed, and a second pass
resumes the backfill and stores the mark. -/
def resumedRun : List (Event Reply Move) :=
  open Sample in
  .start :: calls 19 (reply [july18, july17] 2 [sale 1]) ++
    calls 5 (offline (reply [july18, july17] 2 [])) ++
    [.act (.serverChange 0 july18 [sale 7]), .kill, .start] ++
    calls 32 (reply [july18, july17] 3 [sale 7])

theorem resumed_mark_sound_run :
    (Sample.world.after resumedRun).db.conn.committed.syncState.changedDatesHighwatermark =
        ascii "3" ∧
      (Sample.world.after resumedRun).db.conn.Both fun t =>
        ∃ m, MarkSound (Sample.world.after resumedRun).server m t :=
  ⟨by decide +kernel, resumed_mark_sound ⟨rfl, rfl, rfl⟩ (by decide +kernel)⟩

/-- The first date changes after it was stored, between the two passes of a backfill. -/
def skippedRun : List (Event Reply Move) :=
  open Sample in
  .start :: calls 19 (reply [july18, july17] 2 [sale 1]) ++
    calls 5 (offline (reply [july18, july17] 2 [])) ++
    [.act (.serverChange 0 july17 [sale 5]), .start] ++
    calls 30 (reply [july18, july17] 3 [sale 2])

/-- The resumed pass skips the changed date and advances the mark past the change. -/
theorem skipped_change_lost :
    ¬∀ (w : World) (es : List (Event Reply Move)), StartsFresh w →
      serverRules.Admitted service runSynchronization ⟨w, none⟩ es →
      (w.after es).db.conn.Both fun t => ∃ m, MarkSound (w.after es).server m t := by
  intro h
  obtain ⟨m, hsound⟩ := (h Sample.world skippedRun ⟨rfl, rfl, rfl⟩ (by decide +kernel)).1
  have hm : m = 3 := decimal_injective (hsound.mark.symm.trans (by decide +kernel))
  subst hm
  exact absurd hsound (by decide +kernel)

/-- An incremental run keeps the mark sound, whatever fails and whenever the server changes. -/
theorem incremental_mark_sound {w : World} {m : Nat} (hm : m ≠ 0)
    (hw : w.db.conn.Both (MarkSound w.server m)) (hclear : w.clearCacheRequested = false)
    {es : List (Event Reply Move)}
    (hes : noClearRules.Admitted service runSynchronization ⟨w, none⟩ es) :
    (w.after es).db.conn.Both fun t => ∃ m, m ≠ 0 ∧ MarkSound (w.after es).server m t := by
  have hinv : MarkInvariant true w := ⟨hw.mono fun _ h => ⟨m, fun _ => hm, h⟩, fun _ => hclear⟩
  refine (MarkRuns.inv_run hinv hes).1.mono fun t h => ?_
  obtain ⟨m', hm', hsound⟩ := h
  exact ⟨m', hm' rfl, hsound⟩

/-- A date changes; while it is fetched the other one changes, its `COMMIT` fails, the process is
killed, and the next pass stores both. -/
def incrementalRun : List (Event Reply Move) :=
  open Sample in
  [.act (.serverChange 0 july17 [sale 5]), .start] ++ calls 15 (reply [july17] 3 [sale 5]) ++
    [.act (.serverChange 2 july18 [sale 6])] ++
    calls 5 { reply [july17] 3 [sale 5] with
      faults := fun step => if step = .commit then .busy else .done } ++
    [.kill, .start] ++ calls 19 (reply [july18, july17] 6 [sale 5]) ++
    calls 20 (reply [july18, july17] 6 [sale 6])

theorem incremental_mark_sound_run :
    (Sample.stored.after incrementalRun).db.conn.committed.syncState.changedDatesHighwatermark =
        ascii "6" ∧
      (Sample.stored.after incrementalRun).db.conn.Both fun t =>
        ∃ m, m ≠ 0 ∧ MarkSound (Sample.stored.after incrementalRun).server m t :=
  ⟨by decide +kernel, incremental_mark_sound (m := 2) (by decide)
    ⟨by decide +kernel, by decide +kernel⟩ rfl (by decide +kernel)⟩

/-- The cache is kept when the key of another partner is saved, whose server has no changes yet. -/
def otherPartner : World := { Sample.stored with server := .empty }

/-- The first change of the new server has an id below the mark that was kept, so the pass lists no
dates and takes over the server's mark. -/
def otherPartnerRun : List (Event Reply Move) :=
  open Sample in
  [.act (.serverChange 0 july17 [sale 5]), .start] ++ calls 15 (reply [] 1 [])

/-- Where the mark is an id that the server has yet to reach, a change is passed over. -/
theorem change_below_mark_lost :
    ¬∀ (w : World) (m : Nat) (es : List (Event Reply Move)), m ≠ 0 →
      w.db.conn.Both (MarkCovers w.server m) → w.clearCacheRequested = false →
      noClearRules.Admitted service runSynchronization ⟨w, none⟩ es →
      (w.after es).db.conn.Both fun t => ∃ m, MarkCovers (w.after es).server m t := by
  intro h
  obtain ⟨m, hcovers⟩ := (h otherPartner 2 otherPartnerRun (by decide)
    ⟨by decide +kernel, by decide +kernel⟩ rfl (by decide +kernel)).1
  have hm : m = 1 := decimal_injective (hcovers.mark.symm.trans (by decide +kernel))
  subst hm
  exact absurd hcovers (by decide +kernel)

end SteamSalesTray.Sync
