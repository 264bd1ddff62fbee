import SteamSalesTray.Sync.Comparing

/-! The checkpoint of a backfill and the high-water mark: in which runs no cursor is stored beside a
mark other than 0. -/

namespace SteamSalesTray.Sync

open Interaction Transaction Storage Steam

/-- The checkpoint exists only during a backfill. -/
def CursorOnlyInBackfill (t : Tables) : Prop :=
  t.syncState.changedDatesHighwatermark ≠ ascii "0" → t.syncState.backfillCursor = none

instance (t : Tables) : Decidable (CursorOnlyInBackfill t) := inferInstanceAs (Decidable (_ → _))

/-- The change list that a pass got, with the cursor that was stored then. -/
def listGot : Happened → Option (ChangedDates × Option Bytes)
  | .call (.getChangedDates _ _) answer after =>
    some (answer.2, after.db.conn.visible.syncState.backfillCursor)
  | _ => none

/-- Whether a call stored a mark other than 0. -/
def markStored : Happened → Option Bool
  | .call (.write (.changedDatesHighwatermark highwatermark)) saved _ =>
    some (saved && decide (highwatermark ≠ ascii "0"))
  | .act _ _ => none
  | _ => some false

/-- The latest pass got the mark that was stored when it read it. -/
def ReadStoredMark (past : List Happened) : Prop :=
  ∀ read ∈ past.findSome? markRead, read.1 = read.2

/-- The latest change list has no dates and came while a cursor was stored. -/
def ListedNothing (past : List Happened) : Prop :=
  ∃ list ∈ past.findSome? listGot, list.1.dates = [] ∧ list.2 ≠ none

/-- A backfill has stored its mark with the latest call, and the next is to clear the cursor. -/
def Completing (past : List Happened) : Prop :=
  past.findSome? markStored = some true ∧
    (∃ read ∈ past.findSome? markRead, read.1 = ascii "0") ∧
      ∃ list ∈ past.findSome? listGot, list.1.dates ≠ []

def UpdateFails (reply : Reply) : Prop :=
  ¬(reply.faults .prepareUpdate = .done ∧ reply.faults .update = .done)

/-- A list without dates that comes while a cursor is stored has the mark 0, or that mark cannot be
stored; a date is stored as the cursor only by a pass that got the stored mark; and a backfill that
has stored its mark can clear the cursor. -/
def CheckpointKept (reply : Reply) (s : Record) : Op → Prop
  | .write (.changedDatesHighwatermark highwatermark) =>
    ListedNothing s.past → highwatermark = ascii "0" ∨ UpdateFails reply
  | .write (.backfillCursor date) =>
    (date = [] ∨ UpdateFails reply ∨ ReadStoredMark s.past) ∧
      (Completing s.past → ¬UpdateFails reply)
  | _ => True

/-- Nothing kills a backfill between the two writes that end it. -/
def checkpointRules : Rules Op Record Reply Move where
  start _ := True
  call op reply s := CheckpointKept reply s op
  act _ _ := True
  kill s := ¬Completing s.past

namespace CheckpointRuns

def Clean (s : Record) : Prop := s.state.db.conn.Both CursorOnlyInBackfill

/-- A backfill has stored its mark, and the cursor that it is to clear may still be there. -/
structure Window (s : Record) : Prop where
  completing : Completing s.past
  isOpen : s.state.db.isOpen = true
  committed : s.state.db.conn.tx ≠ none → CursorOnlyInBackfill s.state.db.conn.committed

theorem completing_act {move : Move} {after : World} {past : List Happened} :
    Completing (.act move after :: past) ↔ Completing past := Iff.rfl

end CheckpointRuns

def checkpointContract : Contract Op Op.Answer Record Reply Move where
  machine := service.traced
  rules := checkpointRules
  inv s := CheckpointRuns.Clean s ∨ CheckpointRuns.Window s
  inv_act := by
    rintro move s _ (hclean | hwindow)
    · left
      show (s.state.act move).db.conn.Both _
      rw [World.act_db]
      exact hclean
    · refine .inr ⟨CheckpointRuns.completing_act.mpr hwindow.completing, ?_, ?_⟩
      · show (s.state.act move).db.isOpen = true
        rw [World.act_db]
        exact hwindow.isOpen
      · show (s.state.act move).db.conn.tx ≠ none →
          CursorOnlyInBackfill (s.state.act move).db.conn.committed
        rw [World.act_db]
        exact hwindow.committed

namespace CheckpointRuns

variable {α : Type}

/-- The mark that the pass works under is the stored one, if the pass read that. -/
structure Under (highwatermark : Bytes) (s : Record) : Prop where
  clean : Clean s
  nonempty : highwatermark ≠ []
  read : ∃ stored, s.past.findSome? markRead = some (highwatermark, stored)
  stored : highwatermark ≠ ascii "0" ∨ ReadStoredMark s.past →
    s.state.db.conn.visible.syncState.changedDatesHighwatermark = highwatermark

def Got (changed : ChangedDates) (s : Record) : Prop :=
  ∃ cursor, s.past.findSome? listGot = some (changed, cursor)

/-- The list has come, and the cursor is the one that was stored then. -/
def JustGot (changed : ChangedDates) (s : Record) : Prop :=
  s.past.findSome? listGot = some (changed, s.state.db.conn.visible.syncState.backfillCursor)

theorem JustGot.got {changed : ChangedDates} {s : Record} (h : JustGot changed s) :
    Got changed s := ⟨_, h⟩

theorem clean_act {s : Record} (h : Clean s) (move : Move) :
    Clean (service.traced.act move s) := by
  show (s.state.act move).db.conn.Both _
  rw [World.act_db]
  exact h

theorem stable_clean : checkpointContract.Stable Clean := fun move _ _ _ h => clean_act h move

theorem stable_under (highwatermark : Bytes) : checkpointContract.Stable (Under highwatermark) := by
  intro move s _ _ h
  refine ⟨clean_act h.clean move, h.nonempty, h.read, fun hread => ?_⟩
  show (s.state.act move).db.conn.visible.syncState.changedDatesHighwatermark = highwatermark
  rw [World.act_db]
  exact h.stored hread

theorem stable_got (changed : ChangedDates) : checkpointContract.Stable (Got changed) :=
  fun _ _ _ _ h => h

theorem stable_justGot (changed : ChangedDates) : checkpointContract.Stable (JustGot changed) := by
  intro move s _ _ h
  show s.past.findSome? listGot = some (changed,
    (s.state.act move).db.conn.visible.syncState.backfillCursor)
  rw [World.act_db]
  exact h

theorem clean_exec (op : Op) (reply : Reply) {s : Record} (h : Clean s)
    (heffect : CursorOnlyInBackfill (op.effect s.state.db.conn.visible)) :
    Clean (service.traced.exec op reply s).2 :=
  World.exec_both op reply s.state h fun _ => heffect

theorem sameState {t t' : Tables}
    (hmark : t'.syncState.changedDatesHighwatermark = t.syncState.changedDatesHighwatermark)
    (hcursor : t'.syncState.backfillCursor = t.syncState.backfillCursor)
    (h : CursorOnlyInBackfill t) : CursorOnlyInBackfill t' := by
  unfold CursorOnlyInBackfill at *
  rwa [hmark, hcursor]

theorem clean_quiet {op : Op} (hop : op.Quiet) (reply : Reply) {s : Record} (h : Clean s) :
    Clean (service.traced.exec op reply s).2 :=
  clean_exec op reply h (sameState (hop.2 _).mark (hop.2 _).cursor h.2)

theorem listGot_call {op : Op} (hop : op.Listed) {answer : op.Answer} {after : World} :
    listGot (.call op answer after) = none := by
  cases op with
  | getChangedDates key highwatermark => exact hop.elim
  | _ => rfl

/-- Calls that neither read nor write the mark keep what a pass knows of it. -/
theorem under_exec {op : Op} {highwatermark : Bytes} (hopen : op ≠ .openDatabase)
    (hread : op ≠ .getChangedDatesHighwatermark)
    (hmark : ∀ t, (op.effect t).syncState.changedDatesHighwatermark =
      t.syncState.changedDatesHighwatermark) {reply : Reply} {s : Record}
    (h : Under highwatermark s) (hclean : Clean (service.traced.exec op reply s).2) :
    Under highwatermark (service.traced.exec op reply s).2 := by
  have hpast : (service.traced.exec op reply s).2.past.findSome? markRead =
      s.past.findSome? markRead := by
    show List.findSome? markRead (.call op _ _ :: s.past) = _
    rw [List.findSome?_cons, markRead_call hread]
  refine ⟨hclean, h.nonempty, ?_, fun hstored => ?_⟩
  · rw [hpast]
    exact h.read
  · unfold ReadStoredMark at hstored
    rw [hpast] at hstored
    have hbefore := h.stored hstored
    rcases World.exec_visible op reply s.state hopen with hvis | hvis
    · exact (congrArg (·.syncState.changedDatesHighwatermark) hvis).trans hbefore
    · exact (congrArg (·.syncState.changedDatesHighwatermark) hvis).trans ((hmark _).trans hbefore)

theorem got_exec {op : Op} (hop : op.Listed) {changed : ChangedDates} (s : Record) (reply : Reply)
    (h : Got changed s) : Got changed (service.traced.exec op reply s).2 := by
  obtain ⟨cursor, hgot⟩ := h
  refine ⟨cursor, ?_⟩
  show List.findSome? listGot (.call op _ _ :: s.past) = _
  rw [List.findSome?_cons, listGot_call hop]
  exact hgot

theorem justGot_exec {op : Op} (hop : op.Routine) {changed : ChangedDates} (s : Record)
    (reply : Reply) (h : JustGot changed s) :
    JustGot changed (service.traced.exec op reply s).2 := by
  have hcursor : (World.exec op reply s.state).2.db.conn.visible.syncState.backfillCursor =
      s.state.db.conn.visible.syncState.backfillCursor := by
    rcases World.exec_visible op reply s.state hop.quiet.1 with hvis | hvis
    · rw [hvis]
    · rw [hvis, (hop.sameData _).cursor]
  show List.findSome? listGot (.call op _ _ :: s.past) = some (changed,
    (World.exec op reply s.state).2.db.conn.visible.syncState.backfillCursor)
  rw [List.findSome?_cons, listGot_call hop.storing.listed, hcursor]
  exact h

theorem quiet_clean {p : Worker α} (hp : p.Every Op.Quiet) :
    checkpointContract.Spec Clean p fun _ => Clean := by
  apply Contract.Spec.every stable_clean
  refine hp.mono fun op hop s reply _ h _ => ?_
  exact ⟨.inl (clean_quiet hop reply h), clean_quiet hop reply h⟩

theorem routine_clean {p : Worker α} (hp : p.Every Op.Routine) :
    checkpointContract.Spec Clean p fun _ => Clean :=
  quiet_clean (hp.mono fun _ hop => hop.quiet)

/-- The call is routine and does not read the mark. -/
def Apart (op : Op) : Prop := op.Routine ∧ op ≠ .getChangedDatesHighwatermark

theorem apart_under {p : Worker α} (hp : p.Every Apart) (highwatermark : Bytes) :
    checkpointContract.Spec (Under highwatermark) p fun _ => Under highwatermark := by
  apply Contract.Spec.every (stable_under highwatermark)
  refine hp.mono fun op hop s reply _ h _ => ?_
  have hclean := clean_quiet hop.1.quiet reply h.clean
  exact ⟨.inl hclean,
    under_exec hop.1.quiet.1 hop.2 (fun t => (hop.1.sameData t).mark) h hclean⟩

theorem under_got {p : Worker α} {highwatermark : Bytes}
    (hp : checkpointContract.Spec (Under highwatermark) p fun _ => Under highwatermark)
    (hlisted : p.Every Op.Listed) (changed : ChangedDates) :
    checkpointContract.Spec (fun s => Under highwatermark s ∧ Got changed s) p
      fun _ s => Under highwatermark s ∧ Got changed s :=
  (hp.pre fun _ _ h => h).frame (stable_got changed) (hlisted.mono fun _ hop => got_exec hop)

theorem apart_got {p : Worker α} (hp : p.Every Apart) (highwatermark : Bytes)
    (changed : ChangedDates) :
    checkpointContract.Spec (fun s => Under highwatermark s ∧ Got changed s) p
      fun _ s => Under highwatermark s ∧ Got changed s :=
  under_got (apart_under hp highwatermark) (hp.mono fun _ hop => hop.1.storing.listed) changed

theorem apart_justGot {p : Worker α} (hp : p.Every Apart) (highwatermark : Bytes)
    (changed : ChangedDates) :
    checkpointContract.Spec (fun s => Under highwatermark s ∧ JustGot changed s) p
      fun _ s => Under highwatermark s ∧ JustGot changed s :=
  (apart_under hp highwatermark).frame (stable_justGot changed)
    (hp.mono fun _ hop => justGot_exec hop.1)

theorem perform_apart (op : Op) (h : op.Routine) (hread : op ≠ .getChangedDatesHighwatermark) :
    (perform op).Every Apart := ⟨⟨h, hread⟩, fun _ => trivial⟩

theorem failPass_apart (status : SyncStatus) (message : Wide) (lastError : Option Bytes)
    (exit : Exit) : (failPass status message lastError exit).Every Apart :=
  failPass_every ⟨trivial, nofun⟩ (fun _ => ⟨trivial, nofun⟩) ⟨trivial, nofun⟩ exit

theorem readCursor_apart (initial : Bool) : (readCursor initial).Every Apart :=
  readCursor_every ⟨trivial, nofun⟩ initial

theorem snapshotBefore_apart (compare : Bool) : (snapshotBefore compare).Every Apart :=
  snapshotBefore_every ⟨trivial, nofun⟩ compare

/-! ### The two writes -/

theorem exec_write_fails {reply : Reply} (hfails : UpdateFails reply)
    (update : Database.SyncStateWrite) (w : World) :
    (World.exec (.write update) reply w).2.db = w.db := by
  show (Database.writeSyncState reply.faults update w.db).2 = w.db
  rw [Database.writeSyncState_eq]
  unfold Database.setSyncState
  split
  · rename_i hready
    have hupdate : reply.faults .update ≠ .done := fun h => hfails ⟨hready.2, h⟩
    simp [Connection.exec, Statement.effect, hupdate]
  · rfl

theorem clean_write_fails {reply : Reply} (hfails : UpdateFails reply)
    (update : Database.SyncStateWrite) {s : Record} (h : Clean s) :
    Clean (service.traced.exec (.write update) reply s).2 := by
  show (World.exec _ reply s.state).2.db.conn.Both _
  rw [exec_write_fails hfails]
  exact h

theorem exec_write_done {reply : Reply} (hdone : ¬UpdateFails reply)
    (update : Database.SyncStateWrite) {w : World} (hopen : w.db.isOpen = true) :
    World.exec (.write update) reply w = (true, { w with
      db := { w.db with conn := w.db.conn.write (w.db.conn.visible.written update) } }) := by
  obtain ⟨hprepare, hupdate⟩ := not_not.mp hdone
  show World.onDatabase (Database.writeSyncState reply.faults update) w = _
  unfold World.onDatabase
  rw [Database.writeSyncState_eq, Database.setSyncState, if_pos ⟨hopen, hprepare⟩]
  simp only [Connection.exec, Statement.effect, if_pos hupdate]
  rfl

/-- A backfill stores its mark beside the cursor, unless that fails. -/
theorem backfill_writes_mark {changed : ChangedDates} (hdates : changed.dates ≠ []) {s : Record}
    (hunder : Under (ascii "0") s) (hgot : Got changed s) (highwatermark : Bytes) (reply : Reply) :
    checkpointContract.inv
      (service.traced.exec (.write (.changedDatesHighwatermark highwatermark)) reply s).2 := by
  have hclean := hunder.clean
  by_cases hfails : UpdateFails reply
  · exact .inl (clean_write_fails hfails _ hclean)
  · by_cases hzero : highwatermark = ascii "0"
    · exact .inl (clean_exec _ reply hclean fun hne => absurd hzero hne)
    · cases hopen : s.state.db.isOpen with
      | false =>
        left
        have hclosed := World.exec_closed (.write (.changedDatesHighwatermark highwatermark)) reply
          s.state nofun hopen
        show (World.exec _ reply s.state).2.db.conn.Both _
        rw [hclosed]
        exact hclean
      | true =>
        obtain ⟨stored, hread⟩ := hunder.read
        obtain ⟨cursor, hlist⟩ := hgot
        have hexec := exec_write_done hfails (.changedDatesHighwatermark highwatermark) hopen
        refine .inr ⟨⟨?_, ⟨_, hread, rfl⟩, ⟨_, hlist, hdates⟩⟩, ?_, ?_⟩
        · show some ((World.exec (.write (.changedDatesHighwatermark highwatermark)) reply
            s.state).1 && decide (highwatermark ≠ ascii "0")) = some true
          rw [hexec]
          simp [hzero]
        · show (World.exec _ reply s.state).2.db.isOpen = true
          rw [hexec]
          exact hopen
        · show (World.exec _ reply s.state).2.db.conn.tx ≠ none →
            CursorOnlyInBackfill (World.exec _ reply s.state).2.db.conn.committed
          rw [hexec]
          unfold Connection.write
          dsimp only
          split
          · exact fun _ => hclean.1
          · rename_i htx
            exact fun hopen => absurd htx hopen

theorem window_clears {s : Record} (h : Window s) {reply : Reply} (hdone : ¬UpdateFails reply) :
    Clean (service.traced.exec (.write (.backfillCursor [])) reply s).2 := by
  show (World.exec (.write (.backfillCursor [])) reply s.state).2.db.conn.Both _
  rw [exec_write_done hdone _ h.isOpen]
  exact Connection.write_both h.committed fun _ => rfl

/-- A list without dates leaves the cursor, so its mark may be stored only where there is none. -/
theorem advanceMark_unchanged {changed : ChangedDates} (hempty : changed.dates = []) :
    checkpointContract.Spec (fun s => Clean s ∧ JustGot changed s)
      (advanceMark changed.resultHighwatermark) fun _ => Clean := by
  have hstable := stable_clean.and (stable_justGot changed)
  unfold advanceMark write
  split
  · exact Contract.Spec.ret hstable fun _ _ h => h.1
  · refine Contract.Spec.call hstable (R := fun _ => Clean) ?_ fun _ =>
      Contract.Spec.done stable_clean
    rintro s reply _ ⟨hclean, hgot⟩ hrules
    suffices h : Clean _ from ⟨.inl h, h⟩
    by_cases hcursor : s.state.db.conn.visible.syncState.backfillCursor = none
    · exact clean_exec _ reply hclean fun _ => hcursor
    · rcases hrules ⟨_, hgot, hempty, hcursor⟩ with hzero | hfails
      · exact clean_exec _ reply hclean fun hne => absurd hzero hne
      · exact clean_write_fails hfails _ hclean

/-- An incremental pass finds no cursor, and a backfill has yet to clear its own. -/
theorem advanceMark_stored {highwatermark : Bytes} {changed : ChangedDates}
    (hdates : changed.dates ≠ []) :
    checkpointContract.Spec (fun s => Under highwatermark s ∧ Got changed s)
      (advanceMark changed.resultHighwatermark)
      fun _ s => highwatermark = ascii "0" ∨ Clean s := by
  have hstable := (stable_under highwatermark).and (stable_got changed)
  have hafter : checkpointContract.Stable fun s => highwatermark = ascii "0" ∨ Clean s :=
    (Contract.stable_const _).or stable_clean
  unfold advanceMark write
  split
  · exact Contract.Spec.ret hstable fun _ _ h => .inr h.1.clean
  · refine Contract.Spec.call hstable (R := fun _ s => highwatermark = ascii "0" ∨ Clean s) ?_
      fun _ => Contract.Spec.done hafter
    rintro s reply _ ⟨hunder, hgot⟩ _
    by_cases hzero : highwatermark = ascii "0"
    · exact ⟨backfill_writes_mark hdates (hzero ▸ hunder) hgot _ reply, .inl hzero⟩
    · have hmark := hunder.stored (.inl hzero)
      have hcursor := hunder.clean.2 fun h => hzero (hmark.symm.trans h)
      have hclean := clean_exec (.write (.changedDatesHighwatermark
        changed.resultHighwatermark)) reply hunder.clean fun _ => hcursor
      exact ⟨.inl hclean, .inr hclean⟩

theorem checkpoint_spec {highwatermark : Bytes} {initial : Bool}
    (hinitial : initial = true → highwatermark = ascii "0") (date : Bytes) :
    checkpointContract.Spec (Under highwatermark) (checkpoint initial date)
      fun _ => Under highwatermark := by
  cases initial with
  | false => exact Contract.Spec.done (stable_under _)
  | true =>
    refine Contract.Spec.call (stable_under _) (R := fun _ => Under highwatermark) ?_ fun _ =>
      Contract.Spec.done (stable_under _)
    intro s reply _ h hrules
    have hwrite : Op.write (.backfillCursor date) ≠ .openDatabase := nofun
    suffices hclean : Clean _ from
      ⟨.inl hclean, under_exec hwrite nofun (fun _ => rfl) h hclean⟩
    rcases hrules.1 with rfl | hfails | hread
    · exact clean_exec _ reply h.clean fun _ => rfl
    · exact clean_write_fails hfails _ h.clean
    · have hzero := (h.stored (.inr hread)).trans (hinitial rfl)
      exact clean_exec _ reply h.clean fun hne => absurd hzero hne

/-- The end of the one stretch of a pass in which the cursor may be beside the mark. -/
theorem clearCursor_spec {highwatermark : Bytes} (hnonempty : highwatermark ≠ []) :
    checkpointContract.Spec (fun s => highwatermark = ascii "0" ∨ Clean s)
      (checkpoint (decide (highwatermark = ascii "0") || highwatermark.isEmpty) [])
      fun _ => Clean := by
  by_cases hzero : highwatermark = ascii "0"
  · have hinitial : (decide (highwatermark = ascii "0") || highwatermark.isEmpty) = true := by
      simp [hzero]
    rw [hinitial]
    refine (Contract.Spec.call (Contract.stable_const True) (R := fun _ => Clean) ?_ fun _ =>
      Contract.Spec.done stable_clean).pre fun _ _ _ => trivial
    intro s reply hinv _ hrules
    suffices hclean : Clean _ from ⟨.inl hclean, hclean⟩
    rcases hinv with hclean | hwindow
    · exact clean_exec _ reply hclean fun _ => rfl
    · exact window_clears hwindow (hrules.2 hwindow.completing)
  · have hinitial : (decide (highwatermark = ascii "0") || highwatermark.isEmpty) = false := by
      simp [hzero, hnonempty]
    rw [hinitial]
    exact (Contract.Spec.done stable_clean).pre fun _ _ h => h.resolve_left hzero

/-! ### The pass -/

theorem syncDates_spec {highwatermark : Bytes} {initial : Bool}
    (hinitial : initial = true → highwatermark = ascii "0") (key now : Bytes)
    (todo : List Bytes) :
    checkpointContract.Spec (Under highwatermark) (syncDates key now initial todo)
      fun _ => Under highwatermark := by
  have hfail : ∀ status message lastError exit, checkpointContract.Spec (Under highwatermark)
      (failPass status message lastError exit >>= fun exit => pure (some exit))
      fun _ => Under highwatermark := fun status message lastError exit =>
    (apart_under (failPass_apart status message lastError exit) highwatermark).bind fun _ =>
      Contract.Spec.done (stable_under _)
  induction todo with
  | nil => exact Contract.Spec.done (stable_under _)
  | cons date rest ih =>
    refine Contract.Spec.call (stable_under _) (R := fun _ => Under highwatermark) ?_ ?_
    · intro s reply _ h _
      have hfetch : Op.getAllDetailedSalesForDate key date ≠ .openDatabase := nofun
      have hclean := clean_quiet ⟨hfetch, fun _ => .refl _⟩ reply h.clean
      exact ⟨.inl hclean, under_exec hfetch nofun (fun _ => rfl) h hclean⟩
    · rintro ⟨pr, records⟩
      show checkpointContract.Spec _ (if pr.ok then _ else _) _
      split
      · refine Contract.Spec.call (stable_under _) (R := fun _ => Under highwatermark) ?_ ?_
        · intro s reply _ h _
          have hreplace : Op.replaceDate date (aggregateDate records) now ≠ .openDatabase := nofun
          have hsync : ∀ t, ((Op.replaceDate date (aggregateDate records) now).effect t).syncState =
              t.syncState := Tables.replaced_syncState date (aggregateDate records) now
          have hmark : ∀ t, ((Op.replaceDate date (aggregateDate records) now).effect
              t).syncState.changedDatesHighwatermark = t.syncState.changedDatesHighwatermark :=
            fun t => by rw [hsync]
          have hclean : Clean _ := clean_exec _ reply h.clean
            (sameState (hmark _) (by rw [hsync]) h.clean.2)
          exact ⟨.inl hclean, under_exec hreplace nofun hmark h hclean⟩
        · intro saved
          cases saved with
          | true =>
            refine (checkpoint_spec hinitial date).bind fun _ => ?_
            refine (apart_under (perform_apart (.updateStatus .dateDone) (by trivial) nofun) _).bind
              fun _ => ?_
            exact (apart_under (perform_apart (.post .syncProgress) (by trivial) nofun) _).bind
              fun _ => ih
          | false =>
            exact hfail .databaseError (wide "Failed to save sales data.")
              (some (ascii "database write failed")) .replaceFailed
      · exact hfail _ _ _ _

theorem finishStored_spec {highwatermark : Bytes} (hnonempty : highwatermark ≠ [])
    {changed : ChangedDates} (hdates : changed.dates ≠ []) (now : Bytes) (notifyEnabled : Bool)
    (before : Snapshot) :
    checkpointContract.Spec (fun s => Under highwatermark s ∧ Got changed s)
      (finishStored now (decide (highwatermark = ascii "0") || highwatermark.isEmpty) notifyEnabled
        changed.resultHighwatermark before) fun _ => Clean := by
  have hpublish : ∀ notification exit, (publish notification >>= fun _ => pure exit :
      Worker Exit).Every Op.Quiet := fun _ _ => (publish_quiet _).bind fun _ => trivial
  unfold finishStored
  refine (advanceMark_stored hdates).bind fun _ => ?_
  refine (clearCursor_spec hnonempty).bind fun _ => ?_
  refine (routine_clean (write_routine (by trivial))).bind fun _ => ?_
  refine (routine_clean (write_routine (by trivial))).bind fun _ => ?_
  show checkpointContract.Spec _ (if _ then _ else _) _
  split
  · refine (routine_clean (notificationAfter_routine before)).bind fun ⟨after, notification⟩ => ?_
    exact quiet_clean (hpublish _ _)
  · exact quiet_clean (hpublish _ _)

theorem finishUnchanged_spec {changed : ChangedDates} (hempty : changed.dates = []) :
    checkpointContract.Spec (fun s => Clean s ∧ JustGot changed s)
      (finishUnchanged changed.resultHighwatermark) fun _ => Clean := by
  refine (advanceMark_unchanged hempty).bind fun _ => ?_
  refine (routine_clean (write_routine (by trivial))).bind fun _ => ?_
  refine (routine_clean (updateStatus_routine (by trivial))).bind fun _ => ?_
  exact (quiet_clean (post_quiet _)).bind fun _ => Contract.Spec.done stable_clean

theorem syncChanged_spec {highwatermark : Bytes} (hnonempty : highwatermark ≠ [])
    {changed : ChangedDates} (hdates : changed.dates ≠ []) (key now : Bytes)
    (notifyEnabled : Bool) :
    checkpointContract.Spec (fun s => Under highwatermark s ∧ Got changed s)
      (syncChanged key now (decide (highwatermark = ascii "0") || highwatermark.isEmpty)
        notifyEnabled changed) fun _ => Clean := by
  have hinitial : (decide (highwatermark = ascii "0") || highwatermark.isEmpty) = true →
      highwatermark = ascii "0" := fun h => by simpa [hnonempty] using h
  unfold syncChanged
  refine (apart_got (readCursor_apart _) _ _).bind fun cursor => ?_
  refine (apart_got (perform_apart (.updateStatus _) (by trivial) nofun) _ _).bind fun _ => ?_
  refine (apart_got (perform_apart (.post .syncProgress) (by trivial) nofun) _ _).bind fun _ => ?_
  refine (apart_got (snapshotBefore_apart _) _ _).bind fun before => ?_
  have hlisted := (syncDates_storing key now
    (decide (highwatermark = ascii "0") || highwatermark.isEmpty)
    (datesToProcess (decide (highwatermark = ascii "0") || highwatermark.isEmpty) cursor
      changed.dates)).mono fun _ h => h.listed
  refine (under_got (syncDates_spec hinitial key now _) hlisted changed).bind fun failed => ?_
  cases failed with
  | some exit =>
    exact Contract.Spec.ret ((stable_under _).and (stable_got _)) fun _ _ h => h.1.clean
  | none => exact finishStored_spec hnonempty hdates now notifyEnabled before

theorem readMark_spec :
    checkpointContract.Spec Clean (perform .getChangedDatesHighwatermark) Under := by
  refine Contract.Spec.perform stable_clean stable_under fun s reply _ h _ => ?_
  have hop : Op.getChangedDatesHighwatermark.Routine := trivial
  have hclean := clean_quiet hop.quiet reply h
  refine ⟨.inl hclean, hclean, ?_, ⟨_, rfl⟩, ?_⟩
  · show s.state.db.getChangedDatesHighwatermark reply.readLimit ≠ []
    unfold Database.getChangedDatesHighwatermark
    dsimp only
    split
    · decide
    · rename_i hne
      exact fun hnil => hne (by rw [hnil]; rfl)
  · rintro (hnonzero | hread)
    · exact (Database.getChangedDatesHighwatermark_ne hnonzero).symm
    · exact (hread _ rfl).symm

theorem syncWithKey_spec (key : Bytes) :
    checkpointContract.Spec Clean (syncWithKey key) fun _ => Clean := by
  unfold syncWithKey
  refine readMark_spec.bind fun highwatermark => ?_
  have hnotify := perform_apart .getNotifyOnNewUnits (by trivial) nofun
  refine (apart_under hnotify _).bind fun notifyEnabled => ?_
  refine Contract.Spec.call (stable_under _)
    (R := fun answer s => Under highwatermark s ∧ JustGot answer.2 s) ?_ ?_
  · intro s reply _ h _
    have hlist : Op.getChangedDates key highwatermark ≠ .openDatabase := nofun
    have hclean := clean_quiet ⟨hlist, fun _ => .refl _⟩ reply h.clean
    exact ⟨.inl hclean, under_exec hlist nofun (fun _ => rfl) h hclean, rfl⟩
  · rintro ⟨r, changed⟩
    show checkpointContract.Spec _ (if r.ok = true then _ else _) _
    split
    · have hnow := perform_apart .utcNowIso8601 (by trivial) nofun
      refine (apart_justGot hnow _ _).bind fun now => ?_
      have hcheck := perform_apart (.write (.lastSuccessfulCheckUtc now)) (by trivial) nofun
      have hwrite : (write (.lastSuccessfulCheckUtc now)).Every Apart :=
        hcheck.bind fun _ => trivial
      refine (apart_justGot hwrite _ _).bind fun _ => ?_
      intro s hinv ⟨hunder, hgot⟩
      show checkpointContract.Safe _ (if _ then _ else _) s
      split
      · rename_i hempty
        exact finishUnchanged_spec (List.isEmpty_iff.mp hempty) s hinv ⟨hunder.clean, hgot⟩
      · rename_i hdates
        exact syncChanged_spec hunder.nonempty (fun h => hdates (List.isEmpty_iff.mpr h)) key now
          notifyEnabled s hinv ⟨hunder, hgot.got⟩
    · exact (apart_under (failPass_apart _ _ _ _) _).mono (fun _ _ h => h.1) fun _ _ h => h.clean

theorem keeps {p : Worker α}
    (hp : p.Every fun op => ∀ t, CursorOnlyInBackfill t → CursorOnlyInBackfill (op.effect t)) :
    checkpointContract.Spec Clean p fun _ => Clean := by
  apply Contract.Spec.every stable_clean
  exact hp.mono fun op h s reply _ hs _ =>
    ⟨.inl (clean_exec op reply hs (h _ hs.2)), clean_exec op reply hs (h _ hs.2)⟩

theorem ensureOpen_spec : checkpointContract.Spec Clean ensureOpen fun _ => Clean :=
  keeps (ensureOpen_every (fun _ h => h) fun _ h => h)

theorem clearIfRequested_spec : checkpointContract.Spec Clean clearIfRequested fun _ => Clean :=
  keeps (clearIfRequested_every (fun _ h => h) fun _ _ hne => absurd rfl hne)

theorem pass_spec : checkpointContract.Spec Clean runSynchronization fun _ => Clean :=
  runSynchronization_spec (quiet_clean (post_quiet .syncStarted))
    (routine_clean (updateStatus_routine (by trivial))) ensureOpen_spec
    (routine_clean (failPass_routine _ _ _ _)) clearIfRequested_spec (routine_clean loadKey_routine)
    (routine_clean (failPass_routine _ _ _ _)) syncWithKey_spec

/-- Where a run is admitted, the cursor is beside the mark only in the window of a backfill. -/
theorem good {w : World} (hw : w.db.conn = ⟨.fresh, none⟩) {es : List (Event Reply Move)}
    (hes : checkpointRules.Admitted service.traced runSynchronization ⟨⟨w, []⟩, none⟩ es) :
    checkpointContract.Good Clean (fun (_ : Exit) => Clean)
      (service.traced.run runSynchronization ⟨⟨w, []⟩, none⟩ es) := by
  have hstart : Clean ⟨w, []⟩ := by
    show w.db.conn.Both _
    rw [hw]
    exact ⟨fun _ => rfl, fun _ => rfl⟩
  refine Contract.sound (K := checkpointContract) stable_clean (fun s hkill hinv => ?_)
    (fun _ _ _ h => h) pass_spec (fun _ _ _ h => h) (Contract.Good.between (.inl hstart) hstart) hes
  rcases hinv with hclean | hwindow
  · exact ⟨.inl hclean.drop, hclean.drop⟩
  · exact absurd hwindow.completing hkill

end CheckpointRuns

/-- From a new database no cursor is stored beside a mark other than 0, between two passes and
within them, but for the moment between the two writes that end a backfill; in any run in which no
list without dates comes while a cursor is stored, nothing kills or fails the clearing of the cursor
at the end of a backfill, and no pass stores a date as the cursor without having got the stored
mark. -/
theorem cursor_only_in_backfill {w : World} (hw : w.db.conn = ⟨.fresh, none⟩)
    {es : List (Event Reply Move)}
    (hes : checkpointRules.Admitted service.traced runSynchronization ⟨⟨w, []⟩, none⟩ es)
    (hmoment : (service.run runSynchronization ⟨w, none⟩ es).Idle ∨
      ¬Completing (w.recordAfter es).past) :
    (w.after es).db.conn.Both CursorOnlyInBackfill := by
  have hgood := CheckpointRuns.good hw hes
  rw [← World.recordAfter_state]
  rcases hmoment with hidle | hmoment
  · refine hgood.of_idle ?_ fun _ _ _ h => h
    have hcurrent := congrArg Config.current
      (Machine.forget_run service runSynchronization ⟨⟨w, []⟩, none⟩ es)
    unfold Config.Idle at hidle ⊢
    exact hcurrent ▸ hidle
  · exact hgood.inv.resolve_right fun hwindow => hmoment hwindow.completing

instance (past : List Happened) : Decidable (ReadStoredMark past) :=
  inferInstanceAs (Decidable (∀ _ ∈ _, _ = _))

instance (past : List Happened) : Decidable (ListedNothing past) :=
  inferInstanceAs (Decidable (∃ _ ∈ _, _ ∧ _))

instance (past : List Happened) : Decidable (Completing past) :=
  inferInstanceAs (Decidable (_ ∧ (∃ _ ∈ _, _) ∧ ∃ _ ∈ _, _))

instance (reply : Reply) : Decidable (UpdateFails reply) := inferInstanceAs (Decidable (¬_))

instance : DecidablePred checkpointRules.start := fun _ => .isTrue trivial

instance (op : Op) (reply : Reply) (s : Record) : Decidable (checkpointRules.call op reply s) :=
  match op with
  | .write (.changedDatesHighwatermark _) => inferInstanceAs (Decidable (_ → _ ∨ _))
  | .write (.backfillCursor _) => inferInstanceAs (Decidable ((_ ∨ _ ∨ _) ∧ (_ → _)))
  | .write (.lastSuccessfulCheckUtc _) | .write (.lastSuccessfulSyncUtc _) | .write (.lastError _)
  | .post _ | .updateStatus _ | .isOpen | .openDatabase | .takeClearRequest | .clearAllSales
  | .hasStoredKey | .loadKey | .getChangedDatesHighwatermark | .getNotifyOnNewUnits
  | .getChangedDates _ _ | .utcNowIso8601 | .getBackfillCursor | .queryLifetime | .iterate _
  | .getAllDetailedSalesForDate _ _ | .replaceDate _ _ _ | .steamToday | .sumForDate _ =>
    .isTrue trivial

instance (move : Move) (s : Record) : Decidable (checkpointRules.act move s) := .isTrue trivial

instance : DecidablePred checkpointRules.kill := fun s =>
  inferInstanceAs (Decidable (¬Completing s.past))

/-- A backfill stops after its first date, the next pass completes it, the cache is cleared and
found up to date, and a later pass stores a date that has changed. -/
def completedBackfill : List (Event Reply Move) :=
  open Sample in
  .start :: calls 19 (reply [july18, july17] 2 [sale 1]) ++
    calls 5 (offline (reply [july18, july17] 2 [])) ++ [.kill, .start] ++
    calls 27 (reply [july18, july17] 2 [sale 2]) ++ [.act .requestClearCache, .start] ++
    calls 16 (reply [] 2 []) ++ [.start] ++ calls 28 (reply [july18] 3 [sale 2])

theorem cursor_only_in_backfill_completed :
    (Sample.world.after completedBackfill).db.conn.committed.syncState.changedDatesHighwatermark =
        ascii "3" ∧
      (Sample.world.after completedBackfill).db.conn.Both CursorOnlyInBackfill :=
  ⟨by decide +kernel, cursor_only_in_backfill rfl (by decide +kernel) (.inl (by decide +kernel))⟩

/-- A backfill stops after its first date, and the next answer lists no dates. -/
def unchangedBackfill : List (Event Reply Move) :=
  open Sample in
  .start :: calls 19 (reply [july18, july17] 2 [sale 1]) ++
    calls 5 (offline (reply [july18, july17] 2 [])) ++ [.start] ++ calls 15 (reply [] 2 [])

/-- The mark is stored and the cursor stays. -/
theorem cursor_beside_mark :
    ¬∀ (w : World) (es : List (Event Reply Move)), w.db.conn = ⟨.fresh, none⟩ →
      (service.run runSynchronization ⟨w, none⟩ es).Idle →
      (w.after es).db.conn.Both CursorOnlyInBackfill := fun h =>
  absurd (h Sample.world unchangedBackfill rfl (by decide +kernel)).1 (by decide +kernel)

end SteamSalesTray.Sync
