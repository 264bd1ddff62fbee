import SteamSalesTray.Sync.Backfill

/-! Backfills of a server that does not change, interrupted anywhere: the cursor marks a finished
prefix, no later pass fetches a date up to a cursor that was stored, and the end does not depend on
the interruptions. -/

namespace SteamSalesTray.Sync

open Interaction Transaction Storage Steam

/-! ### The record of a backfill -/

def HasCursor (w : World) (cursor : Bytes) : Prop :=
  w.db.conn.committed.syncState.backfillCursor = some cursor ∨
    w.db.conn.visible.syncState.backfillCursor = some cursor

/-- What had happened when the latest pass began. -/
def beforePass : List Happened → List Happened
  | [] => []
  | .call (.post .syncStarted) _ _ :: rest => rest
  | _ :: rest => beforePass rest

/-- The dates are above every cursor that was stored before the latest pass began. -/
def AboveCursors (past : List Happened) (dates : List Bytes) : Prop :=
  ∀ e ∈ beforePass past, ∀ cursor, HasCursor e.after cursor → ∀ d ∈ dates, cursor < d

/-- Every date that was ever fetched was above every cursor stored before that pass began. -/
def NoRefetch : List Happened → Prop
  | [] => True
  | .call (.getAllDetailedSalesForDate _ date) _ _ :: rest =>
    AboveCursors rest [date] ∧ NoRefetch rest
  | _ :: rest => NoRefetch rest

def MarkWriteDone (reply : Reply) : Op → Prop
  | .write (.changedDatesHighwatermark _) =>
    reply.faults .prepareUpdate = .done ∧ reply.faults .update = .done
  | _ => True

/-- Initial passes on a server that does not change, without clear requests. -/
def backfillRules : Rules Op Record Reply Move where
  start s := s.state.db.conn.visible.syncState.changedDatesHighwatermark = ascii "0"
  call op reply s := reply.readLimit = none ∧ Honest reply s.state op ∧ MarkWriteDone reply op
  act move _ := (∀ gap date records, move ≠ .serverChange gap date records) ∧
    move ≠ .requestClearCache
  kill _ := True

/-! ### The invariant -/

/-- The mark is stored, or a cursor at least as far as this one. -/
def Reached (cursor : Bytes) (t : Tables) : Prop :=
  t.syncState.changedDatesHighwatermark ≠ ascii "0" ∨
    ∃ cursor', t.syncState.backfillCursor = some cursor' ∧ cursor ≤ cursor'

/-- An open transaction has the cursor of the committed tables, or has stored the mark. -/
structure TxAgrees (c : Connection Tables) : Prop where
  unmarked : c.visible.syncState.changedDatesHighwatermark = ascii "0" →
    c.committed.syncState.changedDatesHighwatermark = ascii "0" ∧
      c.committed.syncState.backfillCursor = c.visible.syncState.backfillCursor
  cursor : ∀ cursor, c.visible.syncState.backfillCursor = some cursor →
    c.committed.syncState.backfillCursor = some cursor

theorem txAgrees_none (t : Tables) : TxAgrees ⟨t, none⟩ := ⟨fun h => ⟨h, rfl⟩, fun _ h => h⟩

structure BackfillInvariant (log : ChangeLog) (s : Record) : Prop where
  server : s.state.server = log
  noClear : s.state.clearCacheRequested = false
  sound : s.state.db.conn.Both (BackfillSound log)
  agrees : TxAgrees s.state.db.conn
  grown : ∀ e ∈ s.past, ∀ cursor, HasCursor e.after cursor →
    Reached cursor s.state.db.conn.committed
  noRefetch : NoRefetch s.past

/-- How a connection may move on, given the tables that the step makes. -/
inductive Moved (c : Connection Tables) (t : Tables) : Connection Tables → Prop where
  | stays : Moved c t c
  | drops : Moved c t c.drop
  | inTransaction (h : TxAgrees ⟨c.committed, some t⟩) : Moved c t ⟨c.committed, some t⟩
  | atOnce (h : ∀ cursor, Reached cursor c.committed → Reached cursor t) : Moved c t ⟨t, none⟩

section Moved

variable {c c' : Connection Tables} {t : Tables} (h : Moved c t c')
include h

theorem Moved.both {P : Tables → Prop} (hc : c.Both P) (ht : P t) : c'.Both P := by
  cases h with
  | stays => exact hc
  | drops => exact hc.drop
  | inTransaction _ => exact ⟨hc.1, ht⟩
  | atOnce _ => exact ⟨ht, ht⟩

theorem Moved.agrees (hc : TxAgrees c) : TxAgrees c' := by
  cases h with
  | stays => exact hc
  | drops => exact txAgrees_none _
  | inTransaction hagrees => exact hagrees
  | atOnce _ => exact txAgrees_none _

theorem Moved.reached {cursor : Bytes} (hc : Reached cursor c.committed) :
    Reached cursor c'.committed := by
  cases h with
  | stays => exact hc
  | drops => exact hc
  | inTransaction _ => exact hc
  | atOnce hreached => exact hreached cursor hc

end Moved

theorem reached_of_hasCursor {w : World} (h : TxAgrees w.db.conn) {cursor : Bytes}
    (hcursor : HasCursor w cursor) : Reached cursor w.db.conn.committed :=
  .inr ⟨cursor, hcursor.elim id (h.cursor cursor), le_refl cursor⟩

theorem BackfillInvariant.step {log : ChangeLog} {s : Record} (h : BackfillInvariant log s)
    {w : World} {e : Happened} {t : Tables} (he : e.after = w) (hserver : w.server = s.state.server)
    (hclear : w.clearCacheRequested = false) (hmoved : Moved s.state.db.conn t w.db.conn)
    (ht : BackfillSound log t) (hfetch : NoRefetch (e :: s.past)) :
    BackfillInvariant log ⟨w, e :: s.past⟩ where
  server := hserver.trans h.server
  noClear := hclear
  sound := hmoved.both h.sound ht
  agrees := hmoved.agrees h.agrees
  grown e' he' cursor hcursor := by
    rcases List.mem_cons.mp he' with rfl | hold
    · rw [he] at hcursor
      exact reached_of_hasCursor (hmoved.agrees h.agrees) hcursor
    · exact hmoved.reached (h.grown e' hold cursor hcursor)
  noRefetch := hfetch

theorem txAgrees_same {c : Connection Tables} {t : Tables} (h : TxAgrees c)
    (hmark : t.syncState.changedDatesHighwatermark = c.visible.syncState.changedDatesHighwatermark)
    (hcursor : t.syncState.backfillCursor = c.visible.syncState.backfillCursor) :
    TxAgrees ⟨c.committed, some t⟩ where
  unmarked hzero := by
    rw [Connection.visible_some] at hzero ⊢
    rw [hcursor]
    exact h.unmarked (hmark.symm.trans hzero)
  cursor cursor hcur := h.cursor cursor (hcursor.symm.trans hcur)

/-- A call moves the connection to its effect, if that agrees with the committed tables and does not
fall behind them. -/
theorem moved_exec {op : Op} (hop : op ≠ .openDatabase) (reply : Reply) {w : World}
    (hagrees : TxAgrees ⟨w.db.conn.committed, some (op.effect w.db.conn.visible)⟩)
    (hreached : w.db.conn.tx = none → ∀ cursor, Reached cursor w.db.conn.committed →
      Reached cursor (op.effect w.db.conn.visible)) :
    Moved w.db.conn (op.effect w.db.conn.visible) (World.exec op reply w).2.db.conn := by
  rcases World.exec_conn op reply w with hconn | ⟨hopen, _⟩ | ⟨_, _, hbecomes⟩
  · exact hconn ▸ .stays
  · exact absurd hopen hop
  · generalize (World.exec op reply w).2.db.conn = c' at hbecomes ⊢
    cases hbecomes with
    | inTransaction => exact .inTransaction hagrees
    | atOnce htx => exact .atOnce (hreached htx)

theorem moved_same {op : Op} (hop : op ≠ .openDatabase) (reply : Reply) {w : World}
    (h : TxAgrees w.db.conn)
    (hmark : (op.effect w.db.conn.visible).syncState.changedDatesHighwatermark =
      w.db.conn.visible.syncState.changedDatesHighwatermark)
    (hcursor : (op.effect w.db.conn.visible).syncState.backfillCursor =
      w.db.conn.visible.syncState.backfillCursor) :
    Moved w.db.conn (op.effect w.db.conn.visible) (World.exec op reply w).2.db.conn := by
  refine moved_exec hop reply (txAgrees_same h hmark hcursor) fun htx cursor hreached => ?_
  have hvisible := Connection.visible_of_closed htx
  unfold Reached at *
  rw [hmark, hcursor, hvisible]
  exact hreached

def backfillContract (log : ChangeLog) : Contract Op Op.Answer Record Reply Move where
  machine := service.traced
  rules := backfillRules
  inv := BackfillInvariant log
  inv_act := by
    rintro move s ⟨hserver, hclear⟩ h
    refine h.step (t := s.state.db.conn.visible) rfl (World.act_server_same _ hserver)
      ((World.act_clearCacheRequested _ hclear).trans h.noClear) ?_ h.sound.2 h.noRefetch
    show Moved _ _ (s.state.act move).db.conn
    rw [World.act_db]
    exact .stays

namespace BackfillRuns

variable {log : ChangeLog} {α : Type}

/-- Calls that change nothing that the backfill rests on. -/
structure Still (op : Op) : Prop where
  quiet : op.Quiet
  keepsRequest : op ≠ .takeClearRequest
  insidePass : op ≠ .post .syncStarted
  noFetch : ∀ key date, op ≠ .getAllDetailedSalesForDate key date

theorem still_of_routine {op : Op} (h : op.Routine) : Still op := by
  refine ⟨h.quiet, ?_, ?_, ?_⟩
  · rintro rfl
    exact h
  · rintro rfl
    exact h
  · rintro key date rfl
    exact h

theorem noRefetch_call {op : Op} (h : ∀ key date, op ≠ .getAllDetailedSalesForDate key date)
    (answer : op.Answer) (w : World) (past : List Happened) :
    NoRefetch (.call op answer w :: past) = NoRefetch past := by
  cases op with
  | getAllDetailedSalesForDate key date => exact absurd rfl (h key date)
  | _ => rfl

theorem beforePass_call {op : Op} (h : op ≠ .post .syncStarted) (answer : op.Answer) (w : World)
    (past : List Happened) : beforePass (.call op answer w :: past) = beforePass past := by
  cases op with
  | post message =>
    cases message with
    | syncStarted => exact absurd rfl h
    | _ => rfl
  | _ => rfl

/-- The database is open, a property of what it shows holds, and the dates are above the cursors
stored before the pass. -/
def At (v : Tables → Prop) (dates : List Bytes) (s : Record) : Prop :=
  s.state.db.isOpen = true ∧ v s.state.db.conn.visible ∧ AboveCursors s.past dates

theorem stable_db (P : Database → Prop) :
    (backfillContract log).Stable fun s : Record => P s.state.db :=
  Contract.stable_of_kept (fun move s => World.act_db s.state move) P

theorem stable (v : Tables → Prop) (dates : List Bytes) :
    (backfillContract log).Stable (At v dates) :=
  (stable_db fun db => db.isOpen = true).and
    ((stable_db fun db => v db.conn.visible).and fun _ _ _ _ h => h)

theorem inv_quiet {op : Op} (hquiet : op.Quiet) (hkeep : op ≠ .takeClearRequest)
    (hfetch : ∀ key date, op ≠ .getAllDetailedSalesForDate key date) {reply : Reply} {s : Record}
    (h : BackfillInvariant log s) : BackfillInvariant log (service.traced.exec op reply s).2 := by
  refine h.step rfl (World.exec_server op reply s.state)
    ((World.exec_clearCacheRequested op reply s.state hkeep).trans h.noClear)
    (moved_same hquiet.1 reply h.agrees (hquiet.2 _).mark (hquiet.2 _).cursor)
    (h.sound.2.same (hquiet.2 _)) ?_
  exact (noRefetch_call hfetch _ _ _).mpr h.noRefetch

theorem inv_still {op : Op} (hop : Still op) {reply : Reply} {s : Record}
    (h : BackfillInvariant log s) : BackfillInvariant log (service.traced.exec op reply s).2 :=
  inv_quiet hop.quiet hop.keepsRequest hop.noFetch h

theorem at_still {op : Op} (hop : Still op) {reply : Reply} {s : Record} {v : Tables → Prop}
    (hv : Lasts v) {dates : List Bytes} (h : At v dates s) :
    At v dates (service.traced.exec op reply s).2 := by
  obtain ⟨hopen, hvisible, habove⟩ := h
  refine ⟨(World.exec_isOpen op reply s.state hop.quiet.1).trans hopen, ?_, ?_⟩
  · exact World.exec_lasts op reply s.state hop.quiet hv hvisible
  · show AboveCursors (.call op _ _ :: s.past) dates
    unfold AboveCursors
    rw [beforePass_call hop.insidePass]
    exact habove

theorem still {p : Worker α} (hp : p.Every Still) {v : Tables → Prop} (hv : Lasts v)
    (dates : List Bytes) : (backfillContract log).Spec (At v dates) p fun _ => At v dates := by
  apply Contract.Spec.every (stable v dates)
  exact hp.mono fun op hop s reply hinv hat _ => ⟨inv_still hop hinv, at_still hop hv hat⟩

theorem still_any {p : Worker α} (hp : p.Every Still) :
    (backfillContract log).Spec (fun _ => True) p fun _ _ => True := by
  apply Contract.Spec.every (Contract.stable_const True)
  exact hp.mono fun op hop s reply hinv _ _ => ⟨inv_still hop hinv, trivial⟩

theorem routine {p : Worker α} (hp : p.Every Op.Routine) {v : Tables → Prop} (hv : Lasts v)
    (dates : List Bytes) : (backfillContract log).Spec (At v dates) p fun _ => At v dates :=
  still (hp.mono fun _ => still_of_routine) hv dates

/-! ### The parts of a pass -/

theorem aboveCursors_call {op : Op} (hop : op ≠ .post .syncStarted) {answer : op.Answer} {w : World}
    {past : List Happened} {dates : List Bytes} (h : AboveCursors past dates) :
    AboveCursors (.call op answer w :: past) dates := by
  unfold AboveCursors
  rw [beforePass_call hop]
  exact h

theorem aboveCursors_nil (past : List Happened) : AboveCursors past [] :=
  fun _ _ _ _ _ => nofun

theorem aboveCursors_subset {past : List Happened} {dates dates' : List Bytes}
    (h : AboveCursors past dates) (hsub : ∀ d ∈ dates', d ∈ dates) : AboveCursors past dates' :=
  fun e he cursor hcursor d hd => h e he cursor hcursor d (hsub d hd)

theorem lasts_any : Lasts fun _ => True := fun _ _ _ _ => trivial

theorem lasts_prefixDone (todo : List Bytes) : Lasts (PrefixDone log todo) :=
  fun _ _ hsame h => h.same hsame

/-- The date that a pass has just stored, outside any transaction. -/
def JustSaved (log : ChangeLog) (date : Bytes) (rest : List Bytes) (s : Record) : Prop :=
  s.state.db.conn.tx = none ∧ At (Saved log date rest) rest s

theorem stable_justSaved (date : Bytes) (rest : List Bytes) :
    (backfillContract log).Stable (JustSaved log date rest) :=
  (stable_db fun db => db.conn.tx = none).and (stable _ _)

theorem fetch_spec {key date : Bytes} {rest : List Bytes} {β : Type}
    {next : FinancialResult × List DetailedSalesRecord → Worker β} {Q : β → Record → Prop}
    (hnext : ∀ answer, (backfillContract log).Spec
      (At (fun t => PrefixDone log (date :: rest) t ∧
        (answer.1.ok = true → answer.2 = log.content date)) (date :: rest)) (next answer) Q) :
    (backfillContract log).Spec (At (PrefixDone log (date :: rest)) (date :: rest))
      (perform (.getAllDetailedSalesForDate key date) >>= next) Q := by
  refine Contract.Spec.call (stable _ _) ?_ hnext
  rintro s reply hinv ⟨hopen, hfinished, habove⟩ ⟨_, hhonest, _⟩
  have hdate : ∀ d ∈ [date], d ∈ date :: rest := fun d hd => by simp [List.mem_singleton.mp hd]
  have hfetch : NoRefetch (.call (.getAllDetailedSalesForDate key date) reply.sales s.state ::
      s.past) := ⟨aboveCursors_subset habove hdate, hinv.noRefetch⟩
  refine ⟨hinv.step (t := s.state.db.conn.visible) rfl rfl hinv.noClear .stays hinv.sound.2 hfetch,
    hopen, ⟨hfinished, fun hok => ?_⟩, aboveCursors_call (by nofun) habove⟩
  rw [← hinv.server]
  exact hhonest hok

theorem replace_spec {c₀ : Change} {now : Bytes} {rest : List Bytes} {β : Type}
    (hc₀ : log.latest c₀.date = some c₀) {next : Bool → Worker β} {Q : β → Record → Prop}
    (hsaved : (backfillContract log).Spec (JustSaved log c₀.date rest) (next true) Q)
    (hfailed : (backfillContract log).Spec (At (fun _ => True) []) (next false) Q) :
    (backfillContract log).Spec (At (PrefixDone log (c₀.date :: rest)) (c₀.date :: rest))
      (perform (.replaceDate c₀.date (aggregateDate c₀.records) now) >>= next) Q := by
  refine Contract.Spec.call (stable _ _) (R := fun saved s =>
    if saved then JustSaved log c₀.date rest s else At (fun _ => True) [] s) ?_ fun saved => ?_
  · rintro s reply hinv ⟨hopen, hfinished, habove⟩ _
    have hop : Op.replaceDate c₀.date (aggregateDate c₀.records) now ≠ .openDatabase := nofun
    have hopen' := (World.exec_isOpen _ reply s.state hop).trans hopen
    refine ⟨?_, ?_⟩
    · refine hinv.step rfl rfl hinv.noClear ?_ (hinv.sound.2.replaced hc₀ now hfinished.unmarked
        fun cursor hcursor => hfinished.cursor cursor hcursor _ (by simp)) hinv.noRefetch
      refine moved_same hop reply hinv.agrees ?_ ?_
      · exact congrArg SyncState.changedDatesHighwatermark (Tables.replaced_syncState _ _ _ _)
      · exact congrArg SyncState.backfillCursor (Tables.replaced_syncState _ _ _ _)
    · split
      · rename_i hsaved
        have hconn := World.exec_replaceDate_true reply s.state hsaved
        refine ⟨congrArg Connection.tx hconn, hopen', ?_, ?_⟩
        · show Saved log c₀.date rest (World.exec _ reply s.state).2.db.conn.visible
          rw [hconn]
          exact hfinished.replaced hc₀ now
        · exact aboveCursors_call (by nofun) (aboveCursors_subset habove fun d hd => by simp [hd])
      · exact ⟨hopen', trivial, aboveCursors_nil _⟩
  · cases saved with
    | true => exact hsaved
    | false => exact hfailed

/-- The cursor moves on to the date that was stored, or stays where it was. -/
theorem checkpoint_spec (date : Bytes) (rest : List Bytes) :
    (backfillContract log).Spec (JustSaved log date rest) (checkpoint true date)
      fun _ => At (PrefixDone log rest) rest := by
  refine Contract.Spec.call (stable_justSaved date rest)
    (R := fun _ => At (PrefixDone log rest) rest) ?_ fun _ =>
      Contract.Spec.done (stable _ _)
  rintro s reply hinv ⟨htx, hopen, hsaved, habove⟩ _
  have hvisible := Connection.visible_of_closed htx
  have hop : Op.write (.backfillCursor date) ≠ .openDatabase := nofun
  have hinside : Op.write (.backfillCursor date) ≠ .post .syncStarted := nofun
  have hopen' := (World.exec_isOpen _ reply s.state hop).trans hopen
  have hreached : ∀ cursor, Reached cursor s.state.db.conn.committed →
      Reached cursor (s.state.db.conn.visible.written (.backfillCursor date)) := by
    rw [← hvisible]
    rintro cursor (hmark | ⟨cursor', hcursor', hle⟩)
    · exact absurd hsaved.before.unmarked hmark
    · right
      have hle' := hsaved.behind cursor' hcursor'
      have hne := (hinv.sound.2.cursor cursor' hcursor').1
      have hdate : date ≠ [] := by
        rintro rfl
        exact hne (eq_nil_of_le_nil hle')
      exact ⟨date, by simp [Tables.written, SyncState.written, hdate], le_trans hle hle'⟩
  have hsound := hsaved.written_sound hinv.sound.2
  -- The write may fail, and the pass goes on with the cursor behind the stored dates.
  rcases Database.writeSyncState_cases reply.faults (.backfillCursor date) s.state.db with
    hfail | ⟨_, _, hdone⟩
  · have hconn : (World.exec (.write (.backfillCursor date)) reply s.state).2.db.conn =
        s.state.db.conn := congrArg (fun r => r.2.conn) hfail
    refine ⟨hinv.step rfl rfl hinv.noClear (hconn ▸ .stays) hsound hinv.noRefetch, hopen', ?_,
      aboveCursors_call hinside habove⟩
    show PrefixDone log rest (World.exec _ reply s.state).2.db.conn.visible
    rw [hconn]
    exact hsaved.before
  · have hconn : (World.exec (.write (.backfillCursor date)) reply s.state).2.db.conn =
        ⟨s.state.db.conn.visible.written (.backfillCursor date), none⟩ := hdone htx
    refine ⟨hinv.step rfl rfl hinv.noClear (hconn ▸ .atOnce hreached) hsound hinv.noRefetch, hopen',
      ?_, aboveCursors_call hinside habove⟩
    show PrefixDone log rest (World.exec _ reply s.state).2.db.conn.visible
    rw [hconn]
    exact hsaved.written_prefix

theorem syncDates_spec (key now : Bytes) (todo : List Bytes) :
    (backfillContract log).Spec (At (PrefixDone log todo) todo) (syncDates key now true todo)
      fun failed s => failed = none → At (PrefixDone log []) [] s := by
  induction todo with
  | nil => exact Contract.Spec.ret (stable _ _) fun _ _ h _ => h
  | cons date rest ih =>
    refine fetch_spec fun ⟨pr, records⟩ => ?_
    by_cases hok : pr.ok = true
    · show (backfillContract log).Spec _ (if pr.ok = true then _ else _) _
      rw [if_pos hok]
      rintro s hinv ⟨hopen, ⟨hfinished, hrecords⟩, habove⟩
      obtain ⟨c₀, hc₀⟩ := hfinished.listed date (by simp)
      obtain rfl : records = c₀.records := (hrecords hok).trans (ChangeLog.content_of_latest hc₀)
      obtain ⟨_, rfl⟩ := ChangeLog.mem_of_latest hc₀
      refine replace_spec hc₀ ?_ ?_ s hinv ⟨hopen, hfinished, habove⟩
      · rw [if_pos rfl]
        refine (checkpoint_spec c₀.date rest).bind fun _ => ?_
        refine (routine (updateStatus_routine (by trivial)) (lasts_prefixDone rest) rest).bind
          fun _ => ?_
        refine (routine (post_routine (by trivial)) (lasts_prefixDone rest) rest).bind fun _ => ?_
        exact ih
      · rw [if_neg Bool.false_ne_true]
        refine (routine (failPass_routine _ _ _ _) lasts_any []).bind fun exit => ?_
        exact Contract.Spec.ret (stable _ _) fun _ _ _ => nofun
    · show (backfillContract log).Spec _ (if pr.ok = true then _ else _) _
      rw [if_neg hok]
      refine ((routine (failPass_routine _ _ _ _) lasts_any []).pre ?_).bind fun exit => ?_
      · exact fun s _ h => ⟨h.1, trivial, aboveCursors_nil _⟩
      · exact Contract.Spec.ret (stable _ _) fun _ _ _ => nofun

def Marked (log : ChangeLog) (t : Tables) : Prop :=
  t.syncState.changedDatesHighwatermark = decimal log.greatestId

theorem lasts_marked : Lasts (Marked log) := fun _ _ hsame h => hsame.mark.trans h

theorem advanceMark_spec :
    (backfillContract log).Spec (At (PrefixDone log []) []) (advanceMark (decimal log.greatestId))
      fun _ => At (Marked log) [] := by
  unfold advanceMark
  rw [if_neg (by simp)]
  refine Contract.Spec.call (stable _ _) (R := fun _ => At (Marked log) []) ?_ fun _ =>
    Contract.Spec.done (stable _ _)
  rintro s reply hinv ⟨hopen, hfinished, _⟩ ⟨_, _, hprepare, hupdate⟩
  have hop : Op.write (.changedDatesHighwatermark (decimal log.greatestId)) ≠ .openDatabase := nofun
  have hopen' := (World.exec_isOpen _ reply s.state hop).trans hopen
  refine ⟨hinv.step rfl rfl hinv.noClear ?_ (hfinished.written_mark hinv.sound.2) hinv.noRefetch,
    hopen', ?_, aboveCursors_nil _⟩
  · obtain ⟨hmark, hcursor⟩ := hinv.agrees.unmarked hfinished.unmarked
    refine moved_exec hop reply ⟨fun _ => ⟨hmark, hcursor⟩, hinv.agrees.cursor⟩ ?_
    rintro _ cursor (hne | ⟨cursor', hcursor', hle⟩)
    · exact absurd hmark hne
    · exact .inr ⟨cursor', hcursor.symm.trans hcursor', hle⟩
  · have hvisible : (World.exec (.write (.changedDatesHighwatermark (decimal log.greatestId))) reply
        s.state).2.db.conn.visible = _ := Database.writeSyncState_done hopen hprepare hupdate
    exact congrArg (fun t => t.syncState.changedDatesHighwatermark) hvisible

theorem clearCursor_spec (hpos : log.greatestId ≠ 0) :
    (backfillContract log).Spec (At (Marked log) []) (checkpoint true [])
      fun _ => At (fun _ => True) [] := by
  refine Contract.Spec.call (stable _ _) (R := fun _ => At (fun _ => True) []) ?_ fun _ =>
    Contract.Spec.done (stable _ _)
  rintro s reply hinv ⟨hopen, hmark, _⟩ _
  have hop : Op.write (.backfillCursor []) ≠ .openDatabase := nofun
  have hopen' := (World.exec_isOpen _ reply s.state hop).trans hopen
  have hne : (s.state.db.conn.visible.written
      (.backfillCursor [])).syncState.changedDatesHighwatermark ≠ ascii "0" :=
    fun h => hpos (decimal_eq_zero.mp (hmark.symm.trans h))
  have hsound : BackfillSound log (s.state.db.conn.visible.written (.backfillCursor [])) := by
    refine ⟨hinv.sound.2.clean.same ⟨rfl, rfl⟩, nofun, ?_⟩
    rcases hinv.sound.2.mark with hzero | ⟨hm, hall⟩
    · exact absurd hzero hne
    · exact .inr ⟨hm, fun c hc hlatest => (hall c hc hlatest).same ⟨rfl, rfl⟩⟩
  have hmoved := moved_exec hop reply (w := s.state) ⟨fun h => absurd h hne, nofun⟩
    fun _ _ _ => .inl hne
  exact ⟨hinv.step rfl rfl hinv.noClear hmoved hsound hinv.noRefetch, hopen', trivial,
    aboveCursors_nil _⟩

theorem publish_still (notification : Wide) : (publish notification).Every Still := by
  have hpost : ∀ m, m ≠ .syncStarted → Still (.post m) := by
    intro m hm
    refine ⟨⟨nofun, fun _ => .refl _⟩, nofun, ?_, nofun⟩
    intro h
    exact hm (Op.post.inj h)
  refine ⟨⟨⟨nofun, fun _ => .refl _⟩, nofun, nofun, nofun⟩, fun _ => ?_⟩
  exact ⟨hpost _ nofun, fun _ => ⟨hpost _ nofun, fun _ => trivial⟩⟩

theorem finishStored_spec (now : Bytes) (notifyEnabled : Bool) (hpos : log.greatestId ≠ 0)
    (before : Snapshot) :
    (backfillContract log).Spec (At (PrefixDone log []) [])
      (finishStored now true notifyEnabled (decimal log.greatestId) before) fun _ _ => True := by
  unfold finishStored
  refine advanceMark_spec.bind fun _ => ?_
  refine (clearCursor_spec hpos).bind fun _ => ?_
  refine (routine (write_routine (by trivial)) lasts_any []).bind fun _ => ?_
  refine (routine (write_routine (by trivial)) lasts_any []).bind fun _ => ?_
  rw [if_neg (by simp)]
  refine (still (publish_still []) lasts_any []).bind fun _ => ?_
  exact Contract.Spec.ret (stable _ _) fun _ _ _ => trivial

theorem finishUnchanged_spec :
    (backfillContract log).Spec (At (PrefixDone log []) [])
      (finishUnchanged (decimal log.greatestId)) fun _ _ => True := by
  unfold finishUnchanged
  refine advanceMark_spec.bind fun _ => ?_
  refine (routine (write_routine (by trivial)) lasts_marked []).bind fun _ => ?_
  refine (routine (updateStatus_routine (by trivial)) lasts_marked []).bind fun _ => ?_
  refine (routine (post_routine (by trivial)) lasts_marked []).bind fun _ => ?_
  exact Contract.Spec.ret (stable _ _) fun _ _ _ => trivial

def Unmarked (t : Tables) : Prop := t.syncState.changedDatesHighwatermark = ascii "0"

theorem lasts_unmarked : Lasts Unmarked := fun _ _ hsame h => hsame.mark.trans h

/-- The change list has exactly the dates of the server, and its greatest id. -/
def ListsAll (log : ChangeLog) (changed : ChangedDates) : Prop :=
  (∀ d, d ∈ changed.dates ↔ ∃ c, log.latest d = some c) ∧
    changed.resultHighwatermark = decimal log.greatestId

theorem beforePass_subset {past : List Happened} {e : Happened} (h : e ∈ beforePass past) :
    e ∈ past := by
  induction past using beforePass.induct with
  | case1 => cases h
  | case2 _ _ rest => exact List.mem_cons_of_mem _ h
  | case3 _ rest _ ih =>
    rw [beforePass] at h
    · exact List.mem_cons_of_mem _ (ih h)
    · assumption

/-- An initial pass skips the dates up to the cursor, and with them those up to every cursor that
was stored before. -/
theorem readCursor_spec {changed : ChangedDates} (hchanged : ListsAll log changed) :
    (backfillContract log).Spec (At Unmarked []) (readCursor true) fun cursor =>
      At (PrefixDone log (datesToProcess true cursor changed.dates))
        (datesToProcess true cursor changed.dates) := by
  refine Contract.Spec.perform (stable _ _) (fun _ => stable _ _) ?_
  rintro s reply hinv ⟨hopen, hmark, _⟩ ⟨hreads, _⟩
  have hcursor : s.state.db.getBackfillCursor reply.readLimit =
      s.state.db.conn.visible.syncState.backfillCursor.getD [] := by
    rw [hreads]
    exact Database.getBackfillCursor_open hopen
  have hop : Op.getBackfillCursor.Routine := trivial
  refine ⟨inv_still (still_of_routine hop) hinv, hopen, ?_, ?_⟩
  · show PrefixDone log (datesToProcess true (s.state.db.getBackfillCursor reply.readLimit) _) _
    rw [hcursor]
    exact prefixDone_datesToProcess hinv.sound.2 hmark hchanged.1
  · show AboveCursors _ (datesToProcess true (s.state.db.getBackfillCursor reply.readLimit) _)
    rw [hcursor]
    intro e he cursor hcur d hd
    obtain ⟨hunmarked, hagree⟩ := hinv.agrees.unmarked hmark
    -- A cursor of any earlier state is at most the one that is read now.
    rcases hinv.grown e (beforePass_subset he) cursor hcur with hne | ⟨cursor', hcursor', hle⟩
    · exact absurd hunmarked hne
    · rw [hagree] at hcursor'
      have hkept := of_decide_eq_true (List.mem_filter.mp hd).2
      rw [hcursor'] at hkept
      simp only [Option.getD_some, true_and, not_and, not_le] at hkept
      exact lt_of_le_of_lt hle (hkept (by simpa using (hinv.sound.2.cursor cursor' hcursor').1))

theorem syncChanged_spec (key now : Bytes) (notifyEnabled : Bool) {changed : ChangedDates}
    (hchanged : ListsAll log changed) (hdates : changed.dates ≠ []) :
    (backfillContract log).Spec (At Unmarked [])
      (syncChanged key now true notifyEnabled changed) fun _ _ => True := by
  have hpos : log.greatestId ≠ 0 := by
    obtain ⟨d, hd⟩ := List.exists_mem_of_ne_nil _ hdates
    obtain ⟨c, hc⟩ := (hchanged.1 d).mp hd
    have := ChangeLog.latest_pos hc
    have := ChangeLog.latest_le_greatestId hc
    omega
  unfold syncChanged
  refine (readCursor_spec hchanged).bind fun cursor => ?_
  generalize datesToProcess true cursor changed.dates = todo
  refine (routine (updateStatus_routine (by trivial)) (lasts_prefixDone todo) todo).bind fun _ => ?_
  refine (routine (post_routine (by trivial)) (lasts_prefixDone todo) todo).bind fun _ => ?_
  refine (routine (snapshotBefore_routine _) (lasts_prefixDone todo) todo).bind fun before => ?_
  refine (syncDates_spec key now todo).bind fun failed => ?_
  cases failed with
  | some exit => exact Contract.Spec.ret (fun _ _ _ _ _ => nofun) fun _ _ _ => trivial
  | none =>
    rw [hchanged.2]
    exact (finishStored_spec now notifyEnabled hpos _).pre fun _ _ h => h rfl

theorem prefixDone_of_empty {changed : ChangedDates} {t : Tables} (hchanged : ListsAll log changed)
    (hdates : changed.dates = []) (ht : Unmarked t) : PrefixDone log [] t where
  unmarked := ht
  sorted := .nil
  listed := nofun
  done c hc hlatest := by
    have hmem := (hchanged.1 c.date).mpr ⟨c, hlatest⟩
    rw [hdates] at hmem
    cases hmem
  cursor _ _ := nofun

theorem readMark_spec :
    (backfillContract log).Spec (At Unmarked []) (perform .getChangedDatesHighwatermark)
      fun hwm => At (fun t => hwm = ascii "0" ∧ Unmarked t) [] := by
  refine Contract.Spec.perform (stable _ _) (fun _ => stable _ _) ?_
  rintro s reply hinv ⟨hopen, hmark, habove⟩ ⟨hreads, _⟩
  have hne : s.state.db.conn.visible.syncState.changedDatesHighwatermark ≠ [] := fun h =>
    absurd (h.symm.trans hmark) (by decide)
  have hwm : s.state.db.getChangedDatesHighwatermark reply.readLimit = ascii "0" := by
    rw [hreads, Database.getChangedDatesHighwatermark_open hopen hne]
    exact hmark
  have hop : Op.getChangedDatesHighwatermark.Routine := trivial
  exact ⟨inv_still (still_of_routine hop) hinv, hopen, ⟨hwm, hmark⟩,
    aboveCursors_call (by nofun) habove⟩

theorem listsAll_of_lists {changed : ChangedDates} (h : log.Lists (ascii "0") changed) :
    ListsAll log changed := by
  refine ⟨fun d => h.mem_dates.trans ⟨fun ⟨c, hc, _⟩ => ⟨c, hc⟩, fun ⟨c, hc⟩ => ⟨c, hc, ?_⟩⟩,
    h.mark⟩
  rw [← decimal_zero, number_decimal]
  exact ChangeLog.latest_pos hc

theorem getChangedDates_spec (key : Bytes) :
    (backfillContract log).Spec (At Unmarked []) (perform (.getChangedDates key (ascii "0")))
      fun answer =>
        At (fun t => (answer.1.ok = true → ListsAll log answer.2) ∧ Unmarked t) [] := by
  refine Contract.Spec.perform (stable _ _) (fun _ => stable _ _) ?_
  rintro s reply hinv ⟨hopen, hmark, habove⟩ ⟨_, hhonest, _⟩
  have hstill : Still (.getChangedDates key (ascii "0")) :=
    ⟨⟨nofun, fun _ => .refl _⟩, nofun, nofun, nofun⟩
  refine ⟨inv_still hstill hinv, hopen, ⟨fun hok => ?_, hmark⟩,
    aboveCursors_call (by nofun) habove⟩
  have hlists : s.state.server.Lists (ascii "0") reply.changed.2 := hhonest hok
  rw [hinv.server] at hlists
  exact listsAll_of_lists hlists

theorem syncWithKey_spec (key : Bytes) :
    (backfillContract log).Spec (At Unmarked []) (syncWithKey key) fun _ _ => True := by
  unfold syncWithKey
  have hnotify : (perform .getNotifyOnNewUnits).Every Op.Routine := ⟨trivial, fun _ => trivial⟩
  have hnow : (perform .utcNowIso8601).Every Op.Routine := ⟨trivial, fun _ => trivial⟩
  have hlast : ∀ p : Prop, Lasts fun t => p ∧ Unmarked t :=
    fun p t t' hsame h => ⟨h.1, lasts_unmarked t t' hsame h.2⟩
  refine readMark_spec.bind fun hwm => ?_
  by_cases hzero : hwm = ascii "0"
  · subst hzero
    have hinitial : (decide (ascii "0" = ascii "0") || (ascii "0").isEmpty) = true := by simp
    rw [hinitial]
    refine Contract.Spec.pre (P := At Unmarked []) ?_ fun _ _ h => ⟨h.1, h.2.1.2, h.2.2⟩
    refine (routine hnotify lasts_unmarked []).bind fun notifyEnabled => ?_
    refine (getChangedDates_spec key).bind ?_
    rintro ⟨r, changed⟩
    show (backfillContract log).Spec _ (if r.ok = true then _ else _) _
    by_cases hok : r.ok = true
    · rw [if_pos hok]
      refine (routine hnow (hlast _) []).bind fun now => ?_
      refine (routine (write_routine (by trivial)) (hlast _) []).bind fun _ => ?_
      rintro s hinv ⟨hopen, ⟨hlists, hmark⟩, habove⟩
      have hchanged := hlists hok
      split
      · rename_i hempty
        rw [hchanged.2]
        exact finishUnchanged_spec s hinv
          ⟨hopen, prefixDone_of_empty hchanged (List.isEmpty_iff.mp hempty) hmark, habove⟩
      · rename_i hne
        exact syncChanged_spec key now notifyEnabled hchanged (by simpa using hne) s hinv
          ⟨hopen, hmark, habove⟩
    · rw [if_neg hok]
      exact (routine (failPass_routine _ _ _ _) (hlast _) []).post fun _ _ _ => trivial
  · exact fun s _ h => absurd h.2.1.1 hzero

def Begins (s : Record) : Prop := Unmarked s.state.db.conn.visible

theorem stable_begins : (backfillContract log).Stable Begins :=
  stable_db fun db => Unmarked db.conn.visible

theorem begins_spec {op : Op} (hop : op.Quiet) (hkeep : op ≠ .takeClearRequest)
    (hfetch : ∀ key date, op ≠ .getAllDetailedSalesForDate key date) :
    (backfillContract log).Spec Begins (perform op) fun _ => Begins := by
  refine Contract.Spec.perform stable_begins (fun _ => stable_begins) fun s reply hinv h _ => ?_
  refine ⟨inv_quiet hop hkeep hfetch hinv, ?_⟩
  exact World.exec_lasts op reply s.state hop lasts_unmarked h

theorem ensureOpen_spec :
    (backfillContract log).Spec Begins ensureOpen fun opened s => opened = true →
      At Unmarked [] s := by
  refine Contract.Spec.call stable_begins
    (R := fun opened s => Begins s ∧ (opened = true → s.state.db.isOpen = true)) ?_ fun opened => ?_
  · intro s reply hinv h _
    have hop : Op.isOpen.Routine := trivial
    exact ⟨inv_still (still_of_routine hop) hinv, h, fun hopen => hopen⟩
  · have hstable : ∀ p : Prop, (backfillContract log).Stable fun s : Record =>
        Begins s ∧ (p → s.state.db.isOpen = true) := fun p =>
      stable_begins.and (stable_db fun db => p → db.isOpen = true)
    cases opened with
    | true =>
      exact Contract.Spec.ret (hstable _) fun s _ h _ => ⟨h.2 rfl, h.1, aboveCursors_nil _⟩
    | false =>
      refine Contract.Spec.perform (hstable _) ?_ ?_
      · intro opened move s hmove hinv h hopened
        exact stable _ _ move s hmove hinv (h hopened)
      · rintro s reply hinv ⟨h, _⟩ _
        refine ⟨hinv.step rfl rfl hinv.noClear .drops hinv.sound.2 hinv.noRefetch,
          fun hopened => ?_⟩
        exact ⟨hopened, (hinv.agrees.unmarked h).1, aboveCursors_nil _⟩

theorem clearIfRequested_spec :
    (backfillContract log).Spec (At Unmarked []) clearIfRequested fun _ => At Unmarked [] := by
  refine Contract.Spec.call (stable _ _)
    (R := fun taken => At (fun t => taken = false ∧ Unmarked t) []) ?_ fun taken => ?_
  · rintro s reply hinv ⟨hopen, hmark, habove⟩ _
    exact ⟨hinv.step rfl rfl rfl .stays hinv.sound.2 hinv.noRefetch, hopen, ⟨hinv.noClear, hmark⟩,
      aboveCursors_call (by nofun) habove⟩
  · cases taken with
    | true => exact fun s _ h => absurd h.2.1.1 nofun
    | false => exact Contract.Spec.ret (stable _ _) fun _ _ h => ⟨h.1, h.2.1.2, h.2.2⟩

theorem pass_spec :
    (backfillContract log).Spec Begins runSynchronization fun _ _ => True := by
  have hpost : (Op.post .syncStarted).Quiet := ⟨nofun, fun _ => .refl _⟩
  have hset : (Op.updateStatus (.set .syncing (wide "Updating…"))).Quiet :=
    ⟨nofun, fun _ => .refl _⟩
  have hclosed : (failPass .databaseError (wide "Could not open the local cache.") none
      .databaseError).Every Still :=
    (failPass_routine _ _ _ _).mono fun _ => still_of_routine
  exact runSynchronization_spec (begins_spec hpost nofun nofun) (begins_spec hset nofun nofun)
    ensureOpen_spec ((still_any hclosed).pre fun _ _ _ => trivial)
    (clearIfRequested_spec.pre fun _ _ h => h rfl) (routine loadKey_routine lasts_unmarked [])
    ((routine (failPass_routine _ _ _ _) lasts_unmarked []).post
      fun _ _ _ => trivial) syncWithKey_spec

theorem inv_crash {s : Record} (h : BackfillInvariant log s) :
    BackfillInvariant log (service.traced.crash s) :=
  h.step (t := s.state.db.conn.visible) rfl rfl rfl .drops h.sound.2 h.noRefetch

theorem inv_run {w : World} (hw : BackfillInvariant log ⟨w, []⟩) {es : List (Event Reply Move)}
    (hes : backfillRules.Admitted service.traced runSynchronization ⟨⟨w, []⟩, none⟩ es) :
    BackfillInvariant log (w.recordAfter es) :=
  Contract.sound_inv (K := backfillContract log) (fun _ _ => inv_crash) (fun _ h _ => h) pass_spec
    hw hes

end BackfillRuns

/-- A new cache, without a clear request. -/
def FreshCache (w : World) : Prop :=
  w.db.conn = ⟨Tables.fresh, none⟩ ∧ w.clearCacheRequested = false

/-- Every date of the server up to the cursor is stored with its complete rows. -/
def CursorHolds (log : ChangeLog) (t : Tables) : Prop :=
  ∀ cursor, t.syncState.backfillCursor = some cursor →
    ∀ c ∈ log.changes, log.latest c.date = some c → c.date ≤ cursor → Stores t c

structure SameOutcome (t t' : Tables) : Prop where
  rows : ∀ date, t.dateRows date = t'.dateRows date
  names : ∀ app, t.nameOf app = t'.nameOf app
  mark : t.syncState.changedDatesHighwatermark = t'.syncState.changedDatesHighwatermark

def MarkStored (t : Tables) : Prop := t.syncState.changedDatesHighwatermark ≠ ascii "0"

theorem sameOutcome {log : ChangeLog} {t t' : Tables} (h : BackfillSound log t)
    (h' : BackfillSound log t') (hmark : MarkStored t) (hmark' : MarkStored t') :
    SameOutcome t t' := by
  obtain ⟨hm, hall⟩ := h.mark.resolve_left hmark
  obtain ⟨hm', hall'⟩ := h'.mark.resolve_left hmark'
  obtain ⟨hrows, hnames⟩ := complete_unique h.clean hall h'.clean hall'
  exact ⟨hrows, hnames, hm.trans hm'.symm⟩

theorem backfillInvariant_fresh {w : World} (hw : FreshCache w) :
    BackfillInvariant w.server ⟨w, []⟩ where
  server := rfl
  noClear := hw.2
  sound := by
    show w.db.conn.Both _
    rw [hw.1]
    exact ⟨backfillSound_fresh _, backfillSound_fresh _⟩
  agrees := by
    show TxAgrees w.db.conn
    rw [hw.1]
    exact txAgrees_none _
  grown _ he := absurd he List.not_mem_nil
  noRefetch := trivial

/-- However a backfill is interrupted, the cursor marks a finished prefix, no later pass fetches a
date up to a cursor that was stored, and once the mark is stored the tables are those of any other
run that stores it, such as one uninterrupted pass. -/
theorem backfill_resumes {w : World} (hw : FreshCache w) {es es' : List (Event Reply Move)}
    (hes : backfillRules.Admitted service.traced runSynchronization ⟨⟨w, []⟩, none⟩ es)
    (hes' : backfillRules.Admitted service.traced runSynchronization ⟨⟨w, []⟩, none⟩ es') :
    (w.after es).db.conn.Both (CursorHolds w.server) ∧ NoRefetch (w.recordAfter es).past ∧
      (w.after es).db.conn.Both fun t => MarkStored t →
        (w.after es').db.conn.Both fun t' => MarkStored t' → SameOutcome t t' := by
  have h := BackfillRuns.inv_run (backfillInvariant_fresh hw) hes
  have h' := BackfillRuns.inv_run (backfillInvariant_fresh hw) hes'
  rw [← World.recordAfter_state, ← World.recordAfter_state]
  refine ⟨h.sound.mono fun t ht cursor hcursor c hc hlatest hle => ?_, h.noRefetch,
    h.sound.mono fun t ht hmark => h'.sound.mono fun t' ht' hmark' => ?_⟩
  · exact ((ht.cursor cursor hcursor).2 c hc hlatest hle).rows
  · exact sameOutcome ht ht' hmark hmark'

instance : DecidablePred backfillRules.start := fun _ => inferInstanceAs (Decidable (_ = _))

instance (reply : Reply) (op : Op) : Decidable (MarkWriteDone reply op) :=
  match op with
  | .write (.changedDatesHighwatermark _) => inferInstanceAs (Decidable (_ ∧ _))
  | .write (.lastSuccessfulCheckUtc _) | .write (.lastSuccessfulSyncUtc _) | .write (.lastError _)
  | .write (.backfillCursor _) | .post _ | .updateStatus _ | .isOpen | .openDatabase
  | .takeClearRequest | .clearAllSales | .hasStoredKey | .loadKey | .getChangedDatesHighwatermark
  | .getNotifyOnNewUnits | .getChangedDates _ _ | .utcNowIso8601 | .getBackfillCursor
  | .queryLifetime | .iterate _ | .getAllDetailedSalesForDate _ _ | .replaceDate _ _ _
  | .steamToday | .sumForDate _ => .isTrue trivial

instance (op : Op) (reply : Reply) (s : Record) : Decidable (backfillRules.call op reply s) :=
  inferInstanceAs (Decidable (_ ∧ _ ∧ _))

instance (move : Move) (s : Record) : Decidable (backfillRules.act move s) :=
  match move with
  | .serverChange gap date records => .isFalse fun h => h.1 gap date records rfl
  | .requestClearCache => .isFalse fun h => h.2 rfl
  | .setNotifyOnNewUnits _ => .isTrue ⟨nofun, nofun⟩
  | .handleMessage => .isTrue ⟨nofun, nofun⟩

instance : DecidablePred backfillRules.kill := fun _ => .isTrue trivial

/-- The first pass stores the first date, fails to write the cursor, and cannot fetch the second
date; the next is killed after it has stored the first date again; the last one stores both. -/
def interruptedRun : List (Event Reply Move) :=
  open Sample in
  .start :: calls 16 (reply [july18, july17] 2 [sale 1]) ++
    calls 1 { reply [july18, july17] 2 [] with faults := fun _ => .failed } ++
    calls 7 (offline (reply [july18, july17] 2 [])) ++
    .start :: calls 17 (reply [july18, july17] 2 [sale 1]) ++
    [.kill, .start] ++ calls 32 (reply [july18, july17] 2 [sale 2])

def uninterruptedRun : List (Event Reply Move) :=
  open Sample in
  .start :: calls 19 (reply [july18, july17] 2 [sale 1]) ++
    calls 15 (reply [july18, july17] 2 [sale 2])

theorem backfill_resumes_run :
    MarkStored (Sample.world.after interruptedRun).db.conn.committed ∧
      MarkStored (Sample.world.after uninterruptedRun).db.conn.committed ∧
      SameOutcome (Sample.world.after interruptedRun).db.conn.committed
        (Sample.world.after uninterruptedRun).db.conn.committed := by
  have hmark : MarkStored (Sample.world.after interruptedRun).db.conn.committed := by
    unfold MarkStored
    decide +kernel
  have hmark' : MarkStored (Sample.world.after uninterruptedRun).db.conn.committed := by
    unfold MarkStored
    decide +kernel
  obtain ⟨_, _, hsame⟩ := @backfill_resumes Sample.world ⟨rfl, rfl⟩ interruptedRun
    uninterruptedRun (by decide +kernel) (by decide +kernel)
  exact ⟨hmark, hmark', (hsame.1 hmark).1 hmark'⟩

end SteamSalesTray.Sync
