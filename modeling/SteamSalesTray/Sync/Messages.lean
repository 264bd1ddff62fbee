import SteamSalesTray.Sync.Effects

/-! The messages and the status of a pass: how a pass begins and ends, and what a snapshot of the
status shows at any moment. -/

namespace SteamSalesTray.Sync

open Interaction Storage Steam

/-! ### What a record says about a pass -/

/-- The messages that were posted and the dates that were replaced, the first one first, and the
latest mark, change list and cursor that a pass got. -/
structure PassLog where
  posted : List Message
  replaced : List Bytes
  highwatermark : Bytes
  listed : List Bytes
  cursor : Bytes
deriving DecidableEq

def PassLog.blank : PassLog := ⟨[], [], [], [], []⟩

def PassLog.step (l : PassLog) : (op : Op) → op.Answer → PassLog
  | .post message, _ => { l with posted := l.posted ++ [message] }
  | .replaceDate date _ _, saved =>
    if saved = true then { l with replaced := l.replaced ++ [date] } else l
  | .getChangedDatesHighwatermark, highwatermark => { l with highwatermark := highwatermark }
  | .getChangedDates _ _, answer => { l with listed := answer.2.dates }
  | .getBackfillCursor, cursor => { l with cursor := cursor }
  | _, _ => l

def passLog : List Happened → PassLog
  | [] => .blank
  | .call op answer _ :: past => (passLog past).step op answer
  | _ :: past => passLog past

/-- The dates that a pass with this mark, list and cursor has to process. -/
def PassLog.toProcess (l : PassLog) : List Bytes :=
  let initial := decide (l.highwatermark = ascii "0") || l.highwatermark.isEmpty
  datesToProcess initial (if initial then l.cursor else []) l.listed

/-- What is true of a pass that has returned. -/
structure DefiniteEnd (s : Record) : Prop where
  started : (passLog s.past).posted.head? = some .syncStarted
  ended : ∃ earlier last, (passLog s.past).posted = earlier ++ [last] ∧
    (last = .syncCompleted ∨ last = .syncFailed) ∧
      .syncCompleted ∉ earlier ∧ .syncFailed ∉ earlier
  settled : s.state.status.status ≠ .syncing
  idle : s.state.status.status = .idle ↔ .syncCompleted ∈ (passLog s.past).posted
  totals : ∀ earlier later, (passLog s.past).posted = earlier ++ .totalsChanged :: later →
    later = [.syncCompleted] ∧ (passLog s.past).replaced = (passLog s.past).toProcess
  counted : .syncCompleted ∈ (passLog s.past).posted →
    s.state.status.completedDates = s.state.status.totalDates

def AppStatus.Counted (st : AppStatus) : Prop :=
  0 ≤ st.completedDates ∧ st.completedDates ≤ st.totalDates

def freeRules : Rules Op Record Reply Move where
  start _ := True
  call _ _ _ := True
  act _ _ := True
  kill _ := True

def statusAfter (time : Int) (st : AppStatus) : Op → AppStatus
  | .updateStatus update => update.apply time st
  | _ => st

theorem exec_status (op : Op) (reply : Reply) (w : World) :
    (World.exec op reply w).2.status = statusAfter reply.time w.status op := by
  cases op <;> rfl

theorem act_status (w : World) (move : Move) : (w.act move).status = w.status := by
  cases move with
  | handleMessage => exact (congrArg World.status w.handleMessage_rest).trans rfl
  | _ => rfl

/-- Where `counting` holds, the counters of the status are in order. -/
def messagesContract (counting : Prop) : Contract Op Op.Answer Record Reply Move where
  machine := service.traced
  rules := freeRules
  inv s := counting → s.state.status.Counted
  inv_act move s _ h hcounting := by
    show (s.state.act move).status.Counted
    rw [act_status]
    exact h hcounting

namespace PassMessages

variable {counting : Prop} {α : Type}

def At (p : PassLog → AppStatus → Prop) (s : Record) : Prop := p (passLog s.past) s.state.status

theorem stable_at (p : PassLog → AppStatus → Prop) : (messagesContract counting).Stable (At p) := by
  intro move s _ _ h
  show p (passLog s.past) (s.state.act move).status
  rw [act_status]
  exact h

theorem call {op : Op} {next : op.Answer → Worker α} {p : PassLog → AppStatus → Prop}
    {R : op.Answer → PassLog → AppStatus → Prop} {Q : α → Record → Prop}
    (hstep : ∀ answer time l st, p l st → R answer (l.step op answer) (statusAfter time st op))
    (hcounted : ∀ time l st, p l st → st.Counted → (statusAfter time st op).Counted)
    (hnext : ∀ answer, (messagesContract counting).Spec (At (R answer)) (next answer) Q) :
    (messagesContract counting).Spec (At p) (.call op next) Q := by
  refine Contract.Spec.call (stable_at p) (R := fun answer => At (R answer)) ?_ hnext
  intro s reply hinv hp _
  refine ⟨fun hcounting => ?_, ?_⟩
  · show (World.exec op reply s.state).2.status.Counted
    rw [exec_status]
    exact hcounted reply.time _ _ hp (hinv hcounting)
  · show R _ ((passLog s.past).step op _) (World.exec op reply s.state).2.status
    rw [exec_status]
    exact hstep _ reply.time _ _ hp

theorem finish {value : α} {p : PassLog → AppStatus → Prop} {Q : α → PassLog → AppStatus → Prop}
    (h : ∀ l st, p l st → Q value l st) :
    (messagesContract counting).Spec (At p) (.ret value) fun value => At (Q value) :=
  Contract.Spec.ret (stable_at p) fun _ _ hp => h _ _ hp

/-- The call is not recorded and leaves the status as it is. -/
def Silent (op : Op) : Prop :=
  (∀ l answer, PassLog.step l op answer = l) ∧ ∀ time st, statusAfter time st op = st

theorem silent {p : Worker α} (hp : p.Every Silent) (P : PassLog → AppStatus → Prop) :
    (messagesContract counting).Spec (At P) p fun _ => At P := by
  induction p with
  | ret value => exact Contract.Spec.done (stable_at P)
  | call op next ih =>
    obtain ⟨⟨hlog, hstatus⟩, hnext⟩ := hp
    refine call (R := fun _ => P) (fun answer time l st h => ?_) (fun time l st _ h => ?_)
      fun answer => ih answer (hnext answer)
    · rw [hlog, hstatus]
      exact h
    · rw [hstatus]
      exact h

theorem perform_silent (op : Op) (hlog : ∀ l answer, PassLog.step l op answer = l)
    (hstatus : ∀ time st, statusAfter time st op = st) : (perform op).Every Silent :=
  ⟨⟨hlog, hstatus⟩, fun _ => trivial⟩

theorem write_silent (update : Database.SyncStateWrite) : (write update).Every Silent :=
  (perform_silent (.write update) (fun _ _ => rfl) fun _ _ => rfl).bind fun _ => trivial

/-! ### How far a pass has come -/

/-- The pass has posted its start and its progress so far, and has replaced the dates `done`. -/
def Underway (before : PassLog) (done : List Bytes) (l : PassLog) : Prop :=
  ∃ k, l.posted = before.posted ++ .syncStarted :: List.replicate k .syncProgress ∧
    l.replaced = before.replaced ++ done

/-- The pass has posted its start and has replaced no date. -/
def Starting (before l : PassLog) : Prop :=
  l.posted = before.posted ++ [.syncStarted] ∧ l.replaced = before.replaced

theorem Starting.underway {before l : PassLog} (h : Starting before l) : Underway before [] l :=
  ⟨0, h.1, by rw [h.2, List.append_nil]⟩

/-- The pass has `todo` left of all its dates, and the counter has `left` to go. -/
structure Counting (before : PassLog) (all todo : List Bytes) (left : Nat) (l : PassLog)
    (st : AppStatus) : Prop where
  underway : ∃ done, all = done ++ todo ∧ Underway before done l
  dates : l.toProcess = all
  nonneg : 0 ≤ st.completedDates
  total : st.completedDates + left = st.totalDates

inductive Ended (before l : PassLog) (st : AppStatus) : Prop where
  | failed (k : Nat)
      (posted : l.posted =
        before.posted ++ .syncStarted :: (List.replicate k .syncProgress ++ [.syncFailed]))
      (settled : st.status ≠ .syncing) (notIdle : st.status ≠ .idle)
  | unchanged (posted : l.posted = before.posted ++ [.syncStarted, .syncCompleted])
      (idle : st.status = .idle) (counted : st.completedDates = st.totalDates)
  | stored (k : Nat)
      (posted : l.posted = before.posted ++
        .syncStarted :: (List.replicate k .syncProgress ++ [.totalsChanged, .syncCompleted]))
      (replaced : l.replaced = before.replaced ++ l.toProcess)
      (idle : st.status = .idle) (counted : st.completedDates = st.totalDates)

theorem Underway.progress {before : PassLog} {done : List Bytes} {l : PassLog}
    (h : Underway before done l) (answer : (Op.post .syncProgress).Answer) :
    Underway before done (l.step (.post .syncProgress) answer) := by
  obtain ⟨k, hposted, hreplaced⟩ := h
  refine ⟨k + 1, ?_, hreplaced⟩
  show l.posted ++ [.syncProgress] = _
  rw [hposted, List.replicate_succ', List.append_assoc, List.cons_append]

theorem statusFromKind_settled (kind : ResultKind) :
    statusFromKind kind ≠ .syncing ∧ statusFromKind kind ≠ .idle := by
  cases kind <;> decide

/-! ### The parts of a pass -/

theorem failPass_spec {before : PassLog} {done : List Bytes} {status : SyncStatus}
    (hstatus : status ≠ .syncing ∧ status ≠ .idle) (message : Wide) (lastError : Option Bytes)
    (exit : Exit) :
    (messagesContract counting).Spec (At fun l _ => Underway before done l)
      (failPass status message lastError exit) fun _ => At (Ended before) := by
  have hpost : (messagesContract counting).Spec
      (At fun l st => Underway before done l ∧ st.status = status)
      (post .syncFailed >>= fun _ => pure exit) fun _ => At (Ended before) := by
    refine call (R := fun _ => Ended before) ?_ (fun _ _ _ _ h => h) fun _ => finish fun _ _ h => h
    rintro - time l st ⟨⟨k, hposted, -⟩, hst⟩
    refine .failed k ?_ ?_ ?_
    · show l.posted ++ [.syncFailed] = _
      rw [hposted, List.append_assoc, List.cons_append]
    · show st.status ≠ .syncing
      rw [hst]
      exact hstatus.1
    · show st.status ≠ .idle
      rw [hst]
      exact hstatus.2
  refine call (R := fun _ l st => Underway before done l ∧ st.status = status)
    (fun _ _ _ _ h => ⟨h, rfl⟩) (fun _ _ _ _ h => h) fun _ => ?_
  cases lastError with
  | none => exact hpost
  | some e => exact (silent (write_silent _) _).bind fun _ => hpost

theorem advanceMark_silent (resultHighwatermark : Bytes) :
    (advanceMark resultHighwatermark).Every Silent :=
  advanceMark_every ⟨fun _ _ => rfl, fun _ _ => rfl⟩

theorem checkpoint_silent (initial : Bool) (date : Bytes) :
    (checkpoint initial date).Every Silent :=
  checkpoint_every ⟨fun _ _ => rfl, fun _ _ => rfl⟩ initial

theorem replaced_true {before : PassLog} {all rest : List Bytes} {date : Bytes} {left : Nat}
    {l : PassLog} {st : AppStatus} (h : Counting before all (date :: rest) left l st)
    (rows : List DailyProductRow) (now : Bytes) :
    Counting before all rest left (l.step (.replaceDate date rows now) true) st := by
  obtain ⟨⟨done, hall, k, hposted, hreplaced⟩, hdates, hnonneg, htotal⟩ := h
  refine ⟨⟨done ++ [date], by simpa using hall, k, hposted, ?_⟩, hdates, hnonneg, htotal⟩
  show l.replaced ++ [date] = _
  rw [hreplaced, List.append_assoc]

/-- What holds after the loop: all dates are counted, or the pass has ended. -/
def AfterDates (before : PassLog) (all : List Bytes) (failed : Option Exit) (l : PassLog)
    (st : AppStatus) : Prop :=
  match failed with
  | none => Counting before all [] 0 l st
  | some _ => Ended before l st

theorem syncDates_spec (before : PassLog) (key now : Bytes) (initial : Bool)
    (all todo : List Bytes) :
    (messagesContract counting).Spec (At (Counting before all todo todo.length))
      (syncDates key now initial todo) fun failed => At (AfterDates before all failed) := by
  have hfail : ∀ {todo : List Bytes} {left : Nat} {status : SyncStatus},
      status ≠ .syncing ∧ status ≠ .idle → ∀ message lastError exit,
      (messagesContract counting).Spec (At (Counting before all todo left))
        (failPass status message lastError exit >>= fun exit => pure (some exit))
        fun failed => At (AfterDates before all failed) := by
    intro todo left status hstatus message lastError exit s hinv h
    obtain ⟨done, -, hunderway⟩ := h.underway
    have hpass : (messagesContract counting).Spec (At fun l _ => Underway before done l)
        (failPass status message lastError exit) fun _ => At (Ended before) :=
      failPass_spec hstatus message lastError exit
    refine Contract.Spec.bind hpass (fun exit => ?_) s hinv hunderway
    exact Contract.Spec.ret (stable_at (Ended before)) fun _ _ h => h
  -- Each date that is replaced is counted before the next one is fetched.
  induction todo with
  | nil => exact finish fun _ _ h => h
  | cons date rest ih =>
    refine call (R := fun _ => Counting before all (date :: rest) (rest.length + 1))
      (fun _ _ _ _ h => h) (fun _ _ _ _ h => h) ?_
    rintro ⟨pr, records⟩
    show (messagesContract counting).Spec _ (if pr.ok then _ else _) _
    split
    · refine call (R := fun saved => Counting before all (if saved = true then rest else
        date :: rest) (rest.length + 1)) ?_ (fun _ _ _ _ h => h) fun saved => ?_
      · intro saved time l st h
        cases saved with
        | true => exact replaced_true h _ _
        | false => exact h
      · cases saved with
        | true =>
          refine (silent (checkpoint_silent initial date) _).bind fun _ => ?_
          refine call (R := fun _ => Counting before all rest rest.length) ?_ ?_ fun _ => ?_
          · rintro - time l st ⟨hunderway, hdates, hnonneg, htotal⟩
            refine ⟨hunderway, hdates, ?_, ?_⟩
            · show 0 ≤ st.completedDates + 1
              omega
            · show st.completedDates + 1 + (rest.length : Int) = st.totalDates
              omega
          · rintro time l st ⟨-, -, hnonneg, htotal⟩ -
            refine ⟨?_, ?_⟩
            · show 0 ≤ st.completedDates + 1
              omega
            · show st.completedDates + 1 ≤ st.totalDates
              omega
          · refine call (R := fun _ => Counting before all rest rest.length) ?_
              (fun _ _ _ _ h => h) fun _ => ih
            rintro answer time l st ⟨⟨done, hall, hunderway⟩, hdates, hnonneg, htotal⟩
            exact ⟨⟨done, hall, hunderway.progress answer⟩, hdates, hnonneg, htotal⟩
        | false =>
          have hstatus : SyncStatus.databaseError ≠ .syncing ∧ SyncStatus.databaseError ≠ .idle :=
            by decide
          exact hfail hstatus (wide "Failed to save sales data.")
            (some (ascii "database write failed")) .replaceFailed
    · exact hfail (statusFromKind_settled pr.kind) _ _ _

theorem publish_spec {before : PassLog} {all : List Bytes} (notification : Wide) (exit : Exit) :
    (messagesContract counting).Spec (At (Counting before all [] 0))
      (publish notification >>= fun _ => pure exit) fun _ => At (Ended before) := by
  refine call (R := fun _ l st => Counting before all [] 0 l st ∧ st.status = .idle)
    (fun _ _ _ _ h => ⟨⟨h.underway, h.dates, h.nonneg, h.total⟩, rfl⟩) (fun _ _ _ _ h => h)
    fun _ => ?_
  refine call (R := fun _ l st => l.toProcess = all ∧ st.status = .idle ∧
    st.completedDates = st.totalDates ∧ ∃ k, l.replaced = before.replaced ++ all ∧ l.posted =
      before.posted ++ .syncStarted :: (List.replicate k .syncProgress ++ [.totalsChanged]))
    ?_ (fun _ _ _ _ h => h) fun _ => ?_
  · rintro - time l st ⟨⟨⟨done, hall, k, hposted, hreplaced⟩, hdates, -, htotal⟩, hidle⟩
    refine ⟨hdates, hidle, ?_, k, ?_, ?_⟩
    · show st.completedDates = st.totalDates
      simpa using htotal
    · rw [hall, List.append_nil]
      exact hreplaced
    · show l.posted ++ [.totalsChanged] = _
      rw [hposted, List.append_assoc, List.cons_append]
  · refine call (R := fun _ => Ended before) ?_ (fun _ _ _ _ h => h) fun _ => finish fun _ _ h => h
    rintro - time l st ⟨hdates, hidle, hcounted, k, hreplaced, hposted⟩
    refine .stored k ?_ ?_ hidle hcounted
    · show l.posted ++ [.syncCompleted] = _
      rw [hposted]
      simp
    · show l.replaced = before.replaced ++ l.toProcess
      rw [hdates]
      exact hreplaced

theorem notificationAfter_silent (before : Snapshot) : (notificationAfter before).Every Silent :=
  notificationAfter_every ⟨fun _ _ => rfl, fun _ _ => rfl⟩ ⟨fun _ _ => rfl, fun _ _ => rfl⟩
    (fun _ => ⟨fun _ _ => rfl, fun _ _ => rfl⟩) (fun _ => ⟨fun _ _ => rfl, fun _ _ => rfl⟩) before

theorem finishStored_spec {before : PassLog} {all : List Bytes} (now : Bytes)
    (initial notifyEnabled : Bool) (resultHighwatermark : Bytes) (snapshot : Snapshot) :
    (messagesContract counting).Spec (At (Counting before all [] 0))
      (finishStored now initial notifyEnabled resultHighwatermark snapshot)
      fun _ => At (Ended before) := by
  unfold finishStored
  refine (silent (advanceMark_silent _) _).bind fun _ => ?_
  refine (silent (checkpoint_silent _ _) _).bind fun _ => ?_
  refine (silent (write_silent _) _).bind fun _ => ?_
  refine (silent (write_silent _) _).bind fun _ => ?_
  show (messagesContract counting).Spec _ (if _ then _ else _) _
  split
  · refine (silent (notificationAfter_silent snapshot) _).bind fun ⟨after, notification⟩ => ?_
    exact publish_spec notification _
  · exact publish_spec [] _

theorem finishUnchanged_spec {before : PassLog} (resultHighwatermark : Bytes) :
    (messagesContract counting).Spec
      (At fun l _ => l.posted = before.posted ++ [.syncStarted])
      (finishUnchanged resultHighwatermark) fun _ => At (Ended before) := by
  unfold finishUnchanged
  refine (silent (advanceMark_silent _) _).bind fun _ => ?_
  refine (silent (write_silent _) _).bind fun _ => ?_
  refine call (R := fun _ l st => l.posted = before.posted ++ [Message.syncStarted] ∧
    st.status = .idle ∧ st.completedDates = st.totalDates) (fun _ _ _ _ h => ⟨h, rfl, rfl⟩)
    (fun _ _ _ _ _ => ⟨Int.le_refl 0, Int.le_refl 0⟩) fun _ => ?_
  refine call (R := fun _ => Ended before) ?_ (fun _ _ _ _ h => h) fun _ => finish fun _ _ h => h
  rintro - time l st ⟨hposted, hidle, hcounted⟩
  refine .unchanged ?_ hidle hcounted
  show l.posted ++ [.syncCompleted] = _
  rw [hposted, List.append_assoc]
  rfl

/-- The pass has its mark and its change list. -/
structure Listed (before : PassLog) (highwatermark : Bytes) (dates : List Bytes) (l : PassLog) :
    Prop where
  posted : l.posted = before.posted ++ [.syncStarted]
  replaced : l.replaced = before.replaced
  highwatermark : l.highwatermark = highwatermark
  dates : l.listed = dates

theorem Listed.underway {before : PassLog} {highwatermark : Bytes} {dates : List Bytes}
    {l : PassLog} (h : Listed before highwatermark dates l) : Underway before [] l :=
  Starting.underway ⟨h.posted, h.replaced⟩

theorem readCursor_spec {before : PassLog} {highwatermark : Bytes} {dates : List Bytes} :
    (messagesContract counting).Spec (At fun l _ => Listed before highwatermark dates l)
      (readCursor (decide (highwatermark = ascii "0") || highwatermark.isEmpty))
      fun cursor => At fun l _ => Underway before [] l ∧
        l.toProcess = datesToProcess (decide (highwatermark = ascii "0") || highwatermark.isEmpty)
          cursor dates := by
  cases hinitial : decide (highwatermark = ascii "0") || highwatermark.isEmpty with
  | false =>
    refine finish fun l st h => ⟨h.underway, ?_⟩
    simp only [PassLog.toProcess, h.highwatermark, hinitial, h.dates, Bool.false_eq_true, if_false]
  | true =>
    refine call (R := fun cursor l _ => Underway before [] l ∧
      l.toProcess = datesToProcess true cursor dates) ?_ (fun _ _ _ _ h => h) fun _ =>
        finish fun _ _ h => h
    intro cursor time l st h
    refine ⟨h.underway, ?_⟩
    simp only [PassLog.toProcess, PassLog.step, h.highwatermark, hinitial, h.dates, if_true]

theorem syncChanged_spec {before : PassLog} {highwatermark : Bytes} (key now : Bytes)
    (notifyEnabled : Bool) (changed : ChangedDates) :
    (messagesContract counting).Spec (At fun l _ => Listed before highwatermark changed.dates l)
      (syncChanged key now (decide (highwatermark = ascii "0") || highwatermark.isEmpty)
        notifyEnabled changed) fun _ => At (Ended before) := by
  unfold syncChanged
  refine readCursor_spec.bind fun cursor => ?_
  generalize (decide (highwatermark = ascii "0") || highwatermark.isEmpty) = initial
  generalize datesToProcess initial cursor changed.dates = all
  refine call (R := fun _ => Counting before all all all.length) ?_ ?_ fun _ => ?_
  · rintro - time l st ⟨hunderway, hdates⟩
    refine ⟨⟨[], rfl, hunderway⟩, hdates, Int.le_refl 0, ?_⟩
    show (0 : Int) + all.length = all.length
    omega
  · intro time l st _ _
    exact ⟨Int.le_refl 0, Int.natCast_nonneg all.length⟩
  · refine call (R := fun _ => Counting before all all all.length) ?_ (fun _ _ _ _ h => h)
      fun _ => ?_
    · rintro answer time l st ⟨⟨done, hall, hunderway⟩, hdates, hnonneg, htotal⟩
      exact ⟨⟨done, hall, hunderway.progress answer⟩, hdates, hnonneg, htotal⟩
    · have hsnapshot : (snapshotBefore (notifyEnabled && !initial)).Every Silent :=
        snapshotBefore_every ⟨fun _ _ => rfl, fun _ _ => rfl⟩ _
      refine (silent hsnapshot _).bind fun snapshot => ?_
      refine (syncDates_spec before key now initial all all).bind fun failed => ?_
      cases failed with
      | some exit => exact Contract.Spec.done (stable_at (Ended before))
      | none => exact finishStored_spec now initial notifyEnabled _ snapshot

theorem syncWithKey_spec (before : PassLog) (key : Bytes) :
    (messagesContract counting).Spec (At fun l _ => Starting before l) (syncWithKey key)
      fun _ => At (Ended before) := by
  unfold syncWithKey
  refine call (R := fun hwm l _ => Starting before l ∧ l.highwatermark = hwm)
    (fun _ _ _ _ h => ⟨h, rfl⟩) (fun _ _ _ _ h => h) fun hwm => ?_
  have hnotify := perform_silent .getNotifyOnNewUnits (fun _ _ => rfl) fun _ _ => rfl
  refine (silent hnotify _).bind fun notifyEnabled => ?_
  refine call (R := fun (answer : FinancialResult × ChangedDates) l _ =>
    Listed before hwm answer.2.dates l) (fun _ _ _ _ h => ⟨h.1.1, h.1.2, h.2, rfl⟩)
    (fun _ _ _ _ h => h) ?_
  rintro ⟨r, changed⟩
  show (messagesContract counting).Spec _ (if r.ok = true then _ else _) _
  split
  · have hnow := perform_silent .utcNowIso8601 (fun _ _ => rfl) fun _ _ => rfl
    refine (silent hnow _).bind fun now => ?_
    refine (silent (write_silent _) _).bind fun _ => ?_
    show (messagesContract counting).Spec _ (if _ then _ else _) _
    split
    · intro s hinv h
      exact finishUnchanged_spec changed.resultHighwatermark s hinv h.posted
    · exact syncChanged_spec key now notifyEnabled changed
  · intro s hinv h
    exact failPass_spec (statusFromKind_settled r.kind) _ _ _ s hinv h.underway

theorem pass_spec (before : PassLog) :
    (messagesContract counting).Spec (At fun l _ => l = before) runSynchronization
      fun _ => At (Ended before) := by
  have hstarted : (messagesContract counting).Spec (At fun l _ => l = before) (post .syncStarted)
      fun _ => At fun l _ => Starting before l := by
    refine call (R := fun _ l _ => Starting before l) ?_ (fun _ _ _ _ h => h)
      fun _ => finish fun _ _ h => h
    rintro - time l st rfl
    exact ⟨rfl, rfl⟩
  have hsyncing : (messagesContract counting).Spec (At fun l _ => Starting before l)
      (setStatus .syncing (wide "Updating…")) fun _ => At fun l _ => Starting before l :=
    call (R := fun _ l _ => Starting before l) (fun _ _ _ _ h => h) (fun _ _ _ _ h => h)
      fun _ => finish fun _ _ h => h
  have hopen : ensureOpen.Every Silent :=
    ensureOpen_every ⟨fun _ _ => rfl, fun _ _ => rfl⟩ ⟨fun _ _ => rfl, fun _ _ => rfl⟩
  have hclear : clearIfRequested.Every Silent :=
    clearIfRequested_every ⟨fun _ _ => rfl, fun _ _ => rfl⟩ ⟨fun _ _ => rfl, fun _ _ => rfl⟩
  have hkey : loadKey.Every Silent :=
    loadKey_every ⟨fun _ _ => rfl, fun _ _ => rfl⟩ ⟨fun _ _ => rfl, fun _ _ => rfl⟩
  -- A pass that fails here has posted its start and no progress.
  have hfails : ∀ status message exit, status ≠ SyncStatus.syncing ∧ status ≠ .idle →
      (messagesContract counting).Spec (At fun l _ => Starting before l)
        (failPass status message none exit) fun _ => At (Ended before) :=
    fun _ message exit hsettled s hinv h => failPass_spec hsettled message none exit s hinv
      (Starting.underway h)
  exact runSynchronization_spec hstarted hsyncing (silent hopen _) (hfails _ _ _ (by decide))
    (silent hclear _) (silent hkey _) (hfails _ _ _ (by decide)) (syncWithKey_spec before)

/-! ### A pass that has returned -/

theorem notMem_progress {m : Message} (hstarted : m ≠ .syncStarted) (hprogress : m ≠ .syncProgress)
    (k : Nat) : m ∉ .syncStarted :: List.replicate k .syncProgress := by
  intro hmem
  rcases List.mem_cons.mp hmem with h | h
  · exact hstarted h
  · exact hprogress (List.mem_replicate.mp h).2

theorem definiteEnd_of_ended {s : Record} (h : At (Ended .blank) s) : DefiniteEnd s := by
  have hcompleted := notMem_progress (m := .syncCompleted) (by decide) (by decide)
  have hfailed := notMem_progress (m := .syncFailed) (by decide) (by decide)
  have htotals := notMem_progress (m := .totalsChanged) (by decide) (by decide)
  have hnone : ∀ {l earlier later : List Message}, .totalsChanged ∉ l →
      l ≠ earlier ++ .totalsChanged :: later := by
    rintro l earlier later hl rfl
    simp at hl
  cases h with
  | failed k posted settled notIdle =>
    replace posted : (passLog s.past).posted =
        (.syncStarted :: List.replicate k .syncProgress) ++ [.syncFailed] := posted
    have hnot : .syncCompleted ∉ (passLog s.past).posted := by
      rw [posted, List.mem_append, not_or]
      exact ⟨hcompleted k, by simp⟩
    refine ⟨by rw [posted]; rfl, ⟨_, .syncFailed, posted, .inr rfl, hcompleted k, hfailed k⟩,
      settled, ⟨fun h => absurd h notIdle, fun h => absurd h hnot⟩, fun earlier later h => ?_,
      fun h => absurd h hnot⟩
    refine absurd h (hnone ?_)
    rw [posted, List.mem_append, not_or]
    exact ⟨htotals k, by simp⟩
  | unchanged posted idle counted =>
    replace posted : (passLog s.past).posted = [.syncStarted] ++ [.syncCompleted] := posted
    refine ⟨by rw [posted]; rfl, ⟨_, .syncCompleted, posted, .inl rfl, by simp, by simp⟩,
      by simp [idle], ⟨fun _ => by simp [posted], fun _ => idle⟩, fun earlier later h => ?_,
      fun _ => counted⟩
    exact absurd h (hnone (by simp [posted]))
  | stored k posted replaced idle counted =>
    replace posted : (passLog s.past).posted = (.syncStarted :: List.replicate k .syncProgress) ++
        .totalsChanged :: [.syncCompleted] := posted
    have hlast : (passLog s.past).posted = ((.syncStarted :: List.replicate k .syncProgress) ++
        [.totalsChanged]) ++ [.syncCompleted] := by
      rw [posted, List.append_assoc]
      rfl
    refine ⟨by rw [posted]; rfl, ⟨_, .syncCompleted, hlast, .inl rfl, ?_, ?_⟩, by simp [idle],
      ⟨fun _ => by simp [posted], fun _ => idle⟩, fun earlier later h => ⟨?_, replaced⟩,
      fun _ => counted⟩
    · rw [List.mem_append, not_or]
      exact ⟨hcompleted k, by simp⟩
    · rw [List.mem_append, not_or]
      exact ⟨hfailed k, by simp⟩
    · rw [posted] at h
      exact ((List.append_cons_inj_of_notMem (htotals k) (by simp)).mp h).2.2.symm

theorem free_admitted (c : Config Op Op.Answer Record Exit) (es : List (Event Reply Move)) :
    freeRules.Admitted service.traced runSynchronization c es :=
  Rules.admitted_of_all (fun _ => trivial) (fun _ _ _ => trivial) (fun _ _ => trivial)
    (fun _ => trivial) _ _ c es

theorem definite_end {w : World} {es : List (Event Reply Move)} {exit : Exit}
    {c : Config Op Op.Answer Record Exit}
    (h : Execution freeRules service.traced runSynchronization ⟨⟨w, []⟩, none⟩ es exit c) :
    DefiniteEnd c.state := by
  have hspec : (messagesContract False).Spec (At fun l _ => l = .blank) runSynchronization
      fun _ => At (Ended .blank) := pass_spec .blank
  exact definiteEnd_of_ended (hspec.execution h False.elim rfl).2

end PassMessages

/-- A pass whose calls are answered returns; where one has returned, its messages and its status are
in order; and so are the counters in every state of every run. -/
theorem passes_end_definitely :
    (∀ (w : World) (reply : Nat → Reply), ∃ n,
      (service.run runSynchronization ⟨w, none⟩
        (.start :: (List.range n).map fun i => .call (reply i))).returned.isSome) ∧
    (∀ (w : World) (es : List (Event Reply Move)) (exit : Exit)
      (c : Config Op Op.Answer Record Exit),
      Execution freeRules service.traced runSynchronization ⟨⟨w, []⟩, none⟩ es exit c →
        DefiniteEnd c.state) ∧
    ∀ (w : World) (es : List (Event Reply Move)), w.status = .initial →
      (w.after es).status.Counted := by
  refine ⟨fun w reply => ?_, fun w es exit c h => ?_, fun w es hw => ?_⟩
  · obtain ⟨n, s, exit, hrun⟩ := service.calls_return runSynchronization runSynchronization w reply
    refine ⟨n, ?_⟩
    rw [Machine.run_cons, show service.step runSynchronization ⟨w, none⟩ .start =
      ⟨w, some runSynchronization⟩ from rfl, hrun]
    rfl
  · exact PassMessages.definite_end h
  · have hinv := Contract.sound_inv (K := messagesContract True) (P := fun _ => True)
      (Q := fun _ _ => True) (s := ⟨w, []⟩) (fun s _ _ _ => ⟨Int.le_refl 0, Int.le_refl 0⟩)
      (fun _ _ _ => trivial) (fun s hs _ => (PassMessages.pass_spec (passLog s.past)).post
        (fun _ _ _ => trivial) s hs rfl)
      (fun _ => by rw [hw]; exact ⟨Int.le_refl 0, Int.le_refl 0⟩) (PassMessages.free_admitted _ es)
    rw [← World.recordAfter_state]
    exact hinv trivial

/-- An initial pass over two dates, with a message handled on the way. -/
def storedPass : List (Event Reply Move) :=
  open Sample in
  calls 15 (reply [july18, july17] 2 [sale 1]) ++ [.act .handleMessage] ++
    calls 20 (reply [july18, july17] 2 [sale 1])

theorem passes_end_definitely_stored :
    DefiniteEnd (Sample.world.recordAfter (.start :: storedPass)) ∧
      (Sample.world.after (.start :: storedPass)).status.Counted :=
  ⟨passes_end_definitely.2.1 Sample.world storedPass (.stored none)
    (service.traced.run runSynchronization ⟨⟨Sample.world, []⟩, none⟩ (.start :: storedPass))
    ⟨trivial, by decide, PassMessages.free_admitted _ _, rfl, by decide +kernel⟩,
    passes_end_definitely.2.2 Sample.world _ rfl⟩

end SteamSalesTray.Sync
