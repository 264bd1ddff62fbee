import SteamSalesTray.Sync.Effects

/-! A request to clear the cache: the flag that the UI thread sets, the pass that takes it, and what
is left of it when the cache is cleared. -/

namespace SteamSalesTray.Sync

open Interaction Transaction Storage Steam

/-! ### What a record says about the request -/

/-- A clear was requested, and no `ClearAllSales` has succeeded since. -/
def Owed : List Happened → Prop
  | [] => False
  | .act .requestClearCache _ :: _ => True
  | .call .clearAllSales true _ :: _ => False
  | _ :: past => Owed past

/-- The worker has taken the request and has not called `ClearAllSales` yet. -/
def InHands : List Happened → Prop
  | .act _ _ :: past => InHands past
  | .call .takeClearRequest true _ :: _ => True
  | _ => False

/-- The pass that runs, or ran last, has taken a request. -/
def TookRequest : List Happened → Prop
  | [] => False
  | .call .takeClearRequest taken _ :: _ => taken = true
  | _ :: past => TookRequest past

def markInUse : List Happened → Bytes
  | [] => []
  | .call (.getChangedDates _ highwatermark) _ _ :: _ => highwatermark
  | _ :: past => markInUse past

def Op.Syncs : Op → Prop
  | .getChangedDates _ _ | .getAllDetailedSalesForDate _ _ | .replaceDate _ _ _ => True
  | _ => False

def Happened.Syncs : Happened → Prop
  | .call op _ _ => op.Syncs
  | _ => False

/-- A pass that has taken a request downloads and stores dates under the mark 0 alone. -/
def NoStaleWork : List Happened → Prop
  | [] => True
  | e :: past =>
    (e.Syncs → TookRequest past → markInUse (e :: past) = ascii "0") ∧ NoStaleWork past

/-- The request is pending or in the hands of the pass that took it until the cache is cleared, and
that pass does not work under the old mark. -/
structure ClearKept (s : Record) : Prop where
  pending : Owed s.past → s.state.clearCacheRequested = true ∨ InHands s.past
  noStale : NoStaleWork s.past

/-! ### Which runs keep it -/

/-- A `ClearAllSales` that is called finds no transaction open, and none of its steps fails. -/
def ClearGoesThrough (reply : Reply) (s : Record) : Op → Prop
  | .clearAllSales =>
    s.state.db.conn.tx = none ∧ reply.faults .beginImmediate = .done ∧
      Write.clearAllSales.Completes reply.faults ∧ reply.faults .commit = .done
  | _ => True

def clearRules : Rules Op Record Reply Move :=
  { aliveRules with call := fun op reply s => ClearGoesThrough reply s op }

theorem exec_clearAllSales {reply : Reply} {w : World} (hopen : w.db.isOpen = true)
    (htx : w.db.conn.tx = none) (hbegin : reply.faults .beginImmediate = .done)
    (hsteps : Write.clearAllSales.Completes reply.faults) (hcommit : reply.faults .commit = .done) :
    (World.exec .clearAllSales reply w).1 = true ∧
      (World.exec .clearAllSales reply w).2.db.conn = ⟨w.db.conn.committed.cleared, none⟩ := by
  have hrun : (Write.clearAllSales.run reply.faults w.db).1 = true :=
    (Write.run_true_iff reply.faults .clearAllSales w.db).mpr
      ⟨hopen, htx, hbegin, hsteps, trivial, hcommit⟩
  exact ⟨hrun, Write.run_true hrun⟩

def clearContract : Contract Op Op.Answer Record Reply Move where
  machine := service.traced
  rules := clearRules
  inv := ClearKept
  inv_act := by
    rintro move s _ ⟨hpending, hstale⟩
    refine ⟨fun howed => ?_, nofun, hstale⟩
    by_cases hmove : move = .requestClearCache
    · subst hmove
      exact .inl rfl
    · have howed' : Owed s.past := by
        cases move with
        | requestClearCache => exact absurd rfl hmove
        | _ => exact howed
      exact (hpending howed').imp (World.act_clearCacheRequested s.state hmove).trans id

namespace ClearRuns

variable {α : Type}

/-- What is owed is asked for by the flag, which is so wherever no pass has a request in hands. -/
def Flagged (s : Record) : Prop := Owed s.past → s.state.clearCacheRequested = true

theorem stable_flagged : clearContract.Stable Flagged := by
  intro move s _ _ h
  by_cases hmove : move = .requestClearCache
  · subst hmove
    exact fun _ => rfl
  · intro howed
    refine (World.act_clearCacheRequested s.state hmove).trans (h ?_)
    cases move with
    | requestClearCache => exact absurd rfl hmove
    | _ => exact howed

theorem flagged_call {op : Op} (htake : op ≠ .takeClearRequest) (reply : Reply) {s : Record}
    (hsync : ∀ answer after, op.Syncs → TookRequest s.past →
      markInUse (.call op answer after :: s.past) = ascii "0")
    (hinv : ClearKept s) (h : Flagged s) :
    ClearKept (service.traced.exec op reply s).2 ∧
      Flagged (service.traced.exec op reply s).2 := by
  have hflagged : Flagged (service.traced.exec op reply s).2 := by
    intro howed
    refine (World.exec_clearCacheRequested op reply s.state htake).trans (h ?_)
    show Owed s.past
    change Owed (.call op (World.exec op reply s.state).1 _ :: s.past) at howed
    revert howed
    generalize (World.exec op reply s.state).1 = answer
    intro howed
    cases op with
    | clearAllSales =>
      cases answer with
      | true => exact howed.elim
      | false => exact howed
    | _ => exact howed
  exact ⟨⟨fun howed => .inl (hflagged howed), hsync _ _, hinv.noStale⟩, hflagged⟩

theorem tookRequest_call {op : Op} (htake : op ≠ .takeClearRequest) {answer : op.Answer}
    {after : World} {past : List Happened} :
    TookRequest (.call op answer after :: past) ↔ TookRequest past := by
  cases op with
  | takeClearRequest => exact absurd rfl htake
  | _ => exact Iff.rfl

theorem markInUse_call {op : Op} (hlist : ∀ key mark, op ≠ .getChangedDates key mark)
    {answer : op.Answer} {after : World} {past : List Happened} :
    markInUse (.call op answer after :: past) = markInUse past := by
  cases op with
  | getChangedDates key mark => exact absurd rfl (hlist key mark)
  | _ => rfl

structure Cleared (s : Record) : Prop where
  isOpen : s.state.db.isOpen = true
  flagged : Flagged s
  mark : TookRequest s.past →
    s.state.db.conn.visible.syncState.changedDatesHighwatermark = ascii "0"

structure Working (s : Record) : Prop where
  flagged : Flagged s
  mark : TookRequest s.past → markInUse s.past = ascii "0"

theorem stable_db (P : Database → Prop) : clearContract.Stable fun s : Record => P s.state.db :=
  Contract.stable_of_kept (fun move s => World.act_db s.state move) P

theorem stable_cleared : clearContract.Stable Cleared := by
  intro move s hmove hinv h
  refine ⟨stable_db (fun db => db.isOpen = true) move s hmove hinv h.isOpen,
    stable_flagged move s hmove hinv h.flagged, fun htook => ?_⟩
  exact stable_db (fun db => db.conn.visible.syncState.changedDatesHighwatermark = ascii "0")
    move s hmove hinv (h.mark htook)

theorem stable_working : clearContract.Stable Working := fun move s hmove hinv h =>
  ⟨stable_flagged move s hmove hinv h.flagged, h.mark⟩

theorem flagged_plain {p : Worker α} (hp : p.Every fun op => op ≠ .takeClearRequest ∧ ¬op.Syncs) :
    clearContract.Spec Flagged p fun _ => Flagged := by
  refine Contract.Spec.every stable_flagged (hp.mono fun op hop s reply hinv h _ => ?_)
  exact flagged_call hop.1 reply (fun _ _ hsync => absurd hsync hop.2) hinv h

theorem cleared_call {op : Op} (hop : op.Routine) {reply : Reply} {s : Record}
    (hinv : ClearKept s) (h : Cleared s) :
    ClearKept (service.traced.exec op reply s).2 ∧
      Cleared (service.traced.exec op reply s).2 := by
  have htake : op ≠ .takeClearRequest := by
    rintro rfl
    exact hop
  have hsync : ¬op.Syncs := by cases op <;> first | exact id | exact fun _ => hop
  obtain ⟨hinv', hflagged⟩ :=
    flagged_call htake reply (fun _ _ hop => absurd hop hsync) hinv h.flagged
  refine ⟨hinv', ?_, hflagged, fun htook => ?_⟩
  · exact (World.exec_isOpen op reply s.state hop.quiet.1).trans h.isOpen
  · have hmark := h.mark ((tookRequest_call htake).mp htook)
    exact World.exec_lasts op reply s.state hop.quiet
      (fun _ _ hsame ht => hsame.mark.trans ht) hmark

theorem cleared_routine {p : Worker α} (hp : p.Every Op.Routine) :
    clearContract.Spec Cleared p fun _ => Cleared :=
  Contract.Spec.every stable_cleared (hp.mono fun _ hop _ _ hinv h _ => cleared_call hop hinv h)

theorem working_listed {p : Worker α} (hp : p.Every Op.Listed) :
    clearContract.Spec Working p fun _ => Working := by
  refine Contract.Spec.every stable_working (hp.mono fun op hop s reply hinv h _ => ?_)
  have htake : op ≠ .takeClearRequest := by
    rintro rfl
    exact hop
  have hlist : ∀ key mark, op ≠ .getChangedDates key mark := by
    rintro key mark rfl
    exact hop
  have hmark : ∀ answer after, TookRequest s.past →
      markInUse (.call op answer after :: s.past) = ascii "0" := fun _ _ htook =>
    (markInUse_call hlist).trans (h.mark htook)
  obtain ⟨hinv', hflagged⟩ := flagged_call htake reply
    (fun answer after _ => hmark answer after) hinv h.flagged
  exact ⟨hinv', hflagged, fun htook => hmark _ _ ((tookRequest_call htake).mp htook)⟩

/-! ### The pass -/

theorem ensureOpen_spec :
    clearContract.Spec Flagged ensureOpen
      fun opened s => Flagged s ∧ (opened = true → s.state.db.isOpen = true) := by
  have hstable : ∀ p : Prop, clearContract.Stable fun s : Record =>
      Flagged s ∧ (p → s.state.db.isOpen = true) := fun p =>
    stable_flagged.and (stable_db fun db => p → db.isOpen = true)
  refine Contract.Spec.call stable_flagged
    (R := fun opened s => Flagged s ∧ (opened = true → s.state.db.isOpen = true)) ?_
    fun opened => ?_
  · intro s reply hinv h _
    have hop : Op.isOpen ≠ .takeClearRequest := nofun
    obtain ⟨hinv', hflagged⟩ := flagged_call hop reply (fun _ _ hsync => hsync.elim) hinv h
    exact ⟨hinv', hflagged, fun hopen => hopen⟩
  · cases opened with
    | true => exact Contract.Spec.ret (hstable _) fun _ _ h => h
    | false =>
      refine Contract.Spec.perform (hstable _) (fun _ => hstable _) fun s reply hinv h _ => ?_
      have hop : Op.openDatabase ≠ .takeClearRequest := nofun
      obtain ⟨hinv', hflagged⟩ := flagged_call hop reply (fun _ _ hsync => hsync.elim) hinv h.1
      exact ⟨hinv', hflagged, fun hopened => hopened⟩

def AboutToClear (s : Record) : Prop := s.state.db.isOpen = true ∧ InHands s.past

theorem stable_aboutToClear : clearContract.Stable AboutToClear :=
  (stable_db fun db => db.isOpen = true).and fun _ _ _ _ h => h

theorem clearIfRequested_spec :
    clearContract.Spec (fun s => s.state.db.isOpen = true ∧ Flagged s) clearIfRequested
      fun _ => Cleared := by
  refine Contract.Spec.call ((stable_db fun db => db.isOpen = true).and stable_flagged)
    (R := fun taken s => if taken = true then AboutToClear s else Cleared s) ?_ fun taken => ?_
  · rintro s reply hinv ⟨hopen, hflagged⟩ _
    show ClearKept ⟨_, .call .takeClearRequest s.state.clearCacheRequested _ :: s.past⟩ ∧
      if s.state.clearCacheRequested = true then _ else _
    cases htaken : s.state.clearCacheRequested with
    | true =>
      have hhands : ∀ after, InHands (.call .takeClearRequest s.state.clearCacheRequested after ::
          s.past) := by
        intro after
        rw [htaken]
        trivial
      exact ⟨⟨fun _ => .inr trivial, fun hop => hop.elim, hinv.noStale⟩, hopen, hhands _⟩
    | false =>
      have hfree : ¬Owed s.past := fun howed =>
        Bool.false_ne_true (htaken.symm.trans (hflagged howed))
      refine ⟨⟨fun howed => absurd howed hfree, fun hop => hop.elim, hinv.noStale⟩, ?_⟩
      rw [if_neg Bool.false_ne_true]
      exact ⟨hopen, fun howed => absurd howed hfree, fun htook =>
        absurd (htaken.symm.trans htook) Bool.false_ne_true⟩
  · cases taken with
    | false => exact Contract.Spec.done stable_cleared
    | true =>
      refine Contract.Spec.call stable_aboutToClear (R := fun _ => Cleared) ?_ fun _ => ?_
      · rintro s reply hinv ⟨hopen, _⟩ ⟨htx, hbegin, hsteps, hcommit⟩
        obtain ⟨hdone, hconn⟩ := exec_clearAllSales hopen htx hbegin hsteps hcommit
        have howed : ∀ after, ¬Owed (.call .clearAllSales
            (World.exec .clearAllSales reply s.state).1 after :: s.past) := by
          intro after
          rw [hdone]
          exact id
        refine ⟨⟨fun h => absurd h (howed _), fun hop => hop.elim, hinv.noStale⟩, ?_,
          fun h => absurd h (howed _), fun _ => ?_⟩
        · exact (World.exec_isOpen .clearAllSales reply s.state nofun).trans hopen
        · exact congrArg (·.visible.syncState.changedDatesHighwatermark) hconn
      · exact Contract.Spec.done stable_cleared

theorem syncWithKey_spec (key : Bytes) :
    clearContract.Spec Cleared (syncWithKey key) fun _ => Flagged := by
  unfold syncWithKey
  -- A read that fails gives 0, the mark that a cleared cache has.
  refine Contract.Spec.call stable_cleared
    (R := fun hwm s => Cleared s ∧ (TookRequest s.past → hwm = ascii "0")) ?_ fun hwm => ?_
  · intro s reply hinv h _
    have hop : Op.getChangedDatesHighwatermark.Routine := trivial
    obtain ⟨hinv', hcleared⟩ := cleared_call hop hinv h
    refine ⟨hinv', hcleared, fun htook => ?_⟩
    exact Database.getChangedDatesHighwatermark_zero (h.mark htook) reply.readLimit
  · have hfact : ∀ p : Prop, clearContract.Stable fun s : Record =>
        Cleared s ∧ (TookRequest s.past → p) := fun p => stable_cleared.and fun _ _ _ _ h => h
    refine Contract.Spec.call (hfact _)
      (R := fun _ s => Cleared s ∧ (TookRequest s.past → hwm = ascii "0")) ?_
      fun notifyEnabled => ?_
    · rintro s reply hinv ⟨h, hhwm⟩ _
      have hop : Op.getNotifyOnNewUnits.Routine := trivial
      obtain ⟨hinv', hcleared⟩ := cleared_call hop hinv h
      exact ⟨hinv', hcleared, hhwm⟩
    · refine Contract.Spec.call (hfact _) (R := fun _ => Working) ?_ fun ⟨r, changed⟩ => ?_
      · rintro s reply hinv ⟨h, hhwm⟩ _
        have hop : Op.getChangedDates key hwm ≠ .takeClearRequest := nofun
        obtain ⟨hinv', hflagged⟩ := flagged_call hop reply (fun _ _ _ => hhwm) hinv h.flagged
        exact ⟨hinv', hflagged, hhwm⟩
      · refine Contract.Spec.mono (working_listed ?_) (fun _ _ h => h) fun _ _ h => h.flagged
        have routine_listed : ∀ {p : Worker Exit}, p.Every Op.Routine → p.Every Op.Listed :=
          fun hp => hp.mono fun _ h => h.storing.listed
        show Program.Every _ (if r.ok = true then _ else _)
        split
        · refine ⟨trivial, fun now => ⟨trivial, fun _ => ?_⟩⟩
          show Program.Every _ (if _ then _ else _)
          split
          · exact (finishUnchanged_storing _).mono fun _ h => h.listed
          · exact syncChanged_listed _ _ _ _ _
        · exact routine_listed (failPass_routine _ _ _ _)

theorem pass_spec : clearContract.Spec Flagged runSynchronization fun _ => Flagged := by
  have hstarted : (post .syncStarted).Every fun op => op ≠ .takeClearRequest ∧ ¬op.Syncs :=
    ⟨⟨nofun, id⟩, fun _ => trivial⟩
  have hsyncing : (setStatus .syncing (wide "Updating…")).Every fun op =>
      op ≠ .takeClearRequest ∧ ¬op.Syncs := ⟨⟨nofun, id⟩, fun _ => trivial⟩
  have hclosed : (failPass .databaseError (wide "Could not open the local cache.") none
      .databaseError).Every fun op => op ≠ .takeClearRequest ∧ ¬op.Syncs :=
    ⟨⟨nofun, id⟩, fun _ => ⟨⟨nofun, id⟩, fun _ => trivial⟩⟩
  exact runSynchronization_spec (flagged_plain hstarted) (flagged_plain hsyncing) ensureOpen_spec
    ((flagged_plain hclosed).pre fun _ _ h => h.1)
    (clearIfRequested_spec.pre fun _ _ h => ⟨h.2 rfl, h.1⟩) (cleared_routine loadKey_routine)
    ((cleared_routine (failPass_routine _ _ _ _)).post fun _ _ h => h.flagged)
    syncWithKey_spec

end ClearRuns

/-- A request to clear the cache is not lost in any run whose calls of `ClearAllSales` go through,
and no pass that takes one works under the old mark. -/
theorem clear_request_kept {w : World} {es : List (Event Reply Move)}
    (hes : clearRules.Admitted service.traced runSynchronization ⟨⟨w, []⟩, none⟩ es) :
    ClearKept (w.recordAfter es) := by
  have hstart : ClearKept ⟨w, []⟩ := ⟨False.elim, trivial⟩
  exact (Contract.sound (K := clearContract) ClearRuns.stable_flagged
    (fun _ hkill _ => absurd hkill id) (fun _ _ _ h => h) ClearRuns.pass_spec
    (fun _ _ _ h => h) (Contract.Good.between hstart (I := ClearRuns.Flagged) False.elim) hes).inv

instance : DecidablePred clearRules.start := fun _ => .isTrue trivial

instance (op : Op) (reply : Reply) (s : Record) : Decidable (clearRules.call op reply s) :=
  match op with
  | .clearAllSales =>
    inferInstanceAs (Decidable (_ = none ∧ _ = _ ∧ (_ = _ ∧ _ = _ ∧ _ = _) ∧ _ = _))
  | .post _ | .updateStatus _ | .isOpen | .openDatabase | .takeClearRequest | .hasStoredKey
  | .loadKey | .getChangedDatesHighwatermark | .getNotifyOnNewUnits | .getChangedDates _ _
  | .utcNowIso8601 | .write _ | .getBackfillCursor | .queryLifetime | .iterate _
  | .getAllDetailedSalesForDate _ _ | .replaceDate _ _ _ | .steamToday | .sumForDate _ =>
    .isTrue trivial

instance (move : Move) (s : Record) : Decidable (clearRules.act move s) := .isTrue trivial

instance : DecidablePred clearRules.kill := fun _ => .isFalse id

/-- A pass takes a request and clears the cache, and another request comes while it fetches the
first date. -/
def clearedRun : List (Event Reply Move) :=
  open Sample in
  [.act .requestClearCache, .start] ++ calls 16 (reply [july18, july17] 2 [sale 1]) ++
    [.act .requestClearCache] ++ calls 5 (reply [july18, july17] 2 [sale 1])

theorem clear_request_kept_run :
    (Sample.stored.after clearedRun).db.conn.committed.daily.length = 1 ∧
      ClearKept (Sample.stored.recordAfter clearedRun) :=
  ⟨by decide +kernel, clear_request_kept (by decide +kernel)⟩

/-- The pass takes the request, and its `ClearAllSales` cannot begin. -/
def lostRun : List (Event Reply Move) :=
  open Sample in
  [.act .requestClearCache, .start] ++
    calls 5 { reply [] 2 [] with
      faults := fun step => if step = .beginImmediate then .busy else .done }

/-- The request is neither carried out nor pending. -/
theorem clear_request_lost :
    ¬∀ (w : World) (es : List (Event Reply Move)),
      aliveRules.Admitted service.traced runSynchronization ⟨⟨w, []⟩, none⟩ es →
      ClearKept (w.recordAfter es) := by
  intro h
  have hadmitted : aliveRules.Admitted service.traced runSynchronization ⟨⟨Sample.stored, []⟩, none⟩
      lostRun := ⟨trivial, trivial, trivial, trivial, trivial, trivial, trivial, trivial⟩
  rcases (h Sample.stored lostRun hadmitted).pending trivial with hflag | hhands
  · exact absurd hflag (by decide +kernel)
  · exact hhands

end SteamSalesTray.Sync
