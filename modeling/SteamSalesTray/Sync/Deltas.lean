import SteamSalesTray.Sync.Comparing
import SteamSalesTray.Sync.Snapshots

/-! The increases that a pass reports: for each product, its lifetime units at the end of the pass
minus those at its start. -/

namespace SteamSalesTray.Sync

open Interaction Transaction Storage Steam

/-- Reads return all their rows, and nobody asks for a clear. -/
def deltaRules : Rules Op World Reply Move where
  start _ := True
  call _ reply _ := reply.readLimit = none
  act move _ := move ≠ .requestClearCache
  kill _ := True

/-- The tables have their keys, and a closed database has no open transaction. -/
structure Intact (w : World) : Prop where
  valid : w.db.conn.Both Tables.Valid
  closed : w.db.isOpen = false → w.db.conn.tx = none

/-- The tables have their keys, no clear is asked for, and a closed database has no open
transaction. -/
structure Ready (w : World) : Prop where
  valid : w.db.conn.Both Tables.Valid
  noClear : w.clearCacheRequested = false
  closed : w.db.isOpen = false → w.db.conn.tx = none

theorem effect_valid {t : Tables} (h : t.Valid) {op : Op} (hop : op.Distinct) :
    (op.effect t).Valid := by
  cases op with
  | clearAllSales =>
    have hdistinct : Write.clearAllSales.Distinct := trivial
    exact h.result hdistinct
  | replaceDate date rows nowUtc =>
    have hdistinct : (Write.replaceDate date rows nowUtc).Distinct := hop
    exact h.result hdistinct
  | write update => exact h.written update
  | _ => exact h

theorem Intact.act {w : World} (h : Intact w) (move : Move) : Intact (w.act move) := by
  constructor
  · rw [World.act_db]
    exact h.valid
  · rw [World.act_db]
    exact h.closed

theorem Intact.exec {w : World} (h : Intact w) (op : Op) (reply : Reply) :
    Intact (World.exec op reply w).2 where
  valid := World.exec_both op reply w h.valid fun hop => effect_valid h.valid.2 hop
  closed hclosed := by
    by_cases hop : op = .openDatabase
    · subst hop
      rfl
    · have hopen := (World.exec_isOpen op reply w hop).symm.trans hclosed
      rw [World.exec_closed op reply w hop hopen]
      exact h.closed hopen

theorem Ready.intact {w : World} (h : Ready w) : Intact w := ⟨h.valid, h.closed⟩

theorem Ready.act {w : World} (h : Ready w) {move : Move} (hmove : move ≠ .requestClearCache) :
    Ready (w.act move) where
  valid := (h.intact.act move).valid
  noClear := (World.act_clearCacheRequested w hmove).trans h.noClear
  closed := (h.intact.act move).closed

theorem Ready.exec {w : World} (h : Ready w) (op : Op) (reply : Reply) :
    Ready (World.exec op reply w).2 where
  valid := (h.intact.exec op reply).valid
  noClear := by
    by_cases hop : op = .takeClearRequest
    · subst hop
      rfl
    · exact (World.exec_clearCacheRequested op reply w hop).trans h.noClear
  closed := (h.intact.exec op reply).closed

def deltaContract : Contract Op Op.Answer World Reply Move where
  machine := service
  rules := deltaRules
  inv := Ready
  inv_act _ _ hmove h := h.act hmove

namespace DeltaRuns

variable {α : Type}

theorem stable_db {P : Database → Prop} : deltaContract.Stable fun w => P w.db :=
  Contract.stable_of_kept (f := World.db) (fun move w => World.act_db w move) P

theorem stable_shows (v : Tables → Prop) : deltaContract.Stable (Shows v) :=
  stable_db (P := fun db => db.isOpen = true ∧ v db.conn.visible)

theorem ready_spec (p : Worker α) : deltaContract.Spec (fun _ => True) p fun _ _ => True :=
  Contract.Spec.every (Contract.stable_const True) (Program.every_of_forall
    (fun op _ reply hw _ _ => ⟨hw.exec op reply, trivial⟩) p)

theorem quiet {p : Worker α} (hp : p.Every Op.Quiet) {v : Tables → Prop} (hv : Lasts v) :
    deltaContract.Spec (Shows v) p fun _ => Shows v := by
  refine Contract.Spec.every (stable_shows v) (hp.mono fun op hop w reply hw h _ => ?_)
  exact ⟨hw.exec op reply, (World.exec_isOpen op reply w hop.1).trans h.1,
    World.exec_lasts op reply w hop hv h.2⟩

theorem routine {p : Worker α} (hp : p.Every Op.Routine) {v : Tables → Prop} (hv : Lasts v) :
    deltaContract.Spec (Shows v) p fun _ => Shows v :=
  quiet (hp.mono fun _ hop => hop.quiet) hv

/-- Calls that store dates keep what does not depend on the tables. -/
theorem storing {p : Worker α} (hp : p.Every Op.Storing) (fact : Prop) :
    deltaContract.Spec (Shows fun _ => fact) p fun _ => Shows fun _ => fact := by
  refine Contract.Spec.every (stable_shows _) (hp.mono fun op hop w reply hw h _ => ?_)
  have hne : op ≠ .openDatabase := by
    rintro rfl
    exact hop
  exact ⟨hw.exec op reply, (World.exec_isOpen op reply w hne).trans h.1, h.2⟩

theorem lasts_const (fact : Prop) : Lasts fun _ => fact := fun _ _ _ h => h

theorem lasts_daily (base : Tables) : Lasts fun t => t.daily = base.daily :=
  fun _ _ hsame h => hsame.daily.trans h

theorem lifetimeSnapshot_spec (v : Tables → Prop) :
    deltaContract.Spec (Shows v) lifetimeSnapshot fun map =>
      Shows fun t => v t ∧ Records map t ∧ Reports map t := by
  refine Contract.Spec.call (stable_shows v)
    (R := fun rows => Shows fun t => v t ∧ Records (Snapshot.ofRows rows) t ∧
      Reports (Snapshot.ofRows rows) t) ?_ fun rows => ?_
  · rintro w reply hw ⟨hopen, hvisible⟩ hreads
    refine ⟨hw, hopen, hvisible, ?_⟩
    show Records (Snapshot.ofRows (w.db.queryLifetime reply.readLimit)) w.db.conn.visible ∧
      Reports (Snapshot.ofRows (w.db.queryLifetime reply.readLimit)) w.db.conn.visible
    rw [show reply.readLimit = none from hreads]
    exact ⟨records_queryLifetime hopen hw.valid.2, reports_queryLifetime hopen hw.valid.2⟩
  · exact Contract.Spec.ret (stable_shows _) fun _ _ h => h

/-- What a pass that ends by comparing two snapshots has compared. -/
def Ends (base : Tables) (exit : Exit) (w : World) : Prop :=
  ∀ before after, exit = .stored (some (before, after)) →
    Records before base ∧ Reports after w.db.conn.visible

theorem notificationAfter_spec {fact : Prop} (before : Snapshot) :
    deltaContract.Spec (Shows fun _ => fact) (notificationAfter before) fun result =>
      Shows fun t => fact ∧ Reports result.1 t := by
  have hlast : ∀ after, Lasts fun t => fact ∧ Reports after t :=
    fun after t t' hsame h => ⟨h.1, h.2.congr hsame.daily⟩
  have htoday : (perform .steamToday).Every Op.Routine := ⟨trivial, fun _ => trivial⟩
  have hsum : ∀ date, (perform (.sumForDate date)).Every Op.Routine :=
    fun _ => ⟨trivial, fun _ => trivial⟩
  refine (lifetimeSnapshot_spec fun _ => fact).bind fun after => ?_
  refine Contract.Spec.pre (P := Shows fun t => fact ∧ Reports after t) ?_
    fun _ _ h => ⟨h.1, h.2.1, h.2.2.2⟩
  refine (routine htoday (hlast after)).bind fun today => ?_
  refine (routine (hsum today) (hlast after)).bind fun todayNet => ?_
  refine Contract.Spec.call (stable_shows _)
    (R := fun _ => Shows fun t => fact ∧ Reports after t) ?_ fun entries => ?_
  · exact fun w _ hw h _ => ⟨hw, h⟩
  · exact Contract.Spec.ret (stable_shows _) fun _ _ h => ⟨h.1, h.2.1, h.2.2.perm entries.2⟩

def NotStored (exit : Exit) : Prop := ∀ compared, exit ≠ .stored compared

theorem ends_of_notStored {base : Tables} {exit : Exit} (h : NotStored exit) (w : World) :
    Ends base exit w :=
  fun _ _ hexit => absurd hexit (h _)

theorem notStored_of_failed {exit : Exit} (h : exit.Failed) : NotStored exit := by
  rintro compared rfl
  exact h

theorem finishStored_spec (base : Tables) (now : Bytes) (initial notifyEnabled : Bool)
    (resultHighwatermark : Bytes) (before : Snapshot) :
    deltaContract.Spec (Shows fun _ => (notifyEnabled && !initial) = true → Records before base)
      (finishStored now initial notifyEnabled resultHighwatermark before) (Ends base) := by
  unfold finishStored
  refine (storing (advanceMark_storing _) _).bind fun _ => ?_
  refine (storing (checkpoint_storing _ _) _).bind fun _ => ?_
  refine (routine (write_routine (by trivial)) (lasts_const _)).bind fun _ => ?_
  refine (routine (write_routine (by trivial)) (lasts_const _)).bind fun _ => ?_
  by_cases hcompare : (notifyEnabled && !initial) = true
  · rw [if_pos hcompare]
    refine (notificationAfter_spec before).bind fun ⟨after, text⟩ => ?_
    have hlast : Lasts fun t =>
        ((notifyEnabled && !initial) = true → Records before base) ∧ Reports after t :=
      fun _ _ hsame h => ⟨h.1, h.2.congr hsame.daily⟩
    refine (quiet (publish_quiet text) hlast).bind fun _ => ?_
    refine Contract.Spec.ret (stable_shows _) fun w _ h => ?_
    rintro before' after' ⟨⟩
    exact ⟨h.2.1 hcompare, h.2.2⟩
  · rw [if_neg hcompare]
    refine (quiet (publish_quiet []) (lasts_const _)).bind fun _ => ?_
    exact Contract.Spec.ret (stable_shows _) fun _ _ _ _ _ => nofun

theorem syncChanged_spec (base : Tables) (key now : Bytes) (initial notifyEnabled : Bool)
    (changed : ChangedDates) :
    deltaContract.Spec (Shows fun t => t.daily = base.daily)
      (syncChanged key now initial notifyEnabled changed) (Ends base) := by
  unfold syncChanged
  have hbase := lasts_daily base
  refine (routine (readCursor_routine initial) hbase).bind fun cursor => ?_
  refine (routine (updateStatus_routine (by trivial)) hbase).bind fun _ => ?_
  refine (routine (post_routine (by trivial)) hbase).bind fun _ => ?_
  refine Contract.Spec.bind (R := fun before =>
    Shows fun _ => (notifyEnabled && !initial) = true → Records before base) ?_ fun before => ?_
  · cases notifyEnabled && !initial with
    | true =>
      refine (lifetimeSnapshot_spec _).post fun before w h =>
        ⟨h.1, fun _ app => ?_⟩
      obtain ⟨_, hdaily, hrecords, _⟩ := h
      exact (hrecords app).trans (lifetimeUnits_congr hdaily app)
    | false => exact Contract.Spec.ret (stable_shows _) fun _ _ h => ⟨h.1, nofun⟩
  · refine ((storing (syncDates_storing key now initial _) _).returns
      (syncDates_returns key now initial _)).bind fun failed => ?_
    cases failed with
    | some exit =>
      refine Contract.Spec.ret ((stable_shows _).and (Contract.stable_const _)) fun w _ h => ?_
      exact ends_of_notStored (notStored_of_failed (h.2 exit rfl)) w
    | none =>
      exact (finishStored_spec base now initial notifyEnabled _ before).pre fun _ _ h => h.1

theorem failPass_spec (base : Tables) (status : SyncStatus) (message : Wide)
    (lastError : Option Bytes) {exit : Exit} (hexit : NotStored exit) :
    deltaContract.Spec (fun _ => True) (failPass status message lastError exit) (Ends base) := by
  refine ((ready_spec _).returns (failPass_returns status message lastError exit)).post
    fun value w h => ?_
  exact ends_of_notStored (h.2 ▸ hexit) w

theorem syncWithKey_spec (base : Tables) (key : Bytes) :
    deltaContract.Spec (Shows fun t => t.daily = base.daily) (syncWithKey key) (Ends base) := by
  have hbase := lasts_daily base
  have hread : (perform .getChangedDatesHighwatermark).Every Op.Quiet :=
    ⟨⟨nofun, fun _ => .refl _⟩, fun _ => trivial⟩
  have hnotify : (perform .getNotifyOnNewUnits).Every Op.Quiet :=
    ⟨⟨nofun, fun _ => .refl _⟩, fun _ => trivial⟩
  have hlist : ∀ hwm, (perform (.getChangedDates key hwm)).Every Op.Quiet :=
    fun _ => ⟨⟨nofun, fun _ => .refl _⟩, fun _ => trivial⟩
  have hnow : (perform .utcNowIso8601).Every Op.Quiet :=
    ⟨⟨nofun, fun _ => .refl _⟩, fun _ => trivial⟩
  have hlistFailed : NotStored .changedDatesFailed := fun _ => nofun
  unfold syncWithKey
  refine (quiet hread hbase).bind fun hwm => ?_
  refine (quiet hnotify hbase).bind fun notifyEnabled => ?_
  refine (quiet (hlist hwm) hbase).bind fun ⟨r, changed⟩ => ?_
  show deltaContract.Spec _ (if r.ok = true then _ else _) _
  split
  · refine (quiet hnow hbase).bind fun now => ?_
    refine (routine (write_routine (by trivial)) hbase).bind fun _ => ?_
    split
    · refine ((storing (finishUnchanged_storing _) True).returns
        (finishUnchanged_returns _)).mono (fun _ _ h => ⟨h.1, trivial⟩) fun exit w h => ?_
      exact ends_of_notStored (h.2 ▸ fun _ => nofun) w
    · exact syncChanged_spec base key now _ notifyEnabled changed
  · exact (failPass_spec base _ _ _ hlistFailed).pre fun _ _ _ => trivial

theorem ensureOpen_spec (base : Tables) :
    deltaContract.Spec (fun w => w.db.conn.visible.daily = base.daily) ensureOpen
      fun opened w => opened = true → Shows (fun t => t.daily = base.daily) w := by
  refine Contract.Spec.call (stable_db (P := fun db => db.conn.visible.daily = base.daily))
    (R := fun opened w => w.db.isOpen = opened ∧ w.db.conn.visible.daily = base.daily)
    (fun w _ hw h _ => ⟨hw, rfl, h⟩) fun opened => ?_
  have hstable : deltaContract.Stable fun w => w.db.isOpen = opened ∧
      w.db.conn.visible.daily = base.daily :=
    stable_db (P := fun db => db.isOpen = opened ∧ db.conn.visible.daily = base.daily)
  cases opened with
  | true => exact Contract.Spec.ret hstable fun _ _ h _ => h
  | false =>
    refine Contract.Spec.perform hstable (fun opened => stable_db
      (P := fun db => opened = true → db.isOpen = true ∧ db.conn.visible.daily = base.daily)) ?_
    rintro w reply hw ⟨hclosed, hdaily⟩ _
    have htx := hw.closed hclosed
    refine ⟨hw.exec .openDatabase reply, fun hopened => ⟨hopened, ?_⟩⟩
    show w.db.conn.drop.visible.daily = base.daily
    rw [Connection.drop_visible, ← hdaily, Connection.visible_of_closed htx]

theorem clearIfRequested_spec (base : Tables) :
    deltaContract.Spec (Shows fun t => t.daily = base.daily) clearIfRequested
      fun _ => Shows fun t => t.daily = base.daily := by
  refine Contract.Spec.call (stable_shows _)
    (R := fun taken => Shows fun t => taken = false ∧ t.daily = base.daily) ?_ fun taken => ?_
  · intro w reply hw h _
    exact ⟨hw.exec .takeClearRequest reply, h.1, hw.noClear, h.2⟩
  · cases taken with
    | true => exact fun w _ h => absurd h.2.1 nofun
    | false => exact Contract.Spec.ret (stable_shows _) fun _ _ h => ⟨h.1, h.2.2⟩

theorem pass_spec (base : Tables) :
    deltaContract.Spec (fun w => w.db.conn.visible.daily = base.daily) runSynchronization
      (Ends base) := by
  have hdaily : deltaContract.Stable fun w => w.db.conn.visible.daily = base.daily :=
    stable_db (P := fun db => db.conn.visible.daily = base.daily)
  have hquiet : ∀ {p : Worker Unit}, p.Every Op.Quiet →
      deltaContract.Spec (fun w => w.db.conn.visible.daily = base.daily) p
        fun _ w => w.db.conn.visible.daily = base.daily := by
    intro p hp
    refine Contract.Spec.every hdaily (hp.mono fun op hop w reply hw h _ => ?_)
    exact ⟨hw.exec op reply, World.exec_lasts op reply w hop (lasts_daily base) h⟩
  have hsyncing : (setStatus .syncing (wide "Updating…")).Every Op.Quiet :=
    ⟨⟨nofun, fun _ => .refl _⟩, fun _ => trivial⟩
  have hopenFailed : NotStored .databaseError := fun _ => nofun
  have hkeyMissing : NotStored .missingApiKey := fun _ => nofun
  exact runSynchronization_spec (hquiet (post_quiet .syncStarted)) (hquiet hsyncing)
    (ensureOpen_spec base) ((failPass_spec base _ _ _ hopenFailed).pre fun _ _ _ => trivial)
    ((clearIfRequested_spec base).pre fun _ _ h => h rfl)
    (routine loadKey_routine (lasts_daily base))
    ((failPass_spec base _ _ _ hkeyMissing).pre fun _ _ _ => trivial) (syncWithKey_spec base)

end DeltaRuns

theorem Ready.crash {w : World} (h : Ready w) : Ready w.crash :=
  ⟨h.valid.drop, rfl, fun _ => rfl⟩

theorem ready_fresh {w : World} (hdb : w.db = .fresh) (hclear : w.clearCacheRequested = false) :
    Ready w := by
  refine ⟨?_, hclear, ?_⟩
  · rw [hdb]
    exact ⟨Tables.valid_fresh, Tables.valid_fresh⟩
  · rw [hdb]
    exact nofun

/-- A whole pass, from its start in `c` to its exit in `c'`. -/
abbrev Pass (c : Config Op Op.Answer World Exit) (es : List (Event Reply Move)) (exit : Exit)
    (c' : Config Op Op.Answer World Exit) : Prop :=
  Execution deltaRules service runSynchronization c es exit c'

/-- Passes, one after the other, that all fail. -/
inductive FailedPasses :
    Config Op Op.Answer World Exit → Config Op Op.Answer World Exit → Prop where
  | none (c : Config Op Op.Answer World Exit) : FailedPasses c c
  | pass {c c' c'' : Config Op Op.Answer World Exit} {es : List (Event Reply Move)} {exit : Exit}
      (first : Pass c es exit c') (failed : exit.Failed)
      (rest : FailedPasses c' c'') : FailedPasses c c''

theorem Pass.ready {c c' : Config Op Op.Answer World Exit} {es : List (Event Reply Move)}
    {exit : Exit} (h : Pass c es exit c') (hc : Ready c.state) : Ready c'.state :=
  ((DeltaRuns.pass_spec c.state.db.conn.visible).execution (K := deltaContract) h hc rfl).1

theorem FailedPasses.ready {c c' : Config Op Op.Answer World Exit} (h : FailedPasses c c')
    (hc : Ready c.state) : Ready c'.state := by
  induction h with
  | none c => exact hc
  | pass first failed rest ih => exact ih (first.ready hc)

/-- What the events of a pass that starts in `c` leave in the record. -/
def passRecord (c : Config Op Op.Answer World Exit) (es : List (Event Reply Move)) :
    List Happened :=
  (service.traced.run runSynchronization ⟨⟨c.state, []⟩, c.current⟩ (.start :: es)).state.past

theorem Pass.compared_iff {c c' : Config Op Op.Answer World Exit} {es : List (Event Reply Move)}
    {compared : Option (Snapshot × Snapshot)} (h : Pass c es (.stored compared) c') :
    compared.isSome ↔ Compares (passRecord c es) :=
  Sync.compared_iff (h.traced [])

/-- Between two passes that store dates, however many fail: the second one compares if it is
incremental and finds notifications on, and what it reports for a product is the change of its
lifetime units during that pass, and so the change since the end of the first one exactly if the
failed passes left the product's lifetime units as they were. -/
theorem delta_since_start {c₀ c₁ c₂ c₃ : Config Op Op.Answer World Exit}
    (hready : Ready c₀.state) {es₁ es₂ : List (Event Reply Move)}
    {compared₁ compared₂ : Option (Snapshot × Snapshot)}
    (hfirst : Pass c₀ es₁ (.stored compared₁) c₁) (hfailed : FailedPasses c₁ c₂)
    (hsecond : Pass c₂ es₂ (.stored compared₂) c₃) :
    (compared₂.isSome ↔ Compares (passRecord c₂ es₂)) ∧
    ∀ before after, compared₂ = some (before, after) →
      ∀ app, HasRows c₃.state.db.conn.visible app → ∃ entry ∈ after, entry.1 = app ∧
        delta before entry = lifetimeUnits c₃.state.db.conn.visible app -
          lifetimeUnits c₂.state.db.conn.visible app ∧
        (delta before entry = lifetimeUnits c₃.state.db.conn.visible app -
            lifetimeUnits c₁.state.db.conn.visible app ↔
          lifetimeUnits c₂.state.db.conn.visible app =
            lifetimeUnits c₁.state.db.conn.visible app) := by
  refine ⟨hsecond.compared_iff, ?_⟩
  rintro before after rfl app happ
  have hready₂ := hfailed.ready (hfirst.ready hready)
  obtain ⟨_, hends⟩ := (DeltaRuns.pass_spec c₂.state.db.conn.visible).execution
    (K := deltaContract) hsecond hready₂ rfl
  obtain ⟨hbefore, hafter⟩ := hends before after rfl
  obtain ⟨entry, hentry, rfl⟩ := hafter.found app happ
  have hdelta := delta_eq hbefore hafter hentry
  refine ⟨entry, hentry, rfl, hdelta, ?_⟩
  rw [hdelta]
  omega

instance : DecidablePred deltaRules.start := fun _ => .isTrue trivial

instance (op : Op) (reply : Reply) (w : World) : Decidable (deltaRules.call op reply w) :=
  inferInstanceAs (Decidable (reply.readLimit = none))

instance (move : Move) (w : World) : Decidable (deltaRules.act move w) :=
  inferInstanceAs (Decidable (move ≠ .requestClearCache))

instance : DecidablePred deltaRules.kill := fun _ => .isTrue trivial

instance (t : Tables) (app : Int) : Decidable (HasRows t app) :=
  inferInstanceAs (Decidable (∃ r ∈ t.daily, r.appId = app))

def firstPass : List (Event Reply Move) :=
  open Sample in
  .act (.serverChange 0 july17 [sale 5]) :: calls 28 (reply [july17] 3 [sale 5])

/-- Both dates get more units; the pass stores the first date and cannot fetch the second. -/
def failedPass : List (Event Reply Move) :=
  open Sample in
  [.act (.serverChange 0 july17 [sale 9]), .act (.serverChange 0 july18 [sale 7])] ++
    calls 18 (reply [july18, july17] 5 [sale 9]) ++
    calls 10 (offline (reply [july18, july17] 5 []))

def secondPass : List (Event Reply Move) :=
  open Sample in
  calls 16 (reply [july18, july17] 5 [sale 9]) ++ calls 20 (reply [july18, july17] 5 [sale 7])

def afterFirst : Config Op Op.Answer World Exit :=
  service.run runSynchronization ⟨Sample.stored, none⟩ (.start :: firstPass)

def afterFailed : Config Op Op.Answer World Exit :=
  service.run runSynchronization afterFirst (.start :: failedPass)

def afterSecond : Config Op Op.Answer World Exit :=
  service.run runSynchronization afterFailed (.start :: secondPass)

theorem firstPass_stores : Pass ⟨Sample.stored, none⟩ firstPass
    (.stored (some ([(480, ⟨wide "git gud", 3⟩)], [(480, ⟨wide "git gud", 7⟩)]))) afterFirst :=
  ⟨trivial, by decide +kernel, by decide +kernel, rfl, by decide +kernel⟩

theorem failedPass_fails : FailedPasses afterFirst afterFailed := by
  have hfirst : Pass afterFirst failedPass .detailedSalesFailed afterFailed :=
    ⟨by decide +kernel, by decide +kernel, by decide +kernel, rfl, by decide +kernel⟩
  exact .pass hfirst trivial (.none _)

theorem secondPass_stores : Pass afterFailed secondPass
    (.stored (some ([(480, ⟨wide "git gud", 11⟩)], [(480, ⟨wide "git gud", 16⟩)])))
    afterSecond :=
  ⟨by decide +kernel, by decide +kernel, by decide +kernel, rfl, by decide +kernel⟩

theorem ready_stored : Ready Sample.stored := by
  have hvalid : Sample.storedTables.Valid :=
    ⟨by decide +kernel, by decide +kernel, by decide +kernel⟩
  exact ⟨⟨hvalid, hvalid⟩, rfl, nofun⟩

theorem delta_since_start_run :
    Compares (passRecord afterFailed secondPass) ∧
      delta [(480, ⟨wide "git gud", 11⟩)] (480, ⟨wide "git gud", 16⟩) =
        lifetimeUnits afterSecond.state.db.conn.visible 480 -
          lifetimeUnits afterFailed.state.db.conn.visible 480 := by
  obtain ⟨hcompared, hdeltas⟩ := delta_since_start ready_stored firstPass_stores failedPass_fails
    secondPass_stores
  obtain ⟨entry, hentry, _, hdelta, _⟩ := hdeltas _ _ rfl 480 (by decide +kernel)
  obtain rfl := List.mem_singleton.mp hentry
  exact ⟨hcompared.mp rfl, hdelta⟩

/-- What a failed pass has stored is in the snapshot that the next pass starts with, so that no pass
reports it. -/
theorem increase_unreported :
    ¬∀ (c₀ c₁ c₂ c₃ : Config Op Op.Answer World Exit) (es₁ es₂ : List (Event Reply Move))
      (compared : Option (Snapshot × Snapshot)) (before after : Snapshot) (app : Int),
      Ready c₀.state → Pass c₀ es₁ (.stored compared) c₁ → FailedPasses c₁ c₂ →
      Pass c₂ es₂ (.stored (some (before, after))) c₃ →
      HasRows c₁.state.db.conn.visible app → HasRows c₃.state.db.conn.visible app →
      ∀ entry ∈ after, entry.1 = app →
        delta before entry = lifetimeUnits c₃.state.db.conn.visible app -
          lifetimeUnits c₁.state.db.conn.visible app := by
  intro h
  have hdelta := h _ _ _ _ _ _ _ _ _ 480 ready_stored firstPass_stores failedPass_fails
    secondPass_stores (by decide +kernel) (by decide +kernel) _ (List.mem_singleton.mpr rfl) rfl
  exact absurd hdelta (by decide +kernel)

end SteamSalesTray.Sync
