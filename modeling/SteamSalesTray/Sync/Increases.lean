import SteamSalesTray.Lib.Grouping
import SteamSalesTray.Sync.Deltas
import SteamSalesTray.Sync.Messages

/-! The increases that an incremental pass reports are the changes that it made to the dates that it
replaced, and its text has a line for each of them until there are six. -/

namespace SteamSalesTray.Sync

open Interaction Transaction Storage Steam

/-! ### The change of a product -/

/-- The product's net units on the date. -/
def unitsOn (t : Tables) (date : Bytes) (app : Int) : Int :=
  Tables.sumNet ((t.dateRows date).filter fun r => r.appId = app)

/-- The new minus the old net units of a product, over the distinct dates of the list. -/
def change (old new : Tables) (dates : List Bytes) (app : Int) : Int :=
  (dates.dedup.map fun date => unitsOn new date app - unitsOn old date app).sum

/-- The products with rows whose change is an increase. -/
def increased (old new : Tables) (dates : List Bytes) : List Int :=
  (new.daily.map DailySales.appId).dedup.filter fun app => 0 < change old new dates app

/-- The tables have the same rows on all other dates. -/
def SameElsewhere (old new : Tables) (dates : List Bytes) : Prop :=
  Grouping.others DailySales.financialDate dates new.daily =
    Grouping.others DailySales.financialDate dates old.daily

theorem lifetimeUnits_split (t : Tables) (dates : List Bytes) (app : Int) :
    lifetimeUnits t app =
      Tables.sumNet ((Grouping.others DailySales.financialDate dates t.daily).filter fun r =>
        r.appId = app) + (dates.dedup.map fun date => unitsOn t date app).sum := by
  have hsplit := Grouping.sum_split (List.nodup_dedup dates) DailySales.financialDate
    DailySales.netUnitsSold (t.daily.filter fun r => r.appId = app)
  rw [Grouping.others_dedup, Grouping.others_filter] at hsplit
  simp only [lifetimeUnits, Tables.sumNet, unitsOn, Tables.dateRows, hsplit, List.filter_filter,
    Bool.and_comm]

theorem lifetimeUnits_change {old new : Tables} {dates : List Bytes}
    (h : SameElsewhere old new dates) (app : Int) :
    lifetimeUnits new app - lifetimeUnits old app = change old new dates app := by
  have hsum : (dates.dedup.map fun date => unitsOn new date app).sum =
      change old new dates app + (dates.dedup.map fun date => unitsOn old date app).sum := by
    rw [change, ← List.sum_map_add]
    simp
  rw [lifetimeUnits_split new dates, lifetimeUnits_split old dates, h, hsum]
  omega

theorem SameElsewhere.replaced {old new : Tables} {dates : List Bytes}
    (h : SameElsewhere old new dates) (date : Bytes) (rows : List DailyProductRow)
    (nowUtc : Bytes) : SameElsewhere old (new.replaced date rows nowUtc) (dates ++ [date]) := by
  have hrows : Grouping.others DailySales.financialDate (dates ++ [date])
      (rows.map (·.toDaily date)) = [] :=
    Grouping.others_eq_nil (by simp [DailyProductRow.toDaily])
  unfold SameElsewhere at h ⊢
  rw [Tables.replaced_daily, Grouping.others_append, hrows, List.append_nil,
    Grouping.others_concat, Grouping.others_concat, ← h, Grouping.others, Grouping.others,
    List.filter_filter, List.filter_filter, List.filter_filter]
  refine List.filter_congr fun r _ => ?_
  by_cases hdate : r.financialDate = date
  · simp [hdate]
  · simp [hdate]

/-! ### What the notification tells -/

/-- The later snapshot has the products with rows, each with its change, and the text is empty if
none of them increased, and has otherwise a line for each one that did, but for six at most. -/
structure TellsChanges (old new : Tables) (dates : List Bytes) (before after : Snapshot)
    (text : Wide) : Prop where
  products : (after.map Prod.fst).Nodup ∧ ∀ app, app ∈ after.map Prod.fst ↔ HasRows new app
  deltas : ∀ entry ∈ after, delta before entry = change old new dates entry.1
  empty : text = [] ↔ ∀ app, HasRows new app → ¬0 < change old new dates app
  lines : text ≠ [] → ∃ (shown : Snapshot) (todayNet : Int),
    text = (shown.flatMap fun entry =>
      productLine entry.2.name (change old new dates entry.1)) ++ todayLine todayNet ∧
    shown.length = min 6 (increased old new dates).length ∧ (shown.map Prod.fst).Nodup ∧
    ∀ entry ∈ shown, entry ∈ after ∧ entry.1 ∈ increased old new dates

theorem mem_increased {old new : Tables} {dates : List Bytes} {app : Int} :
    app ∈ increased old new dates ↔ HasRows new app ∧ 0 < change old new dates app := by
  simp [increased, HasRows]

theorem todayLine_ne_nil (todayNet : Int) : todayLine todayNet ≠ [] := by
  have htoday : wide "Today: " ≠ [] := by decide
  simp [todayLine, htoday]

section Tells

variable {old new : Tables} {dates : List Bytes} {before after : Snapshot}
  (hbefore : Records before old) (hafter : Mirrors after new) (hdates : SameElsewhere old new dates)
include hbefore hafter hdates

theorem delta_change {entry : Int × AppLifetime} (hentry : entry ∈ after) :
    delta before entry = change old new dates entry.1 :=
  (delta_eq hbefore hafter.toReports hentry).trans (lifetimeUnits_change hdates entry.1)

theorem mem_increases {entry : Int × AppLifetime} :
    entry ∈ increases before after ↔ entry ∈ after ∧ entry.1 ∈ increased old new dates := by
  rw [increases, List.mem_filter, decide_eq_true_iff, mem_increased]
  constructor
  · rintro ⟨hentry, hpos⟩
    rw [delta_change hbefore hafter hdates hentry] at hpos
    exact ⟨hentry, hafter.rows entry hentry, hpos⟩
  · rintro ⟨hentry, -, hpos⟩
    rw [← delta_change hbefore hafter hdates hentry] at hpos
    exact ⟨hentry, hpos⟩

theorem increases_perm :
    ((increases before after).map Prod.fst).Perm (increased old new dates) := by
  have hnodup : ((increases before after).map Prod.fst).Nodup :=
    hafter.nodup.sublist (List.filter_sublist.map Prod.fst)
  refine (List.perm_ext_iff_of_nodup hnodup ((List.nodup_dedup _).filter _)).mpr fun app => ?_
  constructor
  · intro happ
    obtain ⟨entry, hentry, rfl⟩ := List.mem_map.mp happ
    exact ((mem_increases hbefore hafter hdates).mp hentry).2
  · intro happ
    obtain ⟨entry, hentry, rfl⟩ := hafter.found app (mem_increased.mp happ).1
    exact List.mem_map_of_mem ((mem_increases hbefore hafter hdates).mpr ⟨hentry, happ⟩)

theorem increases_eq_nil_iff :
    increases before after = [] ↔ ∀ app, HasRows new app → ¬0 < change old new dates app := by
  have hlength := (increases_perm hbefore hafter hdates).length_eq
  rw [List.length_map] at hlength
  rw [← List.length_eq_zero_iff, hlength, List.length_eq_zero_iff, List.eq_nil_iff_forall_not_mem]
  simp only [mem_increased, not_and]

theorem tellsChanges (todayNet : Int) :
    TellsChanges old new dates before after (buildNotification before after todayNet) := by
  have hperm := increases_perm hbefore hafter hdates
  have hdelta : ∀ entry ∈ after, delta before entry = change old new dates entry.1 :=
    fun _ hentry => delta_change hbefore hafter hdates hentry
  have hempty : buildNotification before after todayNet = [] ↔ increases before after = [] := by
    rw [buildNotification_eq]
    by_cases hnone : increases before after = []
    · simp [hnone]
    · simp [hnone, todayLine_ne_nil]
  refine ⟨⟨hafter.nodup, fun app => ⟨fun happ => ?_, fun happ => ?_⟩⟩, hdelta,
    hempty.trans (increases_eq_nil_iff hbefore hafter hdates), fun htext => ?_⟩
  · obtain ⟨entry, hentry, rfl⟩ := List.mem_map.mp happ
    exact hafter.rows entry hentry
  · obtain ⟨entry, hentry, rfl⟩ := hafter.found app happ
    exact List.mem_map_of_mem hentry
  have hshown : ∀ entry ∈ (increases before after).take 6, entry ∈ after ∧
      entry.1 ∈ increased old new dates := fun entry hentry =>
    (mem_increases hbefore hafter hdates).mp (List.mem_of_mem_take hentry)
  refine ⟨(increases before after).take 6, todayNet, ?_, ?_, ?_, hshown⟩
  · rw [buildNotification_eq, if_neg (mt hempty.mpr htext)]
    congr 1
    refine List.flatMap_congr fun entry hentry => ?_
    rw [hdelta entry (hshown entry hentry).1]
  · rw [List.length_take, ← hperm.length_eq, List.length_map]
  · exact (hperm.nodup_iff.mpr ((List.nodup_dedup _).filter _)).sublist
      ((List.take_sublist _ _).map Prod.fst)

end Tells

/-! ### An incremental pass -/

/-- `QueryLifetime` gets all its rows. -/
def SnapshotRead (reply : Reply) : Op → Prop
  | .queryLifetime => reply.readLimit = none
  | _ => True

def snapshotRules : Rules Op Record Reply Move where
  start _ := True
  call op reply _ := SnapshotRead reply op
  act _ _ := True
  kill _ := True

def changesContract : Contract Op Op.Answer Record Reply Move where
  machine := service.traced
  rules := snapshotRules
  inv s := Intact s.state
  inv_act move _ _ h := h.act move

/-- A property of the sales alone. -/
def OfSales (v : List Bytes → Tables → Prop) : Prop :=
  ∀ dates t t', t'.daily = t.daily → v dates t → v dates t'

/-- The call leaves the connection, the sales and the list of replaced dates as they are. -/
def Op.KeepsSales : Op → Prop
  | .openDatabase | .clearAllSales | .replaceDate _ _ _ => False
  | _ => True

theorem Op.Storing.keepsSales {op : Op} (h : op.Storing)
    (hop : ∀ date rows nowUtc, op ≠ .replaceDate date rows nowUtc) : op.KeepsSales := by
  cases op with
  | openDatabase => exact h
  | clearAllSales => exact h
  | replaceDate date rows nowUtc => exact absurd rfl (hop date rows nowUtc)
  | _ => trivial

theorem Op.Routine.keepsSales {op : Op} (h : op.Routine) : op.KeepsSales := by
  refine h.storing.keepsSales ?_
  rintro date rows nowUtc rfl
  exact h

namespace ChangeRuns

variable {α : Type}

/-- What is true of the dates that the record has as replaced and of the database. -/
def Sees (P : List Bytes → Database → Prop) (s : Record) : Prop :=
  P (passLog s.past).replaced s.state.db

def Seen (v : List Bytes → Tables → Prop) : Record → Prop :=
  Sees fun dates db => db.isOpen = true ∧ v dates db.conn.visible

theorem stable_sees (P : List Bytes → Database → Prop) : changesContract.Stable (Sees P) := by
  intro move s _ _ h
  show P (passLog s.past).replaced (s.state.act move).db
  rw [World.act_db]
  exact h

theorem stable_seen (v : List Bytes → Tables → Prop) : changesContract.Stable (Seen v) :=
  stable_sees fun dates db => db.isOpen = true ∧ v dates db.conn.visible

theorem keepsSales_ne {op : Op} (hop : op.KeepsSales) : op ≠ .openDatabase := by
  rintro rfl
  exact hop

theorem exec_daily {op : Op} (hop : op.KeepsSales) (reply : Reply) (w : World) :
    (World.exec op reply w).2.db.conn.visible.daily = w.db.conn.visible.daily := by
  rcases World.exec_visible op reply w (keepsSales_ne hop) with hsame | heffect
  · exact congrArg _ hsame
  · rw [heffect]
    cases op with
    | clearAllSales => exact hop.elim
    | replaceDate date rows nowUtc => exact hop.elim
    | _ => rfl

theorem replaced_step {op : Op} (hop : ∀ date rows nowUtc, op ≠ .replaceDate date rows nowUtc)
    (l : PassLog) (answer : op.Answer) : (l.step op answer).replaced = l.replaced := by
  cases op with
  | replaceDate date rows nowUtc => exact absurd rfl (hop date rows nowUtc)
  | _ => rfl

theorem seen_exec {op : Op} (hop : op.KeepsSales) (reply : Reply) {s : Record}
    {v : List Bytes → Tables → Prop} (hv : OfSales v) (h : Seen v s) :
    Seen v (service.traced.exec op reply s).2 := by
  refine ⟨(World.exec_isOpen op reply s.state (keepsSales_ne hop)).trans h.1, ?_⟩
  show v ((passLog s.past).step op _).replaced (World.exec op reply s.state).2.db.conn.visible
  rw [replaced_step (by rintro date rows nowUtc rfl; exact hop)]
  exact hv _ _ _ (exec_daily hop reply s.state) h.2

theorem kept {p : Worker α} (hp : p.Every Op.KeepsSales) {v : List Bytes → Tables → Prop}
    (hv : OfSales v) : changesContract.Spec (Seen v) p fun _ => Seen v := by
  refine Contract.Spec.every (stable_seen v) (hp.mono fun op hop s reply hs h _ => ?_)
  exact ⟨hs.exec op reply, seen_exec hop reply hv h⟩

theorem routine {p : Worker α} (hp : p.Every Op.Routine) {v : List Bytes → Tables → Prop}
    (hv : OfSales v) : changesContract.Spec (Seen v) p fun _ => Seen v :=
  kept (hp.mono fun _ hop => hop.keepsSales) hv

theorem any (p : Worker α) : changesContract.Spec (fun _ => True) p fun _ _ => True :=
  Contract.Spec.every (Contract.stable_const True) (Program.every_of_forall
    (fun op _ reply hs _ _ => ⟨hs.exec op reply, trivial⟩) p)

theorem ofSales_and {v v' : List Bytes → Tables → Prop} (hv : OfSales v) (hv' : OfSales v') :
    OfSales fun dates t => v dates t ∧ v' dates t :=
  fun dates t t' hsame h => ⟨hv dates t t' hsame h.1, hv' dates t t' hsame h.2⟩

theorem ofSales_const (fact : Prop) : OfSales fun _ _ => fact := fun _ _ _ _ h => h

theorem ofSales_mirrors (map : Snapshot) : OfSales fun _ t => Mirrors map t :=
  fun _ _ _ hsame h => h.congr hsame

theorem ofSales_elsewhere (base : Tables) : OfSales fun dates t => SameElsewhere base t dates := by
  intro dates t t' hsame h
  unfold SameElsewhere at h ⊢
  rw [hsame]
  exact h

theorem lifetimeSnapshot_spec {v : List Bytes → Tables → Prop} :
    changesContract.Spec (Seen v) lifetimeSnapshot fun map =>
      Seen fun dates t => v dates t ∧ Records map t ∧ Mirrors map t := by
  refine Contract.Spec.call (stable_seen v)
    (R := fun rows => Seen fun dates t => v dates t ∧ Records (Snapshot.ofRows rows) t ∧
      Mirrors (Snapshot.ofRows rows) t) ?_ fun rows => ?_
  · rintro s reply hs ⟨hopen, hv⟩ hreads
    refine ⟨hs, hopen, hv, ?_⟩
    show Records (Snapshot.ofRows (s.state.db.queryLifetime reply.readLimit)) _ ∧
      Mirrors (Snapshot.ofRows (s.state.db.queryLifetime reply.readLimit)) _
    rw [show reply.readLimit = none from hreads]
    exact ⟨records_queryLifetime hopen hs.valid.2, mirrors_queryLifetime hopen hs.valid.2⟩
  · exact Contract.Spec.ret (stable_seen _) fun _ _ h => h

theorem notificationAfter_spec {v : List Bytes → Tables → Prop} (hv : OfSales v)
    (before : Snapshot) :
    changesContract.Spec (Seen v) (notificationAfter before) fun result =>
      Seen fun dates t => v dates t ∧ Mirrors result.1 t ∧
        ∃ todayNet, result.2 = buildNotification before result.1 todayNet := by
  have hlast : ∀ after, OfSales fun dates t => v dates t ∧ Mirrors after t :=
    fun after => ofSales_and hv (ofSales_mirrors after)
  have htoday : (perform .steamToday).Every Op.Routine := ⟨trivial, fun _ => trivial⟩
  have hsum : ∀ date, (perform (.sumForDate date)).Every Op.Routine :=
    fun _ => ⟨trivial, fun _ => trivial⟩
  refine lifetimeSnapshot_spec.bind fun after => ?_
  refine Contract.Spec.pre (P := Seen fun dates t => v dates t ∧ Mirrors after t) ?_
    fun _ _ h => ⟨h.1, h.2.1, h.2.2.2⟩
  refine (routine htoday (hlast after)).bind fun today => ?_
  refine (routine (hsum today) (hlast after)).bind fun todayNet => ?_
  refine Contract.Spec.call (stable_seen _)
    (R := fun _ => Seen fun dates t => v dates t ∧ Mirrors after t)
    (fun _ _ hs h _ => ⟨hs, h⟩) fun entries => ?_
  refine Contract.Spec.ret (stable_seen _) fun _ _ h => ⟨h.1, h.2.1, ?_, todayNet, rfl⟩
  exact h.2.2.perm entries.2

/-- The notification of the status is `text`. -/
def Told (v : List Bytes → Tables → Prop) (text : Wide) (s : Record) : Prop :=
  Seen v s ∧ s.state.status.notification = text

theorem stable_told (v : List Bytes → Tables → Prop) (text : Wide) :
    changesContract.Stable (Told v text) := by
  intro move s hmove hs h
  refine ⟨stable_seen v move s hmove hs h.1, ?_⟩
  show (s.state.act move).status.notification = text
  rw [act_status]
  exact h.2

theorem publish_spec {v : List Bytes → Tables → Prop} (hv : OfSales v) (text : Wide) :
    changesContract.Spec (Seen v) (publish text) fun _ s =>
      Told v text s ∧ .totalsChanged ∈ (passLog s.past).posted := by
  have hpublish : (Op.updateStatus (.publish text)).KeepsSales := trivial
  have htold : ∀ message reply s, Told v text s →
      Told v text (service.traced.exec (.post message) reply s).2 :=
    fun _ reply _ h => ⟨seen_exec (by trivial) reply hv h.1, h.2⟩
  have hposted : changesContract.Stable fun s : Record =>
      Told v text s ∧ .totalsChanged ∈ (passLog s.past).posted :=
    (stable_told v text).and fun _ _ _ _ h => h
  have htotals : changesContract.Spec (Told v text) (post .totalsChanged) fun _ s =>
      Told v text s ∧ .totalsChanged ∈ (passLog s.past).posted := by
    refine Contract.Spec.perform (stable_told v text) (fun _ => hposted) fun s reply hs h _ => ?_
    exact ⟨hs.exec _ reply, htold _ reply s h, List.mem_append_right _ List.mem_cons_self⟩
  have hcompleted : changesContract.Spec
      (fun s => Told v text s ∧ .totalsChanged ∈ (passLog s.past).posted) (post .syncCompleted)
      fun _ s => Told v text s ∧ .totalsChanged ∈ (passLog s.past).posted := by
    refine Contract.Spec.perform hposted (fun _ => hposted) fun s reply hs h _ => ?_
    exact ⟨hs.exec _ reply, htold _ reply s h.1, List.mem_append_left _ h.2⟩
  refine Contract.Spec.call (stable_seen v) (R := fun _ => Told v text) ?_ fun _ =>
    htotals.bind fun _ => hcompleted
  exact fun s reply hs h _ => ⟨hs.exec _ reply, seen_exec hpublish reply hv h, rfl⟩

/-- What a pass has compared, if it ends by comparing two snapshots. -/
def Ends (base : Tables) (exit : Exit) (s : Record) : Prop :=
  ∀ before after, exit = .stored (some (before, after)) →
    Records before base ∧ Mirrors after s.state.db.conn.visible ∧
      SameElsewhere base s.state.db.conn.visible (passLog s.past).replaced ∧
      .totalsChanged ∈ (passLog s.past).posted ∧
      ∃ todayNet, s.state.status.notification = buildNotification before after todayNet

theorem ends_of_returns {base : Tables} {p : Worker Exit}
    (hp : p.Returns fun exit => ∀ before after, exit ≠ .stored (some (before, after))) :
    changesContract.Spec (fun _ => True) p (Ends base) :=
  ((any p).returns hp).post fun _ _ h before after hexit =>
    absurd hexit (h.2 before after)

theorem checkpoint_keepsSales (initial : Bool) (date : Bytes) :
    (checkpoint initial date).Every Op.KeepsSales := checkpoint_every trivial initial

theorem finishStored_spec {base : Tables} {before : Snapshot} (hbefore : Records before base)
    (now : Bytes) (resultHighwatermark : Bytes) :
    changesContract.Spec (Seen fun dates t => SameElsewhere base t dates)
      (finishStored now false true resultHighwatermark before) (Ends base) := by
  have hbase := ofSales_elsewhere base
  have hadvance : (advanceMark resultHighwatermark).Every Op.KeepsSales := by
    unfold advanceMark
    split
    · trivial
    · exact ⟨trivial, fun _ => trivial⟩
  unfold finishStored
  refine (kept hadvance hbase).bind fun _ => ?_
  refine (kept (checkpoint_keepsSales false []) hbase).bind fun _ => ?_
  refine (routine (write_routine (by trivial)) hbase).bind fun _ => ?_
  refine (routine (write_routine (by trivial)) hbase).bind fun _ => ?_
  refine (notificationAfter_spec hbase before).bind fun ⟨after, text⟩ => ?_
  have hlast : OfSales fun dates t => SameElsewhere base t dates ∧ Mirrors after t ∧
      ∃ todayNet, text = buildNotification before after todayNet :=
    ofSales_and hbase (ofSales_and (ofSales_mirrors after) (ofSales_const _))
  refine (publish_spec hlast text).bind fun _ => ?_
  refine Contract.Spec.ret ((stable_told _ _).and fun _ _ _ _ h => h) fun s _ h => ?_
  rintro before' after' ⟨⟩
  obtain ⟨⟨⟨-, helsewhere, hmirrors, todayNet, htext⟩, htold⟩, hposted⟩ := h
  exact ⟨hbefore, hmirrors, helsewhere, hposted, todayNet, htold.trans htext⟩

theorem syncDates_spec (base : Tables) (key now : Bytes) (initial : Bool) (todo : List Bytes) :
    changesContract.Spec (Seen fun dates t => SameElsewhere base t dates)
      (syncDates key now initial todo) fun failed s =>
        failed = none → Seen (fun dates t => SameElsewhere base t dates) s := by
  have hbase := ofSales_elsewhere base
  have hfail : ∀ status message lastError exit,
      changesContract.Spec (fun _ => True)
        (failPass status message lastError exit >>= fun exit => pure (some exit))
        fun failed s => failed = none → Seen (fun dates t => SameElsewhere base t dates) s := by
    intro status message lastError exit
    have hreturns : (failPass status message lastError exit >>= fun exit =>
        pure (some exit)).Returns (· ≠ none) :=
      (Program.returns_any _).bind fun _ _ => nofun
    exact ((any _).returns hreturns).post fun _ _ h hnone => absurd hnone h.2
  induction todo with
  | nil => exact Contract.Spec.ret (stable_seen _) fun _ _ h _ => h
  | cons date rest ih =>
    have hfetch : (perform (.getAllDetailedSalesForDate key date)).Every Op.KeepsSales :=
      ⟨trivial, fun _ => trivial⟩
    refine (kept hfetch hbase).bind fun ⟨pr, records⟩ => ?_
    show changesContract.Spec _ (if pr.ok = true then _ else _) _
    split
    · refine Contract.Spec.call (stable_seen _)
        (R := fun saved s => saved = true → Seen (fun dates t => SameElsewhere base t dates) s)
        ?_ fun saved => ?_
      · refine fun s reply hs h _ => ⟨hs.exec _ reply, fun hsaved => ?_⟩
        have hne : Op.replaceDate date (aggregateDate records) now ≠ .openDatabase := nofun
        refine ⟨(World.exec_isOpen _ reply s.state hne).trans h.1, ?_⟩
        have hconn := World.exec_replaceDate_true reply s.state hsaved
        have hlog : ((passLog s.past).step (.replaceDate date (aggregateDate records) now)
            true).replaced = (passLog s.past).replaced ++ [date] := rfl
        show SameElsewhere base (World.exec _ reply s.state).2.db.conn.visible
          ((passLog s.past).step _ (World.exec _ reply s.state).1).replaced
        rw [show (World.exec (.replaceDate date (aggregateDate records) now) reply s.state).1 =
          true from hsaved, hlog, hconn]
        exact h.2.replaced date _ now
      · cases saved with
        | true =>
          have hdone : (perform (.updateStatus .dateDone)).Every Op.Routine :=
            ⟨trivial, fun _ => trivial⟩
          have hprogress : (post .syncProgress).Every Op.Routine := ⟨trivial, fun _ => trivial⟩
          refine Contract.Spec.pre (P := Seen fun dates t => SameElsewhere base t dates) ?_
            fun _ _ h => h rfl
          refine (kept (checkpoint_keepsSales initial date) hbase).bind fun _ => ?_
          exact (routine hdone hbase).bind fun _ => (routine hprogress hbase).bind fun _ => ih
        | false =>
          exact (hfail .databaseError (wide "Failed to save sales data.")
            (some (ascii "database write failed")) .replaceFailed).pre fun _ _ _ => trivial
    · exact (hfail _ _ _ _).pre fun _ _ _ => trivial

/-- Nothing is replaced yet, and the sales are those of `base`, unless they were cleared. -/
def Begun (base : Tables) (cleared : Prop) (dates : List Bytes) (t : Tables) : Prop :=
  dates = [] ∧ (cleared ∨ t.daily = base.daily)

theorem ofSales_begun (base : Tables) (cleared : Prop) : OfSales (Begun base cleared) :=
  fun _ _ _ hsame h => ⟨h.1, h.2.imp_right hsame.trans⟩

theorem syncChanged_spec (base : Tables) (key now : Bytes) (initial notifyEnabled : Bool)
    (changed : ChangedDates) :
    changesContract.Spec (Seen (Begun base (initial = true)))
      (syncChanged key now initial notifyEnabled changed) (Ends base) := by
  cases hcompare : notifyEnabled && !initial with
  | false =>
    refine (ends_of_returns ((syncChanged_returns key now initial notifyEnabled changed).mono
      fun exit h before after hexit => ?_)).pre fun _ _ _ => trivial
    exact absurd ((h _ hexit).trans hcompare) nofun
  | true =>
    obtain ⟨rfl, hinitial⟩ := Bool.and_eq_true_iff.mp hcompare
    obtain rfl : initial = false := by simpa using hinitial
    have hstart := ofSales_begun base (false = true)
    unfold syncChanged
    refine (kept (p := readCursor false) trivial hstart).bind fun cursor => ?_
    refine (routine (updateStatus_routine (by trivial)) hstart).bind fun _ => ?_
    refine (routine (post_routine (by trivial)) hstart).bind fun _ => ?_
    refine lifetimeSnapshot_spec.bind fun before s hs h => ?_
    obtain ⟨hopen, ⟨hdates, hdaily⟩, hrecords, -⟩ := h
    replace hdaily := hdaily.resolve_left nofun
    have hbefore : Records before base := fun app =>
      (hrecords app).trans (lifetimeUnits_congr hdaily app)
    have hsame : Seen (fun dates t => SameElsewhere base t dates) s :=
      ⟨hopen, by simp only [SameElsewhere, hdaily]⟩
    refine Contract.Spec.bind ((syncDates_spec base key now false _).returns
      (syncDates_returns key now false _)) (fun failed => ?_) s hs hsame
    cases failed with
    | some exit =>
      refine Contract.Spec.pre (P := fun _ => exit.Failed) ?_ fun _ _ h => h.2 exit rfl
      refine Contract.Spec.ret (Contract.stable_const _) fun _ _ hfailed before after hexit => ?_
      exact absurd hexit (DeltaRuns.notStored_of_failed hfailed _)
    | none =>
      exact (finishStored_spec hbefore now changed.resultHighwatermark).pre fun _ _ h => h.1 rfl

theorem sees_preliminary {op : Op} (hop : op.Preliminary) (reply : Reply) {s : Record}
    {P : List Bytes → Database → Prop} (h : Sees P s) :
    Sees P (service.traced.exec op reply s).2 := by
  show P ((passLog s.past).step op _).replaced (World.exec op reply s.state).2.db
  rw [replaced_step (by rintro date rows nowUtc rfl; exact hop),
    World.exec_preliminary op reply s.state hop]
  exact h

theorem preliminary {p : Worker α} (hp : p.Every Op.Preliminary)
    (P : List Bytes → Database → Prop) : changesContract.Spec (Sees P) p fun _ => Sees P := by
  refine Contract.Spec.every (stable_sees P) (hp.mono fun op hop s reply hs h _ => ?_)
  exact ⟨hs.exec op reply, sees_preliminary hop reply h⟩

/-- `Begun`, as long as the mark is the one that a clear leaves. -/
def BegunOrCleared (base : Tables) (dates : List Bytes) (t : Tables) : Prop :=
  Begun base (t.syncState.changedDatesHighwatermark = ascii "0") dates t

theorem failPass_spec (base : Tables) (status : SyncStatus) (message : Wide)
    (lastError : Option Bytes) {exit : Exit} (hexit : exit.Failed) :
    changesContract.Spec (fun _ => True) (failPass status message lastError exit) (Ends base) := by
  refine ends_of_returns ((failPass_returns status message lastError exit).mono ?_)
  rintro _ rfl before after
  exact DeltaRuns.notStored_of_failed hexit _

theorem syncWithKey_spec (base : Tables) (key : Bytes) :
    changesContract.Spec (Seen (BegunOrCleared base)) (syncWithKey key) (Ends base) := by
  have hread : Op.getChangedDatesHighwatermark.Preliminary := trivial
  have hnotify : (perform .getNotifyOnNewUnits).Every Op.KeepsSales := ⟨trivial, fun _ => trivial⟩
  have hnow : (perform .utcNowIso8601).Every Op.KeepsSales := ⟨trivial, fun _ => trivial⟩
  have hlist : ∀ hwm, (perform (.getChangedDates key hwm)).Every Op.KeepsSales :=
    fun _ => ⟨trivial, fun _ => trivial⟩
  unfold syncWithKey
  -- Cleared sales are seen as a mark of "0", which makes the pass an initial one.
  refine Contract.Spec.call (stable_seen _) (R := fun hwm => Seen (Begun base (hwm = ascii "0")))
    (fun s reply hs h _ => ⟨hs.exec _ reply, ?_⟩) fun hwm => ?_
  · obtain ⟨hopen, hdates, hsales⟩ := sees_preliminary hread reply h
    refine ⟨hopen, hdates, hsales.imp_left fun hmark => ?_⟩
    exact Database.getChangedDatesHighwatermark_zero hmark reply.readLimit
  have hstart := ofSales_begun base (hwm = ascii "0")
  refine (kept hnotify hstart).bind fun notifyEnabled => ?_
  refine (kept (hlist hwm) hstart).bind fun ⟨r, changed⟩ => ?_
  show changesContract.Spec _ (if r.ok = true then _ else _) _
  split
  · refine (kept hnow hstart).bind fun now => ?_
    refine (routine (write_routine (by trivial)) hstart).bind fun _ => ?_
    split
    · refine (ends_of_returns ?_).pre fun _ _ _ => trivial
      exact (finishUnchanged_returns _).mono fun _ h _ _ => h ▸ nofun
    · refine (syncChanged_spec base key now _ notifyEnabled changed).pre fun s _ h => ?_
      exact ⟨h.1, h.2.1, h.2.2.imp_left fun hzero => by simp [hzero]⟩
  · exact (failPass_spec base _ _ _ (by trivial)).pre fun _ _ _ => trivial

/-- Nothing is replaced yet, and the sales are those of `base`. -/
def Started (base : Tables) (dates : List Bytes) (db : Database) : Prop :=
  dates = [] ∧ db.conn.visible.daily = base.daily

theorem ensureOpen_spec (base : Tables) :
    changesContract.Spec (Sees (Started base)) ensureOpen
      fun opened s => opened = true → Seen (BegunOrCleared base) s := by
  have hisOpen : Op.isOpen.Preliminary := trivial
  refine Contract.Spec.call (stable_sees _)
    (R := fun opened => Sees fun dates db => db.isOpen = opened ∧ Started base dates db)
    (fun s reply hs h _ => ⟨hs.exec _ reply, rfl, sees_preliminary hisOpen reply h⟩)
    fun opened => ?_
  cases opened with
  | true =>
    exact Contract.Spec.ret (stable_sees _) fun _ _ h _ => ⟨h.1, h.2.1, .inr h.2.2⟩
  | false =>
    refine Contract.Spec.perform (stable_sees _) (fun opened => stable_sees fun dates db =>
      opened = true → db.isOpen = true ∧ BegunOrCleared base dates db.conn.visible) ?_
    rintro s reply hs ⟨hclosed, hdates, hdaily⟩ -
    refine ⟨hs.exec .openDatabase reply, fun hopened => ⟨hopened, hdates, .inr ?_⟩⟩
    show s.state.db.conn.drop.visible.daily = base.daily
    rw [Connection.drop_visible, ← hdaily, Connection.visible_of_closed (hs.closed hclosed)]

theorem clearIfRequested_spec (base : Tables) :
    changesContract.Spec (Seen (BegunOrCleared base)) clearIfRequested
      fun _ => Seen (BegunOrCleared base) := by
  have htake : Op.takeClearRequest.Preliminary := trivial
  refine Contract.Spec.call (stable_seen _) (R := fun _ => Seen (BegunOrCleared base))
    (fun s reply hs h _ => ⟨hs.exec _ reply, sees_preliminary htake reply h⟩) fun taken => ?_
  cases taken with
  | false => exact Contract.Spec.done (stable_seen _)
  | true =>
    refine Contract.Spec.call (stable_seen _) (R := fun _ => Seen (BegunOrCleared base))
      (fun s reply hs h _ => ⟨hs.exec _ reply, ?_⟩) fun _ =>
        Contract.Spec.done (stable_seen _)
    have hne : Op.clearAllSales ≠ .openDatabase := nofun
    refine ⟨(World.exec_isOpen _ reply s.state hne).trans h.1, ?_⟩
    show BegunOrCleared base (passLog s.past).replaced
      (World.exec .clearAllSales reply s.state).2.db.conn.visible
    rcases World.exec_visible .clearAllSales reply s.state hne with hsame | hcleared
    · rw [hsame]
      exact h.2
    · rw [hcleared]
      exact ⟨h.2.1, .inl rfl⟩

theorem pass_spec (base : Tables) :
    changesContract.Spec (Sees (Started base)) runSynchronization (Ends base) := by
  have hposted : (post .syncStarted).Every Op.Preliminary := ⟨trivial, fun _ => trivial⟩
  have hsyncing : (setStatus .syncing (wide "Updating…")).Every Op.Preliminary :=
    ⟨trivial, fun _ => trivial⟩
  have hkey : loadKey.Every Op.Preliminary := loadKey_every trivial trivial
  exact runSynchronization_spec (preliminary hposted _) (preliminary hsyncing _)
    (ensureOpen_spec base)
    ((failPass_spec base _ _ _ (by trivial)).pre fun _ _ _ => trivial)
    ((clearIfRequested_spec base).pre fun _ _ h => h rfl) (preliminary hkey _)
    ((failPass_spec base _ _ _ (by trivial)).pre fun _ _ _ => trivial) (syncWithKey_spec base)

end ChangeRuns

/-- An incremental pass that completes with notifications on has replaced all its dates and compared
two snapshots; whatever else happens and whatever fails, the increases in the later one are the
changes of these dates, and the notification tells them. -/
theorem notification_tells_changes {w : World} (hw : Intact w) {es : List (Event Reply Move)}
    {compared : Option (Snapshot × Snapshot)} {c : Config Op Op.Answer Record Exit}
    (h : Execution snapshotRules service.traced runSynchronization ⟨⟨w, []⟩, none⟩ es
      (.stored compared) c) (hcompares : Compares c.state.past) :
    (passLog c.state.past).replaced = (passLog c.state.past).toProcess ∧
      ∃ before after, compared = some (before, after) ∧
        TellsChanges w.db.conn.visible c.state.state.db.conn.visible
          (passLog c.state.past).replaced before after c.state.state.status.notification := by
  obtain ⟨⟨before, after⟩, rfl⟩ := Option.isSome_iff_exists.mp ((compared_iff h).mpr hcompares)
  have hstarted : ChangeRuns.Sees (ChangeRuns.Started w.db.conn.visible) ⟨w, []⟩ := ⟨rfl, rfl⟩
  obtain ⟨-, hends⟩ := (ChangeRuns.pass_spec w.db.conn.visible).execution (K := changesContract) h
    hw hstarted
  obtain ⟨hbefore, hafter, helsewhere, hposted, todayNet, htext⟩ := hends before after rfl
  obtain ⟨earlier, later, hsplit⟩ := List.append_of_mem hposted
  have hend := PassMessages.definite_end (h.under (PassMessages.free_admitted _ _))
  refine ⟨(hend.totals earlier later hsplit).2, before, after, rfl, ?_⟩
  rw [htext]
  exact tellsChanges hbefore hafter helsewhere todayNet

/-- An incremental pass over two dates, one of them listed twice. -/
def comparedPass : List (Event Reply Move) :=
  open Sample in
  calls 36 (reply [july17, july18, july17] 5 [sale 5])

def afterCompared : Config Op Op.Answer Record Exit :=
  service.traced.run runSynchronization ⟨⟨Sample.stored, []⟩, none⟩ (.start :: comparedPass)

theorem notification_tells_changes_compared :
    (passLog afterCompared.state.past).replaced = (passLog afterCompared.state.past).toProcess ∧
      TellsChanges Sample.storedTables afterCompared.state.state.db.conn.visible
        (passLog afterCompared.state.past).replaced [(480, ⟨wide "git gud", 3⟩)]
        [(480, ⟨wide "git gud", 10⟩)] afterCompared.state.state.status.notification := by
  have hcall : ∀ op, SnapshotRead (Sample.reply [Sample.july17, Sample.july18, Sample.july17] 5
      [Sample.sale 5]) op := fun op => by cases op <;> trivial
  have hpass : Execution snapshotRules service.traced runSynchronization ⟨⟨Sample.stored, []⟩, none⟩
      comparedPass (.stored (some ([(480, ⟨wide "git gud", 3⟩)], [(480, ⟨wide "git gud", 10⟩)])))
      afterCompared :=
    .of_calls trivial (fun _ => trivial) (fun op _ => hcall op) (by decide +kernel)
  obtain ⟨hprocessed, before, after, hcompared, htells⟩ :=
    notification_tells_changes ready_stored.intact hpass (by decide +kernel)
  obtain ⟨rfl, rfl⟩ := Prod.mk.inj (Option.some.inj hcompared)
  exact ⟨hprocessed, htells⟩

end SteamSalesTray.Sync
