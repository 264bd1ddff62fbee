import SteamSalesTray.App.UpToDate
import SteamSalesTray.Sync.CaughtUp
import SteamSalesTray.Sync.Recovery

/-! What the tray and the sales window show are the units that the partner's server has: for the
periods that the stored mark covers, and for all of them after a pass that has succeeded. -/

namespace SteamSalesTray.App

open Grouping Interaction Platform Steam Storage Sync Transaction UI

/-! ### The lists of a period -/

/-- The dates of a period. -/
def Day.Covers (day : Day) (period : SalesPeriod) (date : Bytes) : Prop :=
  match period with
  | .today => date = day.ago 0
  | .yesterday => date = day.ago 1
  | .last7Days => day.ago 6 ≤ date ∧ date ≤ day.ago 0
  | .last30Days => day.ago 29 ≤ date ∧ date ≤ day.ago 0
  | .lifetime => True

instance (day : Day) (period : SalesPeriod) : DecidablePred (day.Covers period) := fun _ =>
  match period with
  | .today | .yesterday => inferInstanceAs (Decidable (_ = _))
  | .last7Days | .last30Days => inferInstanceAs (Decidable (_ ∧ _))
  | .lifetime => .isTrue trivial

/-- The rows have the units that the server counts in a period: of each product that they list, of
every product with units, and in all. -/
structure ServerRows (log : ChangeLog) (period : Bytes → Prop) [DecidablePred period]
    (rows : List ProductUnits) : Prop where
  once : (rows.map ProductUnits.appId).Nodup
  units : ∀ row ∈ rows, row.units = serverUnitsOf log period row.appId
  all : ∀ app, serverUnitsOf log period app ≠ 0 → app ∈ rows.map ProductUnits.appId
  total : unitsTotal rows = serverUnits log period

section Rows

variable {log : ChangeLog} {db : Database} {period : Bytes → Prop} [DecidablePred period]
  (hopen : db.isOpen = true) (hdated : Dated log db.conn.visible)
  (hkeeps : ∀ date, period date → Keeps log db.conn.visible date)
include hopen hdated hkeeps

/-- A query of the tables that keep a period lists the units of the server. -/
theorem serverRows_query {query : Tables → List ProductRow}
    (hids : ∀ app, (∃ r ∈ periodRows period db.conn.visible, r.appId = app) →
      app ∈ (query db.conn.visible).map ProductRow.appId)
    (honce : ((query db.conn.visible).map ProductRow.appId).Nodup)
    (hunits : ∀ row ∈ query db.conn.visible, row.units =
      Tables.sumNet ((periodRows period db.conn.visible).filter fun r => r.appId = row.appId))
    (htotal : ((query db.conn.visible).map ProductRow.units).sum =
      Tables.sumNet (periodRows period db.conn.visible)) :
    ServerRows log period (db.runProductQuery none query) where
  once := by
    rw [runProductQuery_ids hopen]
    exact honce
  units row hrow := by
    simp only [Database.runProductQuery, Database.rowsRead, hopen, if_true] at hrow
    obtain ⟨r, hr, rfl⟩ := List.mem_map.mp hrow
    rw [← hdated.sumNet_period_of hkeeps]
    exact hunits r hr
  all app happ := by
    rw [runProductQuery_ids hopen]
    refine hids app ?_
    by_contra hnone
    push Not at hnone
    refine happ ?_
    rw [← hdated.sumNet_period_of hkeeps, List.filter_eq_nil_iff.mpr fun r hr hsame =>
      hnone r hr (of_decide_eq_true hsame)]
    rfl
  total := by
    rw [runProductQuery_total hopen, htotal]
    exact hdated.sumNet_period hkeeps

theorem serverRows_date (hvalid : db.conn.visible.Valid) {date : Bytes}
    (hperiod : periodRows period db.conn.visible = db.conn.visible.dateRows date) :
    ServerRows log period (db.queryDate none date) := by
  have hids := hvalid.queryDate_ids date
  refine serverRows_query hopen hdated hkeeps ?_ (hids.nodup_iff.mpr hvalid.productIds) ?_ ?_
  · rintro app ⟨r, hr, rfl⟩
    obtain ⟨p, hp, hpr⟩ := hvalid.known r (List.mem_of_mem_filter hr)
    exact hids.mem_iff.mpr (List.mem_map.mpr ⟨p, hp, hpr⟩)
  · rw [hperiod]
    exact fun row hrow => hvalid.queryDate_units hrow
  · rw [hperiod]
    exact hvalid.queryDate_sum date

theorem serverRows_grouped (hvalid : db.conn.visible.Valid) {rows : Tables → List DailySales}
    (hperiod : periodRows period db.conn.visible = rows db.conn.visible) :
    ServerRows log period (db.runProductQuery none fun t => t.groupedUnits (rows t)) := by
  have hrows : ∀ r ∈ rows db.conn.visible, r ∈ db.conn.visible.daily := by
    rw [← hperiod]
    exact fun r hr => List.mem_of_mem_filter hr
  refine serverRows_query hopen hdated hkeeps (fun app happ => ?_) hvalid.nodup_groupedUnits_ids
    (fun row hrow => ?_) ?_
  · rw [hperiod] at happ
    exact (hvalid.mem_groupedUnits_ids hrows app).mpr happ
  · rw [hperiod]
    exact hvalid.groupedUnits_units hrows hrow
  · rw [hperiod]
    exact hvalid.groupedUnits_sum hrows

end Rows

/-- The tables of a desk have what the server has for the dates that `kept` holds of. -/
structure Kept (d : Desk) (kept : Bytes → Prop) : Prop where
  valid : d.world.db.conn.committed.Valid
  dated : Dated d.world.server d.world.db.conn.committed
  keeps : ∀ date, kept date → Keeps d.world.server d.world.db.conn.committed date

section Desk

variable {day : Day} {d : Desk} {kept : Bytes → Prop} (h : Kept d kept) (hopen : d.dbOpen = true)
include h hopen

theorem Kept.serverRows {period : SalesPeriod}
    (hperiod : ∀ date, day.Covers period date → kept date) :
    ServerRows d.world.server (day.Covers period) (d.periodRows day period) := by
  have hkeeps : ∀ date, day.Covers period date →
      Keeps d.world.server d.db.conn.visible date :=
    fun date hdate => h.keeps date (hperiod date hdate)
  cases period with
  | today => exact serverRows_date hopen h.dated hkeeps h.valid rfl
  | yesterday => exact serverRows_date hopen h.dated hkeeps h.valid rfl
  | last7Days => exact serverRows_grouped hopen h.dated hkeeps h.valid rfl
  | last30Days => exact serverRows_grouped hopen h.dated hkeeps h.valid rfl
  | lifetime => exact serverRows_grouped hopen h.dated hkeeps h.valid (List.filter_true _)

/-- The figures of the tooltip, where there is no trouble: that of today, and that of all dates,
which is the server's if all of them are kept. -/
theorem Kept.tip (hidle : d.world.status.status = .idle)
    (htoday : ∀ date, day.Covers .today date → kept date) :
    ∃ units, d.tip day = totalsText (serverUnits d.world.server (day.Covers .today))
        (if d.hideLifetime then none else some units) ∧
      ((∀ date, kept date) → units = serverUnits d.world.server (day.Covers .lifetime)) := by
  have htip : d.tip day = totalsText (d.db.sumForDate none (day.ago 0))
      (if d.hideLifetime then none else some (d.db.sumLifetime none)) := by
    rw [Desk.tip, hidle]
    exact if_pos hopen
  have hagree : ViewsAgree d.db := viewsAgree_of_valid hopen h.valid
  have htotal : ∀ period, (∀ date, day.Covers period date → kept date) →
      unitsTotal (d.periodRows day period) = serverUnits d.world.server (day.Covers period) :=
    fun _ hperiod => (h.serverRows hopen hperiod).total
  refine ⟨d.db.sumLifetime none, ?_, fun hall => ?_⟩
  · rw [htip, ← hagree.date_sum]
    rw [show unitsTotal (d.db.queryDate none (day.ago 0)) = _ from htotal .today htoday]
  · rw [← hagree.lifetime_sum]
    exact htotal .lifetime fun date _ => hall date

end Desk

/-- The tooltip, where there is no trouble, has the units that the server counts today and, unless
they are hidden, in all, and a visible sales window those of its period, product by product; each if
`kept` holds of the dates of it. -/
structure ShowsServer (day : Day) (kept : Bytes → Prop) (d : Desk) : Prop where
  tooltip : d.world.status.status = .idle → (∀ date, day.Covers .today date → kept date) →
    ∃ units, d.tooltip = totalsText (serverUnits d.world.server (day.Covers .today))
        (if d.hideLifetime then none else some units) ∧
      ((∀ date, kept date) → units = serverUnits d.world.server (day.Covers .lifetime))
  window : ∀ w, d.window = some w → w.visible = true →
    (∀ date, day.Covers w.currentPeriod date → kept date) →
    w.total = totalText (serverUnits d.world.server (day.Covers w.currentPeriod)) ∧
      ∃ rows, ServerRows d.world.server (day.Covers w.currentPeriod) rows ∧
        w.items = rows.map Item.ofRow

theorem Fresh.showsServer {day : Day} {d : Desk} {kept : Bytes → Prop} (hfresh : Fresh day d)
    (hopen : d.dbOpen = true) (h : Kept d kept) : ShowsServer day kept d where
  tooltip hidle htoday := by
    rw [hfresh.tooltip]
    exact h.tip hopen hidle htoday
  window w hw hvisible hperiod := by
    have hcurrent := hfresh.window w hw hvisible
    have hrows := h.serverRows hopen hperiod
    exact ⟨hcurrent.total.trans (congrArg totalText hrows.total), _, hrows, hcurrent.items⟩

/-! ### Runs with an honest server -/

/-- The rules of a run with an honest server, in which no initial pass gets a change list while a
date that its cursor covers is out of date; for the rest anything happens. -/
def serverAppRules : Rules Op AppState Reply UiMove := resumeRules.comap fun s => s.state.coarse

theorem Desk.coarse_db (d : Desk) : d.coarse.db = d.world.db := by
  unfold Desk.coarse
  split <;> rfl

theorem Desk.coarse_server (d : Desk) : d.coarse.server = d.world.server := by
  unfold Desk.coarse
  split <;> rfl

theorem Desk.follows_world {d : Desk} (h : Follows d.coarse) : Follows d.world := by
  obtain ⟨hsound, hdated⟩ := h
  rw [d.coarse_db, d.coarse_server] at hsound hdated
  exact ⟨hsound, hdated⟩

/-- The mark that is stored. -/
def Desk.mark (d : Desk) : Bytes := d.world.db.conn.committed.syncState.changedDatesHighwatermark

/-- Before the run the tables follow the server, and nothing is being handled. -/
structure Begins (d : Desk) : Prop extends Unopened d where
  follows : Follows d.world
  unshown : d.unshown = false

theorem Begins.after {d : Desk} (hd : Begins d) {es : List (Event Reply UiMove)}
    (hes : serverAppRules.Admitted app runSynchronization ⟨⟨d, .ret ()⟩, none⟩ es) :
    Handling (d.after es) ∧ Follows (d.after es).state.coarse := by
  have hstart : Handling ⟨d, .ret ()⟩ := by
    unfold Handling
    rw [hd.unshown]
    trivial
  have hcoarse : d.coarse = d.world := by
    unfold Desk.coarse
    rw [hd.unshown]
    rfl
  obtain ⟨hhandling, es', -, hadmitted, hrun⟩ :=
    app_refines.run (fun _ _ => trivial) runSynchronization hstart hes
  rw [show (Config.map (fun s : AppState => s.state.coarse) ⟨⟨d, .ret ()⟩, none⟩ :
    Config Op Op.Answer World Exit) = ⟨d.world, none⟩ from congrArg (Config.mk · none) hcoarse]
    at hadmitted hrun
  have hfollows := hd.follows.run hadmitted
  rw [World.after, hrun] at hfollows
  exact ⟨hhandling, hfollows⟩

/-- The tables that the views read, at the end of a run that ends with no task under way. -/
theorem Begins.kept {d : Desk} (hd : Begins d) {es : List (Event Reply UiMove)}
    (hes : serverAppRules.Admitted app runSynchronization ⟨⟨d, .ret ()⟩, none⟩ es) :
    ∃ m, (d.after es).state.mark = decimal m ∧
      Kept (d.after es).state fun date =>
        ∀ c, (d.after es).state.world.server.latest date = some c → c.id ≤ m := by
  obtain ⟨-, hfollows⟩ := hd.after hes
  have hworld := Desk.follows_world hfollows
  obtain ⟨⟨m, hsound⟩, -⟩ := hworld.sound
  have hdated := hworld.dated.1
  exact ⟨m, hsound.mark, (valid_after hd.valid es).1, hdated, fun _ => hsound.keeps hdated⟩

/-- With an honest server, whatever fails and however often the program is killed: once a pass has
ended and nothing is under way, the tooltip and a visible sales window have, for a period in which
the server has changed no date after the stored mark, the units that the server counts in it. -/
theorem shown_is_servers {day : Day} {d₀ : Desk} (hd₀ : Begins d₀) {es : List (Event Reply UiMove)}
    (hes : serverAppRules.Admitted app runSynchronization ⟨⟨d₀, .ret ()⟩, none⟩ es)
    {start : Config Op Op.Answer AppState Exit}
    (h : Quiesced day start (app.run runSynchronization ⟨⟨d₀, .ret ()⟩, none⟩ es))
    (hopen : (d₀.after es).state.dbOpen = true) :
    ∃ m, (d₀.after es).state.mark = decimal m ∧
      ShowsServer day (fun date =>
        ∀ c, (d₀.after es).state.world.server.latest date = some c → c.id ≤ m)
        (d₀.after es).state := by
  obtain ⟨m, hmark, hkept⟩ := hd₀.kept hes
  exact ⟨m, hmark, h.fresh.showsServer hopen hkept⟩

/-! ### After a pass that succeeds -/

/-- The tooltip has the units that the server counts today and, unless they are hidden, in all, and
a visible sales window those of its period, product by product and in all. -/
structure ShowsAll (day : Day) (d : Desk) : Prop where
  tooltip : d.tooltip = totalsText (serverUnits d.world.server (day.Covers .today))
    (if d.hideLifetime then none else some (serverUnits d.world.server (day.Covers .lifetime)))
  window : ∀ w, d.window = some w → w.visible = true →
    w.total = totalText (serverUnits d.world.server (day.Covers w.currentPeriod)) ∧
      ∃ rows, ServerRows d.world.server (day.Covers w.currentPeriod) rows ∧
        w.items = rows.map Item.ofRow

/-- A pass has succeeded, and since then none has begun; nothing else is under way, and the server
is as it was when the pass began. -/
structure Succeeded (day : Day) (start c : Config Op Op.Answer AppState Exit) : Prop where
  run : ∃ pass exit c' later,
    Execution (calmRules day) app runSynchronization start pass exit c' ∧ ¬exit.Failed ∧
      serverAppRules.Admitted app runSynchronization start (.start :: pass) ∧
      (∀ e ∈ later, e.Within) ∧ (calmRules day).Admitted app runSynchronization c' later ∧
      app.run runSynchronization c' later = c
  waits : c.state.Waits
  noneDue : ¬Due c.state.state
  unchanged : c.state.state.world.server = start.state.state.world.server

theorem Succeeded.quiesced {day : Day} {start c : Config Op Op.Answer AppState Exit}
    (h : Succeeded day start c) : Quiesced day start c where
  run := by
    obtain ⟨pass, exit, c', later, hpass, -, -, -, hcalm, hc⟩ := h.run
    exact ⟨pass, exit, c', later, hpass, hcalm, hc⟩
  idle := by
    obtain ⟨pass, exit, c', later, hpass, -, -, hwithin, hcalm, rfl⟩ := h.run
    exact Config.idle_of_returned (hcalm.returned (I := fun _ => True) (fun _ _ _ _ => trivial)
      hpass.ends trivial hwithin).1
  waits := h.waits
  noneDue := h.noneDue

/-- What the worker has after a pass that succeeds, and what the run up to there is. -/
theorem Succeeded.after {day : Day} {d₀ : Desk} (hd₀ : Begins d₀)
    {before : List (Event Reply UiMove)}
    (hbefore : serverAppRules.Admitted app runSynchronization ⟨⟨d₀, .ret ()⟩, none⟩ before)
    {c : Config Op Op.Answer AppState Exit}
    (h : Succeeded day (app.run runSynchronization ⟨⟨d₀, .ret ()⟩, none⟩ before) c) :
    ∃ es, serverAppRules.Admitted app runSynchronization ⟨⟨d₀, .ret ()⟩, none⟩ es ∧
      app.run runSynchronization ⟨⟨d₀, .ret ()⟩, none⟩ es = c ∧
      Rests (.caughtUp c.state.state.world.server.greatestId) c.state.state.world := by
  have hserver := h.unchanged
  have hwaits := h.waits
  obtain ⟨hhandling, hfollows⟩ := hd₀.after hbefore
  obtain ⟨pass, exit, c', later, hpass, hexit, hhonest, hwithin, -, rfl⟩ := h.run
  -- The pass, as `service` has it.
  obtain ⟨es', hexecution⟩ :=
    app_refines.execution (fun _ _ => trivial) hhandling (hpass.under hhonest)
  have hpassed := (@CaughtUp.pass_caughtUp false (d₀.after before).state.coarse.server.greatestId
    ).execution hexecution hfollows.markInvariant (le_refl _)
  -- Later there are moves of the environment alone.
  have hreturned : serverAppRules.Admitted app runSynchronization c' later :=
    Rules.admitted_returned (fun _ _ => trivial) hpass.ends hwithin
  have hall : serverAppRules.Admitted app runSynchronization ⟨⟨d₀, .ret ()⟩, none⟩
      (before ++ (.start :: pass ++ later)) := by
    refine hbefore.append (hhonest.append ?_)
    rw [hpass.run]
    exact hreturned
  have hrun : app.run runSynchronization ⟨⟨d₀, .ret ()⟩, none⟩
      (before ++ (.start :: pass ++ later)) = app.run runSynchronization c' later := by
    rw [Machine.run_append, Machine.run_append, hpass.run]
  have hhandling' : Handling c'.state := by
    have hstart := (hd₀.after (hbefore.append hhonest)).1
    rwa [Desk.after, Machine.run_append, hpass.run] at hstart
  obtain ⟨hhandled, moves, hown, hadmitted, hlast⟩ :=
    app_refines.run (fun _ _ => trivial) runSynchronization hhandling' hreturned
  obtain ⟨-, hrests⟩ := hadmitted.returned (fun move w _ hw => hw.act move) hexecution.ends
    (hpassed.2 hexit) (Event.within_of_own hwithin hown)
  rw [hlast] at hrests
  have hcoarse : (app.run runSynchronization c' later).state.state.coarse =
      (app.run runSynchronization c' later).state.state.world := hhandled.coarse_of_waits hwaits
  refine ⟨_, hall, hrun, ?_⟩
  rw [hserver]
  rw [show (Config.map (fun s : AppState => s.state.coarse)
    (app.run runSynchronization c' later)).state = _ from hcoarse, Desk.coarse_server] at hrests
  exact hrests

theorem Fresh.showsAll {day : Day} {d : Desk} (hfresh : Fresh day d) (hopen : d.dbOpen = true)
    (h : Kept d fun _ => True) (hidle : d.world.status.status = .idle) : ShowsAll day d where
  tooltip := by
    obtain ⟨units, htip, hunits⟩ :=
      (hfresh.showsServer hopen h).tooltip hidle fun _ _ => trivial
    rw [htip, hunits fun _ => trivial]
  window w hw hvisible := (hfresh.showsServer hopen h).window w hw hvisible fun _ _ => trivial

theorem Succeeded.kept {day : Day} {d₀ : Desk} (hd₀ : Begins d₀)
    {before : List (Event Reply UiMove)}
    (hbefore : serverAppRules.Admitted app runSynchronization ⟨⟨d₀, .ret ()⟩, none⟩ before)
    {c : Config Op Op.Answer AppState Exit}
    (h : Succeeded day (app.run runSynchronization ⟨⟨d₀, .ret ()⟩, none⟩ before) c)
    (hclosed : c.state.state.world.db.conn.tx = none) :
    Kept c.state.state (fun _ => True) ∧ c.state.state.world.status.status = .idle := by
  obtain ⟨es, hes, rfl, ⟨-, hcaughtUp⟩, hidle⟩ := h.after hd₀ hbefore
  rw [Connection.visible_of_closed hclosed] at hcaughtUp
  obtain ⟨m, -, hkept⟩ := hd₀.kept hes
  exact ⟨⟨hkept.valid, hkept.dated,
    fun date _ => keeps_of_caughtUp hcaughtUp hkept.dated date⟩, hidle⟩

/-- After a pass that succeeds, while the server does not change, the tooltip and a visible sales
window have the units that the server counts, whatever the periods and whatever has failed
before. -/
theorem all_is_servers {day : Day} {d₀ : Desk} (hd₀ : Begins d₀)
    {before : List (Event Reply UiMove)}
    (hbefore : serverAppRules.Admitted app runSynchronization ⟨⟨d₀, .ret ()⟩, none⟩ before)
    {c : Config Op Op.Answer AppState Exit}
    (h : Succeeded day (app.run runSynchronization ⟨⟨d₀, .ret ()⟩, none⟩ before) c)
    (hclosed : c.state.state.world.db.conn.tx = none) (hopen : c.state.state.dbOpen = true) :
    ShowsAll day c.state.state := by
  obtain ⟨hkept, hidle⟩ := h.kept hd₀ hbefore hclosed
  exact h.quiesced.fresh.showsAll hopen hkept hidle

/-- A pass in which no call of the worker has failed has ended, and since then none has begun;
nothing else is under way, and the server is as it was when the pass began. -/
structure Undisturbed (day : Day) (start c : Config Op Op.Answer AppState Exit) : Prop where
  run : ∃ pass exit c' later,
    Execution (calmRules day) app runSynchronization start pass exit c' ∧
      (∀ reply, .call reply ∈ pass → Faultless reply) ∧
      serverAppRules.Admitted app runSynchronization start (.start :: pass) ∧
      (∀ e ∈ later, e.Within) ∧ (calmRules day).Admitted app runSynchronization c' later ∧
      app.run runSynchronization c' later = c
  waits : c.state.Waits
  noneDue : ¬Due c.state.state
  unchanged : c.state.state.world.server = start.state.state.world.server

/-- The pass succeeds, and leaves no transaction open. -/
theorem Undisturbed.succeeded {day : Day} {start c : Config Op Op.Answer AppState Exit}
    (h : Undisturbed day start c) (hhandling : Handling start.state)
    (hclosed : start.state.state.world.db.conn.tx = none) :
    Succeeded day start c ∧ c.state.state.world.db.conn.tx = none := by
  obtain ⟨pass, exit, c', later, hpass, hfaultless, hhonest, hwithin, hcalm, hc⟩ := h.run
  have hadmitted : (faultlessContract.rules.comap fun s : AppState => s.state.coarse).Admitted app
      runSynchronization start (.start :: pass) := by
    refine Rules.admitted_of_events (fun e he c => ?_) app runSynchronization start
    rcases List.mem_cons.mp he with rfl | he
    · trivial
    · cases e with
      | start => trivial
      | kill => exact (hpass.within _ he).elim
      | act move => trivial
      | call reply => exact Rules.admits_call (fun _ _ => hfaultless reply he) c
  obtain ⟨es', hexecution⟩ :=
    app_refines.execution (fun _ _ => trivial) hhandling (hpass.under hadmitted)
  obtain ⟨htx, hexit⟩ := faultless_pass_succeeds.execution hexecution
    (show start.state.state.coarse.db.conn.tx = none by rwa [Desk.coarse_db]) trivial
  have hends : c'.state.state.world.db.conn.tx = none := by
    rw [← Desk.coarse_db]
    exact htx
  obtain ⟨-, hlast⟩ := hcalm.returned (I := fun s => s.state.world.db.conn.tx = none)
    (fun move s _ hs => by rwa [(act_untouched move s).db]) hpass.ends hends hwithin
  rw [hc] at hlast
  exact ⟨⟨⟨pass, exit, c', later, hpass, hexit, hhonest, hwithin, hcalm, hc⟩, h.waits, h.noneDue,
    h.unchanged⟩, hlast⟩

/-- Whatever has failed before, one pass in which nothing fails succeeds, leaves no transaction open
and makes all right again. -/
theorem one_pass_recovers {day : Day} {d₀ : Desk} (hd₀ : Begins d₀)
    {before : List (Event Reply UiMove)}
    (hbefore : serverAppRules.Admitted app runSynchronization ⟨⟨d₀, .ret ()⟩, none⟩ before)
    (hclosed : (d₀.after before).state.world.db.conn.tx = none)
    {c : Config Op Op.Answer AppState Exit}
    (h : Undisturbed day (app.run runSynchronization ⟨⟨d₀, .ret ()⟩, none⟩ before) c) :
    Succeeded day (app.run runSynchronization ⟨⟨d₀, .ret ()⟩, none⟩ before) c ∧
      c.state.state.world.db.conn.tx = none ∧
        (c.state.state.dbOpen = true → ShowsAll day c.state.state) := by
  obtain ⟨hsucceeded, htx⟩ := h.succeeded (hd₀.after hbefore).1 hclosed
  obtain ⟨hkept, hidle⟩ := hsucceeded.kept hd₀ hbefore htx
  exact ⟨hsucceeded, htx, fun hopen => hsucceeded.quiesced.fresh.showsAll hopen hkept hidle⟩

instance : DecidablePred serverAppRules.start := fun _ => .isTrue trivial

instance (op : Op) (reply : Reply) (s : AppState) : Decidable (serverAppRules.call op reply s) :=
  inferInstanceAs (Decidable (resumeRules.call op reply s.state.coarse))

instance (move : UiMove) (s : AppState) : Decidable (serverAppRules.act move s) := .isTrue trivial

instance : DecidablePred serverAppRules.kill := fun _ => .isTrue trivial

namespace Sample

/-- The worker makes `n` calls of an initial pass, and is sent one sale of `units` units. -/
def answers (n : Nat) (units : Int) : List (Event Reply UiMove) :=
  List.replicate n (.call (Sync.Sample.reply [Sync.Sample.july18, Sync.Sample.july17] 2
    [Sync.Sample.sale units]))

/-- The dates are fetched from the oldest on, so the last calls are those of the second date. -/
def honestPass : List (Event Reply UiMove) := answers 19 1 ++ answers 21 2

def honestRun : List (Event Reply UiMove) := .start :: honestPass ++ shown

theorem begins : Begins desk where
  toUnopened := unopened_sample
  follows := by
    have hsound : ∃ m, MarkSound Sync.Sample.log m Tables.fresh := ⟨0, markSound_zero rfl⟩
    have hdated : Dated Sync.Sample.log Tables.fresh := nofun
    exact ⟨⟨hsound, hsound⟩, ⟨hdated, hdated⟩⟩
  unshown := rfl

theorem shown_calm {e : Event Reply UiMove} (he : e ∈ shown) :
    e.Within ∧ ∀ c : Config Op Op.Answer AppState Exit, (calmRules day).Admits c e := by
  obtain ⟨events, hevents, he⟩ := List.mem_flatten.mp he
  have hwithin : ∀ {t : UiTask}, e ∈ task t → e.Within := by
    intro t he
    rcases List.mem_cons.mp he with rfl | he
    · trivial
    · obtain ⟨-, rfl⟩ := List.mem_replicate.mp he
      trivial
  rcases List.mem_cons.mp hevents with rfl | hevents
  · exact ⟨hwithin he, task_calm (t := .showSales) trivial e he⟩
  · obtain ⟨-, rfl⟩ := List.mem_replicate.mp hevents
    exact ⟨hwithin he, task_calm (t := .handleMessage) trivial e he⟩

theorem honestPass_calls {e : Event Reply UiMove} (he : e ∈ honestPass) :
    e.Within ∧ ∀ c : Config Op Op.Answer AppState Exit, (calmRules day).Admits c e := by
  have hcall : ∃ reply, e = .call reply := by
    rcases List.mem_append.mp he with he | he <;> exact ⟨_, (List.mem_replicate.mp he).2⟩
  obtain ⟨reply, rfl⟩ := hcall
  exact ⟨trivial, Rules.admits_call fun _ _ => trivial⟩

theorem succeeded : Succeeded day start (app.run runSynchronization start honestRun) where
  run := by
    refine ⟨honestPass, .stored none,
      app.run runSynchronization start (.start :: honestPass), shown, ?_, id, by decide +kernel,
      fun e he => (shown_calm he).1,
      Rules.admitted_of_events (fun e he => (shown_calm he).2) _ _ _, ?_⟩
    · exact {
        idle := trivial
        within := fun e he => (honestPass_calls he).1
        admitted := ⟨trivial, Rules.admitted_of_events (fun e he => (honestPass_calls he).2) _ _ _⟩
        run := rfl
        ends := by decide +kernel }
    · rw [honestRun, Machine.run_append]
  waits := by decide +kernel
  noneDue := by decide +kernel
  unchanged := ChangeLog.eq_of_changes (by decide +kernel)

/-- Steam changes the date that is not the day of the run. -/
def july17Changes : List (Event Reply UiMove) :=
  [.act (.act (.serverChange 0 Sync.Sample.july17 [Sync.Sample.sale 5]))]

def changed : Desk := (desk.after (honestRun ++ july17Changes)).state

theorem quiesced_changed :
    Quiesced day start (app.run runSynchronization start (honestRun ++ july17Changes)) where
  run := by
    obtain ⟨pass, exit, c', later, hpass, -, -, -, hcalm, hc⟩ := succeeded.run
    refine ⟨pass, exit, c', later ++ july17Changes, hpass, hcalm.append ⟨trivial, trivial⟩, ?_⟩
    rw [Machine.run_append, Machine.run_append, hc]
  idle := by decide +kernel
  waits := by decide +kernel
  noneDue := by decide +kernel

end Sample

/-- Two units were sold on the day of the run, and the tooltip says so, although the mark does not
cover the other date any more. -/
theorem shown_is_servers_sample :
    (∃ units, Sample.changed.tooltip = totalsText 2 (some units)) ∧
      ¬∀ date, ∀ c, Sample.changed.world.server.latest date = some c → c.id ≤ 2 := by
  obtain ⟨m, hmark, hshows⟩ := shown_is_servers Sample.begins (by decide +kernel)
    Sample.quiesced_changed (by decide +kernel)
  have hm : m = 2 := decimal_injective (hmark.symm.trans (by decide +kernel))
  subst hm
  have htoday : ((Sample.changed.world.server.latest (Sample.day.ago 0)).all
      fun c => c.id ≤ 2) = true := by decide +kernel
  have hidle : Sample.changed.world.status.status = .idle := by decide +kernel
  obtain ⟨units, htip, -⟩ := hshows.tooltip hidle <| by
    rintro _ rfl c hc
    rw [show Sample.changed.world.server.latest (Sample.day.ago 0) = some c from hc] at htoday
    exact of_decide_eq_true htoday
  refine ⟨⟨units, htip.trans ?_⟩, fun hall => ?_⟩
  · have htwo : serverUnits Sample.changed.world.server (Sample.day.Covers .today) = 2 := by
      decide +kernel
    have hshown : Sample.changed.hideLifetime ≠ true := by decide +kernel
    exact congrArg₂ totalsText htwo (if_neg hshown)
  · obtain ⟨c, hc, hid⟩ : ∃ c, Sample.changed.world.server.latest Sync.Sample.july17 = some c ∧
        c.id = 3 := ⟨_, rfl, by decide +kernel⟩
    have := hall _ c hc
    omega

/-- Three units were sold, two of them on the day of the run. -/
theorem all_is_servers_sample :
    (app.run runSynchronization Sample.start Sample.honestRun).state.state.tooltip =
        totalsText 2 (some 3) ∧
      ∀ w, (app.run runSynchronization Sample.start Sample.honestRun).state.state.window = some w →
        w.visible = true → w.total = totalText (serverUnits
          (app.run runSynchronization Sample.start Sample.honestRun).state.state.world.server
          (Sample.day.Covers w.currentPeriod)) := by
  have hsample := @all_is_servers Sample.day Sample.desk Sample.begins [] trivial _
    Sample.succeeded (by decide +kernel) (by decide +kernel)
  refine ⟨hsample.1.trans ?_, fun w hw hvisible => (hsample.2 w hw hvisible).1⟩
  decide +kernel

namespace Sample

/-- The second date cannot be fetched, the program is killed, and it is started again. -/
def interrupted : List (Event Reply UiMove) :=
  .start :: answers 19 1 ++ List.replicate 5 (.call (Sync.Sample.offline
    (Sync.Sample.reply [Sync.Sample.july18, Sync.Sample.july17] 2 []))) ++
    [.kill, .act (.begins (.startUp true true))]

def resumed : Config Op Op.Answer AppState Exit := app.run runSynchronization start interrupted

def recovered : Config Op Op.Answer AppState Exit :=
  app.run runSynchronization resumed (.start :: answers 30 2 ++ shown)

theorem faultless_reply {reply : Reply} {n : Nat} {units : Int}
    (h : .call reply ∈ answers n units) : Faultless reply := by
  obtain ⟨-, hreply⟩ := List.mem_replicate.mp h
  cases hreply
  exact ⟨rfl, rfl, rfl, rfl, ⟨_, rfl, by decide⟩, rfl, rfl⟩

theorem undisturbed : Undisturbed day resumed recovered where
  run := by
    refine ⟨answers 30 2, .stored none,
      app.run runSynchronization resumed (.start :: answers 30 2), shown, ?_,
      fun _ => faultless_reply, by decide +kernel, fun e he => (shown_calm he).1,
      Rules.admitted_of_events (fun e he => (shown_calm he).2) _ _ _, ?_⟩
    · exact Execution.of_calls (by decide +kernel) (fun _ => trivial) (fun _ _ => trivial)
        (by decide +kernel)
    · rw [recovered, Machine.run_append]
  waits := by decide +kernel
  noneDue := by decide +kernel
  unchanged := ChangeLog.eq_of_changes (by decide +kernel)

end Sample

theorem one_pass_recovers_interrupted :
    Succeeded Sample.day Sample.resumed Sample.recovered ∧
      ShowsAll Sample.day Sample.recovered.state.state := by
  obtain ⟨hsucceeded, -, hshows⟩ := @one_pass_recovers Sample.day Sample.desk Sample.begins
    Sample.interrupted (by decide +kernel) (by decide +kernel) _ Sample.undisturbed
  exact ⟨hsucceeded, hshows (by decide +kernel)⟩

end SteamSalesTray.App
