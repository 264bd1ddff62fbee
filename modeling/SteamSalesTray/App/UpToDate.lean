import SteamSalesTray.App.SalesList

/-! After any pass of the worker, what the tray and the sales window show is up to date as soon as
the UI thread has handled its messages, whatever the user has done meanwhile. -/

namespace SteamSalesTray.App

open Calendar Interaction Platform Storage Steam Sync UI

/-! ### What is up to date -/

/-- A day whose last days the program can compute. -/
structure Day where
  date : Date
  early : 1602 ≤ date.year
  late : date.year ≤ 9999

/-- The text of the day `days` days before. -/
def Day.ago (day : Day) (days : Nat) : Bytes := dayText day.date days

theorem Day.steamToday_eq (day : Day) {now : SystemTime} (h : now.IsOn day.date) :
    steamToday now = day.ago 0 := by
  rw [h.steamToday, Day.ago, dayText, Nat.sub_zero, ofDayNumber_dayNumber]

theorem Day.steamDateDaysAgo_eq (day : Day) {now : SystemTime} (h : now.IsOn day.date) (days : Nat)
    (hdays : days ≤ 365) : steamDateDaysAgo now days = day.ago days :=
  Platform.steamDateDaysAgo_eq h day.early day.late hdays

/-- The tooltip that the status and the tables call for. -/
def Desk.tip (day : Day) (d : Desk) : Wide :=
  match statusTip d.world.status.status with
  | some tip => tip
  | none =>
    if d.dbOpen then
      totalsText (d.db.sumForDate none (day.ago 0))
        (if d.hideLifetime then none else some (d.db.sumLifetime none))
    else wide "Steam Sales"

def Desk.periodRows (day : Day) (d : Desk) : SalesPeriod → List ProductUnits
  | .today => d.db.queryDate none (day.ago 0)
  | .yesterday => d.db.queryDate none (day.ago 1)
  | .last7Days => d.db.queryRange none (day.ago 6) (day.ago 0)
  | .last30Days => d.db.queryRange none (day.ago 29) (day.ago 0)
  | .lifetime => d.db.queryLifetime none

/-- The list, the total and the status line are those of the tables. -/
structure Current (day : Day) (d : Desk) (w : SalesWindow) : Prop where
  items : w.items = (d.periodRows day w.currentPeriod).map Item.ofRow
  total : w.total = totalText (unitsTotal (d.periodRows day w.currentPeriod))
  status : ∃ utcNow, w.status = updateStatusLine utcNow none none d.db

structure Fresh (day : Day) (d : Desk) : Prop where
  tooltip : d.tooltip = d.tip day
  window : ∀ w, d.window = some w → w.visible = true → Current day d w

/-! ### The handlers, with nothing beside them -/

section Alone

variable {day : Day} {α : Type}

/-- The reads succeed, and the clock is on the day. -/
def Calm (day : Day) (reply : UiReply) : Prop :=
  reply.readLimit = none ∧ reply.pacificNow.IsOn day.date

abbrev quietly (day : Day) : Contract UiOp UiOp.Answer Desk UiReply Desk :=
  uiThread.alone (Calm day)

/-- A read at the desk `d`. -/
theorem read_at (op : UiOp) {d : Desk} {R : op.Answer → Prop}
    (h : ∀ reply, Calm day reply → (d.exec op reply).2 = d ∧ R (d.exec op reply).1) :
    (quietly day).Spec (· = d) (ask op) fun answer d' => d' = d ∧ R answer :=
  Thread.spec_perform fun d' reply hd hreply => by
    subst hd
    exact h reply hreply

/-- A call that leads from the desk `d` to `d'`. -/
theorem set_at (op : UiOp) {d d' : Desk} (h : ∀ reply, (d.exec op reply).2 = d') :
    (quietly day).Spec (· = d) (ask op) fun _ after => after = d' :=
  Thread.spec_perform fun d₁ reply hd _ => by
    subst hd
    exact h reply

theorem done_at {value : α} {d : Desk} {Q : α → Desk → Prop} (h : Q value d) :
    (quietly day).Spec (· = d) (pure value) Q :=
  Contract.Spec.ret (Thread.alone_stable _) fun _ _ hd => hd ▸ h

theorem readLifetime_at (d : Desk) :
    (quietly day).Spec (· = d) readLifetime fun lifetime d' => d' = d ∧
      lifetime = if d.hideLifetime then none else some (d.db.sumLifetime none) := by
  have hhide : (quietly day).Spec (· = d) (ask .getHideLifetime)
      fun hidden d' => d' = d ∧ hidden = d.hideLifetime :=
    read_at .getHideLifetime fun _ _ => ⟨rfl, rfl⟩
  refine hhide.bind fun hidden => .given ?_
  rintro rfl
  cases hhidden : d.hideLifetime with
  | true => exact done_at ⟨rfl, rfl⟩
  | false =>
    have hsum : (quietly day).Spec (· = d) (ask .sumLifetime)
        fun lifetime d' => d' = d ∧ lifetime = d.db.sumLifetime none :=
      read_at .sumLifetime fun reply hreply => ⟨rfl, by rw [← hreply.1]; rfl⟩
    refine hsum.bind fun lifetime => .given ?_
    rintro rfl
    exact done_at ⟨rfl, rfl⟩

theorem steamToday_at (d : Desk) :
    (quietly day).Spec (· = d) (ask .steamToday)
      fun date d' => d' = d ∧ date = day.ago 0 :=
  read_at .steamToday fun _ hreply => ⟨rfl, day.steamToday_eq hreply.2⟩

theorem idleTip_at (d : Desk) (hidle : statusTip d.world.status.status = none) :
    (quietly day).Spec (· = d) idleTip fun tip d' => d' = d ∧ tip = d.tip day := by
  have hopen : (quietly day).Spec (· = d) (ask .isDbOpen)
      fun opened d' => d' = d ∧ opened = d.dbOpen := read_at .isDbOpen fun _ _ => ⟨rfl, rfl⟩
  have htip : d.tip day = if d.dbOpen then
      totalsText (d.db.sumForDate none (day.ago 0))
        (if d.hideLifetime then none else some (d.db.sumLifetime none))
      else wide "Steam Sales" := by
    rw [Desk.tip, hidle]
  refine hopen.bind fun opened => .given ?_
  rintro rfl
  cases hopened : d.dbOpen with
  | false => exact done_at ⟨rfl, by rw [htip, hopened]; rfl⟩
  | true =>
    refine (steamToday_at d).bind fun date => .given ?_
    rintro rfl
    have hsum : (quietly day).Spec (· = d) (ask (.sumForDate (day.ago 0)))
        fun today d' => d' = d ∧ today = d.db.sumForDate none (day.ago 0) :=
      read_at (.sumForDate _) fun reply hreply => ⟨rfl, by rw [← hreply.1]; rfl⟩
    refine hsum.bind fun today => .given ?_
    rintro rfl
    refine (readLifetime_at d).bind fun lifetime => .given ?_
    rintro rfl
    exact done_at ⟨rfl, by rw [htip, hopened]; rfl⟩

theorem updateTray_at (d : Desk) :
    (quietly day).Spec (· = d) updateTray fun _ d' => d' = { d with tooltip := d.tip day } := by
  have hstatus : (quietly day).Spec (· = d) (ask .getStatus)
      fun st d' => d' = d ∧ st = d.world.status := read_at .getStatus fun _ _ => ⟨rfl, rfl⟩
  refine hstatus.bind fun st => .given ?_
  rintro rfl
  show (quietly day).Spec _ (match statusTip d.world.status.status with
    | some tip => setTooltip tip
    | none => idleTip >>= setTooltip) _
  cases htip : statusTip d.world.status.status with
  | some tip =>
    refine set_at (.setTooltip tip) fun _ => ?_
    rw [Desk.tip, htip]
    rfl
  | none =>
    refine (idleTip_at d htip).bind fun tip => .given ?_
    rintro rfl
    exact set_at (.setTooltip _) fun _ => rfl

theorem queryPeriod_at (d : Desk) (period : SalesPeriod) :
    (quietly day).Spec (· = d) (queryPeriod period)
      fun rows d' => d' = d ∧ rows = d.periodRows day period := by
  have hago : ∀ days ≤ 365, (quietly day).Spec (· = d) (ask (.steamDateDaysAgo days))
      fun date d' => d' = d ∧ date = day.ago days := fun days hdays =>
    read_at (.steamDateDaysAgo days) fun _ hreply =>
      ⟨rfl, day.steamDateDaysAgo_eq hreply.2 days hdays⟩
  have hdate : ∀ date, (quietly day).Spec (· = d) (ask (.queryDate date))
      fun rows d' => d' = d ∧ rows = d.db.queryDate none date := fun date =>
    read_at (.queryDate date) fun reply hreply => ⟨rfl, by rw [← hreply.1]; rfl⟩
  have hrange : ∀ startDate endDate, (quietly day).Spec (· = d)
      (ask (.queryRange startDate endDate))
      fun rows d' => d' = d ∧ rows = d.db.queryRange none startDate endDate :=
    fun startDate endDate => read_at (.queryRange startDate endDate) fun reply hreply =>
      ⟨rfl, by rw [← hreply.1]; rfl⟩
  cases period with
  | today =>
    refine (steamToday_at d).bind fun date => .given ?_
    rintro rfl
    exact hdate _
  | yesterday =>
    refine (hago 1 (by decide)).bind fun date => .given ?_
    rintro rfl
    exact hdate _
  | last7Days =>
    refine (hago 6 (by decide)).bind fun startDate => .given ?_
    rintro rfl
    refine (steamToday_at d).bind fun endDate => .given ?_
    rintro rfl
    exact hrange _ _
  | last30Days =>
    refine (hago 29 (by decide)).bind fun startDate => .given ?_
    rintro rfl
    refine (steamToday_at d).bind fun endDate => .given ?_
    rintro rfl
    exact hrange _ _
  | lifetime =>
    refine read_at .queryLifetime fun reply hreply => ⟨rfl, ?_⟩
    show d.db.queryLifetime reply.readLimit = _
    rw [hreply.1]
    rfl

theorem statusText_at (d : Desk) :
    (quietly day).Spec (· = d) statusText
      fun text d' => d' = d ∧ ∃ utcNow, text = updateStatusLine utcNow none none d.db := by
  have herror : (quietly day).Spec (· = d) (ask .getLastError)
      fun lastError d' => d' = d ∧ lastError = d.db.getLastError none :=
    read_at .getLastError fun reply hreply => ⟨rfl, by rw [← hreply.1]; rfl⟩
  have hsync : (quietly day).Spec (· = d) (ask .getLastSuccessfulSyncUtc)
      fun lastSyncUtc d' => d' = d ∧ lastSyncUtc = d.db.getLastSuccessfulSyncUtc none :=
    read_at .getLastSuccessfulSyncUtc fun reply hreply => ⟨rfl, by rw [← hreply.1]; rfl⟩
  refine herror.bind fun lastError => .given ?_
  rintro rfl
  show (quietly day).Spec _ (if _ then _ else _) _
  split
  · rename_i hfailed
    exact done_at ⟨rfl, ⟨0, 0, 0, 0, 0, 0, 0⟩, (if_pos hfailed).symm⟩
  · rename_i hfailed
    refine hsync.bind fun lastSyncUtc => .given ?_
    rintro rfl
    have hclock : (quietly day).Spec (· = d) (ask .utcNow) fun _ d' => d' = d :=
      (read_at (R := fun _ => True) .utcNow fun _ _ => ⟨rfl, trivial⟩).post fun _ _ h => h.1
    exact hclock.bind fun utcNow => done_at ⟨rfl, utcNow, (if_neg hfailed).symm⟩

theorem insertRows_at (d : Desk) (rows : List ProductUnits) (w : SalesWindow) (total : Int) :
    (quietly day).Spec (· = { d with window := some w }) (insertRows rows w total)
      fun r d' => d' = { d with window := some r.1 } ∧
        r = ({ w with items := w.items ++ rows.map Item.ofRow }, total + unitsTotal rows) := by
  induction rows generalizing w total with
  | nil =>
    refine done_at ⟨rfl, ?_⟩
    simp [unitsTotal]
  | cons row rows ih =>
    have hinsert : (quietly day).Spec (· = { d with window := some w })
        (ask (.setWindow (w.insertItem row)))
        fun _ after => after = { d with window := some (w.insertItem row) } :=
      set_at _ fun _ => rfl
    refine hinsert.bind fun _ => (ih (w.insertItem row) (total + row.units)).post
      fun r _ h => ⟨h.1, h.2.trans ?_⟩
    simp [SalesWindow.insertItem, unitsTotal, Int.add_assoc]

theorem reloadList_at (d : Desk) (w : SalesWindow) :
    (quietly day).Spec (· = d) (reloadList w)
      fun w' d' => d' = { d with window := some w' } ∧ Current day d w' := by
  have hset : ∀ before after : SalesWindow, (quietly day).Spec
      (· = { d with window := some before }) (ask (.setWindow after))
      fun _ d' => d' = { d with window := some after } := fun _ _ => set_at _ fun _ => rfl
  have hdelete : (quietly day).Spec (· = d) (ask (.setWindow w.deleteAllItems))
      fun _ d' => d' = { d with window := some w.deleteAllItems } := set_at _ fun _ => rfl
  refine hdelete.bind fun _ => ?_
  refine (queryPeriod_at { d with window := some w.deleteAllItems } w.currentPeriod).bind
    fun rows => .given fun hrows => ?_
  refine (insertRows_at d rows w.deleteAllItems 0).bind ?_
  rintro ⟨listed, total⟩
  refine .given fun hlisted => ?_
  obtain ⟨rfl, rfl⟩ := Prod.mk.inj hlisted
  rw [Int.zero_add]
  refine (hset _ (w.reloaded rows w.status)).bind fun _ => ?_
  refine (statusText_at { d with window := some (w.reloaded rows w.status) }).bind fun status =>
    .given fun hstatus => ?_
  refine (hset _ (w.reloaded rows status)).bind fun _ => done_at ⟨rfl, ?_⟩
  rw [show rows = d.periodRows day w.currentPeriod from hrows]
  exact ⟨rfl, rfl, hstatus⟩

theorem onWindow_at {d : Desk} {handler : SalesWindow → Ui Unit} {Q : Desk → Prop}
    (hnone : d.window = none → Q d)
    (hsome : ∀ w, d.window = some w →
      (quietly day).Spec (· = d) (handler w) fun _ => Q) :
    (quietly day).Spec (· = d) (onWindow handler) fun _ => Q := by
  have hget : (quietly day).Spec (· = d) (ask .getWindow)
      fun window d' => d' = d ∧ window = d.window := read_at .getWindow fun _ _ => ⟨rfl, rfl⟩
  refine hget.bind fun window => .given ?_
  rintro rfl
  cases hwindow : d.window with
  | none => exact done_at (hnone hwindow)
  | some w => exact hsome w hwindow

theorem populatePeriodCombo_at (d : Desk) (w : SalesWindow) :
    (quietly day).Spec (· = d) (populatePeriodCombo w)
      fun w' d' => d' = { d with window := some w' } := by
  have hhide : (quietly day).Spec (· = d) (ask .getHideLifetime)
      fun hidden d' => d' = d ∧ hidden = d.hideLifetime :=
    read_at .getHideLifetime fun _ _ => ⟨rfl, rfl⟩
  have hsaved : (quietly day).Spec (· = d) (ask .getSalesPeriodIndex)
      fun index d' => d' = d ∧ index = d.sales.getSalesPeriodIndex :=
    read_at .getSalesPeriodIndex fun _ _ => ⟨rfl, rfl⟩
  refine hhide.bind fun hideLifetime => .given fun _ => ?_
  refine hsaved.bind fun savedValue => .given fun _ => ?_
  refine (set_at (.setWindow (w.populatePeriodCombo hideLifetime savedValue))
    fun _ => rfl).bind fun _ => ?_
  exact done_at rfl

/-! ### Handlers that leave the desk up to date -/

/-- The tooltip is up to date. -/
def Tipped (day : Day) (d : Desk) : Prop := d.tooltip = d.tip day

theorem fresh_window {d : Desk} {w : SalesWindow} (htip : Tipped day d) (hw : Current day d w) :
    Fresh day { d with window := some w } := by
  refine ⟨htip, ?_⟩
  rintro w' ⟨⟩ -
  exact ⟨hw.items, hw.total, hw.status⟩

theorem fresh_none {d : Desk} (htip : Tipped day d) (hnone : d.window = none) : Fresh day d := by
  refine ⟨htip, fun w hw => ?_⟩
  rw [hnone] at hw
  cases hw

theorem reload_at {d : Desk} (htip : Tipped day d) (w : SalesWindow) :
    (quietly day).Spec (· = d) (reloadList w >>= fun _ => pure ()) fun _ => Fresh day :=
  (reloadList_at d w).bind fun w' => fun d' hd' h => by
    obtain ⟨rfl, hcurrent⟩ := h
    exact done_at (fresh_window htip hcurrent) _ hd' rfl

theorem refresh_at {d : Desk} (htip : Tipped day d) :
    (quietly day).Spec (· = d) refresh fun _ => Fresh day := by
  refine onWindow_at (fresh_none htip) fun w hw => ?_
  show (quietly day).Spec _ (if _ then _ else _) _
  split
  · exact reload_at htip w
  · rename_i hhidden
    refine done_at ⟨htip, fun w' hw' hvisible => absurd hvisible ?_⟩
    obtain rfl := Option.some.inj (hw.symm.trans hw')
    exact hhidden

theorem reloadAndShow_at {d : Desk} (htip : Tipped day d) (w : SalesWindow) :
    (quietly day).Spec (· = d) (reloadAndShow w) fun _ => Fresh day := by
  refine (reloadList_at d w).bind fun w' => .given fun hcurrent => ?_
  refine (set_at (d := { d with window := some w' }) (.setWindow { w' with visible := true })
    fun _ => rfl).post fun _ _ hd => ?_
  rw [hd]
  exact fresh_window htip ⟨hcurrent.items, hcurrent.total, hcurrent.status⟩

theorem ensureCreated_at (d : Desk) :
    (quietly day).Spec (· = d) ensureCreated fun created d' =>
      match created with
      | some w => d' = { d with window := some w }
      | none => d' = d := by
  have hreads : ∀ {op : UiOp}, (∀ reply, (d.exec op reply).2 = d) →
      (quietly day).Spec (· = d) (ask op) fun _ d' => d' = d := fun hop => set_at _ hop
  have hcolumn : ∀ column, (quietly day).Spec (· = d) (insertColumn column) fun _ d' => d' = d :=
    fun column => (hreads fun _ => rfl).bind fun _ => hreads fun _ => rfl
  refine (hreads fun _ => rfl).bind fun rect => ?_
  have hcreate : (quietly day).Spec (· = d) (ask (.createWindow rect)) fun _ d' => d' = d :=
    hreads fun _ => rfl
  refine hcreate.bind fun created => ?_
  cases created with
  | true =>
    refine (hcolumn 0).bind fun _ => (hcolumn 1).bind fun _ => (hcolumn 2).bind fun _ => ?_
    exact (populatePeriodCombo_at d .created).bind fun w => done_at rfl
  | false => exact done_at rfl

theorem showAndFocus_at {d : Desk} (htip : Tipped day d) :
    (quietly day).Spec (· = d) showAndFocus fun _ => Fresh day := by
  have hget : (quietly day).Spec (· = d) (ask .getWindow)
      fun window d' => d' = d ∧ window = d.window := read_at .getWindow fun _ _ => ⟨rfl, rfl⟩
  refine hget.bind fun window => .given ?_
  rintro rfl
  cases hwindow : d.window with
  | some w => exact reloadAndShow_at htip w
  | none =>
    refine (ensureCreated_at d).bind fun created => ?_
    cases created with
    | some w => exact reloadAndShow_at (d := { d with window := some w }) htip w
    | none => exact done_at (fresh_none htip hwindow)

theorem onSelChange_at {d : Desk} (htip : Tipped day d) :
    (quietly day).Spec (· = d) onSelChange fun _ => Fresh day := by
  refine onWindow_at (fresh_none htip) fun w hw => ?_
  refine (set_at (.setSalesPeriodIndex w.currentPeriod.index) fun _ => rfl).bind fun _ => ?_
  exact reload_at (d := { d with
    sales := d.sales.setSalesPeriodIndex w.currentPeriod.index }) htip w

theorem onRefresh_at {d : Desk} (htip : Tipped day d) :
    (quietly day).Spec (· = d) onRefresh fun _ => Fresh day := by
  refine (set_at (.signal .manual) fun _ => rfl).bind fun _ => ?_
  exact onWindow_at (fresh_none htip) fun w hw =>
    reload_at (d := { d with signals := .manual :: d.signals }) htip w

/-- Only what is saved of the sales window may differ. -/
def Resaved (d d' : Desk) : Prop := ∃ sales, d' = { d with sales := sales }

theorem ask_resaved {d : Desk} {op : UiOp} (hop : ∀ reply d, Resaved d (Desk.exec op reply d).2) :
    (quietly day).Spec (Resaved d) (ask op) fun _ => Resaved d := by
  refine Thread.spec_perform fun d' reply hd' _ => ?_
  obtain ⟨sales, rfl⟩ := hd'
  obtain ⟨sales', hafter⟩ := hop reply { d with sales := sales }
  exact ⟨sales', hafter⟩

theorem saveGeometry_resaved (d : Desk) :
    (quietly day).Spec (Resaved d) saveGeometry fun _ => Resaved d := by
  refine (ask_resaved fun _ d => ⟨d.sales, rfl⟩).bind fun rect => ?_
  cases rect with
  | some rect => exact ask_resaved fun _ _ => ⟨_, rfl⟩
  | none => exact Contract.Spec.done (Thread.alone_stable _)

theorem saveColumnWidth_resaved (d : Desk) (column : Fin 3) :
    (quietly day).Spec (Resaved d) (saveColumnWidth column) fun _ => Resaved d :=
  (ask_resaved fun _ d => ⟨d.sales, rfl⟩).bind fun _ => ask_resaved fun _ _ => ⟨_, rfl⟩

theorem onClose_at {d : Desk} (htip : Tipped day d) :
    (quietly day).Spec (· = d) onClose fun _ => Fresh day := by
  have hhide : ∀ sales, (quietly day).Spec (· = { d with sales := sales })
      (onWindow fun w => ask (.setWindow { w with visible := false })) fun _ => Fresh day := by
    refine fun sales => onWindow_at (fresh_none htip) fun w hw => ?_
    refine (set_at (.setWindow { w with visible := false }) fun _ => rfl).post ?_
    rintro _ _ rfl
    refine ⟨htip, ?_⟩
    rintro _ ⟨⟩ hvisible
    cases hvisible
  have hstart : (quietly day).Spec (· = d) saveGeometry fun _ => Resaved d :=
    (saveGeometry_resaved d).pre fun d' _ hd' => ⟨d.sales, hd'⟩
  have hcolumn : ∀ column, (quietly day).Spec (Resaved d) (saveColumnWidth column)
      fun _ => Resaved d := saveColumnWidth_resaved d
  refine hstart.bind fun _ => (hcolumn 0).bind fun _ => (hcolumn 1).bind fun _ =>
    (hcolumn 2).bind fun _ => fun d' hd' hresaved => ?_
  obtain ⟨sales, rfl⟩ := hresaved
  exact hhide sales _ hd' rfl

/-- From any desk, the handler of a closed dialog leaves the window up to date. -/
theorem onSettingsChanged_at (d : Desk) :
    (quietly day).Spec (· = d) onSettingsChanged
      fun _ d' => ∀ w, d'.window = some w → w.visible = true → Current day d' w := by
  refine onWindow_at (fun hnone w hw => ?_) fun w hw => ?_
  · rw [hnone] at hw
    cases hw
  · refine (populatePeriodCombo_at d w).bind fun w' => ?_
    refine (reloadList_at _ w').bind fun w'' => .given fun hcurrent => done_at ?_
    rintro _ ⟨⟩ -
    exact ⟨hcurrent.items, hcurrent.total, hcurrent.status⟩

/-- From any desk, `UpdateTray` leaves the tooltip up to date. -/
theorem updateTray_tips {P : Desk → Prop}
    (hP : ∀ d tooltip, P d → P { d with tooltip := tooltip }) :
    (quietly day).Spec P updateTray fun _ d => P d ∧ Tipped day d := by
  intro d hinv hd
  refine ((updateTray_at d).post fun _ d' hd' => ?_) d hinv rfl
  subst hd'
  exact ⟨hP d _ hd, rfl⟩

theorem onSettingsClosed_at {outcome : DialogOutcome} (hkey : outcome.keyChanged = false) :
    (quietly day).Spec (fun _ => True) (onSettingsClosed outcome) fun _ => Fresh day := by
  have happly : (quietly day).Spec (fun _ => True) (applyOutcome outcome) fun _ _ => True :=
    Contract.Spec.every (Thread.alone_stable _)
      (Program.every_of_forall (fun _ _ _ _ _ _ => ⟨trivial, trivial⟩) _)
  refine happly.bind fun _ => ?_
  have hchanged : (quietly day).Spec (fun _ => True) onSettingsChanged
      fun _ d => ∀ w, d.window = some w → w.visible = true → Current day d w :=
    fun d hinv _ => onSettingsChanged_at d d hinv rfl
  refine hchanged.bind fun _ => ?_
  rw [hkey]
  refine (updateTray_tips (P := fun d => ∀ w, d.window = some w → w.visible = true →
    Current day d w) fun d tooltip hd w hw hvisible => ?_).post fun _ _ h => ⟨h.2, h.1⟩
  have hcurrent := hd w hw hvisible
  exact ⟨hcurrent.items, hcurrent.total, hcurrent.status⟩

/-- Desks that look the same, with the same tables. -/
structure Alike (d d' : Desk) : Prop where
  window : d'.window = d.window
  tooltip : d'.tooltip = d.tooltip
  status : d'.world.status.status = d.world.status.status
  db : d'.db = d.db
  hideLifetime : d'.hideLifetime = d.hideLifetime

theorem Fresh.alike {d d' : Desk} (hd : Fresh day d) (h : Alike d d') : Fresh day d' := by
  have hopen : d'.dbOpen = d.dbOpen := congrArg Database.isOpen h.db
  have htip : d'.tip day = d.tip day := by
    unfold Desk.tip
    rw [h.status, h.db, hopen, h.hideLifetime]
  refine ⟨h.tooltip.trans (hd.tooltip.trans htip.symm), fun w hw hvisible => ?_⟩
  have hcurrent := hd.window w (h.window ▸ hw) hvisible
  have hrows : d'.periodRows day w.currentPeriod = d.periodRows day w.currentPeriod := by
    cases w.currentPeriod <;> simp only [Desk.periodRows, h.db]
  exact ⟨hrows ▸ hcurrent.items, hrows ▸ hcurrent.total, h.db ▸ hcurrent.status⟩

theorem onSyncMessage_at (message : Message) :
    (quietly day).Spec (fun _ => True) (onSyncMessage message) fun _ => Fresh day := by
  refine (updateTray_tips (P := fun _ => True) fun _ _ h => h).bind fun _ => ?_
  have hrefresh : (quietly day).Spec (fun d => True ∧ Tipped day d) refresh fun _ => Fresh day :=
    fun d hinv htip => refresh_at htip.2 d hinv rfl
  refine hrefresh.bind fun _ => ?_
  show (quietly day).Spec _ (if _ then _ else _) _
  split
  · exact Thread.spec_perform fun d reply hd _ => hd.alike ⟨rfl, rfl, rfl, rfl, rfl⟩
  · exact Contract.Spec.done (Thread.alone_stable _)

end Alone

/-! ### What is due -/

/-- A message waits to be handled, or a dialog will close. -/
def Due (d : Desk) : Prop := d.world.queue ≠ [] ∨ d.dialogs ≠ 0

/-- The tasks that leave the tooltip to `UpdateTray`. -/
def UiTask.Tips : UiTask → Prop
  | .startUp _ _ => False
  | .closeSettings outcome => outcome.keyChanged = false
  | _ => True

def OtherServer (d d' : Desk) : Prop := ∃ server, d' = { d with world.server := server }

theorem Desk.exec_due (op : UiOp) (reply : UiReply) {d : Desk} (h : Due d) :
    Due (d.exec op reply).2 := by
  cases op <;> exact h

section Settles

variable {day : Day}

theorem begins_settles {task : UiTask} (htask : task.Tips) {d d' : Desk} {rest : Ui Unit}
    (h : task.begins d = some (d', rest)) (hd : Due d ∨ Fresh day d) :
    Due d' ∨ (quietly day).Safe (fun _ => Fresh day) rest d' := by
  -- A task that is taken up while nothing is due begins at a fresh desk.
  have hgoes : ∀ {p : Ui Unit} {d' : Desk}, (Due d → Due d') →
      (Fresh day d → (quietly day).Spec (· = d') p fun _ => Fresh day) →
        Due d' ∨ (quietly day).Safe (fun _ => Fresh day) p d' := fun hdue hspec =>
    hd.imp hdue fun hfresh => hspec hfresh _ trivial rfl
  cases task with
  | startUp opens hasKey => exact htask.elim
  | handleMessage =>
    obtain ⟨message, queue, -, rfl, rfl⟩ := UiTask.begins_handleMessage h
    exact .inr (onSyncMessage_at message _ trivial trivial)
  | showSales =>
    obtain ⟨rfl, rfl⟩ := Prod.mk.inj (Option.some.inj h)
    exact hgoes id fun hfresh => showAndFocus_at hfresh.tooltip
  | selectPeriod index =>
    obtain ⟨w, -, -, rfl, rfl⟩ := UiTask.begins_selectPeriod h
    exact hgoes id fun hfresh =>
      onSelChange_at (d := { d with window := some (w.setCurSel index) }) hfresh.tooltip
  | refreshSales =>
    obtain ⟨w, -, hw⟩ := UiTask.onVisible_some h
    obtain ⟨rfl, rfl⟩ := Prod.mk.inj (Option.some.inj hw)
    exact hgoes id fun hfresh => onRefresh_at hfresh.tooltip
  | closeSales =>
    obtain ⟨w, -, hw⟩ := UiTask.onVisible_some h
    obtain ⟨rfl, rfl⟩ := Prod.mk.inj (Option.some.inj hw)
    exact hgoes id fun hfresh => onClose_at hfresh.tooltip
  | refreshNow =>
    obtain ⟨rfl, rfl⟩ := Prod.mk.inj (Option.some.inj h)
    refine hgoes id fun hfresh => (set_at (.signal .manual) fun _ => rfl).post ?_
    rintro _ _ rfl
    exact hfresh.alike ⟨rfl, rfl, rfl, rfl, rfl⟩
  | openSettings =>
    obtain ⟨rfl, rfl⟩ := Prod.mk.inj (Option.some.inj h)
    exact .inl (.inr (Nat.succ_ne_zero _))
  | setNotifyOnNewUnits on =>
    obtain ⟨hdialogs, rfl, rfl⟩ := UiTask.inDialog_some h
    exact .inl (.inr hdialogs)
  | setHideLifetime hidden =>
    obtain ⟨hdialogs, rfl, rfl⟩ := UiTask.inDialog_some h
    exact .inl (.inr hdialogs)
  | closeSettings outcome =>
    obtain ⟨-, rfl, rfl⟩ := UiTask.inDialog_some h
    exact .inr (onSettingsClosed_at htask _ trivial trivial)

theorem settles (day : Day) :
    uiThread.Settles desk UiTask.Tips (Calm day) Due (Fresh day) OtherServer where
  agrees op reply d d' h := by
    obtain ⟨server, rfl⟩ := h
    cases op <;> exact ⟨rfl, server, rfl⟩
  fresh_related d d' h hd := by
    obtain ⟨server, rfl⟩ := h
    exact hd.alike ⟨rfl, rfl, rfl, rfl, rfl⟩
  act_related move d := by
    cases move with
    | serverChange gap date records => exact ⟨d.world.server.push gap date records, rfl⟩
  act_due move d h := by
    cases move with
    | serverChange gap date records => exact h
  call_due op reply d _ h := Desk.exec_due op reply h
  begins _ _ _ _ htask hbegins hd := begins_settles htask hbegins hd

end Settles

/-! ### The worker -/

/-- Nothing kills the program or changes the key, the reads of the UI thread succeed, and the day
does not change; every call of the worker may fail. -/
def calmRules (day : Day) : Rules Op AppState Reply UiMove where
  start _ := True
  call _ _ _ := True
  act move _ := move.Allowed UiTask.Tips (Calm day)
  kill _ := False

def Settled (day : Day) : AppState → Prop := uiThread.Settled (Calm day) Due (Fresh day)

def calmContract (day : Day) : Contract Op Op.Answer AppState Reply UiMove where
  machine := app
  rules := calmRules day
  inv _ := True
  inv_act _ _ _ _ := trivial

section Worker

variable {day : Day} {α : Type}

theorem stable_settled : (calmContract day).Stable (Settled day) :=
  fun _ _ hmove _ hs => (settles day).act hmove hs

theorem goes (p : Worker α) : (calmContract day).Spec (fun _ => True) p fun _ _ => True :=
  Contract.Spec.every (Contract.stable_const True)
    (Program.every_of_forall (fun _ _ _ _ _ _ => ⟨trivial, trivial⟩) p)

/-- A message that is posted is due. -/
theorem post_settles (message : Message) :
    (calmContract day).Spec (fun _ => True) (post message) fun _ => Settled day :=
  Contract.Spec.perform (Contract.stable_const True) (fun _ => stable_settled)
    fun _ _ _ _ _ => ⟨trivial, .inl (.inl (List.append_ne_nil_of_right_ne_nil _ nofun))⟩

theorem post_returns (message : Message) (value : α) :
    (calmContract day).Spec (fun _ => True) (post message >>= fun _ => pure value)
      fun _ => Settled day :=
  (post_settles message).bind fun _ => Contract.Spec.done stable_settled

theorem failPass_settles (status : SyncStatus) (message : Wide) (lastError : Option Bytes)
    (exit : Exit) :
    (calmContract day).Spec (fun _ => True) (failPass status message lastError exit)
      fun _ => Settled day := by
  refine (goes (setStatus status message)).bind fun _ => ?_
  cases lastError with
  | some e => exact (goes (write (.lastError e))).bind fun _ => post_returns .syncFailed exit
  | none => exact post_returns .syncFailed exit

theorem syncDates_settles (key now : Bytes) (initial : Bool) (todo : List Bytes) :
    (calmContract day).Spec (fun _ => True) (syncDates key now initial todo)
      fun failed s => ∀ exit, failed = some exit → Settled day s := by
  have hfail : ∀ status message lastError exit, (calmContract day).Spec (fun _ => True)
      (failPass status message lastError exit >>= fun exit => pure (some exit))
      fun failed s => ∀ exit, failed = some exit → Settled day s :=
    fun status message lastError exit => (failPass_settles status message lastError exit).bind
      fun _ => Contract.Spec.ret stable_settled fun _ _ hs _ _ => hs
  induction todo with
  | nil => exact Contract.Spec.ret (Contract.stable_const True) fun _ _ _ => nofun
  | cons date rest ih =>
    refine (goes (perform (.getAllDetailedSalesForDate key date))).bind ?_
    rintro ⟨pr, records⟩
    show (calmContract day).Spec _ (if pr.ok = true then _ else _) _
    split
    · refine (goes (perform (.replaceDate date (aggregateDate records) now))).bind fun saved => ?_
      cases saved with
      | true =>
        refine (goes (checkpoint initial date)).bind fun _ => ?_
        refine (goes (perform (.updateStatus .dateDone))).bind fun _ => ?_
        exact (goes (post .syncProgress)).bind fun _ => ih
      | false => exact hfail _ _ _ _
    · exact hfail _ _ _ _

theorem finishStored_settles (now : Bytes) (initial notifyEnabled : Bool)
    (resultHighwatermark : Bytes) (before : Snapshot) :
    (calmContract day).Spec (fun _ => True)
      (finishStored now initial notifyEnabled resultHighwatermark before)
      fun _ => Settled day := by
  have hpublish : ∀ (notification : Wide) (exit : Exit), (calmContract day).Spec (fun _ => True)
      (publish notification >>= fun _ => pure exit) fun _ => Settled day := fun notification exit =>
    (goes (perform (.updateStatus (.publish notification)))).bind fun _ =>
      (goes (post .totalsChanged)).bind fun _ => post_returns .syncCompleted exit
  refine (goes (advanceMark resultHighwatermark)).bind fun _ => ?_
  refine (goes (checkpoint initial [])).bind fun _ => ?_
  refine (goes (write (.lastSuccessfulSyncUtc now))).bind fun _ => ?_
  refine (goes (write (.lastError []))).bind fun _ => ?_
  show (calmContract day).Spec _ (if _ then _ else _) _
  split
  · exact (goes (notificationAfter before)).bind fun ⟨after, notification⟩ =>
      hpublish notification _
  · exact hpublish [] _

theorem syncChanged_settles (key now : Bytes) (initial notifyEnabled : Bool)
    (changed : ChangedDates) :
    (calmContract day).Spec (fun _ => True) (syncChanged key now initial notifyEnabled changed)
      fun _ => Settled day := by
  refine (goes (readCursor initial)).bind fun cursor => ?_
  refine (goes (perform (.updateStatus (.totalDates _)))).bind fun _ => ?_
  refine (goes (post .syncProgress)).bind fun _ => ?_
  refine (goes (snapshotBefore (notifyEnabled && !initial))).bind fun before => ?_
  refine (syncDates_settles key now initial _).bind fun failed => ?_
  cases failed with
  | some exit =>
    exact (Contract.Spec.done stable_settled).pre fun _ _ hfailed => hfailed exit rfl
  | none =>
    exact (finishStored_settles now initial notifyEnabled _ before).pre fun _ _ _ => trivial

theorem syncWithKey_settles (key : Bytes) :
    (calmContract day).Spec (fun _ => True) (syncWithKey key) fun _ => Settled day := by
  refine (goes (perform .getChangedDatesHighwatermark)).bind fun hwm => ?_
  refine (goes (perform .getNotifyOnNewUnits)).bind fun notifyEnabled => ?_
  refine (goes (perform (.getChangedDates key hwm))).bind ?_
  rintro ⟨r, changed⟩
  show (calmContract day).Spec _ (if r.ok = true then _ else _) _
  split
  · refine (goes (perform .utcNowIso8601)).bind fun now => ?_
    refine (goes (write (.lastSuccessfulCheckUtc now))).bind fun _ => ?_
    show (calmContract day).Spec _ (if _ then _ else _) _
    split
    · refine (goes (advanceMark _)).bind fun _ => (goes (write (.lastError []))).bind fun _ => ?_
      exact (goes (perform (.updateStatus .upToDate))).bind fun _ =>
        post_returns .syncCompleted Exit.upToDate
    · exact syncChanged_settles key now _ notifyEnabled changed
  · exact failPass_settles _ _ _ _

theorem pass_settles :
    (calmContract day).Spec (fun _ => True) runSynchronization fun _ => Settled day :=
  runSynchronization_spec (goes _) (goes _) (goes ensureOpen)
    (failPass_settles _ _ _ _) (goes clearIfRequested) (goes loadKey) (failPass_settles _ _ _ _)
    syncWithKey_settles

end Worker

/-- A pass has ended, and later nothing is under way: no pass and no task, no message that waits,
and no open dialog. -/
structure Quiesced (day : Day) (start c : Config Op Op.Answer AppState Exit) : Prop where
  run : ∃ pass exit c' later, Execution (calmRules day) app runSynchronization start pass exit c' ∧
    (calmRules day).Admitted app runSynchronization c' later ∧
      app.run runSynchronization c' later = c
  idle : c.Idle
  waits : c.state.Waits
  noneDue : ¬Due c.state.state

theorem Quiesced.fresh {day : Day} {start c : Config Op Op.Answer AppState Exit}
    (h : Quiesced day start c) : Fresh day c.state.state := by
  obtain ⟨pass, exit, c', later, hpass, hlater, rfl⟩ := h.run
  have hgood := pass_settles.execution_good (I := Settled day) (fun _ => stable_settled) hpass
    trivial trivial
  have hsound := Contract.sound stable_settled (fun _ hkill _ => hkill.elim)
    (fun _ _ _ _ => trivial) pass_settles (fun _ _ _ hs => hs) hgood hlater
  have hsettled := hsound.of_idle h.idle fun _ _ _ hs => hs
  exact Thread.Settled.fresh_of_waits hsettled h.waits h.noneDue

/-- Once a pass of the worker has ended, in whatever way, the tooltip and a sales window that is
visible are up to date whenever nothing is under way. -/
theorem shown_is_up_to_date {day : Day} {start c : Config Op Op.Answer AppState Exit}
    (h : Quiesced day start c) :
    c.state.state.tooltip = c.state.state.tip day ∧
      ∀ w, c.state.state.window = some w → w.visible = true → Current day c.state.state w :=
  ⟨h.fresh.tooltip, h.fresh.window⟩

instance (d : Desk) : Decidable (Due d) := inferInstanceAs (Decidable (_ ∨ _))

namespace Sample

def day : Day := ⟨⟨2026, 7, 18, by decide, by decide, by decide, by decide⟩, by decide, by decide⟩

def start : Config Op Op.Answer AppState Exit := ⟨⟨desk, .ret ()⟩, none⟩

/-- The worker has made its first pass. -/
def passed : Config Op Op.Answer AppState Exit :=
  app.run runSynchronization start (.start :: calls 40)

/-- The sales window is opened and the messages of the pass are handled. -/
def shown : List (Event Reply UiMove) :=
  (task .showSales :: List.replicate 7 (task .handleMessage)).flatten

theorem task_calm {t : UiTask} (ht : t.Tips) :
    ∀ e ∈ task t, ∀ c : Config Op Op.Answer AppState Exit, (calmRules day).Admits c e := by
  intro e he c
  rcases List.mem_cons.mp he with rfl | he
  · exact ht
  · obtain ⟨-, rfl⟩ := List.mem_replicate.mp he
    exact ⟨rfl, rfl, rfl, rfl⟩

theorem quiesced : Quiesced day start (app.run runSynchronization passed shown) where
  run := by
    refine ⟨calls 40, .stored none, passed, shown, ?_, ?_, rfl⟩
    · exact Execution.of_calls trivial (fun _ => trivial) (fun _ _ => trivial) (by decide +kernel)
    · refine Rules.admitted_of_events (fun e he c => ?_) _ _ _
      obtain ⟨events, hevents, he⟩ := List.mem_flatten.mp he
      rcases List.mem_cons.mp hevents with rfl | hevents
      · exact task_calm (t := .showSales) trivial e he c
      · obtain ⟨-, rfl⟩ := List.mem_replicate.mp hevents
        exact task_calm (t := .handleMessage) trivial e he c
  idle := by decide +kernel
  waits := by decide +kernel
  noneDue := by decide +kernel

end Sample

theorem shown_is_up_to_date_sample :
    (app.run runSynchronization Sample.passed Sample.shown).state.state.tooltip =
      (app.run runSynchronization Sample.passed Sample.shown).state.state.tip Sample.day ∧
    ∀ w, (app.run runSynchronization Sample.passed Sample.shown).state.state.window = some w →
      w.visible = true →
        Current Sample.day (app.run runSynchronization Sample.passed Sample.shown).state.state w :=
  shown_is_up_to_date Sample.quiesced

/-! ### The views of one day -/

/-- The text of the menu for a period. -/
def menuFigure (totals : SummaryTotals) : SalesPeriod → Wide
  | .today => totals.today
  | .yesterday => totals.yesterday
  | .last7Days => totals.week
  | .last30Days => totals.month
  | .lifetime => totals.lifetime

section Views

variable {day : Day} {d : Desk} {now : Nat → SystemTime}

/-- The total of a list of the present tables is what the menu has for the period. -/
theorem unitsTotal_periodRows (hopen : d.dbOpen = true) (hvalid : d.world.db.conn.committed.Valid)
    (hnow : ∀ i, (now i).IsOn day.date) {period : SalesPeriod}
    (hperiod : period = .lifetime → d.hideLifetime = false) :
    formatCount (unitsTotal (d.periodRows day period)) =
      menuFigure (computeSummary d.dbOpen d.db d.hideLifetime now fun _ => none) period := by
  have hagree : ViewsAgree d.db := viewsAgree_of_valid hopen hvalid
  rw [computeSummary, if_neg (not_not.mpr hopen)]
  cases period with
  | today =>
    show formatCount _ = formatCount _
    rw [day.steamToday_eq (hnow 0)]
    exact congrArg formatCount (hagree.date_sum _)
  | yesterday =>
    show formatCount _ = formatCount _
    rw [show steamDateDaysAgo (now 1) 1 = day.ago 1 from
      day.steamDateDaysAgo_eq (hnow 1) 1 (by decide)]
    exact congrArg formatCount (hagree.date_sum _)
  | last7Days =>
    show formatCount _ = formatCount _
    rw [day.steamToday_eq (hnow 0), show steamDateDaysAgo (now 2) 6 = day.ago 6 from
      day.steamDateDaysAgo_eq (hnow 2) 6 (by decide)]
    exact congrArg formatCount (hagree.range_sum _ _)
  | last30Days =>
    show formatCount _ = formatCount _
    rw [day.steamToday_eq (hnow 0), show steamDateDaysAgo (now 3) 29 = day.ago 29 from
      day.steamDateDaysAgo_eq (hnow 3) 29 (by decide)]
    exact congrArg formatCount (hagree.range_sum _ _)
  | lifetime =>
    show formatCount _ = if d.hideLifetime = true then _ else formatCount _
    rw [hperiod rfl]
    exact congrArg formatCount hagree.lifetime_sum

theorem tip_idle (hidle : d.world.status.status = .idle) (hopen : d.dbOpen = true)
    (hnow : ∀ i, (now i).IsOn day.date) :
    d.tip day = wide "Steam Sales - Today: " ++
      (computeSummary d.dbOpen d.db d.hideLifetime now fun _ => none).today ++
        if d.hideLifetime then []
        else wide " | Lifetime: " ++
          (computeSummary d.dbOpen d.db d.hideLifetime now fun _ => none).lifetime := by
  have htip : d.tip day = totalsText (d.db.sumForDate none (day.ago 0))
      (if d.hideLifetime then none else some (d.db.sumLifetime none)) := by
    rw [Desk.tip, hidle]
    exact if_pos hopen
  rw [htip, computeSummary, if_neg (not_not.mpr hopen), day.steamToday_eq (hnow 0)]
  cases d.hideLifetime <;> rfl

/-- Whatever has been done before: what the tray menu, opened on the same day, has for a period is
what the sales window has as its total and the tooltip as its figures, whenever nothing is under way
after a pass. -/
theorem tip_and_rows_agree {d₀ : Desk} (hd₀ : Unopened d₀) {before : List (Event Reply UiMove)}
    {c : Config Op Op.Answer AppState Exit}
    (h : Quiesced day (app.run runSynchronization ⟨⟨d₀, .ret ()⟩, none⟩ before) c)
    (hopen : c.state.state.dbOpen = true) (hnow : ∀ i, (now i).IsOn day.date)
    {totals : SummaryTotals}
    (htotals : totals = computeSummary c.state.state.dbOpen c.state.state.db
      c.state.state.hideLifetime now fun _ => none) :
    (c.state.state.world.status.status = .idle → c.state.state.tooltip =
      wide "Steam Sales - Today: " ++ totals.today ++
        if c.state.state.hideLifetime then [] else wide " | Lifetime: " ++ totals.lifetime) ∧
    ∀ w, c.state.state.window = some w → w.visible = true →
      w.total = wide "Total: " ++ menuFigure totals w.currentPeriod := by
  have hfresh := h.fresh
  have hafter : ∃ es, c.state = d₀.after es := by
    obtain ⟨pass, exit, c', later, hpass, -, rfl⟩ := h.run
    refine ⟨before ++ (.start :: pass ++ later), ?_⟩
    rw [Desk.after, Machine.run_append, Machine.run_append, hpass.run]
  obtain ⟨es, hes⟩ := hafter
  have hvalid : c.state.state.world.db.conn.committed.Valid := hes ▸ (valid_after hd₀.valid es).1
  have hwaits := h.waits
  have hdialogs : c.state.state.dialogs = 0 := by
    by_contra hne
    exact h.noneDue (.inr hne)
  rw [htotals]
  constructor
  · intro hidle
    rw [hfresh.tooltip]
    exact tip_idle hidle hopen hnow
  · intro w hw hvisible
    rw [hes] at hw hwaits hdialogs
    obtain ⟨hbox, -⟩ := (guarded_after hd₀.window es).of_waits hwaits w hw
    rw [← hes] at hw hdialogs hbox
    rw [(hfresh.window w hw hvisible).total]
    refine congrArg (wide "Total: " ++ ·) ?_
    refine unitsTotal_periodRows hopen hvalid hnow fun hlifetime => ?_
    have hmem := SalesWindow.currentPeriod_mem hbox.periods
    rw [hlifetime, hbox.offered hdialogs] at hmem
    exact (SalesWindow.lifetime_offered _).mp hmem

end Views

/-- The menu after the first pass. -/
def Sample.menu : SummaryTotals :=
  computeSummary (app.run runSynchronization Sample.passed Sample.shown).state.state.dbOpen
    (app.run runSynchronization Sample.passed Sample.shown).state.state.db
    (app.run runSynchronization Sample.passed Sample.shown).state.state.hideLifetime
    (fun _ => Sample.noon) fun _ => none

theorem tip_and_rows_agree_sample :
    ((app.run runSynchronization Sample.passed Sample.shown).state.state.world.status.status =
        .idle →
      (app.run runSynchronization Sample.passed Sample.shown).state.state.tooltip =
        wide "Steam Sales - Today: " ++ Sample.menu.today ++
          if (app.run runSynchronization Sample.passed Sample.shown).state.state.hideLifetime
          then [] else wide " | Lifetime: " ++ Sample.menu.lifetime) ∧
    ∀ w, (app.run runSynchronization Sample.passed Sample.shown).state.state.window = some w →
      w.visible = true → w.total = wide "Total: " ++ menuFigure Sample.menu w.currentPeriod :=
  @tip_and_rows_agree Sample.day _ Sample.desk unopened_sample [] _ Sample.quiesced
    (by decide +kernel) (fun _ => ⟨rfl, rfl, rfl⟩) _ rfl

end SteamSalesTray.App
