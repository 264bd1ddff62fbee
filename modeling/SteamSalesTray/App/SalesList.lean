import SteamSalesTray.App.Handling
import SteamSalesTray.Sync.Deltas

/-! What the sales window shows in any state of any run, while the worker stores dates, fails, or is
killed: rows of one query of one period on tables that have been committed together, the total of
all rows of one query, and the period that is saved. -/

namespace SteamSalesTray.App

open Interaction Transaction Platform Storage Sync UI

/-! ### Rows of one query -/

/-- The queries of a period, for what the clock says when it is read. -/
def PeriodQuery (clock : SystemTime → Prop) (query : Tables → List ProductRow) :
    SalesPeriod → Prop
  | .today => ∃ now, clock now ∧ query = Tables.queryDate (steamToday now)
  | .yesterday => ∃ now, clock now ∧ query = Tables.queryDate (steamDateDaysAgo now 1)
  | .last7Days => ∃ now now', clock now ∧ clock now' ∧
      query = Tables.queryRange (steamDateDaysAgo now 6) (steamToday now')
  | .last30Days => ∃ now now', clock now ∧ clock now' ∧
      query = Tables.queryRange (steamDateDaysAgo now 29) (steamToday now')
  | .lifetime => query = Tables.queryLifetime

theorem PeriodQuery.once {clock : SystemTime → Prop} {query : Tables → List ProductRow}
    {period : SalesPeriod} (h : PeriodQuery clock query period) {t : Tables} (ht : t.Valid) :
    ((query t).map ProductRow.appId).Nodup := by
  cases period with
  | today =>
    obtain ⟨now, -, rfl⟩ := h
    exact (ht.queryDate_ids _).nodup_iff.mpr ht.productIds
  | yesterday =>
    obtain ⟨now, -, rfl⟩ := h
    exact (ht.queryDate_ids _).nodup_iff.mpr ht.productIds
  | last7Days =>
    obtain ⟨now, now', -, -, rfl⟩ := h
    exact ht.nodup_groupedUnits_ids
  | last30Days =>
    obtain ⟨now, now', -, -, rfl⟩ := h
    exact ht.nodup_groupedUnits_ids
  | lifetime =>
    obtain rfl := h
    exact ht.nodup_groupedUnits_ids

/-- One of the replies has been given while the clock was at this time. -/
def Clock (answered : UiReply → Desk → Prop) (now : SystemTime) : Prop :=
  ∃ reply d, answered reply d ∧ now = reply.pacificNow

/-- The rows are what one query of the period has read from the database of the desk as it was when
the query was answered: all of them, or those before the step of the statement that failed. -/
def PeriodRows (answered : UiReply → Desk → Prop) (period : SalesPeriod)
    (rows : List ProductUnits) : Prop :=
  ∃ reply d query, answered reply d ∧ PeriodQuery (Clock answered) query period ∧
    rows = d.db.runProductQuery reply.readLimit query

theorem PeriodRows.once {answered : UiReply → Desk → Prop} {period : SalesPeriod}
    {rows : List ProductUnits} (h : PeriodRows answered period rows)
    (hvalid : ∀ reply d, answered reply d → d.world.db.conn.committed.Valid) :
    (rows.map ProductUnits.appId).Nodup := by
  obtain ⟨reply, d, query, hanswered, hquery, rfl⟩ := h
  have honce := hquery.once (hvalid reply d hanswered)
  unfold Database.runProductQuery
  split
  · rw [List.map_map]
    refine honce.sublist (List.Sublist.map ProductRow.appId ?_)
    cases reply.readLimit with
    | none => exact List.Sublist.refl _
    | some n => exact List.take_sublist n _
  · exact List.nodup_nil

/-- The list of the window has all rows of one query of the period, and the total is that of the
list. -/
def ListOf (answered : UiReply → Desk → Prop) (period : SalesPeriod) (w : SalesWindow) : Prop :=
  ∃ rows, PeriodRows answered period rows ∧ w.items = rows.map Item.ofRow ∧
    w.total = totalText (unitsTotal rows)

/-- The list of the window has the first rows of one query, and the total is that of all rows of
one, unless it is the first one. -/
structure Partly (answered : UiReply → Desk → Prop) (w : SalesWindow) : Prop where
  items : w.items = [] ∨
    ∃ period rows, PeriodRows answered period rows ∧ w.items <+: rows.map Item.ofRow
  total : w.total = totalText 0 ∨
    ∃ period rows, PeriodRows answered period rows ∧ w.total = totalText (unitsTotal rows)

theorem ListOf.partly {answered : UiReply → Desk → Prop} {period : SalesPeriod} {w : SalesWindow}
    (h : ListOf answered period w) : Partly answered w := by
  obtain ⟨rows, hrows, hitems, htotal⟩ := h
  exact ⟨.inr ⟨period, rows, hrows, hitems ▸ List.prefix_rfl⟩, .inr ⟨period, rows, hrows, htotal⟩⟩

theorem partly_created (answered : UiReply → Desk → Prop) : Partly answered .created :=
  ⟨.inl rfl, .inl (by decide +kernel)⟩

/-! ### What the UI thread has for itself -/

/-- The part of the desk that only the UI thread changes and that the window depends on. -/
structure Front where
  window : Option SalesWindow
  periodIndex : Int32
  hideLifetime : Bool
  dialogs : Nat

def Desk.front (d : Desk) : Front :=
  ⟨d.window, d.sales.getSalesPeriodIndex, d.hideLifetime, d.dialogs⟩

/-- The worker or the server has done something. -/
def Beside (d d' : Desk) : Prop := d'.front = d.front

def Shows (answered : UiReply → Desk → Prop) (d : Desk) : Prop :=
  ∀ w, d.front.window = some w → Partly answered w

theorem Shows.beside {answered : UiReply → Desk → Prop} (d d' : Desk) (h : Beside d d')
    (hd : Shows answered d) : Shows answered d' :=
  fun w hw => hd w (h ▸ hw)

/-- The handlers while the worker goes on. -/
abbrev handling (answered : UiReply → Desk → Prop) :
    Contract UiOp UiOp.Answer Desk UiReply Desk :=
  uiThread.among answered (@Shows.beside answered)

section Handlers

variable {answered : UiReply → Desk → Prop} {α β : Type} {f : Front}

theorem stable_front (P : Front → Prop) : (handling answered).Stable fun d => P d.front := by
  intro d' d h _ hP
  show P d'.front
  rw [show d'.front = d.front from h]
  exact hP

/-- The call changes nothing that the window depends on. -/
def UiOp.Quiet (op : UiOp) : Prop := ∀ reply d, (Desk.exec op reply d).2.front = d.front

theorem UiOp.Reads.quiet {op : UiOp} (h : op.Reads) : op.Quiet := by
  intro reply d
  obtain ⟨tooltip, hafter⟩ := Desk.exec_reads h reply d
  rw [hafter]
  rfl

theorem quiet {p : Ui α} (hp : p.Every UiOp.Quiet) (P : Front → Prop) :
    (handling answered).Spec (fun d => P d.front) p fun _ d => P d.front := by
  refine Contract.Spec.every (stable_front P) (hp.mono fun op hop d reply hd hP _ => ?_)
  refine ⟨hd.beside d _ (hop reply d), ?_⟩
  show P (Desk.exec op reply d).2.front
  rw [hop reply d]
  exact hP

/-- A read that says something of its answer. -/
theorem read (op : UiOp) (hop : op.Reads) {P : Front → Prop} {R : op.Answer → Prop}
    (h : ∀ reply d, answered reply d → P d.front → R (Desk.exec op reply d).1) :
    (handling answered).Spec (fun d => P d.front) (ask op)
      fun answer d => P d.front ∧ R answer := by
  refine Contract.Spec.perform (stable_front P)
    (fun answer => stable_front fun f => P f ∧ R answer) fun d reply hd hP hreply => ?_
  refine ⟨hd.beside d _ (hop.quiet reply d), ?_, h reply d hreply hP⟩
  show P (Desk.exec op reply d).2.front
  rw [hop.quiet reply d]
  exact hP

theorem reads {p : Ui α} (hp : p.Every UiOp.Reads) (P : Front → Prop) :
    (handling answered).Spec (fun d => P d.front) p fun _ d => P d.front :=
  quiet (hp.mono fun _ h => h.quiet) P

theorem queryPeriod_spec (P : Front → Prop) (period : SalesPeriod) :
    (handling answered).Spec (fun d => P d.front) (queryPeriod period)
      fun rows d => P d.front ∧ PeriodRows answered period rows := by
  have hrange : ∀ {a b : Bytes} {period : SalesPeriod},
      PeriodQuery (Clock answered) (Tables.queryRange a b) period →
      (handling answered).Spec (fun d => P d.front) (ask (.queryRange a b))
        fun rows d => P d.front ∧ PeriodRows answered period rows := fun hquery =>
    read (.queryRange _ _) trivial fun reply d hreply _ => ⟨reply, d, _, hreply, hquery, rfl⟩
  have hdate : ∀ {date : Bytes} {period : SalesPeriod},
      PeriodQuery (Clock answered) (Tables.queryDate date) period →
      (handling answered).Spec (fun d => P d.front) (ask (.queryDate date))
        fun rows d => P d.front ∧ PeriodRows answered period rows := fun hquery =>
    read (.queryDate _) trivial fun reply d hreply _ => ⟨reply, d, _, hreply, hquery, rfl⟩
  have htoday : (handling answered).Spec (fun d => P d.front) (ask .steamToday)
      fun date d => P d.front ∧ ∃ now, Clock answered now ∧ date = steamToday now :=
    read .steamToday trivial fun reply d hreply _ => ⟨_, ⟨reply, d, hreply, rfl⟩, rfl⟩
  have hago : ∀ days : Nat, (handling answered).Spec (fun d => P d.front)
      (ask (.steamDateDaysAgo days)) fun date d => P d.front ∧
        ∃ now, Clock answered now ∧ date = steamDateDaysAgo now days := fun days =>
    read (.steamDateDaysAgo days) trivial fun reply d hreply _ =>
      ⟨_, ⟨reply, d, hreply, rfl⟩, rfl⟩
  cases period with
  | today =>
    refine htoday.bind fun date => .given ?_
    rintro ⟨now, hnow, rfl⟩
    exact hdate ⟨now, hnow, rfl⟩
  | yesterday =>
    refine (hago 1).bind fun date => .given ?_
    rintro ⟨now, hnow, rfl⟩
    exact hdate ⟨now, hnow, rfl⟩
  | last7Days =>
    refine (hago 6).bind fun startDate => .given ?_
    rintro ⟨now, hnow, rfl⟩
    refine htoday.bind fun endDate => .given ?_
    rintro ⟨now', hnow', rfl⟩
    exact hrange ⟨now, now', hnow, hnow', rfl⟩
  | last30Days =>
    refine (hago 29).bind fun startDate => .given ?_
    rintro ⟨now, hnow, rfl⟩
    refine htoday.bind fun endDate => .given ?_
    rintro ⟨now', hnow', rfl⟩
    exact hrange ⟨now, now', hnow, hnow', rfl⟩
  | lifetime =>
    exact read .queryLifetime trivial fun reply d hreply _ => ⟨reply, d, _, hreply, rfl, rfl⟩

theorem setWindow_spec {w : SalesWindow} (hw : Partly answered w) :
    (handling answered).Spec (fun d => d.front = f) (ask (.setWindow w))
      fun _ d => d.front = { f with window := some w } := by
  refine Contract.Spec.perform (stable_front (· = f))
    (fun _ => stable_front (· = { f with window := some w })) fun d reply _ hf _ => ⟨?_, ?_⟩
  · rintro w' ⟨⟩
    exact hw
  · rw [← hf]
    rfl

/-! ### The list -/

/-- The rows go into the list one after the other, those of one query. -/
theorem insertRows_spec {period : SalesPeriod} {rows : List ProductUnits}
    (hrows : PeriodRows answered period rows) (rest : List ProductUnits)
    {listed : List ProductUnits} (hsplit : rows = listed ++ rest) {w : SalesWindow}
    (hitems : w.items = listed.map Item.ofRow) (hw : Partly answered w) (total : Int) :
    (handling answered).Spec (fun d => d.front = { f with window := some w })
      (insertRows rest w total) fun r d => d.front = { f with window := some r.1 } ∧
        r = ({ w with items := rows.map Item.ofRow }, total + unitsTotal rest) := by
  induction rest generalizing listed w total with
  | nil =>
    have hall : w.items = rows.map Item.ofRow := by rw [hitems, hsplit, List.append_nil]
    refine Contract.Spec.ret (stable_front (· = { f with window := some w }))
      fun d _ hf => ⟨hf, ?_⟩
    rw [← hall]
    simp [unitsTotal]
  | cons row rest ih =>
    have hinserted : (w.insertItem row).items = (listed ++ [row]).map Item.ofRow := by
      rw [List.map_append, ← hitems]
      rfl
    have hnext : rows = (listed ++ [row]) ++ rest := by rw [hsplit, List.append_assoc]; rfl
    have hpartly : Partly answered (w.insertItem row) := by
      refine ⟨.inr ⟨period, rows, hrows, ?_⟩, hw.total⟩
      rw [hinserted, hnext]
      exact (List.prefix_append _ _).map _
    refine (setWindow_spec (f := { f with window := some w }) hpartly).bind fun _ => ?_
    refine (ih hnext hinserted hpartly (total + row.units)).post fun r d h => ⟨h.1, h.2.trans ?_⟩
    rw [show unitsTotal (row :: rest) = row.units + unitsTotal rest from List.sum_cons,
      ← Int.add_assoc]
    rfl

/-- `w'` is `w` with its list loaded again. -/
def Reloads (answered : UiReply → Desk → Prop) (w w' : SalesWindow) : Prop :=
  ∃ rows status, PeriodRows answered w.currentPeriod rows ∧ w' = w.reloaded rows status

theorem Reloads.listOf {w w' : SalesWindow} (h : Reloads answered w w') :
    ListOf answered w.currentPeriod w' := by
  obtain ⟨rows, status, hrows, rfl⟩ := h
  exact ⟨rows, hrows, rfl, rfl⟩

theorem reloadList_spec {w : SalesWindow} (hw : Partly answered w) :
    (handling answered).Spec (fun d => d.front = f) (reloadList w)
      fun w' d => d.front = { f with window := some w' } ∧ Reloads answered w w' := by
  have hdeleted : Partly answered w.deleteAllItems := ⟨.inl rfl, hw.total⟩
  refine (setWindow_spec hdeleted).bind fun _ => ?_
  refine (queryPeriod_spec (· = { f with window := some w.deleteAllItems }) w.currentPeriod).bind
    fun rows => .given fun hrows => ?_
  refine (insertRows_spec hrows rows (List.nil_append rows).symm rfl hdeleted 0).bind ?_
  rintro ⟨listed, total⟩
  refine .given fun hlisted => ?_
  obtain ⟨rfl, rfl⟩ := Prod.mk.inj hlisted
  rw [Int.zero_add]
  -- From here on the list is complete.
  have hlist : ∀ status, ListOf answered w.currentPeriod (w.reloaded rows status) := fun _ =>
    ⟨rows, hrows, rfl, rfl⟩
  refine (setWindow_spec (hlist w.status).partly).bind fun _ => ?_
  refine (reads statusText_reads (· = { f with window := some (w.reloaded rows w.status) })).bind
    fun status => ?_
  refine (setWindow_spec (hlist status).partly).bind fun _ => ?_
  exact Contract.Spec.ret
    (stable_front (· = { f with window := some (w.reloaded rows status) }))
    fun d _ hf => ⟨hf, rows, status, hrows, rfl⟩

theorem getWindow_spec :
    (handling answered).Spec (fun d => d.front = f) (ask .getWindow)
      fun window d => d.front = f ∧ window = f.window :=
  read (P := (· = f)) .getWindow trivial fun _ _ _ hf => congrArg Front.window hf

theorem onWindow_spec {handler : SalesWindow → Ui Unit} {Q : Front → Prop}
    (hnone : f.window = none → Q f)
    (hsome : ∀ w, f.window = some w →
      (handling answered).Spec (fun d => d.front = f) (handler w) fun _ d => Q d.front) :
    (handling answered).Spec (fun d => d.front = f) (onWindow handler) fun _ d => Q d.front := by
  refine getWindow_spec.bind fun window => .given ?_
  rintro rfl
  cases hwindow : f.window with
  | none => exact Contract.Spec.ret (stable_front (· = f)) fun d _ hf => hf ▸ hnone hwindow
  | some w => exact hsome w hwindow

theorem populatePeriodCombo_spec {w : SalesWindow} (hw : Partly answered w) :
    (handling answered).Spec (fun d => d.front = f) (populatePeriodCombo w)
      fun w' d => d.front = { f with window := some w' } ∧
        w' = w.populatePeriodCombo f.hideLifetime f.periodIndex := by
  have hhide : (handling answered).Spec (fun d => d.front = f) (ask .getHideLifetime)
      fun hidden d => d.front = f ∧ hidden = f.hideLifetime :=
    read (P := (· = f)) .getHideLifetime trivial fun _ _ _ hf => congrArg Front.hideLifetime hf
  have hsaved : (handling answered).Spec (fun d => d.front = f) (ask .getSalesPeriodIndex)
      fun index d => d.front = f ∧ index = f.periodIndex :=
    read (P := (· = f)) .getSalesPeriodIndex trivial fun _ _ _ hf =>
      congrArg Front.periodIndex hf
  refine hhide.bind fun hideLifetime => .given ?_
  rintro rfl
  refine hsaved.bind fun savedValue => .given ?_
  rintro rfl
  refine (setWindow_spec (w := w.populatePeriodCombo f.hideLifetime f.periodIndex)
    ⟨hw.items, hw.total⟩).bind fun _ => ?_
  exact Contract.Spec.ret (stable_front (· = { f with window := some (w.populatePeriodCombo
    f.hideLifetime f.periodIndex) })) fun d _ hf => ⟨hf, rfl⟩

/-! ### The period box -/

/-- The box of the window has the saved period selected, or `Today` where that is not offered, and
it offers what the preference says unless a dialog that can change it is open. -/
structure Box (f : Front) (w : SalesWindow) : Prop where
  periods : w.Periods
  saved : w.currentPeriod = SalesWindow.savedPeriod f.periodIndex w.periods
  offered : f.dialogs = 0 → w.periods = SalesWindow.offered f.hideLifetime

/-- Nothing that the box depends on differs. -/
theorem Box.same {w w' : SalesWindow} (h : Box f w) (hcombo : w'.combo = w.combo)
    (hselection : w'.selection = w.selection) (hperiods : w'.periods = w.periods) : Box f w' := by
  have hcurrent : w'.currentPeriod = w.currentPeriod := by
    unfold SalesWindow.currentPeriod
    rw [hselection, hperiods]
  refine ⟨⟨?_, ?_, ?_⟩, ?_, ?_⟩
  · rw [hperiods]
    exact h.periods.offered
  · rw [hcombo, hperiods]
    exact h.periods.combo
  · rw [hselection, hperiods]
    exact h.periods.selection
  · rw [hcurrent, hperiods]
    exact h.saved
  · rw [hperiods]
    exact h.offered

theorem box_populate (f : Front) (w : SalesWindow) :
    Box f (w.populatePeriodCombo f.hideLifetime f.periodIndex) where
  periods := SalesWindow.periods_populate _ _ w
  saved := SalesWindow.currentPeriod_populate _ _ w
  offered _ := rfl

/-- A period that is selected and saved. -/
theorem Box.setCurSel {w : SalesWindow} (h : Box f w) {i : Nat} (hi : i < w.combo.length) :
    Box { f with periodIndex := (w.setCurSel i).currentPeriod.index } (w.setCurSel i) := by
  have hperiods := SalesWindow.periods_setCurSel h.periods hi
  exact ⟨hperiods, (SalesWindow.currentPeriod_saved hperiods).symm, h.offered⟩

theorem Reloads.box {w w' : SalesWindow} (h : Reloads answered w w') (hw : Box f w) :
    Box f w' ∧ ListOf answered w'.currentPeriod w' := by
  have hlist := h.listOf
  obtain ⟨rows, status, -, rfl⟩ := h
  exact ⟨hw.same rfl rfl rfl, hlist⟩

/-- Where the UI thread waits: the box is in order, and the list is of the period that is
selected. -/
def Steady (answered : UiReply → Desk → Prop) (f : Front) : Prop :=
  ∀ w, f.window = some w → Box f w ∧ ListOf answered w.currentPeriod w

theorem steady_window {w : SalesWindow} (hbox : Box f w)
    (hlist : ListOf answered w.currentPeriod w) :
    Steady answered { f with window := some w } := by
  rintro w' ⟨⟩
  exact ⟨⟨hbox.periods, hbox.saved, hbox.offered⟩, hlist⟩

theorem steady_none (h : f.window = none) : Steady answered f := by
  intro w hw
  rw [h] at hw
  cases hw

/-! ### The handlers -/

theorem ends (P : Front → Prop) (value : α) :
    (handling answered).Spec (fun d => P d.front) (pure value) fun _ d => P d.front :=
  Contract.Spec.done (stable_front P)

/-- A handler that loads the list of a window whose box is in order. -/
theorem reload_steady {w : SalesWindow} (hw : Partly answered w) (hbox : Box f w) :
    (handling answered).Spec (fun d => d.front = f) (reloadList w)
      fun w' d => d.front = { f with window := some w' } ∧ Box f w' ∧
        ListOf answered w'.currentPeriod w' :=
  (reloadList_spec hw).post fun _ _ h => ⟨h.1, h.2.box hbox⟩

/-- From the front `f`, the handler comes to one that is steady. -/
abbrev ToSteady (answered : UiReply → Desk → Prop) (f : Front) (handler : Ui Unit) : Prop :=
  (handling answered).Spec (fun d => d.front = f) handler fun _ d => Steady answered d.front

theorem reloadOnly_spec {w : SalesWindow} (hw : Partly answered w) (hbox : Box f w) :
    ToSteady answered f (reloadList w >>= fun _ => pure ()) := by
  refine (reload_steady hw hbox).bind fun w' => .given fun h => ?_
  refine (ends (· = { f with window := some w' }) ()).post fun _ d hd => ?_
  rw [hd]
  exact steady_window h.1 h.2

theorem refresh_spec (hf : Steady answered f) : ToSteady answered f refresh := by
  refine onWindow_spec (fun _ => hf) fun w hw => ?_
  show (handling answered).Spec _ (if _ then _ else _) _
  split
  · exact reloadOnly_spec (hf w hw).2.partly (hf w hw).1
  · exact (ends (· = f) ()).post fun _ _ h => h ▸ hf

theorem reloadAndShow_spec {w : SalesWindow} (hw : Partly answered w) (hbox : Box f w) :
    ToSteady answered f (reloadAndShow w) := by
  refine (reload_steady hw hbox).bind fun w' => .given fun h => ?_
  have hpartly : Partly answered { w' with visible := true } :=
    ⟨h.2.partly.items, h.2.partly.total⟩
  refine (setWindow_spec hpartly).post fun _ d hd => ?_
  rw [hd]
  exact steady_window (f := { f with window := some w' })
    (w := { w' with visible := true }) (Box.same ⟨h.1.periods, h.1.saved, h.1.offered⟩ rfl rfl rfl)
    h.2

/-- The periods are filled in, and then the list is loaded. -/
theorem populate_box {w : SalesWindow} (hw : Partly answered w) :
    (handling answered).Spec (fun d => d.front = f) (populatePeriodCombo w)
      fun w' d => d.front = { f with window := some w' } ∧ Partly answered w' ∧
        Box { f with window := some w' } w' := by
  refine (populatePeriodCombo_spec hw).post ?_
  rintro w' d ⟨hfront, rfl⟩
  have hbox := box_populate f w
  exact ⟨hfront, ⟨hw.items, hw.total⟩, hbox.periods, hbox.saved, hbox.offered⟩

theorem ensureCreated_spec :
    (handling answered).Spec (fun d => d.front = f) ensureCreated fun created d =>
      match created with
      | some w => d.front = { f with window := some w } ∧ Partly answered w ∧
          Box { f with window := some w } w
      | none => d.front = f := by
  refine (reads (p := ask .getSalesWindowRect) (ask_reads trivial) (· = f)).bind fun rect => ?_
  refine (reads (p := ask (.createWindow rect)) (ask_reads trivial) (· = f)).bind
    fun created => ?_
  cases created with
  | true =>
    have hcolumn : ∀ column, (handling answered).Spec (fun d => d.front = f)
        (insertColumn column) fun _ d => d.front = f :=
      fun column => reads (insertColumn_reads column) (· = f)
    refine (hcolumn 0).bind fun _ => (hcolumn 1).bind fun _ => (hcolumn 2).bind fun _ => ?_
    refine (populate_box (partly_created answered)).bind fun w => ?_
    exact Contract.Spec.ret (stable_front fun g => g = { f with window := some w } ∧
      Partly answered w ∧ Box { f with window := some w } w) fun _ _ h => h
  | false => exact Contract.Spec.ret (stable_front (· = f)) fun _ _ h => h

theorem showAndFocus_spec (hf : Steady answered f) : ToSteady answered f showAndFocus := by
  refine getWindow_spec.bind fun window => .given ?_
  rintro rfl
  cases hwindow : f.window with
  | some w => exact reloadAndShow_spec (hf w hwindow).2.partly (hf w hwindow).1
  | none =>
    refine ensureCreated_spec.bind fun created => ?_
    cases created with
    | some w =>
      intro d hd h
      exact reloadAndShow_spec h.2.1 h.2.2 d hd h.1
    | none => exact (ends (· = f) ()).post fun _ _ h => h ▸ hf

theorem onSettingsChanged_spec (hf : ∀ w, f.window = some w → Partly answered w) :
    ToSteady answered f onSettingsChanged :=
  onWindow_spec steady_none fun w hw => (populate_box (hf w hw)).bind fun _ => fun d hd h =>
    reloadOnly_spec h.2.1 h.2.2 d hd h.1

theorem onSelChange_spec {w : SalesWindow} (hwindow : f.window = some w) (hw : Partly answered w)
    (hbox : Box { f with periodIndex := w.currentPeriod.index } w) :
    ToSteady answered f onSelChange := by
  have hset : (handling answered).Spec (fun d => d.front = f)
      (ask (.setSalesPeriodIndex w.currentPeriod.index)) fun _ d => d.front =
        { f with periodIndex := w.currentPeriod.index } := by
    refine Contract.Spec.perform (stable_front (· = f)) (fun _ => stable_front (· = _))
      fun d reply hd hf _ => ⟨hd, ?_⟩
    rw [← hf]
    exact congrArg (fun index => Front.mk d.window index d.hideLifetime d.dialogs)
      (SalesSettings.getSalesPeriodIndex_set w.currentPeriod.index d.sales)
  refine onWindow_spec steady_none fun w' hw' => ?_
  obtain rfl := Option.some.inj (hwindow.symm.trans hw')
  exact hset.bind fun _ => reloadOnly_spec hw hbox

theorem saveGeometry_quiet : saveGeometry.Every UiOp.Quiet := by
  refine ⟨fun _ _ => rfl, fun rect => ?_⟩
  cases rect with
  | some rect => exact ⟨fun _ _ => rfl, fun _ => trivial⟩
  | none => trivial

theorem saveColumnWidth_quiet (column : Fin 3) : (saveColumnWidth column).Every UiOp.Quiet :=
  ⟨fun _ _ => rfl, fun _ => ⟨fun _ _ => rfl, fun _ => trivial⟩⟩

theorem onClose_spec (hf : Steady answered f) : ToSteady answered f onClose := by
  have hcolumn : ∀ column, (handling answered).Spec (fun d => d.front = f)
      (saveColumnWidth column) fun _ d => d.front = f :=
    fun column => quiet (saveColumnWidth_quiet column) (· = f)
  refine (quiet saveGeometry_quiet (· = f)).bind fun _ => (hcolumn 0).bind fun _ =>
    (hcolumn 1).bind fun _ => (hcolumn 2).bind fun _ => ?_
  refine onWindow_spec (fun _ => hf) fun w hw => ?_
  obtain ⟨hbox, hlist⟩ := hf w hw
  have hpartly : Partly answered { w with visible := false } :=
    ⟨hlist.partly.items, hlist.partly.total⟩
  refine (setWindow_spec hpartly).post fun _ d hd => ?_
  rw [hd]
  exact steady_window (w := { w with visible := false }) (hbox.same rfl rfl rfl) hlist

theorem signal_quiet (request : WorkerLoop.Request) : (ask (.signal request)).Every UiOp.Quiet :=
  ⟨fun _ _ => rfl, fun _ => trivial⟩

theorem applyOutcome_quiet (outcome : DialogOutcome) :
    (applyOutcome outcome).Every UiOp.Quiet := by
  unfold applyOutcome
  split
  · exact ⟨fun _ _ => rfl, fun _ => signal_quiet .manual⟩
  · split
    · exact signal_quiet .settings
    · trivial

theorem onRefresh_spec (hf : Steady answered f) : ToSteady answered f onRefresh :=
  (quiet (signal_quiet .manual) (· = f)).bind fun _ =>
    onWindow_spec (fun _ => hf) fun w hw => reloadOnly_spec (hf w hw).2.partly (hf w hw).1

theorem onSettingsClosed_spec (outcome : DialogOutcome)
    (hf : ∀ w, f.window = some w → Partly answered w) :
    ToSteady answered f (onSettingsClosed outcome) := by
  refine (quiet (applyOutcome_quiet outcome) (· = f)).bind fun _ => ?_
  refine (onSettingsChanged_spec hf).bind fun _ => ?_
  show (handling answered).Spec _ (if _ then _ else _) _
  split
  · exact reads updateTooltipForKeyState_reads (Steady answered)
  · exact reads updateTray_reads (Steady answered)

theorem onSyncMessage_spec (message : Message) (hf : Steady answered f) :
    ToSteady answered f (onSyncMessage message) := by
  refine (reads updateTray_reads (· = f)).bind fun _ => (refresh_spec hf).bind fun _ => ?_
  show (handling answered).Spec _ (if _ then _ else _) _
  split
  · exact quiet (p := ask .maybeShowNotification) ⟨fun _ _ => rfl, fun _ => trivial⟩
      (Steady answered)
  · exact ends (Steady answered) ()

end Handlers

/-! ### Every run -/

section Runs

variable {answered : UiReply → Desk → Prop}

/-- A dialog is open, so the box need not offer what the preference says. -/
theorem Steady.inDialog {f f' : Front} (h : Steady answered f) (hwindow : f'.window = f.window)
    (hindex : f'.periodIndex = f.periodIndex) (hdialogs : f'.dialogs ≠ 0) :
    Steady answered f' := by
  intro w hw
  obtain ⟨hbox, hlist⟩ := h w (hwindow ▸ hw)
  exact ⟨⟨hbox.periods, hindex ▸ hbox.saved, fun hzero => absurd hzero hdialogs⟩, hlist⟩

theorem begins_steady {task : UiTask} {d d' : Desk} {rest : Ui Unit} (hd : Shows answered d)
    (hsteady : Steady answered d.front) (h : task.begins d = some (d', rest)) :
    Shows answered d' ∧ (handling answered).Safe (fun _ d => Steady answered d.front) rest d' := by
  have hquiet : ∀ {d' : Desk} {p : Ui Unit}, Shows answered d' → Steady answered d'.front →
      p.Every UiOp.Quiet → Shows answered d' ∧
        (handling answered).Safe (fun _ d => Steady answered d.front) p d' :=
    fun hd' hsteady' hp => ⟨hd', quiet hp (Steady answered) _ hd' hsteady'⟩
  cases task with
  | startUp opens hasKey =>
    obtain ⟨rfl, rfl⟩ := Prod.mk.inj (Option.some.inj h)
    exact hquiet hd hsteady trivial
  | handleMessage =>
    obtain ⟨message, queue, -, rfl, rfl⟩ := UiTask.begins_handleMessage h
    have hd' : Shows answered
        { d with world.queue := queue, unshown := decide (message = .totalsChanged) } := hd
    exact ⟨hd', onSyncMessage_spec message hsteady _ hd' rfl⟩
  | showSales =>
    obtain ⟨rfl, rfl⟩ := Prod.mk.inj (Option.some.inj h)
    exact ⟨hd, showAndFocus_spec hsteady d hd rfl⟩
  | selectPeriod index =>
    obtain ⟨w, hw, hindex, rfl, rfl⟩ := UiTask.begins_selectPeriod h
    have hpartly : Partly answered (w.setCurSel index) := ⟨(hd w hw).items, (hd w hw).total⟩
    have hd' : Shows answered { d with window := some (w.setCurSel index) } := by
      rintro w' ⟨⟩
      exact hpartly
    have hbox := (hsteady w hw).1.setCurSel hindex
    exact ⟨hd', onSelChange_spec (f := { d.front with window := some (w.setCurSel index) }) rfl
      hpartly ⟨hbox.periods, hbox.saved, hbox.offered⟩ _ hd' rfl⟩
  | refreshSales =>
    obtain ⟨w, hw, hbegun⟩ := UiTask.onVisible_some h
    obtain ⟨rfl, rfl⟩ := Prod.mk.inj (Option.some.inj hbegun)
    exact ⟨hd, onRefresh_spec hsteady d hd rfl⟩
  | closeSales =>
    obtain ⟨w, hw, hbegun⟩ := UiTask.onVisible_some h
    obtain ⟨rfl, rfl⟩ := Prod.mk.inj (Option.some.inj hbegun)
    exact ⟨hd, onClose_spec hsteady d hd rfl⟩
  | refreshNow =>
    obtain ⟨rfl, rfl⟩ := Prod.mk.inj (Option.some.inj h)
    exact hquiet hd hsteady (signal_quiet .manual)
  | openSettings =>
    obtain ⟨rfl, rfl⟩ := Prod.mk.inj (Option.some.inj h)
    exact hquiet hd (hsteady.inDialog rfl rfl (Nat.succ_ne_zero _)) trivial
  | setNotifyOnNewUnits on =>
    obtain ⟨-, rfl, rfl⟩ := UiTask.inDialog_some h
    exact hquiet hd hsteady trivial
  | setHideLifetime hidden =>
    obtain ⟨hdialogs, rfl, rfl⟩ := UiTask.inDialog_some h
    exact hquiet hd (hsteady.inDialog rfl rfl hdialogs) trivial
  | closeSettings outcome =>
    obtain ⟨-, rfl, rfl⟩ := UiTask.inDialog_some h
    have hd' : Shows answered { d with dialogs := d.dialogs - 1 } := hd
    exact ⟨hd', onSettingsClosed_spec outcome hd' _ hd' rfl⟩

/-- Whatever the worker and the UI thread do, if `answered` holds of the replies that are given. -/
theorem guards (answered : UiReply → Desk → Prop) :
    uiThread.Guards desk
      (Rules.moves fun move s => ∀ reply, move = .call reply → answered reply s.state)
      answered (@Shows.beside answered) fun d => Steady answered d.front where
  exec _ _ _ _ _ := rfl
  act move _ _ _ := by
    cases move with
    | serverChange gap date records => rfl
  begins _ _ _ _ _ hs hsteady hbegins := begins_steady hs hsteady hbegins
  call reply _ hreply := hreply reply rfl
  crash s _ _ := by
    have hcrash : Shows answered (desk.crash s.state) := nofun
    exact ⟨hcrash, Contract.Spec.done (stable_front (Steady answered)) _ hcrash (steady_none rfl)⟩

end Runs

/-- The state after a run of the worker and the UI thread. -/
def Desk.after (d : Desk) (es : List (Event Reply UiMove)) : AppState :=
  (app.run runSynchronization ⟨⟨d, .ret ()⟩, none⟩ es).state

/-- In the run, a call of a handler was answered so when the desk was `d'`. -/
def Desk.Answered (d : Desk) (es : List (Event Reply UiMove)) (reply : UiReply) (d' : Desk) :
    Prop :=
  ∃ before later, es = before ++ .act (.call reply) :: later ∧ d' = (d.after before).state

/-- The app before the sales window is created. -/
structure Unopened (d : Desk) : Prop where
  valid : d.world.db.conn.Both Tables.Valid
  window : d.window = none

theorem guarded_after {d : Desk} (hwindow : d.window = none) (es : List (Event Reply UiMove)) :
    uiThread.Guarded (d.Answered es) (@Shows.beside (d.Answered es))
      (fun d' => Steady (d.Answered es) d'.front) (d.after es) := by
  have hshows : Shows (d.Answered es) d := by
    intro w hw
    rw [show d.front.window = none from hwindow] at hw
    cases hw
  have hsteady : Steady (d.Answered es) d.front := steady_none hwindow
  have hadmitted : (Rules.moves fun move s => ∀ reply, move = .call reply →
      d.Answered es reply s.state).Admitted app runSynchronization ⟨⟨d, .ret ()⟩, none⟩ es := by
    refine Rules.moves_admitted fun before move later hes reply hmove => ?_
    subst hmove
    exact ⟨before, later, hes, rfl⟩
  exact (guards (d.Answered es)).run
    ⟨hshows, Contract.Spec.done (stable_front (Steady _)) _ hshows hsteady⟩ hadmitted

/-- The database and the status of the worker are as they were. -/
structure Untouched (w w' : World) : Prop where
  db : w'.db = w.db
  status : w'.status = w.status

theorem Desk.exec_untouched (op : UiOp) (reply : UiReply) (d : Desk) :
    Untouched d.world (d.exec op reply).2.world := by
  cases op <;> exact ⟨rfl, rfl⟩

theorem RequestMove.untouched {w w' : World} (h : RequestMove w w') : Untouched w w' := by
  rcases h with rfl | rfl | ⟨on, rfl⟩ <;> exact ⟨rfl, rfl⟩

theorem UiTask.begins_untouched {task : UiTask} {d d' : Desk} {rest : Ui Unit}
    (h : task.begins d = some (d', rest)) : Untouched d.world d'.world := by
  by_cases hmessage : task = .handleMessage
  · subst hmessage
    obtain ⟨message, queue, -, -, rfl⟩ := UiTask.begins_handleMessage h
    exact ⟨rfl, rfl⟩
  · by_cases hselect : ∃ index, task = .selectPeriod index
    · obtain ⟨index, rfl⟩ := hselect
      obtain ⟨w, -, -, -, rfl⟩ := UiTask.begins_selectPeriod h
      exact ⟨rfl, rfl⟩
    · exact (UiTask.begins_common hmessage (fun index hindex => hselect ⟨index, hindex⟩)
        h).2.2.2.untouched

theorem act_untouched (move : UiMove) (s : AppState) :
    Untouched s.state.world (app.act move s).state.world := by
  refine uiThread.act_cases (motive := fun s' => Untouched s.state.world s'.state.world) desk move s
    ⟨rfl, rfl⟩ (fun m _ => ?_) (fun _ _ _ _ _ hbegins => UiTask.begins_untouched hbegins)
    fun reply op next _ _ => Desk.exec_untouched op reply s.state
  cases m with
  | serverChange gap date records => exact ⟨rfl, rfl⟩

theorem valid_after {d : Desk} (hd : d.world.db.conn.Both Tables.Valid)
    (es : List (Event Reply UiMove)) :
    (d.after es).state.world.db.conn.Both Tables.Valid := by
  refine (Rules.any_admitted app runSynchronization ⟨⟨d, .ret ()⟩, none⟩ es).invariant
    (I := fun s => s.state.world.db.conn.Both Tables.Valid) (fun op reply s _ hs => ?_)
    (fun move s _ hs => ?_) (fun s _ hs => hs.drop) hd
  · exact World.exec_both op reply s.state.world hs fun hop => effect_valid hs.2 hop
  · rw [(act_untouched move s).db]
    exact hs

/-- In every state of every run, the list in the sales window has the first rows of what one query
for one period has read of tables that were committed together, with each product once, and the
total is that of all rows of one query, once there has been one.  Where the UI thread waits, the
list has all rows of one query for the selected period, and the total is that of the list. -/
theorem list_is_one_query {d : Desk} (hd : Unopened d) (es : List (Event Reply UiMove))
    {w : SalesWindow} (hw : (d.after es).state.window = some w) :
    (w.items = [] ∨ ∃ period rows, PeriodRows (d.Answered es) period rows ∧
      (rows.map ProductUnits.appId).Nodup ∧ w.items <+: rows.map Item.ofRow) ∧
    (w.total = totalText 0 ∨ ∃ period rows, PeriodRows (d.Answered es) period rows ∧
      w.total = totalText (unitsTotal rows)) ∧
    ((d.after es).Waits → ∃ rows, PeriodRows (d.Answered es) w.currentPeriod rows ∧
      (rows.map ProductUnits.appId).Nodup ∧ w.items = rows.map Item.ofRow ∧
      w.total = totalText (unitsTotal rows)) := by
  have hguarded := guarded_after hd.window es
  have hvalid : ∀ reply d', d.Answered es reply d' → d'.world.db.conn.committed.Valid := by
    rintro reply _ ⟨before, later, -, rfl⟩
    exact (valid_after hd.valid before).1
  obtain ⟨hitems, htotal⟩ := hguarded.state w hw
  refine ⟨hitems.imp_right ?_, htotal, fun hwaits => ?_⟩
  · rintro ⟨period, rows, hrows, hprefix⟩
    exact ⟨period, rows, hrows, hrows.once hvalid, hprefix⟩
  · obtain ⟨-, rows, hrows, hlist, hsum⟩ := hguarded.of_waits hwaits w hw
    exact ⟨rows, hrows, hrows.once hvalid, hlist, hsum⟩

/-- The window at the end of the run. -/
def Sample.shownWindow : SalesWindow :=
  (Sample.desk.after Sample.shownPass).state.window.getD .created

theorem unopened_sample : Unopened Sample.desk where
  valid := ⟨Tables.valid_fresh, Tables.valid_fresh⟩
  window := rfl

theorem list_is_one_query_shown :
    Sample.shownWindow.items ≠ [] ∧
    ∃ rows, PeriodRows (Sample.desk.Answered Sample.shownPass) Sample.shownWindow.currentPeriod
      rows ∧ (rows.map ProductUnits.appId).Nodup ∧
      Sample.shownWindow.items = rows.map Item.ofRow ∧
      Sample.shownWindow.total = totalText (unitsTotal rows) := by
  have hshown := list_is_one_query unopened_sample Sample.shownPass (w := Sample.shownWindow)
    (by decide +kernel)
  exact ⟨by decide +kernel, hshown.2.2 (by decide +kernel)⟩

/-! ### The saved period -/

def UiOp.KeepsPeriod (op : UiOp) : Prop := ∀ index, op ≠ .setSalesPeriodIndex index

theorem UiOp.Common.keepsPeriod {op : UiOp} (h : op.Common) : op.KeepsPeriod := by
  rintro index rfl
  exact h

theorem UiTask.begins_keepsPeriod {task : UiTask} (hselect : ∀ index, task ≠ .selectPeriod index)
    {d d' : Desk} {rest : Ui Unit} (h : task.begins d = some (d', rest)) :
    d'.sales = d.sales ∧ rest.Every UiOp.KeepsPeriod := by
  by_cases hmessage : task = .handleMessage
  · subst hmessage
    obtain ⟨message, queue, -, rfl, rfl⟩ := UiTask.begins_handleMessage h
    refine ⟨rfl, ?_⟩
    have htray := (reads_common updateTray_reads).mono fun _ h => h.keepsPeriod
    have hrefresh := refresh_common.mono fun _ h => h.keepsPeriod
    refine htray.bind fun _ => hrefresh.bind fun _ => ?_
    show Program.Every _ (if _ then _ else _)
    split
    · exact ⟨nofun, fun _ => trivial⟩
    · trivial
  · obtain ⟨hcommon, -, hsales, -⟩ := UiTask.begins_common hmessage hselect h
    exact ⟨hsales, hcommon.mono fun _ h => h.keepsPeriod⟩

/-- Runs in which the user selects no period. -/
def unselectedRules : Rules Op AppState Reply UiMove where
  start _ := True
  call _ _ _ := True
  act move _ := ∀ index, move ≠ .begins (.selectPeriod index)
  kill _ := True

/-- What is left of the task saves no period. -/
structure PeriodKept (index : Int32) (s : AppState) : Prop where
  saved : s.state.sales.getSalesPeriodIndex = index
  rest : s.rest.Every UiOp.KeepsPeriod

theorem UiOp.KeepsPeriod.exec {op : UiOp} (h : op.KeepsPeriod) (reply : UiReply) (d : Desk) :
    (d.exec op reply).2.sales.getSalesPeriodIndex = d.sales.getSalesPeriodIndex := by
  cases op with
  | setSalesPeriodIndex index => exact absurd rfl (h index)
  | _ => rfl

theorem PeriodKept.act {index : Int32} {s : AppState} (hs : PeriodKept index s) {move : UiMove}
    (hmove : ∀ index, move ≠ .begins (.selectPeriod index)) :
    PeriodKept index (app.act move s) := by
  refine uiThread.act_cases desk move s hs (fun m _ => ?_) ?_ ?_
  · cases m with
    | serverChange gap date records => exact ⟨hs.saved, hs.rest⟩
  · rintro task d' rest rfl - hbegins
    obtain ⟨hsales, hrest⟩ :=
      UiTask.begins_keepsPeriod (fun index h => hmove index (h ▸ rfl)) hbegins
    exact ⟨hsales ▸ hs.saved, hrest⟩
  · rintro reply op next rfl hrest
    have hevery : (Program.call op next).Every UiOp.KeepsPeriod := hrest ▸ hs.rest
    exact ⟨(hevery.1.exec reply s.state).trans hs.saved, hevery.2 _⟩

/-- Where the UI thread waits, the window has the saved period selected, or `Today` where it is not
offered, and `Lifetime` is offered just where the preference does not hide it, unless a dialog is
open.  No run saves another period than one that is selected, so the period stays over kills. -/
theorem saved_period_shown {d : Desk} (hd : d.window = none) (es : List (Event Reply UiMove)) :
    (∀ w, (d.after es).state.window = some w → (d.after es).Waits →
      w.currentPeriod = SalesWindow.savedPeriod (d.after es).state.sales.getSalesPeriodIndex
        w.periods ∧
      .today ∈ w.periods ∧
      ((d.after es).state.dialogs = 0 →
        (.lifetime ∈ w.periods ↔ (d.after es).state.hideLifetime = false))) ∧
    (unselectedRules.Admitted app runSynchronization ⟨⟨d, .ret ()⟩, none⟩ es →
      (d.after es).state.sales.getSalesPeriodIndex = d.sales.getSalesPeriodIndex) := by
  constructor
  · intro w hw hwaits
    obtain ⟨hbox, -⟩ := (guarded_after hd es).of_waits hwaits w hw
    refine ⟨hbox.saved, ?_, fun hdialogs => ?_⟩
    · obtain ⟨hideLifetime, hperiods⟩ := hbox.periods.offered
      rw [hperiods]
      exact List.mem_of_mem_head? (SalesWindow.today_first hideLifetime)
    · rw [hbox.offered hdialogs]
      exact SalesWindow.lifetime_offered _
  · intro hes
    have hstart : PeriodKept d.sales.getSalesPeriodIndex ⟨d, .ret ()⟩ := ⟨rfl, trivial⟩
    have hkept := hes.invariant (I := PeriodKept d.sales.getSalesPeriodIndex)
      (fun _ _ _ _ hs => ⟨hs.saved, hs.rest⟩) (fun _ _ hmove hs => hs.act hmove)
      (fun _ _ hs => ⟨hs.saved, trivial⟩) hstart
    exact hkept.saved

namespace Sample

/-- `Lifetime` is saved as the period, and hidden. -/
def hiddenDesk : Desk :=
  { desk with
    hideLifetime := true
    sales := desk.sales.setSalesPeriodIndex SalesPeriod.lifetime.index }

/-- The sales window is opened and closed, and opened again after the program has been killed. -/
def reopened : List (Event Reply UiMove) :=
  task .showSales ++ task .closeSales ++ [.kill] ++ task (.startUp true true) ++ task .showSales

theorem task_unselected {t : UiTask} (ht : ∀ index, t ≠ .selectPeriod index) :
    ∀ e ∈ task t, ∀ c : Config Op Op.Answer AppState Exit, unselectedRules.Admits c e := by
  intro e he c
  rcases List.mem_cons.mp he with rfl | he
  · rintro index ⟨⟩
    exact ht index rfl
  · obtain ⟨-, rfl⟩ := List.mem_replicate.mp he
    exact nofun

theorem reopened_unselected {e : Event Reply UiMove} (he : e ∈ reopened)
    (c : Config Op Op.Answer AppState Exit) : unselectedRules.Admits c e := by
  simp only [reopened, List.mem_append, List.mem_singleton] at he
  rcases he with (((he | he) | rfl) | he) | he
  · exact task_unselected (t := .showSales) nofun e he c
  · exact task_unselected (t := .closeSales) nofun e he c
  · trivial
  · exact task_unselected (t := .startUp true true) nofun e he c
  · exact task_unselected (t := .showSales) nofun e he c

end Sample

/-- The saved period is not offered, and it is still saved. -/
theorem saved_period_shown_sample :
    ∃ w, (Sample.hiddenDesk.after Sample.reopened).state.window = some w ∧
      w.currentPeriod = SalesWindow.savedPeriod SalesPeriod.lifetime.index w.periods ∧
      .today ∈ w.periods ∧ .lifetime ∉ w.periods ∧
      (Sample.hiddenDesk.after Sample.reopened).state.sales.getSalesPeriodIndex =
        SalesPeriod.lifetime.index := by
  obtain ⟨hshown, hkept⟩ := saved_period_shown (d := Sample.hiddenDesk) rfl Sample.reopened
  have hsaved := hkept (Rules.admitted_of_events (fun _ he => Sample.reopened_unselected he) _ _ _)
  obtain ⟨w, hw⟩ : ∃ w, (Sample.hiddenDesk.after Sample.reopened).state.window = some w :=
    Option.isSome_iff_exists.mp (by decide +kernel)
  obtain ⟨hcurrent, htoday, hlifetime⟩ := hshown w hw (by decide +kernel)
  rw [hsaved] at hcurrent
  refine ⟨w, hw, hcurrent, htoday, fun hoffered => ?_, hsaved⟩
  exact absurd ((hlifetime (by decide +kernel)).mp hoffered) (by decide +kernel)

/-! ### Where the window was -/

section Place

open SalesSettings

variable {reply : UiReply}

theorem saveGeometry_saves {rect : WindowRect} (hrect : reply.windowRect = some rect)
    (s : SalesSettings) :
    (uiThread.alone (· = reply)).Spec (fun d => d.sales = s) saveGeometry
      fun _ d => d.sales = s.setSalesWindowRect rect := by
  have hget : (uiThread.alone (· = reply)).Spec (fun d => d.sales = s) (ask .getWindowRect)
      fun answer d => d.sales = s ∧ answer = some rect :=
    Thread.spec_perform fun d reply' hd hreply => ⟨hd, hreply ▸ hrect⟩
  have hset : (uiThread.alone (· = reply)).Spec (fun d => d.sales = s)
      (ask (.setSalesWindowRect rect)) fun _ d => d.sales = s.setSalesWindowRect rect :=
    Thread.spec_perform fun _ _ hd _ => congrArg (setSalesWindowRect rect) hd
  refine hget.bind fun answer => fun d hinv h => ?_
  obtain ⟨hd, rfl⟩ := h
  exact hset d hinv hd

theorem saveColumnWidth_saves (column : Fin 3) (s : SalesSettings) :
    (uiThread.alone (· = reply)).Spec (fun d => d.sales = s) (saveColumnWidth column)
      fun _ d => d.sales = s.setSalesColumnWidth column reply.columnWidth := by
  have hget : (uiThread.alone (· = reply)).Spec (fun d => d.sales = s)
      (ask (.getColumnWidth column)) fun answer d => d.sales = s ∧ answer = reply.columnWidth :=
    Thread.spec_perform fun d reply' hd hreply => ⟨hd, hreply ▸ rfl⟩
  have hset : (uiThread.alone (· = reply)).Spec (fun d => d.sales = s)
      (ask (.setSalesColumnWidth column reply.columnWidth))
      fun _ d => d.sales = s.setSalesColumnWidth column reply.columnWidth :=
    Thread.spec_perform fun _ _ hd _ =>
      congrArg (setSalesColumnWidth column reply.columnWidth) hd
  refine hget.bind fun answer => fun d hinv h => ?_
  obtain ⟨hd, rfl⟩ := h
  exact hset d hinv hd

/-- What is saved of a window that is closed is what it is created with again: its place, unless
its size is one that stands for none, and its columns, unless their width is one. -/
theorem closed_place {rect : WindowRect} (hrect : reply.windowRect = some rect) :
    (uiThread.alone (· = reply)).Spec (fun _ => True) onClose fun _ d =>
      d.sales.getSalesWindowRect =
          (if Storable rect.width ∧ Storable rect.height then some rect else none) ∧
        ∀ column fallback, d.sales.getSalesColumnWidth column fallback =
          if reply.columnWidth.toUInt32 = kUnsetSentinel then fallback else reply.columnWidth := by
  intro d hinv _
  have hhide : ∀ s, (uiThread.alone (· = reply)).Spec (fun d => d.sales = s)
      (onWindow fun w => ask (.setWindow { w with visible := false })) fun _ d => d.sales = s := by
    intro s
    have hget : (uiThread.alone (· = reply)).Spec (fun d => d.sales = s) (ask .getWindow)
        fun _ d => d.sales = s := Thread.spec_perform fun _ _ hd _ => hd
    refine hget.bind fun window => ?_
    cases window with
    | some w => exact Thread.spec_perform fun _ _ hd _ => hd
    | none => exact Contract.Spec.done (Thread.alone_stable _)
  have hclose := (saveGeometry_saves hrect d.sales).bind fun _ =>
    (saveColumnWidth_saves 0 _).bind fun _ => (saveColumnWidth_saves 1 _).bind fun _ =>
      (saveColumnWidth_saves 2 _).bind fun _ => hhide _
  refine (hclose.post ?_) d hinv rfl
  rintro _ after hafter
  rw [hafter]
  refine ⟨?_, fun column fallback => ?_⟩
  · simp only [getSalesWindowRect_setSalesColumnWidth]
    exact getSalesWindowRect_set rect d.sales
  · have hcolumns : ∀ column : Fin 3, column = 0 ∨ column = 1 ∨ column = 2 := by decide
    rcases hcolumns column with rfl | rfl | rfl <;> simp [getSalesColumnWidth_set]

end Place

end SteamSalesTray.App
