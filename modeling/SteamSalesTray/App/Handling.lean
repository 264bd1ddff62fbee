import SteamSalesTray.App.UiThread

/-! The handling of a message by the UI thread is one move of `service`: the message counts as
waiting until its notification has been looked at. -/

namespace SteamSalesTray.App

open Interaction Storage Sync UI

/-! ### The calls of the handlers -/

/-- The call neither saves a period nor looks at the notification. -/
def UiOp.Common : UiOp → Prop
  | .setSalesPeriodIndex _ | .maybeShowNotification => False
  | _ => True

theorem UiOp.Reads.common {op : UiOp} (h : op.Reads) : op.Common := by
  cases op with
  | setSalesPeriodIndex index => exact h
  | maybeShowNotification => exact h
  | _ => trivial

theorem reads_common {α : Type} {p : Ui α} (hp : p.Every UiOp.Reads) : p.Every UiOp.Common :=
  hp.mono fun _ h => h.common

theorem ask_common {op : UiOp} (h : op.Common) : (ask op).Every UiOp.Common :=
  ⟨h, fun _ => trivial⟩

theorem insertRows_common (rows : List ProductUnits) (w : SalesWindow) (total : Int) :
    (insertRows rows w total).Every UiOp.Common := by
  induction rows generalizing w total with
  | nil => trivial
  | cons row rows ih => exact ⟨trivial, fun _ => ih (w.insertItem row) (total + row.units)⟩

theorem reloadList_common (w : SalesWindow) : (reloadList w).Every UiOp.Common := by
  refine ⟨trivial, fun _ => (reads_common (queryPeriod_reads _)).bind fun rows => ?_⟩
  refine (insertRows_common rows _ 0).bind ?_
  rintro ⟨listed, total⟩
  exact ⟨trivial, fun _ =>
    (reads_common statusText_reads).bind fun _ => ⟨trivial, fun _ => trivial⟩⟩

theorem onWindow_every {P : UiOp → Prop} (hget : P .getWindow) {handler : SalesWindow → Ui Unit}
    (h : ∀ w, (handler w).Every P) : (onWindow handler).Every P := by
  refine ⟨hget, fun window => ?_⟩
  cases window with
  | none => trivial
  | some w => exact h w

theorem refresh_common : refresh.Every UiOp.Common := by
  refine onWindow_every trivial fun w => ?_
  show Program.Every _ (if _ then _ else _)
  split
  · exact (reloadList_common w).bind fun _ => trivial
  · trivial

theorem populatePeriodCombo_common (w : SalesWindow) :
    (populatePeriodCombo w).Every UiOp.Common :=
  ⟨trivial, fun _ => ⟨trivial, fun _ => ⟨trivial, fun _ => trivial⟩⟩⟩

theorem reloadAndShow_common (w : SalesWindow) : (reloadAndShow w).Every UiOp.Common :=
  (reloadList_common w).bind fun _ => ask_common trivial

theorem insertColumn_reads (column : Fin 3) : (insertColumn column).Every UiOp.Reads :=
  ⟨trivial, fun _ => ask_reads trivial⟩

theorem ensureCreated_common : ensureCreated.Every UiOp.Common := by
  refine ⟨trivial, fun rect => ⟨trivial, fun created => ?_⟩⟩
  cases created with
  | true =>
    have hcolumn := fun column => reads_common (insertColumn_reads column)
    exact (hcolumn 0).bind fun _ => (hcolumn 1).bind fun _ => (hcolumn 2).bind fun _ =>
      (populatePeriodCombo_common .created).bind fun _ => trivial
  | false => trivial

theorem showAndFocus_common : showAndFocus.Every UiOp.Common := by
  refine ⟨trivial, fun window => ?_⟩
  cases window with
  | some w => exact reloadAndShow_common w
  | none =>
    refine ensureCreated_common.bind fun created => ?_
    cases created with
    | some w => exact reloadAndShow_common w
    | none => trivial

theorem onClose_common : onClose.Every UiOp.Common := by
  have hcolumn : ∀ column, (saveColumnWidth column).Every UiOp.Common := fun column =>
    ⟨trivial, fun _ => ask_common trivial⟩
  have hgeometry : saveGeometry.Every UiOp.Common := by
    refine ⟨trivial, fun rect => ?_⟩
    cases rect with
    | some rect => exact ask_common trivial
    | none => trivial
  exact hgeometry.bind fun _ => (hcolumn 0).bind fun _ => (hcolumn 1).bind fun _ =>
    (hcolumn 2).bind fun _ => onWindow_every trivial fun _ => ask_common trivial

theorem onSettingsChanged_common : onSettingsChanged.Every UiOp.Common :=
  onWindow_every trivial fun w => (populatePeriodCombo_common w).bind fun w =>
    (reloadList_common w).bind fun _ => trivial

theorem onRefresh_common : onRefresh.Every UiOp.Common :=
  ⟨trivial, fun _ => onWindow_every trivial fun w => (reloadList_common w).bind fun _ => trivial⟩

theorem applyOutcome_common (outcome : DialogOutcome) :
    (applyOutcome outcome).Every UiOp.Common := by
  unfold applyOutcome
  split
  · exact ⟨trivial, fun _ => ask_common trivial⟩
  · split
    · exact ask_common trivial
    · trivial

theorem onSettingsClosed_common (outcome : DialogOutcome) :
    (onSettingsClosed outcome).Every UiOp.Common := by
  refine (applyOutcome_common outcome).bind fun _ => onSettingsChanged_common.bind fun _ => ?_
  show Program.Every _ (if _ then _ else _)
  split
  · exact reads_common updateTooltipForKeyState_reads
  · exact reads_common updateTray_reads

/-- The moves of `service` that the UI thread makes on its own. -/
def RequestMove (w w' : World) : Prop :=
  w' = w ∨ w' = w.act .requestClearCache ∨ ∃ on, w' = w.act (.setNotifyOnNewUnits on)

/-- What a task does that is neither a message of the worker nor a selection. -/
theorem UiTask.begins_common {task : UiTask} (hmessage : task ≠ .handleMessage)
    (hselect : ∀ index, task ≠ .selectPeriod index) {d d' : Desk} {rest : Ui Unit}
    (h : task.begins d = some (d', rest)) :
    rest.Every UiOp.Common ∧ d'.unshown = d.unshown ∧ d'.sales = d.sales ∧
      RequestMove d.world d'.world := by
  cases task with
  | handleMessage => exact absurd rfl hmessage
  | selectPeriod index => exact absurd rfl (hselect index)
  | startUp opens hasKey =>
    obtain ⟨rfl, rfl⟩ := Prod.mk.inj (Option.some.inj h)
    exact ⟨trivial, rfl, rfl, .inl rfl⟩
  | showSales =>
    obtain ⟨rfl, rfl⟩ := Prod.mk.inj (Option.some.inj h)
    exact ⟨showAndFocus_common, rfl, rfl, .inl rfl⟩
  | refreshSales =>
    obtain ⟨w, -, hw⟩ := UiTask.onVisible_some h
    obtain ⟨rfl, rfl⟩ := Prod.mk.inj (Option.some.inj hw)
    exact ⟨onRefresh_common, rfl, rfl, .inl rfl⟩
  | closeSales =>
    obtain ⟨w, -, hw⟩ := UiTask.onVisible_some h
    obtain ⟨rfl, rfl⟩ := Prod.mk.inj (Option.some.inj hw)
    exact ⟨onClose_common, rfl, rfl, .inl rfl⟩
  | refreshNow =>
    obtain ⟨rfl, rfl⟩ := Prod.mk.inj (Option.some.inj h)
    exact ⟨ask_common trivial, rfl, rfl, .inl rfl⟩
  | openSettings =>
    obtain ⟨rfl, rfl⟩ := Prod.mk.inj (Option.some.inj h)
    exact ⟨trivial, rfl, rfl, .inl rfl⟩
  | setNotifyOnNewUnits on =>
    obtain ⟨-, rfl, rfl⟩ := UiTask.inDialog_some h
    exact ⟨trivial, rfl, rfl, .inr (.inr ⟨on, rfl⟩)⟩
  | setHideLifetime hidden =>
    obtain ⟨-, rfl, rfl⟩ := UiTask.inDialog_some h
    exact ⟨trivial, rfl, rfl, .inl rfl⟩
  | closeSettings outcome =>
    obtain ⟨-, rfl, rfl⟩ := UiTask.inDialog_some h
    exact ⟨onSettingsClosed_common outcome, rfl, rfl, .inl rfl⟩

theorem UiTask.begins_selectPeriod {index : Nat} {d d' : Desk} {rest : Ui Unit}
    (h : (UiTask.selectPeriod index).begins d = some (d', rest)) :
    ∃ w, d.window = some w ∧ index < w.combo.length ∧ rest = onSelChange ∧
      d' = { d with window := some (w.setCurSel index) } := by
  obtain ⟨w, hw, hbegun⟩ := UiTask.onVisible_some h
  split at hbegun
  · rename_i hindex
    obtain ⟨rfl, rfl⟩ := Prod.mk.inj (Option.some.inj hbegun)
    exact ⟨w, hw, hindex, rfl, rfl⟩
  · cases hbegun

/-! ### Where the notification is looked at -/

/-- No handler but that of `TOTALS_CHANGED` looks at the notification. -/
def UiOp.Plain (op : UiOp) : Prop := op ≠ .maybeShowNotification

theorem UiOp.Common.plain {op : UiOp} (h : op.Common) : op.Plain := by
  rintro rfl
  exact h

theorem common_plain {α : Type} {p : Ui α} (hp : p.Every UiOp.Common) : p.Every UiOp.Plain :=
  hp.mono fun _ h => h.plain

theorem onSelChange_plain : onSelChange.Every UiOp.Plain :=
  onWindow_every nofun fun w => ⟨nofun, fun _ =>
    (common_plain (reloadList_common w)).bind fun _ => trivial⟩

/-- What is left of a task looks at the notification once if that is still to be done, and does not
if it is not. -/
def Looks (unshown : Bool) (rest : Ui Unit) : Prop :=
  if unshown then rest.Once (· = .maybeShowNotification) else rest.Every UiOp.Plain

theorem looks_onSyncMessage (message : Message) :
    Looks (decide (message = .totalsChanged)) (onSyncMessage message) := by
  have htray := common_plain (reads_common updateTray_reads)
  have hrefresh := common_plain refresh_common
  unfold Looks onSyncMessage
  by_cases h : message = .totalsChanged
  · rw [if_pos (decide_eq_true h)]
    refine htray.once_bind fun _ => hrefresh.once_bind fun _ => ?_
    rw [if_pos h]
    exact .inl ⟨rfl, fun _ => trivial⟩
  · rw [if_neg (by simpa using h)]
    refine htray.bind fun _ => hrefresh.bind fun _ => ?_
    rw [if_neg h]
    trivial

/-- The world that `service` has: a message whose notification has not been looked at still
waits. -/
def Desk.coarse (d : Desk) : World :=
  if d.unshown then { d.world with queue := .totalsChanged :: d.world.queue } else d.world

theorem Desk.exec_plain {op : UiOp} (hop : op.Plain) (reply : UiReply) (d : Desk) :
    (d.exec op reply).2.unshown = d.unshown ∧ RequestMove d.world (d.exec op reply).2.world := by
  cases op with
  | maybeShowNotification => exact absurd rfl hop
  | storeClearRequest => exact ⟨rfl, .inr (.inl rfl)⟩
  | _ => exact ⟨rfl, .inl rfl⟩

theorem UiTask.begins_plain {task : UiTask} (htask : task ≠ .handleMessage) {d d' : Desk}
    {rest : Ui Unit} (h : task.begins d = some (d', rest)) :
    rest.Every UiOp.Plain ∧ d'.unshown = d.unshown ∧ RequestMove d.world d'.world := by
  by_cases hselect : ∃ index, task = .selectPeriod index
  · obtain ⟨index, rfl⟩ := hselect
    obtain ⟨w, -, -, rfl, rfl⟩ := UiTask.begins_selectPeriod h
    exact ⟨onSelChange_plain, rfl, .inl rfl⟩
  · obtain ⟨hcommon, hunshown, -, hworld⟩ :=
      UiTask.begins_common htask (fun index hindex => hselect ⟨index, hindex⟩) h
    exact ⟨common_plain hcommon, hunshown, hworld⟩

/-! ### The refinement -/

theorem World.exec_pushed (op : Op) (reply : Reply) (message : Message) (w : World) :
    { w with queue := message :: w.queue }.exec op reply =
      ((w.exec op reply).1,
        { (w.exec op reply).2 with queue := message :: (w.exec op reply).2.queue }) := by
  cases op <;> rfl

theorem Desk.coarse_exec (op : Op) (reply : Reply) (d : Desk) :
    (desk.exec op reply d).1 = (service.exec op reply d.coarse).1 ∧
      (desk.exec op reply d).2.coarse = (service.exec op reply d.coarse).2 := by
  unfold Desk.coarse
  cases hunshown : d.unshown with
  | false => simp [desk, service, hunshown]
  | true => simp [desk, service, hunshown, World.exec_pushed]

theorem RequestMove.pushed {w w' : World} (h : RequestMove w w') (message : Message) :
    RequestMove { w with queue := message :: w.queue }
      { w' with queue := message :: w'.queue } := by
  rcases h with rfl | rfl | ⟨on, rfl⟩
  · exact .inl rfl
  · exact .inr (.inl rfl)
  · exact .inr (.inr ⟨on, rfl⟩)

theorem RequestMove.moves {w w' : World} (h : RequestMove w w') :
    ∃ moves : List Move, w' = moves.foldl (fun w move => service.act move w) w := by
  rcases h with rfl | rfl | ⟨on, rfl⟩
  · exact ⟨[], rfl⟩
  · exact ⟨[.requestClearCache], rfl⟩
  · exact ⟨[.setNotifyOnNewUnits on], rfl⟩

theorem Desk.coarse_request {d d' : Desk} (hunshown : d'.unshown = d.unshown)
    (h : RequestMove d.world d'.world) :
    ∃ moves : List Move, d'.coarse = moves.foldl (fun w move => service.act move w) d.coarse := by
  unfold Desk.coarse
  rw [hunshown]
  cases d.unshown with
  | false => exact h.moves
  | true => exact (h.pushed .totalsChanged).moves

def Handling (s : AppState) : Prop := Looks s.state.unshown s.rest

theorem Handling.coarse_begins {d d' : Desk} {rest : Ui Unit} (hshown : d.unshown = false)
    {task : UiTask} (h : task.begins d = some (d', rest)) :
    Looks d'.unshown rest ∧ ∃ moves : List Move,
      d'.coarse = moves.foldl (fun w move => service.act move w) d.coarse := by
  by_cases htask : task = .handleMessage
  · subst htask
    obtain ⟨message, queue, hqueue, rfl, rfl⟩ := UiTask.begins_handleMessage h
    refine ⟨looks_onSyncMessage message, ?_⟩
    simp only [Desk.coarse, hshown, Bool.false_eq_true, if_false]
    by_cases hmessage : message = .totalsChanged
    · -- The message still waits, as far as `service` can tell.
      refine ⟨[], ?_⟩
      rw [if_pos (decide_eq_true hmessage), ← hmessage, ← hqueue]
      rfl
    · refine ⟨[.handleMessage], ?_⟩
      rw [if_neg (by simpa using hmessage)]
      show _ = d.world.handleMessage
      unfold World.handleMessage
      rw [hqueue]
      cases message <;> first | rfl | exact absurd rfl hmessage
  · obtain ⟨hplain, hunshown, hworld⟩ := UiTask.begins_plain htask h
    refine ⟨?_, Desk.coarse_request hunshown hworld⟩
    rw [hunshown, hshown]
    exact hplain

theorem Desk.coarse_shown {d : Desk} (hunshown : d.unshown = true) (reply : UiReply) :
    (d.exec .maybeShowNotification reply).2.coarse = service.act .handleMessage d.coarse := by
  simp only [Desk.coarse, Desk.exec, hunshown, if_true, Bool.false_eq_true, if_false]
  show _ = World.handleMessage { d.world with queue := .totalsChanged :: d.world.queue }
  simp only [World.handleMessage]
  split <;> rfl

theorem Handling.coarse_call {d : Desk} {op : UiOp} {next : op.Answer → Ui Unit}
    (h : Looks d.unshown (.call op next)) (reply : UiReply) :
    Looks (d.exec op reply).2.unshown (next (d.exec op reply).1) ∧ ∃ moves : List Move,
      (d.exec op reply).2.coarse = moves.foldl (fun w move => service.act move w) d.coarse := by
  cases hunshown : d.unshown with
  | false =>
    have hevery : (Program.call op next).Every UiOp.Plain := by
      simpa [Looks, hunshown] using h
    obtain ⟨hsame, hworld⟩ := Desk.exec_plain hevery.1 reply d
    refine ⟨?_, Desk.coarse_request hsame hworld⟩
    rw [hsame, hunshown]
    exact hevery.2 _
  | true =>
    have honce : (Program.call op next).Once (· = .maybeShowNotification) := by
      simpa [Looks, hunshown] using h
    rcases honce with ⟨rfl, hnext⟩ | ⟨hplain, hnext⟩
    · exact ⟨hnext _, [.handleMessage], Desk.coarse_shown hunshown reply⟩
    · obtain ⟨hsame, hworld⟩ := Desk.exec_plain hplain reply d
      refine ⟨?_, Desk.coarse_request hsame hworld⟩
      rw [hsame, hunshown]
      exact hnext _

theorem Handling.coarse_act {s : AppState} (hs : Handling s) (move : UiMove) :
    Handling (app.act move s) ∧ ∃ moves : List Move, (app.act move s).state.coarse =
      moves.foldl (fun w move => service.act move w) s.state.coarse := by
  refine uiThread.act_cases (motive := fun s' => Handling s' ∧ ∃ moves : List Move,
    s'.state.coarse = moves.foldl (fun w move => service.act move w) s.state.coarse)
    desk move s ⟨hs, [], rfl⟩ ?_ ?_ ?_
  · rintro ⟨gap, date, records⟩ -
    refine ⟨hs, [.serverChange gap date records], ?_⟩
    unfold Desk.coarse
    cases hunshown : s.state.unshown <;> simp [desk, service, World.act, hunshown]
  · intro task state rest _ hrest hbegins
    have hlooks : Looks s.state.unshown (.ret ()) := hrest ▸ hs
    have hshown : s.state.unshown = false := by
      cases hunshown : s.state.unshown with
      | false => rfl
      | true => simp [Looks, hunshown, Program.Once] at hlooks
    exact Handling.coarse_begins hshown hbegins
  · intro reply op next _ hrest
    exact Handling.coarse_call (hrest ▸ hs) reply

theorem Handling.coarse_of_waits {s : AppState} (hs : Handling s) (hwaits : s.Waits) :
    s.state.coarse = s.state.world := by
  obtain ⟨d, rest⟩ := s
  cases rest with
  | call op next => exact hwaits.elim
  | ret value =>
    unfold Desk.coarse
    cases hunshown : d.unshown with
    | false => rfl
    | true => simp [Handling, Looks, hunshown, Program.Once] at hs

/-- The worker beside the UI thread does what `service` does, whatever the UI thread is doing. -/
theorem app_refines : app.Refines service Handling fun s => s.state.coarse where
  exec op reply s hs := ⟨hs, Desk.coarse_exec op reply s.state⟩
  act move _ hs := hs.coarse_act move
  crash s _ := by
    refine ⟨trivial, ?_⟩
    unfold Desk.coarse
    cases s.state.unshown <;> rfl

/-- For every run of the worker beside the UI thread, with each of its calls a step, there is a run
of `service` in which a message is handled at once: the passes start, are answered and are killed
alike, and they come to the same worker in the same world, but for a message that is being
handled. -/
theorem service_of_app {d : Desk} (hd : d.unshown = false) (es : List (Event Reply UiMove)) :
    ∃ es' : List (Event Reply Move), es'.filterMap Event.own = es.filterMap Event.own ∧
      service.run runSynchronization ⟨d.world, none⟩ es' =
        (app.run runSynchronization ⟨⟨d, .ret ()⟩, none⟩ es).map (fun s => s.state.coarse) ∧
      ((app.run runSynchronization ⟨⟨d, .ret ()⟩, none⟩ es).state.Waits →
        (service.run runSynchronization ⟨d.world, none⟩ es').state =
          (app.run runSynchronization ⟨⟨d, .ret ()⟩, none⟩ es).state.state.world) := by
  have hstart : Handling ⟨d, .ret ()⟩ := by
    unfold Handling
    rw [hd]
    trivial
  have hcoarse : d.coarse = d.world := by
    unfold Desk.coarse
    rw [hd]
    rfl
  have hany : ((Rules.any : Rules Op World Reply Move).comap fun s : AppState =>
      s.state.coarse).Admitted app runSynchronization ⟨⟨d, .ret ()⟩, none⟩ es :=
    Rules.admitted_of_all (fun _ => trivial) (fun _ _ _ => trivial) (fun _ _ => trivial)
      (fun _ => trivial) _ _ _ _
  obtain ⟨hhandling, es', hown, -, hrun⟩ :=
    app_refines.run (fun _ _ => trivial) runSynchronization hstart hany
  rw [show (Config.map (fun s : AppState => s.state.coarse) ⟨⟨d, .ret ()⟩, none⟩ :
    Config Op Op.Answer World Exit) = ⟨d.world, none⟩ from congrArg (Config.mk · none) hcoarse]
    at hrun
  refine ⟨es', hown, hrun, fun hwaits => ?_⟩
  rw [hrun]
  exact hhandling.coarse_of_waits hwaits

theorem service_of_app_shown : ∃ es' : List (Event Reply Move),
    es'.filterMap Event.own = Sample.shownPass.filterMap Event.own ∧
      service.run runSynchronization ⟨Sample.desk.world, none⟩ es' =
        (app.run runSynchronization ⟨⟨Sample.desk, .ret ()⟩, none⟩ Sample.shownPass).map
          (fun s => s.state.coarse) ∧
      ((app.run runSynchronization ⟨⟨Sample.desk, .ret ()⟩, none⟩ Sample.shownPass).state.Waits →
        (service.run runSynchronization ⟨Sample.desk.world, none⟩ es').state =
          (app.run runSynchronization ⟨⟨Sample.desk, .ret ()⟩, none⟩
            Sample.shownPass).state.state.world) :=
  service_of_app rfl Sample.shownPass

end SteamSalesTray.App
