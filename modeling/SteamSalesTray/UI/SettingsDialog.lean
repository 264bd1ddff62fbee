import SteamSalesTray.Platform.StringUtil
import SteamSalesTray.Storage.SettingsStore

/-! The settings dialog: what its controls show, what `Save` writes, and what is read back after a
session of edits and presses. -/

namespace SteamSalesTray.UI

open Platform Storage

structure Preferences where
  interval : RefreshInterval
  notify : Bool
  startup : Bool
  hideLifetime : Bool
deriving DecidableEq, Repr

structure Registry where
  settings : SettingsStore
  run : Option RegValue
deriving DecidableEq, Repr

/-- What the program reads back from the registry. -/
def Registry.preferences (exe : Wide) (r : Registry) : Preferences where
  interval := r.settings.getRefreshInterval
  notify := r.settings.getNotifyOnNewUnits
  startup := StartupManager.isEnabled exe r.run
  hideLifetime := r.settings.getHideLifetime

def kIntervals : List RefreshInterval := [.min15, .min30, .min60, .hours2, .hours6, .manual]

/-- `none` is a combo box without a selection. -/
structure Controls where
  intervalSelection : Option (Fin kIntervals.length)
  notify : Bool
  startup : Bool
  hideLifetime : Bool
  apiKey : Wide
deriving DecidableEq, Repr

def populateIntervalCombo (current : RefreshInterval) : Fin kIntervals.length :=
  (List.finRange kIntervals.length).foldl
    (fun selectIndex i => if kIntervals.get i = current then i else selectIndex) ⟨0, by decide⟩

def selectedInterval (c : Controls) : RefreshInterval :=
  match c.intervalSelection with
  | none => .min30
  | some i => kIntervals.get i

def Controls.shown (c : Controls) : Preferences where
  interval := selectedInterval c
  notify := c.notify
  startup := c.startup
  hideLifetime := c.hideLifetime

structure SettingsOutcome where
  saved : Bool
  keyChanged : Bool
  preferencesChanged : Bool
  displayChanged : Bool
deriving DecidableEq, Repr

structure Dialog where
  initial : Preferences
  outcome : SettingsOutcome
  controls : Controls
  registry : Registry
deriving DecidableEq, Repr

def onInitDialog (exe : Wide) (registry : Registry) : Dialog where
  initial := registry.preferences exe
  outcome := ⟨false, false, false, false⟩
  controls :=
    let initial := registry.preferences exe
    ⟨some (populateIntervalCombo initial.interval), initial.notify, initial.startup,
      initial.hideLifetime, []⟩
  registry := registry

/-! ### Saving -/

structure KeyTestResult where
  ok : Bool
  couldTest : Bool
  message : Wide

/-- The validator, if there is one, and whether a key that is not empty can be stored. -/
structure KeyServices where
  validator : Option (Bytes → KeyTestResult)
  stores : Bytes → Bool

def trimWhitespace (s : Wide) : Wide :=
  let ws : UInt16 → Bool := fun c => c ∈ [32, 9, 13, 10, 12, 11]
  (s.dropWhile ws).rdropWhile ws

/-- A preference is written where it differs from the one that the dialog opened with. -/
def Dialog.writeIf (d : Dialog) (changed : Prop) [Decidable changed] (registry : Registry)
    (outcome : SettingsOutcome) : Dialog :=
  if changed then { d with registry := registry, outcome := outcome } else d

def saveInterval (d : Dialog) : Dialog :=
  let interval := selectedInterval d.controls
  d.writeIf (interval ≠ d.initial.interval)
    { d.registry with settings := d.registry.settings.setRefreshInterval interval }
    { d.outcome with preferencesChanged := true }

def saveNotify (d : Dialog) : Dialog :=
  d.writeIf (d.controls.notify ≠ d.initial.notify)
    { d.registry with settings := d.registry.settings.setNotifyOnNewUnits d.controls.notify }
    { d.outcome with preferencesChanged := true }

def saveStartup (exe : Wide) (d : Dialog) : Dialog :=
  d.writeIf (d.controls.startup ≠ d.initial.startup)
    { d.registry with
      run :=
        if d.controls.startup then (StartupManager.enable exe d.registry.run).2
        else (StartupManager.disable d.registry.run).2 }
    { d.outcome with preferencesChanged := true }

def saveHideLifetime (d : Dialog) : Dialog :=
  d.writeIf (d.controls.hideLifetime ≠ d.initial.hideLifetime)
    { d.registry with settings := d.registry.settings.setHideLifetime d.controls.hideLifetime }
    { d.outcome with displayChanged := true }

/-- The first part of `OnSave`. -/
def savePreferences (exe : Wide) (d : Dialog) : Dialog :=
  saveHideLifetime (saveStartup exe (saveNotify (saveInterval d)))

/-- The second part: a key that was entered is tested and stored. -/
def saveKey (services : KeyServices) (d : Dialog) : Bool × Dialog :=
  let trimmed := trimWhitespace d.controls.apiKey
  if trimmed.isEmpty then (true, { d with outcome.saved := true })
  else
    let keyUtf8 := wideToUtf8 trimmed
    let rejected := services.validator.any fun validator =>
      (validator keyUtf8).couldTest && !(validator keyUtf8).ok
    if rejected then (false, d)
    else if keyUtf8.isEmpty || !services.stores keyUtf8 then (false, d)
    else (true, { d with outcome.keyChanged := true, outcome.saved := true })

/-- Whether the dialog is to close, and the dialog after the press. -/
def onSave (exe : Wide) (services : KeyServices) (d : Dialog) : Bool × Dialog :=
  saveKey services (savePreferences exe d)

/-! ### What one press writes -/

/-- The preferences after a press: what is shown where it differs from the initial preference, and
elsewhere what is stored. -/
def Preferences.saved (initial shown stored : Preferences) : Preferences where
  interval := if shown.interval ≠ initial.interval then shown.interval else stored.interval
  notify := if shown.notify ≠ initial.notify then shown.notify else stored.notify
  startup := if shown.startup ≠ initial.startup then shown.startup else stored.startup
  hideLifetime :=
    if shown.hideLifetime ≠ initial.hideLifetime then shown.hideLifetime else stored.hideLifetime

@[simp] theorem selectedInterval_populate (current : RefreshInterval) (notify startup hide : Bool)
    (apiKey : Wide) :
    selectedInterval ⟨some (populateIntervalCombo current), notify, startup, hide, apiKey⟩ =
      current := by
  cases current <;> rfl

/-- The controls of a dialog that has just opened show the stored preferences. -/
theorem onInitDialog_shown (exe : Wide) (registry : Registry) :
    (onInitDialog exe registry).controls.shown = registry.preferences exe := by
  simp [onInitDialog, Controls.shown]

@[simp] theorem writeIf_controls (d : Dialog) (changed : Prop) [Decidable changed]
    (registry : Registry) (outcome : SettingsOutcome) :
    (d.writeIf changed registry outcome).controls = d.controls := by
  unfold Dialog.writeIf
  split <;> rfl

@[simp] theorem writeIf_initial (d : Dialog) (changed : Prop) [Decidable changed]
    (registry : Registry) (outcome : SettingsOutcome) :
    (d.writeIf changed registry outcome).initial = d.initial := by
  unfold Dialog.writeIf
  split <;> rfl

theorem writeIf_preferences (exe : Wide) (d : Dialog) (changed : Prop) [Decidable changed]
    (registry : Registry) (outcome : SettingsOutcome) :
    (d.writeIf changed registry outcome).registry.preferences exe =
      if changed then registry.preferences exe else d.registry.preferences exe := by
  unfold Dialog.writeIf
  split <;> rfl

theorem savePreferences_keeps (exe : Wide) (d : Dialog) :
    (savePreferences exe d).controls = d.controls ∧
      (savePreferences exe d).initial = d.initial := by
  simp [savePreferences, saveHideLifetime, saveStartup, saveNotify, saveInterval]

theorem saveInterval_preferences (exe : Wide) (d : Dialog) :
    (saveInterval d).registry.preferences exe =
      { d.registry.preferences exe with
        interval :=
          if selectedInterval d.controls ≠ d.initial.interval then selectedInterval d.controls
          else (d.registry.preferences exe).interval } := by
  rw [saveInterval, writeIf_preferences]
  split
  · simp only [Registry.preferences, SettingsStore.getRefreshInterval_set]
    rfl
  · rfl

theorem saveNotify_preferences (exe : Wide) (d : Dialog) :
    (saveNotify d).registry.preferences exe =
      { d.registry.preferences exe with
        notify :=
          if d.controls.notify ≠ d.initial.notify then d.controls.notify
          else (d.registry.preferences exe).notify } := by
  rw [saveNotify, writeIf_preferences]
  split
  · simp only [Registry.preferences, SettingsStore.getNotifyOnNewUnits_set]
    rfl
  · rfl

theorem saveHideLifetime_preferences (exe : Wide) (d : Dialog) :
    (saveHideLifetime d).registry.preferences exe =
      { d.registry.preferences exe with
        hideLifetime :=
          if d.controls.hideLifetime ≠ d.initial.hideLifetime then d.controls.hideLifetime
          else (d.registry.preferences exe).hideLifetime } := by
  rw [saveHideLifetime, writeIf_preferences]
  split
  · simp only [Registry.preferences, SettingsStore.getHideLifetime_set]
    rfl
  · rfl

theorem saveStartup_preferences {exe : Wide} (hexe : exe ≠ []) (d : Dialog) :
    (saveStartup exe d).registry.preferences exe =
      { d.registry.preferences exe with
        startup :=
          if d.controls.startup ≠ d.initial.startup then d.controls.startup
          else (d.registry.preferences exe).startup } := by
  have hwritten : ∀ (shown : Bool) (run : Option RegValue), StartupManager.isEnabled exe
      (if shown then (StartupManager.enable exe run).2 else (StartupManager.disable run).2) =
        shown := by
    intro shown run
    cases shown with
    | true => exact StartupManager.isEnabled_enable hexe run
    | false => rfl
  rw [saveStartup, writeIf_preferences]
  split
  · simp only [Registry.preferences, hwritten]
  · rfl

theorem savePreferences_preferences {exe : Wide} (hexe : exe ≠ []) (d : Dialog) :
    (savePreferences exe d).registry.preferences exe =
      Preferences.saved d.initial d.controls.shown (d.registry.preferences exe) := by
  rw [savePreferences, saveHideLifetime_preferences, saveStartup_preferences hexe,
    saveNotify_preferences, saveInterval_preferences]
  simp only [saveStartup, saveNotify, saveInterval, writeIf_controls, writeIf_initial]
  rfl

theorem saveKey_keeps (services : KeyServices) (d : Dialog) :
    (saveKey services d).2.registry = d.registry ∧ (saveKey services d).2.controls = d.controls ∧
      (saveKey services d).2.initial = d.initial := by
  unfold saveKey
  dsimp only
  split
  · exact ⟨rfl, rfl, rfl⟩
  · split
    · exact ⟨rfl, rfl, rfl⟩
    · split <;> exact ⟨rfl, rfl, rfl⟩

theorem onSave_keeps {exe : Wide} (hexe : exe ≠ []) (services : KeyServices) (d : Dialog) :
    (onSave exe services d).2.registry.preferences exe =
        Preferences.saved d.initial d.controls.shown (d.registry.preferences exe) ∧
      (onSave exe services d).2.initial = d.initial := by
  obtain ⟨hregistry, -, hinitial⟩ := saveKey_keeps services (savePreferences exe d)
  refine ⟨?_, hinitial.trans (savePreferences_keeps exe d).2⟩
  rw [← savePreferences_preferences hexe]
  exact congrArg (Registry.preferences exe) hregistry

/-! ### Sessions -/

inductive DialogStep where
  | selectInterval (selection : Option (Fin kIntervals.length))
  | checkNotify (checked : Bool)
  | checkStartup (checked : Bool)
  | checkHideLifetime (checked : Bool)
  | enterKey (text : Wide)
  | save (services : KeyServices)
  | cancel

/-- The dialog, whether it is open, and what was shown at the presses of `Save`, the last first. -/
structure Session where
  dialog : Dialog
  isOpen : Bool
  presses : List Preferences

def Session.open (exe : Wide) (registry : Registry) : Session :=
  ⟨onInitDialog exe registry, true, []⟩

def Session.edit (s : Session) (controls : Controls) : Session :=
  { s with dialog := { s.dialog with controls := controls } }

/-- A dialog that is closed receives nothing. -/
def Session.step (exe : Wide) (s : Session) (step : DialogStep) : Session :=
  let controls := s.dialog.controls
  if s.isOpen then
    match step with
    | .selectInterval selection => s.edit { controls with intervalSelection := selection }
    | .checkNotify checked => s.edit { controls with notify := checked }
    | .checkStartup checked => s.edit { controls with startup := checked }
    | .checkHideLifetime checked => s.edit { controls with hideLifetime := checked }
    | .enterKey text => s.edit { controls with apiKey := text }
    | .save services =>
      let r := onSave exe services s.dialog
      ⟨r.2, !r.1, controls.shown :: s.presses⟩
    | .cancel => { s with isOpen := false }
  else s

def Session.run (exe : Wide) (steps : List DialogStep) (s : Session) : Session :=
  steps.foldl (Session.step exe) s

/-- What presses of `Save` leave in the registry, the last press first. -/
def stored (initial : Preferences) : List Preferences → Preferences
  | [] => initial
  | shown :: earlier => Preferences.saved initial shown (stored initial earlier)

/-- What is stored is what the presses so far make of the initial preferences. -/
def Session.Stores (exe : Wide) (s : Session) : Prop :=
  s.dialog.registry.preferences exe = stored s.dialog.initial s.presses

theorem Session.Stores.step {exe : Wide} (hexe : exe ≠ []) {s : Session} (h : s.Stores exe)
    (step : DialogStep) : (s.step exe step).Stores exe := by
  unfold Session.step
  split
  · cases step with
    | save services =>
      obtain ⟨hpreferences, hinitial⟩ := onSave_keeps hexe services s.dialog
      show (onSave exe services s.dialog).2.registry.preferences exe = stored _ _
      rw [hpreferences, hinitial, h]
      rfl
    | _ => exact h
  · exact h

theorem Session.Stores.run {exe : Wide} (hexe : exe ≠ []) {s : Session} (h : s.Stores exe)
    (steps : List DialogStep) : (s.run exe steps).Stores exe := by
  induction steps generalizing s with
  | nil => exact h
  | cons step rest ih => exact ih (h.step hexe step)

/-- Some preference that is shown as it was when the dialog opened was shown otherwise at a press
before. -/
def Reverted (initial shown : Preferences) (earlier : List Preferences) : Prop :=
  ∃ p ∈ earlier,
    (shown.interval = initial.interval ∧ p.interval ≠ initial.interval) ∨
    (shown.notify = initial.notify ∧ p.notify ≠ initial.notify) ∨
    (shown.startup = initial.startup ∧ p.startup ≠ initial.startup) ∨
    (shown.hideLifetime = initial.hideLifetime ∧ p.hideLifetime ≠ initial.hideLifetime)

section Field

variable {β : Type} [DecidableEq β] {x : Preferences → β}

/-- `x` reads one of the preferences. -/
def IsField (x : Preferences → β) : Prop :=
  ∀ initial shown before, x (.saved initial shown before) =
    if x shown ≠ x initial then x shown else x before

theorem stored_eq_initial_iff (hx : IsField x) (initial : Preferences)
    (presses : List Preferences) :
    x (stored initial presses) = x initial ↔ ∀ p ∈ presses, x p = x initial := by
  induction presses with
  | nil => simp [stored]
  | cons shown earlier ih =>
    rw [stored, hx, List.forall_mem_cons, ← ih]
    split
    · rename_i hne
      simp [hne]
    · rename_i heq
      simp [not_not.mp heq]

/-- One preference is stored as it is shown exactly if it was not changed and then changed back. -/
theorem saved_eq_shown_iff (hx : IsField x) (initial shown : Preferences)
    (earlier : List Preferences) :
    x (.saved initial shown (stored initial earlier)) = x shown ↔
      ¬∃ p ∈ earlier, x shown = x initial ∧ x p ≠ x initial := by
  rw [hx]
  split
  · rename_i hne
    simp [hne]
  · rename_i heq
    rw [not_not.mp heq, stored_eq_initial_iff hx]
    simp

end Field

theorem saved_iff_not_reverted (initial shown : Preferences) (earlier : List Preferences) :
    Preferences.saved initial shown (stored initial earlier) = shown ↔
      ¬Reverted initial shown earlier := by
  have hfields : ∀ p q : Preferences, p = q ↔ p.interval = q.interval ∧ p.notify = q.notify ∧
      p.startup = q.startup ∧ p.hideLifetime = q.hideLifetime := by
    rintro ⟨⟩ ⟨⟩
    simp
  have hinterval : IsField Preferences.interval := fun _ _ _ => rfl
  have hnotify : IsField Preferences.notify := fun _ _ _ => rfl
  have hstartup : IsField Preferences.startup := fun _ _ _ => rfl
  have hhideLifetime : IsField Preferences.hideLifetime := fun _ _ _ => rfl
  rw [hfields, saved_eq_shown_iff hinterval, saved_eq_shown_iff hnotify,
    saved_eq_shown_iff hstartup, saved_eq_shown_iff hhideLifetime]
  simp only [Reverted, and_or_left, exists_or, not_or]

/-- In every session, at a press of `Save` that closes the dialog, the preferences that are read
back are those that are shown exactly if none was changed at an earlier press and has been changed
back since. -/
theorem saved_as_shown_iff {exe : Wide} (hexe : exe ≠ []) (registry : Registry)
    (steps : List DialogStep) (services : KeyServices) :
    let s := (Session.open exe registry).run exe steps
    let r := onSave exe services s.dialog
    s.isOpen = true → r.1 = true →
      (r.2.registry.preferences exe = s.dialog.controls.shown ↔
        ¬Reverted s.dialog.initial s.dialog.controls.shown s.presses) := by
  intro s r _ _
  have hstores : s.Stores exe := Session.Stores.run (s := .open exe registry) hexe rfl steps
  rw [(onSave_keeps hexe services s.dialog).1, hstores]
  exact saved_iff_not_reverted _ _ _

/-- Every key that is entered is rejected. -/
def rejecting : KeyServices :=
  ⟨some fun _ => ⟨false, true, wide "Steam rejected the API key."⟩, fun _ => true⟩

/-- The hour is chosen and a key entered; after the press that rejects it, the key is deleted. -/
def rejectedPress : List DialogStep :=
  [.selectInterval (some ⟨2, by decide⟩), .enterKey (wide "KEY"), .save rejecting, .enterKey []]

theorem saved_as_shown_iff_rejected :
    let s := (Session.open (wide "app.exe") ⟨⟨none, none, none⟩, none⟩).run (wide "app.exe")
      rejectedPress
    (onSave (wide "app.exe") rejecting s.dialog).2.registry.preferences (wide "app.exe") =
      s.dialog.controls.shown := by
  intro s
  have h := saved_as_shown_iff (show wide "app.exe" ≠ [] by decide)
    ⟨⟨none, none, none⟩, none⟩ rejectedPress rejecting (by decide +kernel) (by decide +kernel)
  refine h.mpr ?_
  unfold Reverted
  decide +kernel

/-- The interval that was chosen before the key was rejected stays stored when the one that the
dialog opened with is chosen again. -/
theorem reverted_not_saved :
    let s := (Session.open (wide "app.exe") ⟨⟨none, none, none⟩, none⟩).run (wide "app.exe")
      (rejectedPress ++ [.selectInterval (some ⟨1, by decide⟩)])
    let r := onSave (wide "app.exe") rejecting s.dialog
    s.isOpen = true ∧ r.1 = true ∧ s.dialog.controls.shown.interval = .min30 ∧
      (r.2.registry.preferences (wide "app.exe")).interval = .min60 := by
  decide +kernel

end SteamSalesTray.UI
