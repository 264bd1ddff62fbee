import SteamSalesTray.Security.DpapiSecretStore
import SteamSalesTray.UI.SettingsDialog

/-! A whole session of the settings dialog, with its buttons for the stored key and for the cache,
and what the dialog reports about it when it is closed. -/

namespace SteamSalesTray.UI

open Platform Storage Security

/-- What `ShowSettingsDialog` returns. -/
structure DialogOutcome extends SettingsOutcome where
  cacheCleared : Bool
deriving DecidableEq, Repr

/-- What a press of `Save` meets: the validator, and the key file that `Store` writes for a key, if
it succeeds. -/
structure KeyReply where
  validator : Option (Bytes → KeyTestResult)
  store : Bytes → Option Bytes

def KeyReply.services (r : KeyReply) : KeyServices :=
  ⟨r.validator, fun keyUtf8 => (r.store keyUtf8).isSome⟩

/-- What has been done in the dialog. -/
inductive SettingsEvent where
  | pressed (shown : Preferences)
  | keyStored (file : Bytes)
  | keyRemoved
  | cacheCleared
deriving DecidableEq, Repr

/-- The dialog with its line for results, the key file, and what has been done, the latest first. -/
structure SettingsSession where
  dialog : Dialog
  testResult : Wide
  cacheCleared : Bool
  keyFile : Option Bytes
  isOpen : Bool
  log : List SettingsEvent
deriving DecidableEq

/-- What the user does.  A press of `Remove` or `Clear` asks for confirmation; `deletes` says
whether the key file can be deleted. -/
inductive SettingsStep where
  | edit (controls : Controls)
  | test (validator : Option (Bytes → KeyTestResult))
  | save (reply : KeyReply)
  | clearCache (confirmed : Bool)
  | removeKey (confirmed deletes : Bool)
  | cancel

namespace SettingsSession

variable (exe : Wide) (keyStore : DpapiSecretStore)

def start (registry : Registry) (keyFile : Option Bytes) : SettingsSession :=
  ⟨onInitDialog exe registry, [], false, keyFile, true, []⟩

/-- The key that is entered is tested, and neither it nor a preference is saved. -/
def onTestConnection (validator : Option (Bytes → KeyTestResult)) (s : SettingsSession) :
    SettingsSession :=
  let text := trimWhitespace s.dialog.controls.apiKey
  { s with
    testResult :=
      if text.isEmpty then wide "Enter a key above to test it."
      else
        match validator with
        | none => wide "Live testing is not available in this build."
        | some validator => (validator (wideToUtf8 text)).message }

/-- The line for results after a press of `Save`, which has that of a key that was rejected. -/
def saveResult (reply : KeyReply) (s : SettingsSession) : Wide :=
  let trimmed := trimWhitespace s.dialog.controls.apiKey
  match reply.validator with
  | some validator =>
    let result := validator (wideToUtf8 trimmed)
    if trimmed.isEmpty = false ∧ result.couldTest = true ∧ result.ok = false then result.message
    else s.testResult
  | none => s.testResult

/-- The key file that a press writes, if it writes one. -/
def fileWritten (reply : KeyReply) (d : Dialog) : Option Bytes :=
  let trimmed := trimWhitespace d.controls.apiKey
  if (onSave exe reply.services d).1 = true ∧ trimmed.isEmpty = false then
    reply.store (wideToUtf8 trimmed)
  else none

def pressSave (reply : KeyReply) (s : SettingsSession) : SettingsSession :=
  let result := onSave exe reply.services s.dialog
  let file := fileWritten exe reply s.dialog
  { s with
    dialog := result.2
    testResult := s.saveResult reply
    keyFile := file.or s.keyFile
    isOpen := !result.1
    log := (file.map .keyStored).toList ++ .pressed s.dialog.controls.shown :: s.log }

def onClearCache (confirmed : Bool) (s : SettingsSession) : SettingsSession :=
  if confirmed then
    { s with
      testResult := wide "Local sales cache will be cleared and re-synced."
      cacheCleared := true
      log := .cacheCleared :: s.log }
  else s

def onRemoveKey (confirmed deletes : Bool) (s : SettingsSession) : SettingsSession :=
  if ¬keyStore.hasStoredKey s.keyFile then
    { s with testResult := wide "No stored key to remove." }
  else if ¬confirmed then s
  else if deletes then
    { s with
      dialog.outcome.keyChanged := true
      testResult := wide "Stored API key removed."
      keyFile := none
      log := .keyRemoved :: s.log }
  else { s with testResult := wide "Could not remove the stored key." }

/-- A dialog that is closed receives nothing. -/
def step (s : SettingsSession) (step : SettingsStep) : SettingsSession :=
  if s.isOpen then
    match step with
    | .edit controls => { s with dialog.controls := controls }
    | .test validator => s.onTestConnection validator
    | .save reply => s.pressSave exe reply
    | .clearCache confirmed => s.onClearCache confirmed
    | .removeKey confirmed deletes => s.onRemoveKey keyStore confirmed deletes
    | .cancel => { s with isOpen := false }
  else s

def run (steps : List SettingsStep) (s : SettingsSession) : SettingsSession :=
  steps.foldl (step exe keyStore) s

def outcome (s : SettingsSession) : DialogOutcome := ⟨s.dialog.outcome, s.cacheCleared⟩

end SettingsSession

/-! ### What a press reports -/

/-- The press wrote an interval, a choice of notifications or one of starting at sign-in. -/
def Preferences.WritesSync (initial shown : Preferences) : Prop :=
  shown.interval ≠ initial.interval ∨ shown.notify ≠ initial.notify ∨
    shown.startup ≠ initial.startup

instance (initial shown : Preferences) : Decidable (initial.WritesSync shown) :=
  inferInstanceAs (Decidable (_ ∨ _ ∨ _))

theorem writeIf_outcome (d : Dialog) (changed : Prop) [Decidable changed] (registry : Registry)
    (outcome : SettingsOutcome) :
    (d.writeIf changed registry outcome).outcome = if changed then outcome else d.outcome := by
  unfold Dialog.writeIf
  split <;> rfl

theorem savePreferences_outcome (exe : Wide) (d : Dialog) :
    (savePreferences exe d).outcome =
      { d.outcome with
        preferencesChanged :=
          d.outcome.preferencesChanged || decide (d.initial.WritesSync d.controls.shown)
        displayChanged :=
          d.outcome.displayChanged ||
            decide (d.controls.shown.hideLifetime ≠ d.initial.hideLifetime) } := by
  simp only [savePreferences, saveHideLifetime, saveStartup, saveNotify, saveInterval,
    writeIf_outcome, writeIf_controls, writeIf_initial, Preferences.WritesSync, Controls.shown]
  by_cases hinterval : selectedInterval d.controls = d.initial.interval <;>
    by_cases hnotify : d.controls.notify = d.initial.notify <;>
    by_cases hstartup : d.controls.startup = d.initial.startup <;>
    by_cases hhide : d.controls.hideLifetime = d.initial.hideLifetime <;>
    simp [hinterval, hnotify, hstartup, hhide]

/-- A key that is entered is stored or the dialog stays open; without one it is closed. -/
theorem saveKey_cases (services : KeyServices) (d : Dialog) :
    (saveKey services d = (true, { d with outcome.saved := true }) ∧
      (trimWhitespace d.controls.apiKey).isEmpty = true) ∨
    saveKey services d = (false, d) ∨
    (saveKey services d =
        (true, { d with outcome.keyChanged := true, outcome.saved := true }) ∧
      (trimWhitespace d.controls.apiKey).isEmpty = false ∧
      services.stores (wideToUtf8 (trimWhitespace d.controls.apiKey)) = true) := by
  unfold saveKey
  dsimp only
  cases hempty : (trimWhitespace d.controls.apiKey).isEmpty with
  | true => exact .inl ⟨rfl, rfl⟩
  | false =>
    refine .inr ?_
    rw [if_neg Bool.false_ne_true]
    split
    · exact .inl rfl
    · split
      · exact .inl rfl
      · rename_i hstores
        refine .inr ⟨rfl, rfl, ?_⟩
        simp only [Bool.or_eq_true, not_or, Bool.not_eq_true, Bool.not_eq_false'] at hstores
        exact hstores.2

/-- A press keeps the dialog open and the key file as it is, closes the dialog with no key entered,
or closes it with a key file written. -/
theorem onSave_cases (exe : Wide) (reply : KeyReply) (d : Dialog) :
    (SettingsSession.fileWritten exe reply d = none ∧
      ((onSave exe reply.services d).2.outcome.keyChanged = d.outcome.keyChanged)) ∨
    ∃ file, SettingsSession.fileWritten exe reply d = some file ∧
      (onSave exe reply.services d).2.outcome.keyChanged = true := by
  have hkept : (savePreferences exe d).controls = d.controls := (savePreferences_keeps exe d).1
  have hkey : (savePreferences exe d).outcome.keyChanged = d.outcome.keyChanged := by
    rw [savePreferences_outcome]
  unfold SettingsSession.fileWritten onSave
  dsimp only
  have hcases := saveKey_cases reply.services (savePreferences exe d)
  rw [hkept] at hcases
  rcases hcases with ⟨hsave, hempty⟩ | hsave | ⟨hsave, hentered, hstores⟩
  · refine .inl ⟨if_neg (by simp [hempty]), ?_⟩
    rw [hsave]
    exact hkey
  · refine .inl ⟨if_neg (by simp [hsave]), ?_⟩
    rw [hsave]
    exact hkey
  · obtain ⟨file, hfile⟩ := Option.isSome_iff_exists.mp hstores
    refine .inr ⟨file, ?_, ?_⟩
    · rw [if_pos ⟨by rw [hsave], hentered⟩]
      exact hfile
    · rw [hsave]

theorem onSave_outcome (exe : Wide) (services : KeyServices) (d : Dialog) :
    (onSave exe services d).2.outcome.preferencesChanged =
        (d.outcome.preferencesChanged || decide (d.initial.WritesSync d.controls.shown)) ∧
      (onSave exe services d).2.outcome.displayChanged =
        (d.outcome.displayChanged ||
          decide (d.controls.shown.hideLifetime ≠ d.initial.hideLifetime)) := by
  have hpreferences := savePreferences_outcome exe d
  unfold onSave
  rcases saveKey_cases services (savePreferences exe d) with ⟨hsave, -⟩ | hsave | ⟨hsave, -⟩ <;>
    rw [hsave] <;> simp [hpreferences]

/-! ### The report of a session -/

namespace SettingsEvent

def ChangesKey : SettingsEvent → Prop
  | .keyStored _ | .keyRemoved => True
  | .pressed _ | .cacheCleared => False

instance (e : SettingsEvent) : Decidable e.ChangesKey :=
  match e with
  | .keyStored _ | .keyRemoved => .isTrue trivial
  | .pressed _ | .cacheCleared => .isFalse id

end SettingsEvent

/-- The presses of a log, the last one first. -/
def presses (log : List SettingsEvent) : List Preferences :=
  log.filterMap fun e =>
    match e with
    | .pressed shown => some shown
    | _ => none

theorem mem_presses {log : List SettingsEvent} {shown : Preferences} :
    shown ∈ presses log ↔ .pressed shown ∈ log := by
  unfold presses
  rw [List.mem_filterMap]
  constructor
  · rintro ⟨e, he, hshown⟩
    cases e with
    | pressed shown' =>
      obtain rfl := Option.some.inj hshown
      exact he
    | _ => cases hshown
  · exact fun h => ⟨_, h, rfl⟩

/-- The key file after what a log says. -/
def lastKeyFile (keyFile : Option Bytes) : List SettingsEvent → Option Bytes
  | [] => keyFile
  | .keyStored file :: _ => some file
  | .keyRemoved :: _ => none
  | _ :: past => lastKeyFile keyFile past

theorem lastKeyFile_of_none {keyFile : Option Bytes} {log : List SettingsEvent}
    (h : ∀ e ∈ log, ¬e.ChangesKey) : lastKeyFile keyFile log = keyFile := by
  induction log with
  | nil => rfl
  | cons e past ih =>
    obtain ⟨he, hpast⟩ := List.forall_mem_cons.mp h
    cases e with
    | keyStored file => exact absurd trivial he
    | keyRemoved => exact absurd trivial he
    | pressed shown => exact ih hpast
    | cacheCleared => exact ih hpast

/-- What is stored, and what the outcome says, is what has been done in the dialog. -/
structure Reported (exe : Wide) (registry : Registry) (keyFile : Option Bytes)
    (s : SettingsSession) : Prop where
  initial : s.dialog.initial = registry.preferences exe
  keyFile : s.keyFile = lastKeyFile keyFile s.log
  preferences : s.dialog.registry.preferences exe = stored s.dialog.initial (presses s.log)
  keyChanged : s.outcome.keyChanged = true ↔ ∃ e ∈ s.log, e.ChangesKey
  preferencesChanged : s.outcome.preferencesChanged = true ↔
    ∃ shown, .pressed shown ∈ s.log ∧ s.dialog.initial.WritesSync shown
  displayChanged : s.outcome.displayChanged = true ↔
    ∃ shown, .pressed shown ∈ s.log ∧ shown.hideLifetime ≠ s.dialog.initial.hideLifetime
  cacheCleared : s.outcome.cacheCleared = true ↔ .cacheCleared ∈ s.log

namespace Reported

variable {exe : Wide} {keyStore : DpapiSecretStore} {registry : Registry}
  {keyFile : Option Bytes} {s : SettingsSession}

theorem start : Reported exe registry keyFile (.start exe registry keyFile) where
  initial := rfl
  keyFile := rfl
  preferences := rfl
  keyChanged := by simp [SettingsSession.start, SettingsSession.outcome, onInitDialog]
  preferencesChanged := by simp [SettingsSession.start, SettingsSession.outcome, onInitDialog]
  displayChanged := by simp [SettingsSession.start, SettingsSession.outcome, onInitDialog]
  cacheCleared := by simp [SettingsSession.start, SettingsSession.outcome]

theorem pressed_iff {log : List SettingsEvent} {file : Option Bytes} {shown : Preferences}
    {P : Preferences → Prop} :
    (∃ p, .pressed p ∈ (file.map SettingsEvent.keyStored).toList ++ .pressed shown :: log ∧ P p) ↔
      (∃ p, .pressed p ∈ log ∧ P p) ∨ P shown := by
  have hmem : ∀ p, .pressed p ∈ (file.map SettingsEvent.keyStored).toList ++
      .pressed shown :: log ↔ p = shown ∨ .pressed p ∈ log := by
    intro p
    cases file <;> simp
  simp only [hmem, or_and_right, exists_or, exists_eq_left]
  exact or_comm

theorem pressSave (hexe : exe ≠ []) (h : Reported exe registry keyFile s) (reply : KeyReply) :
    Reported exe registry keyFile (s.pressSave exe reply) := by
  obtain ⟨hpreferences, hinitial⟩ := onSave_keeps hexe reply.services s.dialog
  obtain ⟨hsync, hdisplay⟩ := onSave_outcome exe reply.services s.dialog
  have hsyncIff := h.preferencesChanged
  have hdisplayIff := h.displayChanged
  simp only [SettingsSession.outcome] at hsyncIff hdisplayIff
  refine ⟨hinitial.trans h.initial, ?_, ?_, ?_, ?_, ?_, ?_⟩
  · show (SettingsSession.fileWritten exe reply s.dialog).or s.keyFile = _
    rw [h.keyFile]
    simp only [SettingsSession.pressSave]
    cases SettingsSession.fileWritten exe reply s.dialog <;> rfl
  · show (onSave exe reply.services s.dialog).2.registry.preferences exe = _
    rw [hpreferences, h.preferences]
    have hpresses : presses (s.pressSave exe reply).log =
        s.dialog.controls.shown :: presses s.log := by
      simp only [SettingsSession.pressSave]
      cases SettingsSession.fileWritten exe reply s.dialog <;> rfl
    rw [hpresses]
    show _ = stored (onSave exe reply.services s.dialog).2.initial _
    rw [hinitial]
    rfl
  · show (onSave exe reply.services s.dialog).2.outcome.keyChanged = true ↔ _
    have hbefore := h.keyChanged
    simp only [SettingsSession.outcome] at hbefore
    simp only [SettingsSession.pressSave]
    rcases onSave_cases exe reply s.dialog with ⟨hnone, hsame⟩ | ⟨file, hsome, hchanged⟩
    · rw [hnone, hsame, hbefore]
      simp [SettingsEvent.ChangesKey]
    · rw [hsome, hchanged]
      simp [SettingsEvent.ChangesKey]
  · show (onSave exe reply.services s.dialog).2.outcome.preferencesChanged = true ↔ _
    simp only [SettingsSession.pressSave]
    rw [hsync, hinitial, pressed_iff, ← hsyncIff]
    simp
  · show (onSave exe reply.services s.dialog).2.outcome.displayChanged = true ↔ _
    simp only [SettingsSession.pressSave]
    rw [hdisplay, hinitial,
      pressed_iff (P := fun p => p.hideLifetime ≠ s.dialog.initial.hideLifetime), ← hdisplayIff]
    simp
  · show s.outcome.cacheCleared = true ↔ _
    rw [h.cacheCleared]
    simp only [SettingsSession.pressSave]
    cases SettingsSession.fileWritten exe reply s.dialog <;> simp

theorem clearCache (h : Reported exe registry keyFile s) (confirmed : Bool) :
    Reported exe registry keyFile (s.onClearCache confirmed) := by
  cases confirmed with
  | false => exact h
  | true =>
    refine ⟨h.initial, h.keyFile, h.preferences, ?_, ?_, ?_, ?_⟩
    · exact h.keyChanged.trans (by simp [SettingsSession.onClearCache, SettingsEvent.ChangesKey])
    · exact h.preferencesChanged.trans (by simp [SettingsSession.onClearCache])
    · exact h.displayChanged.trans (by simp [SettingsSession.onClearCache])
    · simp [SettingsSession.onClearCache, SettingsSession.outcome]

/-- The line for results says nothing of what is stored. -/
theorem labelled (h : Reported exe registry keyFile s) (text : Wide) :
    Reported exe registry keyFile { s with testResult := text } :=
  ⟨h.initial, h.keyFile, h.preferences, h.keyChanged, h.preferencesChanged, h.displayChanged,
    h.cacheCleared⟩

theorem removeKey (h : Reported exe registry keyFile s) (confirmed deletes : Bool) :
    Reported exe registry keyFile (s.onRemoveKey keyStore confirmed deletes) := by
  unfold SettingsSession.onRemoveKey
  split
  · exact h.labelled _
  · split
    · exact h
    · split
      · refine ⟨h.initial, rfl, h.preferences, ?_, ?_, ?_, ?_⟩
        · simp [SettingsSession.outcome, SettingsEvent.ChangesKey]
        · exact h.preferencesChanged.trans (by simp)
        · exact h.displayChanged.trans (by simp)
        · exact h.cacheCleared.trans (by simp)
      · exact h.labelled _

theorem step (hexe : exe ≠ []) (h : Reported exe registry keyFile s) (step : SettingsStep) :
    Reported exe registry keyFile (s.step exe keyStore step) := by
  unfold SettingsSession.step
  split
  · cases step with
    | edit controls =>
      exact ⟨h.initial, h.keyFile, h.preferences, h.keyChanged, h.preferencesChanged,
        h.displayChanged, h.cacheCleared⟩
    | test validator => exact h.labelled _
    | save reply => exact h.pressSave hexe reply
    | clearCache confirmed => exact h.clearCache confirmed
    | removeKey confirmed deletes => exact h.removeKey confirmed deletes
    | cancel =>
      exact ⟨h.initial, h.keyFile, h.preferences, h.keyChanged, h.preferencesChanged,
        h.displayChanged, h.cacheCleared⟩
  · exact h

theorem run (hexe : exe ≠ []) (h : Reported exe registry keyFile s) (steps : List SettingsStep) :
    Reported exe registry keyFile (s.run exe keyStore steps) := by
  induction steps generalizing s with
  | nil => exact h
  | cons step rest ih => exact ih (h.step hexe step)

/-- A preference that was shown as the initial one at every press is stored as it was. -/
theorem kept {β : Type} [DecidableEq β] {x : Preferences → β} (hx : IsField x)
    (h : Reported exe registry keyFile s)
    (hshown : ∀ shown, .pressed shown ∈ s.log → x shown = x s.dialog.initial) :
    x (s.dialog.registry.preferences exe) = x (registry.preferences exe) := by
  rw [h.preferences, ← h.initial]
  refine (stored_eq_initial_iff hx _ _).mpr fun shown hmem => ?_
  exact hshown shown (mem_presses.mp hmem)

/-- What is not reported has not changed. -/
theorem quiet (h : Reported exe registry keyFile s) :
    (s.outcome.keyChanged = false → s.keyFile = keyFile) ∧
    (s.outcome.preferencesChanged = false →
      s.dialog.registry.preferences exe = { registry.preferences exe with
        hideLifetime := (s.dialog.registry.preferences exe).hideLifetime }) ∧
    (s.outcome.displayChanged = false →
      (s.dialog.registry.preferences exe).hideLifetime =
        (registry.preferences exe).hideLifetime) := by
  refine ⟨fun hkey => ?_, fun hsync => ?_, fun hdisplay => ?_⟩
  · have hnone : ∀ e ∈ s.log, ¬e.ChangesKey := by
      intro e he hchanges
      exact Bool.false_ne_true (hkey.symm.trans (h.keyChanged.mpr ⟨e, he, hchanges⟩))
    exact h.keyFile.trans (lastKeyFile_of_none hnone)
  · have hnone : ∀ shown, .pressed shown ∈ s.log → ¬s.dialog.initial.WritesSync shown := by
      intro shown hmem hwrites
      exact Bool.false_ne_true (hsync.symm.trans (h.preferencesChanged.mpr ⟨shown, hmem, hwrites⟩))
    have hinterval := h.kept (x := Preferences.interval) (fun _ _ _ => rfl) fun shown hmem =>
      not_not.mp fun hne => hnone shown hmem (.inl hne)
    have hnotify := h.kept (x := Preferences.notify) (fun _ _ _ => rfl) fun shown hmem =>
      not_not.mp fun hne => hnone shown hmem (.inr (.inl hne))
    have hstartup := h.kept (x := Preferences.startup) (fun _ _ _ => rfl) fun shown hmem =>
      not_not.mp fun hne => hnone shown hmem (.inr (.inr hne))
    show _ = Preferences.mk _ _ _ _
    rw [← hinterval, ← hnotify, ← hstartup]
  · refine h.kept (x := Preferences.hideLifetime) (fun _ _ _ => rfl) fun shown hmem => ?_
    by_contra hne
    exact Bool.false_ne_true (hdisplay.symm.trans (h.displayChanged.mpr ⟨shown, hmem, hne⟩))

end Reported

/-- After every session, with edits, presses of each button and a validator and a key file that
answer as they will: the key file and the preferences are what the log of the session makes of those
at its start, the dialog reports exactly what the log has, and what it does not report is as it was.
-/
theorem session_reported {exe : Wide} (hexe : exe ≠ []) (keyStore : DpapiSecretStore)
    (registry : Registry) (keyFile : Option Bytes) (steps : List SettingsStep) :
    let s := (SettingsSession.start exe registry keyFile).run exe keyStore steps
    Reported exe registry keyFile s ∧
      (s.outcome.keyChanged = false → s.keyFile = keyFile) ∧
      (s.outcome.preferencesChanged = false →
        s.dialog.registry.preferences exe = { registry.preferences exe with
          hideLifetime := (s.dialog.registry.preferences exe).hideLifetime }) ∧
      (s.outcome.displayChanged = false →
        (s.dialog.registry.preferences exe).hideLifetime =
          (registry.preferences exe).hideLifetime) := by
  intro s
  have hreported : Reported exe registry keyFile s := Reported.start.run hexe steps
  exact ⟨hreported, hreported.quiet⟩

/-- The totals are hidden and a key is entered, tested and then saved, which Steam rejects; then the
dialog is closed. -/
def cancelledSession : List SettingsStep :=
  [.edit ⟨some ⟨1, by decide⟩, false, false, true, wide "KEY"⟩, .test rejecting.validator,
    .save ⟨rejecting.validator, fun _ => some []⟩, .clearCache false, .cancel]

theorem session_reported_cancelled :
    let registry : Registry := ⟨⟨none, none, none⟩, none⟩
    let s := (SettingsSession.start (wide "app.exe") registry none).run (wide "app.exe")
      ⟨wide "api-key.dat"⟩ cancelledSession
    Reported (wide "app.exe") registry none s ∧ s.keyFile = none ∧
      s.outcome.displayChanged = true ∧ s.outcome.preferencesChanged = false := by
  intro registry s
  have h := session_reported (show wide "app.exe" ≠ [] by decide) ⟨wide "api-key.dat"⟩ registry none
    cancelledSession
  exact ⟨h.1, h.2.1 (by decide +kernel), by decide +kernel, by decide +kernel⟩

end SteamSalesTray.UI
