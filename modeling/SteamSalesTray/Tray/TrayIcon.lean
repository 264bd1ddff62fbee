import SteamSalesTray.Lib.Program
import SteamSalesTray.Text

/-! The icon in the notification area: what `TrayIcon` tells the shell, while Explorer can end and
start again between any two of its calls. -/

namespace SteamSalesTray.Tray

open Interaction

/-- How the shell knows an icon: by the GUID, or by the window and the `uID`. -/
inductive Identity where
  | guid
  | uid
deriving DecidableEq, Repr

def Identity.other : Identity → Identity
  | .guid => .uid
  | .uid => .guid

@[simp] theorem Identity.ne_other (id : Identity) : id ≠ id.other := by cases id <;> decide

theorem Identity.eq_or_other (id id' : Identity) : id' = id ∨ id' = id.other := by
  cases id <;> cases id' <;> decide

/-- `NOTIFYICONDATAW`; `none` is a member whose flag is not set. -/
structure NotifyIconData where
  hWnd : Option Nat
  identity : Identity
  callbackMessage : Option Nat
  icon : Option Nat
  tip : Option Wide
  info : Option (Wide × Wide)
  version : Nat
deriving DecidableEq, Repr

inductive NotifyMessage where
  | add
  | modify
  | delete
  | setFocus
  | setVersion
deriving DecidableEq, Repr

/-- `wcsncpy_s` with `_TRUNCATE`, into a buffer that has room for `size` and the NUL. -/
def truncated (size : Nat) (text : Wide) : Wide := (text.takeWhile (· ≠ 0)).take size

/-- The members of `TrayIcon`; a window of `none` is `nullptr`. -/
structure TrayIcon where
  owner : Option Nat
  callbackMessage : Nat
  icon : Nat
  tooltip : Wide
  added : Bool
  useGuid : Bool
deriving DecidableEq, Repr

def TrayIcon.initial : TrayIcon := ⟨none, 0, 0, [], false, true⟩

/-- The calls of the members of `TrayIcon`. -/
inductive TrayRequest where
  | add (owner callbackMessage icon : Nat) (tooltip : Wide)
  | recreate
  | setTooltip (tooltip : Wide)
  | showBalloon (title text : Wide)
  | setFocus
  | remove
deriving DecidableEq, Repr

inductive TrayOp where
  | getMessage
  | members
  | setMembers (tray : TrayIcon)
  | notifyIcon (message : NotifyMessage) (nid : NotifyIconData)

abbrev TrayOp.Answer : TrayOp → Type
  | .getMessage => TrayRequest
  | .members => TrayIcon
  | .setMembers _ => Unit
  | .notifyIcon _ _ => Bool

abbrev TrayProgram := Program TrayOp TrayOp.Answer

abbrev callTray (op : TrayOp) : TrayProgram op.Answer := Program.perform op

def kVersion4 : Nat := 4

namespace TrayIcon

variable (t : TrayIcon)

def identity : Identity := if t.useGuid then .guid else .uid

def buildData : NotifyIconData := ⟨t.owner, t.identity, none, none, none, none, 0⟩

def tryAdd : TrayProgram Bool := do
  let added ← callTray (.notifyIcon .add { t.buildData with
    callbackMessage := some t.callbackMessage
    icon := some t.icon
    tip := some (truncated 127 t.tooltip) })
  if added then
    let _ ← callTray (.notifyIcon .setVersion { t.buildData with version := kVersion4 })
    pure true
  else pure false

/-- A registration of the GUID that lingers from a run before is cleared. -/
def clearStale : TrayProgram Unit :=
  if t.useGuid then do
    let _ ← callTray (.notifyIcon .delete t.buildData)
    pure ()
  else pure ()

def fallBack : TrayIcon := { t with useGuid := false }

/-- The second attempt of `Add`, without the GUID. -/
def addByUid : TrayProgram (Bool × TrayIcon) := do
  let added ← t.fallBack.tryAdd
  pure (added, { t.fallBack with added := added })

def addAs : TrayProgram (Bool × TrayIcon) := do
  t.clearStale
  let added ← t.tryAdd
  if added then pure (true, { t with added := true })
  else if t.useGuid then t.addByUid
  else pure (false, { t with added := false })

def add (owner callbackMessage icon : Nat) (tooltip : Wide) : TrayProgram (Bool × TrayIcon) :=
  addAs { t with
    owner := some owner
    callbackMessage := callbackMessage
    icon := icon
    tooltip := tooltip }

def recreate : TrayProgram TrayIcon := do
  let result ← addAs { t with added := false }
  pure result.2

/-- A call about an icon that has been added. -/
def ifAdded (message : NotifyMessage) (nid : NotifyIconData) (after : TrayIcon) :
    TrayProgram TrayIcon :=
  if t.added then do
    let _ ← callTray (.notifyIcon message nid)
    pure after
  else pure after

def setTooltip (tooltip : Wide) : TrayProgram TrayIcon :=
  t.ifAdded .modify { t.buildData with tip := some (truncated 127 tooltip) }
    { t with tooltip := tooltip }

def showBalloon (title text : Wide) : TrayProgram TrayIcon :=
  t.ifAdded .modify { t.buildData with info := some (truncated 63 title, truncated 255 text) } t

def setFocus : TrayProgram TrayIcon := t.ifAdded .setFocus t.buildData t

def remove : TrayProgram TrayIcon := t.ifAdded .delete t.buildData { t with added := false }

def handle : TrayRequest → TrayProgram TrayIcon
  | .add owner callbackMessage icon tooltip => do
    let result ← t.add owner callbackMessage icon tooltip
    pure result.2
  | .recreate => t.recreate
  | .setTooltip tooltip => t.setTooltip tooltip
  | .showBalloon title text => t.showBalloon title text
  | .setFocus => t.setFocus
  | .remove => t.remove

end TrayIcon

/-- One call of a member. -/
def handleRequest : TrayProgram Unit := do
  let tray ← callTray .members
  let request ← callTray .getMessage
  let tray' ← tray.handle request
  callTray (.setMembers tray')

/-! ### The shell -/

structure ShellIcon where
  owner : Option Nat
  callbackMessage : Nat
  icon : Nat
  tip : Wide
  version : Nat
deriving DecidableEq, Repr

/-- Explorer, the icons that it has of this program, and the balloons that it has shown. -/
structure Shell where
  running : Bool
  icons : Identity → Option ShellIcon
  balloons : List (Wide × Wide)

namespace Shell

def set (s : Shell) (id : Identity) (icon : Option ShellIcon) : Shell :=
  { s with icons := fun id' => if id' = id then icon else s.icons id' }

@[simp] theorem set_same (s : Shell) (id : Identity) (icon : Option ShellIcon) :
    (s.set id icon).icons id = icon := if_pos rfl

@[simp] theorem set_other (s : Shell) (id : Identity) (icon : Option ShellIcon) :
    (s.set id icon).icons id.other = s.icons id.other := if_neg id.ne_other.symm

@[simp] theorem set_running (s : Shell) (id : Identity) (icon : Option ShellIcon) :
    (s.set id icon).running = s.running := rfl

end Shell

/-- A new icon, of version 0 until another is set. -/
def ShellIcon.ofData (nid : NotifyIconData) : ShellIcon :=
  ⟨nid.hWnd, nid.callbackMessage.getD 0, nid.icon.getD 0, nid.tip.getD [], 0⟩

def ShellIcon.modified (nid : NotifyIconData) (icon : ShellIcon) : ShellIcon :=
  { icon with
    callbackMessage := nid.callbackMessage.getD icon.callbackMessage
    icon := nid.icon.getD icon.icon
    tip := nid.tip.getD icon.tip }

/-- `Shell_NotifyIconW`.  The shell does as it is told with an icon that it has, has no second icon
of one identity and none without a window; whether it accepts another new one is left open, as it
refuses the GUID to a program at another path. -/
def Shell.notify (message : NotifyMessage) (nid : NotifyIconData) (accepts : Bool) (s : Shell) :
    Bool × Shell :=
  if s.running = false then (false, s)
  else
    match message, s.icons nid.identity with
    | .add, none =>
      if accepts = true ∧ nid.hWnd ≠ none then (true, s.set nid.identity (some (.ofData nid)))
      else (false, s)
    | .add, some _ => (false, s)
    | _, none => (false, s)
    | .modify, some icon =>
      (true, { s.set nid.identity (some (icon.modified nid)) with
        balloons := s.balloons ++ nid.info.toList })
    | .delete, some _ => (true, s.set nid.identity none)
    | .setFocus, some _ => (true, s)
    | .setVersion, some icon =>
      (true, s.set nid.identity (some { icon with version := nid.version }))

/-- The shell with the program: how many `TaskbarCreated` messages wait for it, its icon, and
whether one of these has been handled while the shell had an icon of the program by its `uID`. -/
structure TrayDesk where
  shell : Shell
  created : Nat
  tray : TrayIcon
  missed : Bool

/-- The call that is made next, and whether the shell accepts a new icon. -/
structure TrayReply where
  request : TrayRequest
  accepts : Bool

namespace TrayDesk

def receives (request : TrayRequest) (d : TrayDesk) : TrayDesk :=
  if request = .recreate then
    { d with
      created := d.created - 1
      missed := d.missed || (!d.tray.useGuid && (d.shell.icons .uid).isSome) }
  else d

def exec (op : TrayOp) (reply : TrayReply) (d : TrayDesk) : op.Answer × TrayDesk :=
  match op with
  | .getMessage => (reply.request, d.receives reply.request)
  | .members => (d.tray, d)
  | .setMembers tray => ((), { d with tray := tray })
  | .notifyIcon message nid =>
    ((d.shell.notify message nid reply.accepts).1,
      { d with shell := (d.shell.notify message nid reply.accepts).2 })

end TrayDesk

/-- Explorer forgets the icons when it ends; a new one tells every window. -/
inductive ShellMove where
  | exits
  | starts
deriving DecidableEq, Repr

def TrayDesk.act (move : ShellMove) (d : TrayDesk) : TrayDesk :=
  match move with
  | .exits => { d with shell := { d.shell with running := false, icons := fun _ => none } }
  | .starts =>
    if d.shell.running then d
    else { d with shell := { d.shell with running := true }, created := d.created + 1 }

/-- A killed program leaves its icons.  That of the GUID is there for the next one; that of a window
that is gone cannot be named any more, and is not counted although the shell may show it until it
finds that out. -/
def TrayDesk.crash (d : TrayDesk) : TrayDesk where
  shell := d.shell.set .uid none
  created := 0
  tray := .initial
  missed := false

def trayMachine : Machine TrayOp TrayOp.Answer TrayDesk TrayReply ShellMove :=
  ⟨TrayDesk.exec, TrayDesk.act, TrayDesk.crash⟩

/-- `Add` is called once, and `Recreate` for a message that waits.  A message box at the start of
the program handles messages before `Add` is called. -/
def TrayRequest.Comes (d : TrayDesk) : TrayRequest → Prop
  | .add _ _ _ _ => d.tray.owner = none
  | .recreate => 0 < d.created
  | _ => True

instance (d : TrayDesk) (request : TrayRequest) : Decidable (request.Comes d) := by
  cases request <;> (unfold TrayRequest.Comes; infer_instance)

def trayRules : Rules TrayOp TrayDesk TrayReply ShellMove where
  start _ := True
  call
    | .getMessage, reply, d => reply.request.Comes d
    | _, _, _ => True
  act _ _ := True
  kill _ := True

instance : DecidablePred trayRules.start := fun _ => .isTrue trivial

instance (op : TrayOp) (reply : TrayReply) (d : TrayDesk) :
    Decidable (trayRules.call op reply d) :=
  match op with
  | .getMessage => inferInstanceAs (Decidable (reply.request.Comes d))
  | .members | .setMembers _ | .notifyIcon _ _ => .isTrue trivial

instance (move : ShellMove) (d : TrayDesk) : Decidable (trayRules.act move d) := .isTrue trivial

instance : DecidablePred trayRules.kill := fun _ => .isTrue trivial

/-! ### What a call leaves at the shell -/

namespace TrayDesk

/-- The shell has at most one icon of the program, and none while Explorer does not run. -/
structure Single (d : TrayDesk) : Prop where
  one : ∀ id, d.shell.icons id ≠ none → d.shell.icons id.other = none
  ended : d.shell.running = false → ∀ id, d.shell.icons id = none

def Bare (d : TrayDesk) : Prop := ∀ id, d.shell.icons id = none

/-- The shell has this icon alone, or it has forgotten it. -/
structure Shows (id : Identity) (icon : ShellIcon) (d : TrayDesk) : Prop where
  other : d.shell.icons id.other = none
  same : ∀ icon', d.shell.icons id = some icon' → icon' = icon
  here : d.shell.running = true → d.created = 0 → d.shell.icons id ≠ none

theorem Bare.single {d : TrayDesk} (h : Bare d) : Single d :=
  ⟨fun id hne => absurd (h id) hne, fun _ => h⟩

theorem Single.act {d : TrayDesk} (h : Single d) (move : ShellMove) : Single (d.act move) := by
  cases move with
  | exits => exact Bare.single (d := d.act .exits) fun _ => rfl
  | starts =>
    unfold TrayDesk.act
    dsimp only
    split
    · exact h
    · exact ⟨h.one, nofun⟩

end TrayDesk

open TrayDesk

def trayContract : Contract TrayOp TrayOp.Answer TrayDesk TrayReply ShellMove :=
  ⟨trayMachine, trayRules, Single, fun move _ _ h => h.act move⟩

theorem stable_bare : trayContract.Stable Bare := by
  intro move d _ _ h
  cases move with
  | exits => exact fun _ => rfl
  | starts =>
    show Bare (d.act .starts)
    unfold TrayDesk.act
    dsimp only
    split <;> exact h

theorem stable_absent (id : Identity) : trayContract.Stable fun d => d.shell.icons id = none := by
  intro move d _ _ h
  cases move with
  | exits => rfl
  | starts =>
    show (d.act .starts).shell.icons id = none
    unfold TrayDesk.act
    dsimp only
    split <;> exact h

theorem stable_shows (id : Identity) (icon : ShellIcon) :
    trayContract.Stable (Shows id icon) := by
  intro move d _ _ h
  cases move with
  | exits => exact ⟨rfl, nofun, nofun⟩
  | starts =>
    show Shows id icon (d.act .starts)
    unfold TrayDesk.act
    dsimp only
    split
    · exact h
    · exact ⟨h.other, h.same, fun _ hcreated => absurd hcreated (Nat.succ_ne_zero _)⟩

/-- Where the only icon has an identity, a change of the icon of that identity is one of it. -/
theorem TrayDesk.Shows.single {id : Identity} {icon : ShellIcon} {d : TrayDesk}
    (h : Shows id icon d)
    (hended : d.shell.running = false → d.shell.icons id = none) : Single d where
  one id' hne := by
    obtain rfl | rfl := id.eq_or_other id'
    · exact h.other
    · exact absurd h.other hne
  ended hrunning id' := by
    obtain rfl | rfl := id.eq_or_other id'
    · exact hended hrunning
    · exact h.other

theorem notify_add_spec (nid : NotifyIconData) :
    trayContract.Spec Bare (callTray (.notifyIcon .add nid)) fun added d =>
      if added then Shows nid.identity (.ofData nid) d else Bare d := by
  refine Contract.Spec.perform stable_bare (fun added => ?_) fun d reply _ hbare _ => ?_
  · cases added with
    | true => exact stable_shows _ _
    | false => exact stable_bare
  · show Single { d with shell := (d.shell.notify .add nid reply.accepts).2 } ∧
      if (d.shell.notify .add nid reply.accepts).1 then
        Shows nid.identity (.ofData nid)
          { d with shell := (d.shell.notify .add nid reply.accepts).2 }
      else Bare { d with shell := (d.shell.notify .add nid reply.accepts).2 }
    unfold Shell.notify
    split
    · exact ⟨Bare.single hbare, hbare⟩
    · rename_i hrunning
      rw [hbare nid.identity]
      dsimp only
      split
      · have hshows : Shows nid.identity (.ofData nid)
            { d with shell := d.shell.set nid.identity (some (.ofData nid)) } := by
          refine ⟨?_, fun icon' hicon => ?_, fun _ _ => ?_⟩
          · exact (d.shell.set_other _ _).trans (hbare _)
          · exact (Option.some.inj ((d.shell.set_same _ _).symm.trans hicon)).symm
          · rw [d.shell.set_same]
            nofun
        exact ⟨hshows.single fun hended => absurd hended hrunning, hshows⟩
      · exact ⟨Bare.single hbare, hbare⟩

theorem notify_add_ownerless (nid : NotifyIconData) (hwindow : nid.hWnd = none) :
    trayContract.Spec Bare (callTray (.notifyIcon .add nid)) fun added d =>
      added = false ∧ Bare d := by
  refine Contract.Spec.perform stable_bare
    (fun added => (Contract.stable_const (added = false)).and stable_bare)
    fun d reply _ hbare _ => ?_
  have hrefused : d.shell.notify .add nid reply.accepts = (false, d.shell) := by
    unfold Shell.notify
    rw [hbare nid.identity]
    split
    · rfl
    · exact if_neg fun h => h.2 hwindow
  show Single { d with shell := (d.shell.notify .add nid reply.accepts).2 } ∧
    (d.shell.notify .add nid reply.accepts).1 = false ∧
      Bare { d with shell := (d.shell.notify .add nid reply.accepts).2 }
  rw [hrefused]
  exact ⟨Bare.single hbare, rfl, hbare⟩

theorem notify_delete_spec (nid : NotifyIconData) :
    trayContract.Spec (fun d => d.shell.icons nid.identity.other = none)
      (callTray (.notifyIcon .delete nid)) fun _ => Bare := by
  refine Contract.Spec.perform (stable_absent _) (fun _ => stable_bare)
    fun d reply hsingle habsent _ => ?_
  suffices h : Bare { d with shell := (d.shell.notify .delete nid reply.accepts).2 } from
    ⟨Bare.single h, h⟩
  intro id
  show (d.shell.notify .delete nid reply.accepts).2.icons id = none
  unfold Shell.notify
  split
  · rename_i hended
    exact hsingle.ended hended id
  · cases hicon : d.shell.icons nid.identity with
    | none =>
      obtain rfl | rfl := nid.identity.eq_or_other id
      · exact hicon
      · exact habsent
    | some icon =>
      obtain rfl | rfl := nid.identity.eq_or_other id
      · exact d.shell.set_same _ _
      · exact (d.shell.set_other _ _).trans habsent

/-- Another call about the icon changes it, where the shell has it. -/
theorem notify_change_spec {message : NotifyMessage} {nid : NotifyIconData}
    {icon icon' : ShellIcon}
    (h : ∀ accepts (s : Shell), s.running = true → s.icons nid.identity = some icon →
      ∃ s', s.notify message nid accepts = (true, s') ∧ s'.running = true ∧
        s'.icons = (s.set nid.identity (some icon')).icons)
    (hnone : ∀ accepts (s : Shell), s.icons nid.identity = none →
      (s.notify message nid accepts).2 = s) :
    trayContract.Spec (Shows nid.identity icon) (callTray (.notifyIcon message nid))
      fun _ => Shows nid.identity icon' := by
  refine Contract.Spec.perform (stable_shows _ _) (fun _ => stable_shows _ _)
    fun d reply hsingle hshows _ => ?_
  suffices hafter : Shows nid.identity icon'
      { d with shell := (d.shell.notify message nid reply.accepts).2 } ∧
        ((d.shell.notify message nid reply.accepts).2.running = false →
          (d.shell.notify message nid reply.accepts).2.icons nid.identity = none) from
    ⟨hafter.1.single hafter.2, hafter.1⟩
  cases hicon : d.shell.icons nid.identity with
  | none =>
    rw [hnone _ _ hicon]
    refine ⟨⟨hshows.other, fun icon' hsome => ?_, hshows.here⟩, fun _ => hicon⟩
    cases hicon.symm.trans hsome
  | some icon₀ =>
    obtain rfl := hshows.same icon₀ hicon
    have hrunning : d.shell.running = true := by
      by_contra hended
      cases hicon.symm.trans (hsingle.ended (Bool.not_eq_true _ ▸ hended) _)
    obtain ⟨s', hnotify, hrunning', hicons⟩ := h reply.accepts d.shell hrunning hicon
    rw [hnotify]
    refine ⟨⟨?_, fun icon hsome => ?_, fun _ _ => ?_⟩, fun hended => ?_⟩
    · show s'.icons _ = none
      rw [hicons, d.shell.set_other]
      exact hshows.other
    · have hsame : s'.icons nid.identity = some icon' := by rw [hicons, d.shell.set_same]
      exact Option.some.inj (hsome.symm.trans hsame)
    · show s'.icons _ ≠ none
      rw [hicons, d.shell.set_same]
      nofun
    · exact absurd (hended.symm.trans hrunning') Bool.false_ne_true

theorem notify_none {message : NotifyMessage} (hmessage : message ≠ .add) (nid : NotifyIconData)
    (accepts : Bool) {s : Shell} (h : s.icons nid.identity = none) :
    (s.notify message nid accepts).2 = s := by
  unfold Shell.notify
  split
  · rfl
  · rw [h]
    cases message with
    | add => exact absurd rfl hmessage
    | _ => rfl

theorem notify_modify_spec (nid : NotifyIconData) (icon : ShellIcon) :
    trayContract.Spec (Shows nid.identity icon) (callTray (.notifyIcon .modify nid))
      fun _ => Shows nid.identity (icon.modified nid) := by
  have hmessage : NotifyMessage.modify ≠ .add := nofun
  refine notify_change_spec (fun accepts s hrunning hicon => ?_)
    fun accepts s => notify_none hmessage nid accepts
  refine ⟨{ s.set nid.identity (some (icon.modified nid)) with
    balloons := s.balloons ++ nid.info.toList }, ?_, hrunning, rfl⟩
  simp [Shell.notify, hrunning, hicon]

theorem notify_setVersion_spec (nid : NotifyIconData) (icon : ShellIcon) :
    trayContract.Spec (Shows nid.identity icon) (callTray (.notifyIcon .setVersion nid))
      fun _ => Shows nid.identity { icon with version := nid.version } := by
  have hmessage : NotifyMessage.setVersion ≠ .add := nofun
  refine notify_change_spec (fun accepts s hrunning hicon => ?_)
    fun accepts s => notify_none hmessage nid accepts
  refine ⟨s.set nid.identity (some { icon with version := nid.version }), ?_, hrunning, rfl⟩
  simp [Shell.notify, hrunning, hicon]

theorem notify_setFocus_spec (nid : NotifyIconData) (icon : ShellIcon) :
    trayContract.Spec (Shows nid.identity icon) (callTray (.notifyIcon .setFocus nid))
      fun _ => Shows nid.identity icon := by
  have hmessage : NotifyMessage.setFocus ≠ .add := nofun
  refine notify_change_spec (fun accepts s hrunning hicon => ?_)
    fun accepts s => notify_none hmessage nid accepts
  refine ⟨s, by simp [Shell.notify, hrunning, hicon], hrunning, funext fun id => ?_⟩
  unfold Shell.set
  dsimp only
  split
  · rename_i hid
    rw [hid, hicon]
  · rfl

/-! ### The members and the shell -/

namespace TrayIcon

variable (t : TrayIcon)

/-- The icon that the members describe. -/
def expected : ShellIcon :=
  ⟨t.owner, t.callbackMessage, t.icon, truncated 127 t.tooltip, kVersion4⟩

/-- The shell has the icon of the members, if they say that it is added, and no other. -/
def Held (d : TrayDesk) : Prop :=
  if t.added then Shows t.identity t.expected d else Bare d

/-- `Add` has nothing to get in its way but an icon that it deletes. -/
def Ready (d : TrayDesk) : Prop :=
  if t.useGuid then d.shell.icons .uid = none else Bare d

theorem stable_held : trayContract.Stable t.Held := by
  unfold Held
  split
  · exact stable_shows _ _
  · exact stable_bare

theorem stable_ready : trayContract.Stable t.Ready := by
  unfold Ready
  split
  · exact stable_absent _
  · exact stable_bare

variable {t}

theorem Held.uid_absent {d : TrayDesk} (h : t.Held d) (hguid : t.useGuid = true) :
    d.shell.icons .uid = none := by
  unfold Held identity at h
  rw [hguid] at h
  split at h
  · exact h.other
  · exact h .uid

/-- Where the icon of the members is not in the way, `Add` is ready. -/
theorem Held.ready {d : TrayDesk} (h : t.Held d)
    (habsent : t.useGuid = true ∨ d.shell.icons .uid = none) : t.Ready d := by
  unfold Ready
  split
  · rename_i hguid
    exact h.uid_absent hguid
  · rename_i hguid
    have huid := habsent.resolve_left hguid
    unfold Held identity at h
    rw [if_neg hguid] at h
    split at h
    · intro id
      obtain rfl | rfl := Identity.uid.eq_or_other id
      · exact huid
      · exact h.other
    · exact h

theorem held_of_added {d : TrayDesk} (h : Shows t.identity t.expected d) (hadded : t.added = true) :
    t.Held d := by
  unfold Held
  rw [if_pos hadded]
  exact h

theorem held_of_bare {d : TrayDesk} (h : Bare d) (hadded : t.added = false) : t.Held d := by
  unfold Held
  rw [if_neg (Bool.eq_false_iff.mp hadded)]
  exact h

theorem Held.same {d d' : TrayDesk} (h : t.Held d) (hshell : d'.shell = d.shell)
    (hcreated : d'.created = d.created) : t.Held d' := by
  cases hadded : t.added with
  | true =>
    unfold Held at h
    rw [if_pos hadded] at h
    refine held_of_added ⟨?_, ?_, ?_⟩ hadded
    · rw [hshell]
      exact h.other
    · rw [hshell]
      exact h.same
    · rw [hshell, hcreated]
      exact h.here
  | false =>
    unfold Held at h
    rw [if_neg (Bool.eq_false_iff.mp hadded)] at h
    refine held_of_bare (fun id => ?_) hadded
    rw [hshell]
    exact h id

theorem Held.shows {d : TrayDesk} (h : t.Held d) :
    (∀ id icon, d.shell.icons id = some icon → id = t.identity ∧ icon = t.expected) ∧
      (d.shell.running = true → d.created = 0 →
        (t.added = true ↔ ∃ id, d.shell.icons id ≠ none)) := by
  unfold Held at h
  split at h
  · rename_i hadded
    refine ⟨fun id icon hicon => ?_, fun hrunning hcreated => ?_⟩
    · obtain rfl | rfl := t.identity.eq_or_other id
      · exact ⟨rfl, h.same icon hicon⟩
      · cases h.other.symm.trans hicon
    · exact ⟨fun _ => ⟨t.identity, h.here hrunning hcreated⟩, fun _ => hadded⟩
  · rename_i hadded
    refine ⟨fun id icon hicon => ?_, fun _ _ => ?_⟩
    · cases (h id).symm.trans hicon
    · refine ⟨fun h => absurd h hadded, ?_⟩
      rintro ⟨id, hne⟩
      exact absurd (h id) hne

theorem tryAdd_spec : trayContract.Spec Bare t.tryAdd fun added d =>
    if added then Shows t.identity t.expected d else Bare d := by
  refine (notify_add_spec _).bind fun added => ?_
  cases added with
  | false => exact Contract.Spec.ret stable_bare fun _ _ h => h
  | true =>
    refine (notify_setVersion_spec { t.buildData with version := kVersion4 } _).bind fun _ => ?_
    exact Contract.Spec.ret (stable_shows _ _) fun _ _ h => h

theorem clearStale_spec : trayContract.Spec t.Ready t.clearStale fun _ => Bare := by
  unfold clearStale Ready
  split
  · rename_i hguid
    have hidentity : t.buildData.identity = .guid := if_pos hguid
    have hdelete := notify_delete_spec t.buildData
    rw [hidentity] at hdelete
    exact hdelete.bind fun _ => Contract.Spec.done stable_bare
  · exact Contract.Spec.done stable_bare

theorem addByUid_spec : trayContract.Spec Bare t.addByUid fun result => result.2.Held := by
  refine tryAdd_spec.bind fun added => ?_
  cases added with
  | true => exact Contract.Spec.ret (stable_shows _ _) fun _ _ h => held_of_added h rfl
  | false => exact Contract.Spec.ret stable_bare fun _ _ h => held_of_bare h rfl

theorem addAs_spec : trayContract.Spec t.Ready t.addAs fun result => result.2.Held := by
  refine clearStale_spec.bind fun _ => tryAdd_spec.bind fun added => ?_
  cases added with
  | true => exact Contract.Spec.ret (stable_shows _ _) fun _ _ h => held_of_added h rfl
  | false =>
    show trayContract.Spec Bare (if t.useGuid then t.addByUid else _) _
    split
    · exact addByUid_spec
    · exact Contract.Spec.ret stable_bare fun _ _ h => held_of_bare h rfl

theorem Bare.ready {d : TrayDesk} (h : Bare d) (t : TrayIcon) : t.Ready d := by
  unfold Ready
  split
  · exact h .uid
  · exact h

theorem tryAdd_ownerless (howner : t.owner = none) :
    trayContract.Spec Bare t.tryAdd fun added d => added = false ∧ Bare d := by
  refine (notify_add_ownerless { t.buildData with
    callbackMessage := some t.callbackMessage
    icon := some t.icon
    tip := some (truncated 127 t.tooltip) } howner).bind fun added => ?_
  rintro d hsingle ⟨rfl, hbare⟩
  exact Contract.Spec.ret stable_bare (fun _ _ h => ⟨rfl, h⟩) d hsingle hbare

/-- The shell takes no icon without a window, by whichever identity. -/
theorem addAs_ownerless (howner : t.owner = none) :
    trayContract.Spec t.Ready t.addAs fun result d =>
      result.2.owner = none ∧ result.2.added = false ∧ Bare d := by
  have hdone : ∀ result : Bool × TrayIcon, result.2.owner = none → result.2.added = false →
      trayContract.Spec Bare (pure result) fun result d =>
        result.2.owner = none ∧ result.2.added = false ∧ Bare d := fun result hnone hadded =>
    Contract.Spec.ret stable_bare fun _ _ h => ⟨hnone, hadded, h⟩
  refine clearStale_spec.bind fun _ => (tryAdd_ownerless howner).bind fun added => ?_
  rintro d hsingle ⟨rfl, hbare⟩
  show trayContract.Safe _ (if t.useGuid then t.addByUid else _) d
  split
  · refine ((tryAdd_ownerless (t := t.fallBack) howner).bind fun added => ?_) d hsingle hbare
    rintro d hsingle ⟨rfl, hbare⟩
    exact hdone (false, { t.fallBack with added := false }) howner rfl d hsingle hbare
  · exact hdone (false, { t with added := false }) howner rfl d hsingle hbare

/-- A call about the icon, where it changes what the members say as it changes the icon. -/
theorem ifAdded_spec {message : NotifyMessage} {nid : NotifyIconData} {after : TrayIcon}
    (h : t.added = true → trayContract.Spec (Shows t.identity t.expected)
      (callTray (.notifyIcon message nid)) fun _ => after.Held)
    (hadded : t.added = false → after.added = false) :
    trayContract.Spec t.Held (t.ifAdded message nid after) fun t' => t'.Held := by
  unfold ifAdded Held
  split
  · rename_i ht
    exact (h ht).bind fun _ => Contract.Spec.ret (stable_held after) fun _ _ h => h
  · rename_i ht
    exact Contract.Spec.ret stable_bare fun _ _ hbare =>
      held_of_bare hbare (hadded (Bool.eq_false_iff.mpr ht))

theorem setTooltip_spec (tooltip : Wide) :
    trayContract.Spec t.Held (t.setTooltip tooltip) fun t' => t'.Held := by
  refine ifAdded_spec (fun ht => ?_) id
  refine (notify_modify_spec { t.buildData with tip := some (truncated 127 tooltip) }
    t.expected).post fun _ _ h => held_of_added h ht

theorem showBalloon_spec (title text : Wide) :
    trayContract.Spec t.Held (t.showBalloon title text) fun t' => t'.Held := by
  refine ifAdded_spec (fun ht => ?_) id
  refine (notify_modify_spec { t.buildData with
    info := some (truncated 63 title, truncated 255 text) } t.expected).post
    fun _ _ h => held_of_added h ht

theorem setFocus_spec : trayContract.Spec t.Held t.setFocus fun t' => t'.Held :=
  ifAdded_spec (fun ht => (notify_setFocus_spec t.buildData t.expected).post
    fun _ _ h => held_of_added h ht) id

theorem remove_spec : trayContract.Spec t.Held t.remove fun t' => t'.Held :=
  ifAdded_spec (fun _ => (notify_delete_spec t.buildData).mono (fun _ _ h => h.other)
    fun _ _ h => held_of_bare h rfl) fun _ => rfl

/-- What a request needs of the shell. -/
def Awaits (t : TrayIcon) (d : TrayDesk) : TrayRequest → Prop
  | .add _ _ _ _ | .recreate => t.Ready d
  | _ => t.Held d

theorem handle_spec (request : TrayRequest) :
    trayContract.Spec (fun d => t.Awaits d request) (t.handle request) fun t' => t'.Held := by
  cases request with
  | add owner callbackMessage icon tooltip =>
    refine Contract.Spec.bind (addAs_spec (t := { t with
      owner := some owner, callbackMessage, icon, tooltip })) fun result => ?_
    exact Contract.Spec.ret (stable_held _) fun _ _ h => h
  | recreate =>
    exact Contract.Spec.bind (addAs_spec (t := { t with added := false })) fun result =>
      Contract.Spec.ret (stable_held _) fun _ _ h => h
  | setTooltip tooltip => exact setTooltip_spec tooltip
  | showBalloon title text => exact showBalloon_spec title text
  | setFocus => exact setFocus_spec
  | remove => exact remove_spec

end TrayIcon

/-! ### What a call does not do -/

/-- A call about the icon by an identity that is in `I`. -/
def TrayOp.Names (I : Identity → Prop) : TrayOp → Prop
  | .notifyIcon _ nid => I nid.identity
  | _ => False

namespace TrayIcon

variable {t : TrayIcon} {I : Identity → Prop}

theorem tryAdd_names (h : I t.identity) : t.tryAdd.Every (TrayOp.Names I) := by
  refine ⟨h, fun added => ?_⟩
  cases added with
  | true => exact ⟨h, fun _ => trivial⟩
  | false => trivial

theorem addAs_names (h : I t.identity) (huid : I .uid) :
    t.addAs.Every (TrayOp.Names I) := by
  have hclear : t.clearStale.Every (TrayOp.Names I) := by
    unfold clearStale
    split
    · exact ⟨h, fun _ => trivial⟩
    · trivial
  refine hclear.bind fun _ => (tryAdd_names h).bind fun added => ?_
  cases added with
  | true => trivial
  | false =>
    show Program.Every _ (if t.useGuid then t.addByUid else _)
    split
    · exact (tryAdd_names huid).bind fun _ => trivial
    · trivial

theorem ifAdded_names {message : NotifyMessage} {nid : NotifyIconData} {after : TrayIcon}
    (h : I nid.identity) : (t.ifAdded message nid after).Every (TrayOp.Names I) := by
  unfold ifAdded
  split
  · exact ⟨h, fun _ => trivial⟩
  · trivial

theorem handle_names (h : I t.identity) (huid : I .uid) (request : TrayRequest) :
    (t.handle request).Every (TrayOp.Names I) := by
  cases request with
  | add owner callbackMessage icon tooltip =>
    exact Program.Every.bind (addAs_names h huid) fun _ => trivial
  | recreate => exact Program.Every.bind (addAs_names h huid) fun _ => trivial
  | setTooltip tooltip => exact ifAdded_names h
  | showBalloon title text => exact ifAdded_names h
  | setFocus => exact ifAdded_names h
  | remove => exact ifAdded_names h

/-- No call brings the GUID back, or changes the window. -/
theorem addAs_returns : t.addAs.Returns fun result =>
    (t.useGuid = false → result.2.useGuid = false) ∧ result.2.owner = t.owner := by
  refine (Program.returns_any t.clearStale).bind fun _ _ => ?_
  refine (Program.returns_any t.tryAdd).bind fun added _ => ?_
  cases added with
  | true => exact ⟨id, rfl⟩
  | false =>
    show Program.Returns _ (if t.useGuid then t.addByUid else _)
    split
    · exact (Program.returns_any t.fallBack.tryAdd).bind fun _ _ => ⟨fun _ => rfl, rfl⟩
    · exact ⟨id, rfl⟩

theorem ifAdded_returns (message : NotifyMessage) (nid : NotifyIconData) (after : TrayIcon) :
    (t.ifAdded message nid after).Returns fun t' => t' = after := by
  unfold ifAdded
  split
  · exact fun _ => rfl
  · exact rfl

end TrayIcon

/-- The request is not the first one. -/
def TrayRequest.Later : TrayRequest → Prop
  | .add _ _ _ _ => False
  | _ => True

theorem TrayIcon.handle_returns {t : TrayIcon} (request : TrayRequest) :
    (t.handle request).Returns fun t' => (t.useGuid = false → t'.useGuid = false) ∧
      (t'.owner = none → request.Later ∧ t.owner = none) := by
  have hifAdded : ∀ message nid after, after.useGuid = t.useGuid → after.owner = t.owner →
      (t.ifAdded message nid after).Returns fun t' => (t.useGuid = false → t'.useGuid = false) ∧
        (t'.owner = none → True ∧ t.owner = none) := by
    intro message nid after hguid howner
    refine (t.ifAdded_returns message nid after).mono fun t' ht' => ?_
    rw [ht', hguid, howner]
    exact ⟨id, fun h => ⟨trivial, h⟩⟩
  cases request with
  | add owner callbackMessage icon tooltip =>
    refine Program.Returns.bind addAs_returns fun result hresult => ⟨hresult.1, fun hnone => ?_⟩
    cases hresult.2.symm.trans hnone
  | recreate =>
    refine Program.Returns.bind addAs_returns fun result hresult => ⟨hresult.1, fun hnone => ?_⟩
    exact ⟨trivial, hresult.2.symm.trans hnone⟩
  | setTooltip tooltip => exact hifAdded _ _ _ rfl rfl
  | showBalloon title text => exact hifAdded _ _ _ rfl rfl
  | setFocus => exact hifAdded _ _ _ rfl rfl
  | remove => exact hifAdded _ _ _ rfl rfl

/-! ### Runs -/

/-- `Add` has not been called, and nothing is in its way. -/
structure Unadded (tray : TrayIcon) (d : TrayDesk) : Prop where
  owner : tray.owner = none
  added : tray.added = false
  ready : tray.Ready d

/-- Once `Add` has been called, the shell is as the members say. -/
def InStep (tray : TrayIcon) (d : TrayDesk) : Prop :=
  Unadded tray d ∨ tray.owner ≠ none ∧ tray.Held d

def GivenUp (tray : TrayIcon) (d : TrayDesk) : Prop :=
  tray.useGuid = false ∧ d.shell.icons .guid = none

/-- The members are in step with the shell, unless a message has been missed. -/
def Known (tray : TrayIcon) (d : TrayDesk) : Prop :=
  d.missed = false ∧ InStep tray d ∨ d.missed = true ∧ GivenUp tray d

theorem missed_act (move : ShellMove) (d : TrayDesk) :
    (trayContract.machine.act move d).missed = d.missed := by
  cases move with
  | exits => rfl
  | starts =>
    show (d.act .starts).missed = d.missed
    unfold TrayDesk.act
    dsimp only
    split <;> rfl

theorem stable_missed (missed : Bool) : trayContract.Stable fun d => d.missed = missed :=
  Contract.stable_of_kept missed_act (· = missed)

theorem stable_givenUp (tray : TrayIcon) : trayContract.Stable (GivenUp tray) :=
  (Contract.stable_const _).and (stable_absent .guid)

theorem stable_unadded (tray : TrayIcon) : trayContract.Stable (Unadded tray) :=
  fun move d hmove hsingle h =>
    ⟨h.owner, h.added, tray.stable_ready move d hmove hsingle h.ready⟩

theorem stable_inStep (tray : TrayIcon) : trayContract.Stable (InStep tray) :=
  (stable_unadded tray).or ((Contract.stable_const _).and tray.stable_held)

theorem stable_known (tray : TrayIcon) : trayContract.Stable (Known tray) :=
  ((stable_missed false).and (stable_inStep tray)).or
    ((stable_missed true).and (stable_givenUp tray))

/-- Calls by the `uID` leave what the GUID stands for. -/
theorem handle_givenUp {t : TrayIcon} (h : t.useGuid = false) (request : TrayRequest) :
    trayContract.Spec (fun d => d.shell.icons .guid = none) (t.handle request)
      fun _ d => d.shell.icons .guid = none := by
  have hidentity : t.identity = .uid := by simp [TrayIcon.identity, h]
  have hnames := TrayIcon.handle_names (I := (· = .uid)) hidentity rfl request
  refine Contract.Spec.every (stable_absent _) (hnames.mono fun op hop => ?_)
  intro d reply hsingle habsent _
  cases op with
  | notifyIcon message nid =>
    suffices hafter : (d.shell.notify message nid reply.accepts).2.icons .guid = none ∧
        ((d.shell.notify message nid reply.accepts).2.running = false →
          (d.shell.notify message nid reply.accepts).2.icons .uid = none) by
      refine ⟨⟨fun id hne => ?_, fun hended id => ?_⟩, hafter.1⟩
      · cases id with
        | guid => exact absurd hafter.1 hne
        | uid => exact hafter.1
      · cases id with
        | guid => exact hafter.1
        | uid => exact hafter.2 hended
    have huid : nid.identity = .uid := hop
    have hother : ∀ icon, (d.shell.set nid.identity icon).icons .guid = none := by
      intro icon
      rw [huid]
      exact (d.shell.set_other .uid icon).trans habsent
    unfold Shell.notify
    split
    · exact ⟨habsent, fun hended => hsingle.ended hended _⟩
    · rename_i hrunning
      split
      · split
        · exact ⟨hother _, fun hended => absurd hended hrunning⟩
        · exact ⟨habsent, fun hended => absurd hended hrunning⟩
      · exact ⟨habsent, fun hended => absurd hended hrunning⟩
      · exact ⟨habsent, fun hended => absurd hended hrunning⟩
      · exact ⟨hother _, fun hended => absurd hended hrunning⟩
      · exact ⟨hother _, fun hended => absurd hended hrunning⟩
      · exact ⟨habsent, fun hended => absurd hended hrunning⟩
      · exact ⟨hother _, fun hended => absurd hended hrunning⟩
  | _ => exact hop.elim

/-- The message that is missed next is not one of this request. -/
theorem handle_kept {t : TrayIcon} {P : TrayDesk → Prop} {Q : TrayIcon → TrayDesk → Prop}
    (request : TrayRequest) (h : trayContract.Spec P (t.handle request) Q) (missed : Bool) :
    trayContract.Spec (fun d => P d ∧ d.missed = missed) (t.handle request)
      fun t' d => Q t' d ∧ d.missed = missed := by
  refine h.frame (stable_missed missed) ?_
  have hnames := t.handle_names (I := fun _ => True) trivial trivial request
  refine hnames.mono fun op hop => ?_
  cases op with
  | notifyIcon message nid => exact fun _ _ h => h
  | _ => exact hop.elim

/-- Where the thread waits, the members and the shell are in step, or a message has been missed. -/
def Between (d : TrayDesk) : Prop := Known d.tray d

theorem tray_act (move : ShellMove) (d : TrayDesk) : (d.act move).tray = d.tray := by
  cases move with
  | exits => rfl
  | starts =>
    unfold TrayDesk.act
    dsimp only
    split <;> rfl

theorem stable_between : trayContract.Stable Between := by
  intro move d hmove hsingle h
  show Known (d.act move).tray (d.act move)
  rw [tray_act]
  exact stable_known d.tray move d hmove hsingle h

theorem stable_members (tray : TrayIcon) : trayContract.Stable fun d => d.tray = tray :=
  Contract.stable_of_kept tray_act (· = tray)

theorem members_spec :
    trayContract.Spec Between (callTray .members) fun tray d => Known tray d ∧ d.tray = tray :=
  Contract.Spec.perform stable_between (fun tray => (stable_known tray).and (stable_members tray))
    fun _ _ hsingle h _ => ⟨hsingle, h, rfl⟩

/-- What is known when a request has come. -/
def Requested (tray : TrayIcon) (request : TrayRequest) (d : TrayDesk) : Prop :=
  (Unadded tray d ∧ request.Later ∨
    tray.Awaits d request ∧ (request.Later → tray.owner ≠ none)) ∧ d.missed = false ∨
      GivenUp tray d ∧ d.missed = true

theorem stable_requested (tray : TrayIcon) (request : TrayRequest) :
    trayContract.Stable (Requested tray request) := by
  have hawaits : trayContract.Stable fun d => tray.Awaits d request := by
    cases request with
    | add | recreate => exact tray.stable_ready
    | _ => exact tray.stable_held
  refine Contract.Stable.or (Contract.Stable.and (Contract.Stable.or ?_ ?_) (stable_missed _))
    ((stable_givenUp tray).and (stable_missed _))
  · exact (stable_unadded tray).and (Contract.stable_const _)
  · exact hawaits.and (Contract.stable_const _)

theorem Unadded.receives {tray : TrayIcon} {d : TrayDesk} (h : Unadded tray d)
    (request : TrayRequest) : Unadded tray (d.receives request) := by
  refine ⟨h.owner, h.added, ?_⟩
  unfold TrayDesk.receives
  split <;> exact h.ready

/-- Before `Add` the shell has no icon by the `uID`, so none is in the way of a message. -/
theorem Unadded.unmissed {d : TrayDesk} (h : Unadded d.tray d) (request : TrayRequest) :
    (d.receives request).missed = d.missed := by
  have hready := h.ready
  unfold TrayIcon.Ready at hready
  unfold TrayDesk.receives
  split
  · split at hready
    · rename_i hguid
      simp [hguid]
    · simp [hready .uid]
  · rfl

theorem requested_of_known {tray : TrayIcon} {d : TrayDesk} (h : Known tray d)
    (htray : d.tray = tray) {request : TrayRequest} (hcomes : request.Comes d) :
    Requested tray request (d.receives request) := by
  subst htray
  obtain ⟨hmissed, hunadded | ⟨howner, hheld⟩⟩ | ⟨hmissed, hgiven⟩ := h
  · refine .inl ⟨?_, (hunadded.unmissed request).trans hmissed⟩
    cases request with
    | add owner callbackMessage icon tooltip =>
      exact .inr ⟨(hunadded.receives _).ready, False.elim⟩
    | _ => exact .inl ⟨hunadded.receives _, trivial⟩
  · cases request with
    | add owner callbackMessage icon tooltip => exact absurd hcomes howner
    | recreate =>
      cases hinWay : !d.tray.useGuid && (d.shell.icons .uid).isSome with
      | true =>
        -- The message comes while the shell has the icon by its `uID`.
        obtain ⟨hguid, huid⟩ := Bool.and_eq_true_iff.mp hinWay
        have hnoGuid : d.tray.useGuid = false := by simpa using hguid
        obtain ⟨icon, hicon⟩ := Option.isSome_iff_exists.mp huid
        refine .inr ⟨⟨hnoGuid, ?_⟩, by simp [TrayDesk.receives, hinWay]⟩
        unfold TrayIcon.Held TrayIcon.identity at hheld
        rw [hnoGuid] at hheld
        split at hheld
        · exact hheld.other
        · exact hheld .guid
      | false =>
        refine .inl ⟨.inr ⟨?_, fun _ => howner⟩, by simp [TrayDesk.receives, hinWay, hmissed]⟩
        refine hheld.ready ?_
        rw [Bool.and_eq_false_iff] at hinWay
        exact hinWay.imp (by simp) fun hnone => by simpa using hnone
    | setTooltip tooltip => exact .inl ⟨.inr ⟨hheld, fun _ => howner⟩, hmissed⟩
    | showBalloon title text => exact .inl ⟨.inr ⟨hheld, fun _ => howner⟩, hmissed⟩
    | setFocus => exact .inl ⟨.inr ⟨hheld, fun _ => howner⟩, hmissed⟩
    | remove => exact .inl ⟨.inr ⟨hheld, fun _ => howner⟩, hmissed⟩
  · refine .inr ⟨?_, ?_⟩
    · unfold TrayDesk.receives
      split <;> exact hgiven
    · unfold TrayDesk.receives
      split <;> simp [hmissed]

theorem getMessage_spec (tray : TrayIcon) :
    trayContract.Spec (fun d => Known tray d ∧ d.tray = tray) (callTray .getMessage)
      fun request => Requested tray request := by
  refine Contract.Spec.perform ((stable_known tray).and (stable_members tray))
    (fun request => stable_requested tray request) fun d reply hsingle h hcomes => ⟨?_, ?_⟩
  · show Single (d.receives reply.request)
    unfold TrayDesk.receives
    split <;> exact ⟨hsingle.one, hsingle.ended⟩
  · exact requested_of_known h.1 h.2 hcomes

/-- Before `Add` has been called, another request leaves it so. -/
theorem handle_unadded {t : TrayIcon} {request : TrayRequest} (hlater : request.Later) :
    trayContract.Spec (Unadded t) (t.handle request) Unadded := by
  have hkept : ∀ (message : NotifyMessage) (nid : NotifyIconData) (after : TrayIcon),
      after.owner = t.owner → (t.added = false → after.added = false) →
        after.useGuid = t.useGuid →
          trayContract.Spec (Unadded t) (t.ifAdded message nid after) Unadded := by
    rintro message nid after howner hadded hguid d hsingle h
    rw [TrayIcon.ifAdded, if_neg (by simp [h.added])]
    refine Contract.Spec.ret (stable_unadded t) (fun d _ h => ?_) d hsingle h
    refine ⟨howner.trans h.owner, hadded h.added, ?_⟩
    unfold TrayIcon.Ready
    rw [hguid]
    exact h.ready
  cases request with
  | add owner callbackMessage icon tooltip => exact hlater.elim
  | recreate =>
    rintro d hsingle h
    refine ((TrayIcon.addAs_ownerless (t := { t with added := false }) h.owner).bind
      fun result => ?_) d hsingle h.ready
    rintro d hsingle ⟨howner, hadded, hbare⟩
    exact Contract.Spec.ret stable_bare
      (fun _ _ h => ⟨howner, hadded, TrayIcon.Bare.ready h result.2⟩) d hsingle hbare
  | setTooltip tooltip => exact hkept _ _ _ rfl id rfl
  | showBalloon title text => exact hkept _ _ _ rfl id rfl
  | setFocus => exact hkept _ _ _ rfl id rfl
  | remove => exact hkept _ _ _ rfl (fun _ => rfl) rfl

theorem handle_inStep {t : TrayIcon} {request : TrayRequest}
    (howner : request.Later → t.owner ≠ none) :
    trayContract.Spec (fun d => t.Awaits d request ∧ d.missed = false) (t.handle request)
      fun t' d => d.missed = false ∧ InStep t' d := by
  have hheld := (TrayIcon.handle_spec request).returns (TrayIcon.handle_returns (t := t) request)
  refine (handle_kept request hheld false).post fun t' d h => ⟨h.2, .inr ⟨?_, ?_⟩⟩
  · intro hnone
    obtain ⟨hrequest, hsame⟩ := h.1.2.2 hnone
    exact absurd hsame (howner hrequest)
  · exact h.1.1

theorem handle_stays {t : TrayIcon} (hguid : t.useGuid = false) (request : TrayRequest) :
    trayContract.Spec (fun d => d.shell.icons .guid = none ∧ d.missed = true) (t.handle request)
      fun t' d => d.missed = true ∧ GivenUp t' d := by
  have hgiven := (handle_givenUp hguid request).returns (TrayIcon.handle_returns (t := t) request)
  exact (handle_kept request hgiven true).post fun t' d h =>
    ⟨h.2, h.1.2.1 hguid, h.1.1⟩

theorem handle_known (t : TrayIcon) (request : TrayRequest) :
    trayContract.Spec (Requested t request) (t.handle request) Known := by
  refine Contract.Spec.or (fun d hsingle h => ?_) fun d hsingle h => ?_
  · obtain ⟨⟨hunadded, hlater⟩ | ⟨hawaits, howner⟩, hmissed⟩ := h
    · exact ((handle_kept request (handle_unadded hlater) false).post
        fun _ _ h => ⟨h.2, .inl h.1⟩) d hsingle ⟨hunadded, hmissed⟩
    · exact handle_inStep howner d hsingle ⟨hawaits, hmissed⟩
  · exact handle_stays h.1.1 request d hsingle ⟨h.1.2, h.2⟩

theorem setMembers_spec (tray : TrayIcon) :
    trayContract.Spec (Known tray) (callTray (.setMembers tray)) fun _ => Between := by
  refine Contract.Spec.perform (stable_known tray) (fun _ => stable_between)
    fun d reply hsingle h _ => ⟨⟨hsingle.one, hsingle.ended⟩, ?_⟩
  refine h.imp (fun ⟨hmissed, hstep⟩ => ⟨hmissed, hstep.imp ?_ ?_⟩) id
  · exact fun hunadded => ⟨hunadded.owner, hunadded.added, hunadded.ready⟩
  · exact fun ⟨howner, hheld⟩ => ⟨howner, hheld.same rfl rfl⟩

theorem handleRequest_spec :
    trayContract.Spec Between handleRequest fun _ => Between :=
  members_spec.bind fun tray => (getMessage_spec tray).bind fun request =>
    (handle_known tray request).bind fun tray' => setMembers_spec tray'

/-- The program starts; the shell may still have an icon of the GUID, from a program that was
killed. -/
structure Starts (d : TrayDesk) : Prop where
  single : Single d
  uid_absent : d.shell.icons .uid = none
  tray : d.tray = .initial
  missed : d.missed = false

theorem Starts.between {d : TrayDesk} (h : Starts d) : Between d := by
  refine .inl ⟨h.missed, .inl ?_⟩
  rw [h.tray]
  exact ⟨rfl, rfl, h.uid_absent⟩

theorem starts_crash {d : TrayDesk} (h : Single d) : Starts d.crash where
  single := by
    have hother : d.crash.shell.icons .guid = d.shell.icons .guid := d.shell.set_other .uid none
    have huid : d.crash.shell.icons .uid = none := d.shell.set_same .uid none
    refine ⟨fun id hne => ?_, fun hended id => ?_⟩
    · cases id with
      | guid => exact huid
      | uid => exact absurd huid hne
    · cases id with
      | guid => exact hother.trans (h.ended hended .guid)
      | uid => exact huid
  uid_absent := d.shell.set_same .uid none
  tray := rfl
  missed := rfl

/-- In every run, with any calls of the members, Explorer ending and starting again between any two
calls of the shell, new icons refused, and kills: the shell never has two icons of the program.
Where no call is under way and the icon has been added once, the icon that the shell has, if any,
is that of the members, with the last tooltip; it has one if the members say so, Explorer runs and
has no message of its start waiting; and it has none if they say so.  Only after a fall back to the
`uID` can this fail, and only by a `TaskbarCreated` that is handled while the shell has the icon. -/
theorem icon_in_step {d : TrayDesk} (hd : Starts d) {es : List (Event TrayReply ShellMove)}
    (hes : trayRules.Admitted trayMachine handleRequest ⟨d, none⟩ es) :
    let c := trayMachine.run handleRequest ⟨d, none⟩ es
    (∀ id, c.state.shell.icons id ≠ none → c.state.shell.icons id.other = none) ∧
      (c.Idle → c.state.missed = true → c.state.tray.useGuid = false) ∧
      (c.Idle → c.state.missed = false → c.state.tray.owner ≠ none →
        (∀ id icon, c.state.shell.icons id = some icon →
          id = c.state.tray.identity ∧ icon = c.state.tray.expected) ∧
        (c.state.shell.running = true → c.state.created = 0 →
          (c.state.tray.added = true ↔ ∃ id, c.state.shell.icons id ≠ none))) := by
  intro c
  have hgood : trayContract.Good Between (fun _ => Between) c :=
    Contract.sound stable_between
      (fun s _ hsingle => ⟨(starts_crash hsingle).single, (starts_crash hsingle).between⟩)
      (fun _ _ _ h => h) handleRequest_spec (fun _ _ _ h => h)
      (Contract.Good.between hd.single hd.between) hes
  refine ⟨hgood.inv.one, fun hidle hmissed => ?_, fun hidle hmissed howner => ?_⟩
  · have hbetween := hgood.of_idle hidle fun _ _ _ h => h
    obtain ⟨hnot, -⟩ | ⟨-, hgiven⟩ := hbetween
    · exact absurd (hnot.symm.trans hmissed) Bool.false_ne_true
    · exact hgiven.1
  · have hbetween := hgood.of_idle hidle fun _ _ _ h => h
    obtain ⟨-, hunadded | ⟨-, hheld⟩⟩ | ⟨hnot, -⟩ := hbetween
    · exact absurd hunadded.owner howner
    · exact hheld.shows
    · exact absurd (hmissed.symm.trans hnot) Bool.false_ne_true

namespace Sample

/-- Explorer runs and has an icon that was left behind. -/
def desk : TrayDesk where
  shell := ⟨true, fun id => if id = .guid then some ⟨some 1, 0, 0, wide "left", 4⟩ else none, []⟩
  created := 0
  tray := .initial
  missed := false

/-- A call of a member, and more calls of the shell than it makes. -/
def request (request : TrayRequest) (accepts : Bool) : List (Event TrayReply ShellMove) :=
  .start :: List.replicate 9 (.call ⟨request, accepts⟩)

/-- Explorer ends after the icon has been added, and comes again. -/
def restarted : List (Event TrayReply ShellMove) :=
  request (.add 2 1 7 (wide "Steam Sales - Ready")) true ++ [.act .exits] ++
    request (.setTooltip (wide "Steam Sales - Updating…")) true ++ [.act .starts] ++
    request .recreate true

/-- The icon is added by its `uID`, as the GUID is refused, before the message of the start of
Explorer is handled. -/
def lateMessage : List (Event TrayReply ShellMove) :=
  [.act .exits, .act .starts, .start] ++
    (List.replicate 4 (.call ⟨.add 2 1 7 (wide "Steam Sales - Ready"), false⟩) ++
      List.replicate 3 (.call ⟨.remove, true⟩)) ++
    request .recreate true ++ request (.setTooltip (wide "Steam Sales - Updating…")) true

theorem starts : Starts desk where
  single := by
    refine ⟨fun id hne => ?_, nofun⟩
    cases id with
    | guid => rfl
    | uid => exact absurd rfl hne
  uid_absent := rfl
  tray := rfl
  missed := rfl

end Sample

theorem icon_in_step_restarted :
    let c := trayMachine.run handleRequest ⟨Sample.desk, none⟩ Sample.restarted
    (c.state.tray.added = true ↔ ∃ id, c.state.shell.icons id ≠ none) ∧
      c.state.shell.icons .guid = some ⟨some 2, 1, 7, wide "Steam Sales - Updating…", 4⟩ := by
  intro c
  have hadmitted : trayRules.Admitted trayMachine handleRequest ⟨Sample.desk, none⟩
    Sample.restarted := by decide +kernel
  have h := (icon_in_step Sample.starts hadmitted).2.2 (by decide +kernel) (by decide +kernel)
    (by decide +kernel)
  exact ⟨h.2 (by decide +kernel) (by decide +kernel), by decide +kernel⟩

/-- A message that is missed: the icon stays as it was, and the members say that there is none. -/
theorem icon_left_behind :
    let c := trayMachine.run handleRequest ⟨Sample.desk, none⟩ Sample.lateMessage
    trayRules.Admitted trayMachine handleRequest ⟨Sample.desk, none⟩ Sample.lateMessage ∧
      c.state.missed = true ∧ c.state.tray.added = false ∧
      c.state.shell.icons .uid = some ⟨some 2, 1, 7, wide "Steam Sales - Ready", 4⟩ := by
  decide +kernel

end SteamSalesTray.Tray
