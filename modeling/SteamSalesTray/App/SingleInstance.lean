import Mathlib.Logic.Function.Basic
import Mathlib.Logic.Relation
import SteamSalesTray.Text

/-! The launches of the program in one session of Windows: the first process owns the mutex and the
tray, and each later one hands its action over to the window that it finds, while processes start,
end and are killed between any two steps. -/

namespace SteamSalesTray.App.SingleInstance

/-! ### The command line and the messages -/

inductive LaunchAction where
  | normal
  | settings
  | refresh
deriving DecidableEq, Repr

structure LaunchOptions where
  action : LaunchAction
  background : Bool
deriving DecidableEq, Repr

def parseArgument (opts : LaunchOptions) (arg : Wide) : LaunchOptions :=
  if arg = wide "--settings" then { opts with action := .settings }
  else if arg = wide "--refresh" then { opts with action := .refresh }
  else if arg = wide "--background" then { opts with background := true }
  else opts

/-- The first argument is the program. -/
def parseCommandLine (argv : List Wide) : LaunchOptions :=
  (argv.drop 1).foldl parseArgument ⟨.normal, false⟩

def kRegMsgShowSales : Wide := wide "SteamSalesTray.ShowSales.v1"

def kRegMsgShowSettings : Wide := wide "SteamSalesTray.ShowSettings.v1"

def kRegMsgRefresh : Wide := wide "SteamSalesTray.Refresh.v1"

def kRegMsgTaskbarCreated : Wide := wide "TaskbarCreated"

/-- The message of an action.  A registered message is known by its name. -/
def LaunchAction.message : LaunchAction → Wide
  | .settings => kRegMsgShowSettings
  | .refresh => kRegMsgRefresh
  | .normal => kRegMsgShowSales

/-- `RegisterWindowMessage`; `none` is the 0 of a failure, which is the number of no message that is
posted. -/
def registerWindowMessage (succeeds : Bool) (name : Wide) : Option Wide :=
  if succeeds then some name else none

/-- The members `msgTaskbarCreated_`, `msgShowSales_`, `msgShowSettings_` and `msgRefresh_`. -/
structure AppMessages where
  taskbarCreated : Option Wide
  showSales : Option Wide
  showSettings : Option Wide
  refresh : Option Wide
deriving DecidableEq, Repr

/-- The registrations of a process, of which any can fail. -/
def registerAppMessages (registers : Wide → Bool) : AppMessages where
  taskbarCreated := registerWindowMessage (registers kRegMsgTaskbarCreated) kRegMsgTaskbarCreated
  showSales := registerWindowMessage (registers kRegMsgShowSales) kRegMsgShowSales
  showSettings := registerWindowMessage (registers kRegMsgShowSettings) kRegMsgShowSettings
  refresh := registerWindowMessage (registers kRegMsgRefresh) kRegMsgRefresh

inductive AppCommand where
  | recreateIcon
  | showSales
  | openSettings
  | refreshNow
deriving DecidableEq, Repr

/-- What `App::HandleMessage` does with a registered message.  A member that is 0 matches none. -/
def handleMessage (m : AppMessages) (message : Wide) : Option AppCommand :=
  if m.taskbarCreated = some message then some .recreateIcon
  else if m.showSales = some message then some .showSales
  else if m.showSettings = some message then some .openSettings
  else if m.refresh = some message then some .refreshNow
  else none

/-- What an action asks of the program. -/
def LaunchAction.command : LaunchAction → AppCommand
  | .normal => .showSales
  | .settings => .openSettings
  | .refresh => .refreshNow

theorem registerWindowMessage_eq_some {succeeds : Bool} {name message : Wide} :
    registerWindowMessage succeeds name = some message ↔ succeeds = true ∧ name = message := by
  cases succeeds <;> simp [registerWindowMessage]

/-- An owner reads the command of an action, if it could register the message. -/
theorem handleMessage_message (registers : Wide → Bool) (action : LaunchAction) :
    handleMessage (registerAppMessages registers) action.message =
      if registers action.message then some action.command else none := by
  -- The four names differ, so each message is compared with its own member.
  cases action <;>
    simp +decide only [handleMessage, registerAppMessages, registerWindowMessage_eq_some,
      LaunchAction.message, LaunchAction.command, and_false, and_true, if_false] <;>
    exact if_congr Iff.rfl rfl rfl

/-! ### The user -/

/-- What the calls for the process token answer: `OpenProcessToken`, the size that the first
`GetTokenInformation` asks for, the second one, and `ConvertSidToStringSid`. -/
structure TokenAnswers where
  opened : Bool
  size : Nat
  filled : Bool
  sid : Option Wide
deriving DecidableEq, Repr

def getCurrentUserToken (token : TokenAnswers) : Wide :=
  if token.opened then
    if token.size = 0 then wide "default"
    else if token.filled then token.sid.getD (wide "default")
    else wide "default"
  else wide "default"

/-- The SID that the calls give, if none of them fails. -/
def TokenAnswers.read (token : TokenAnswers) : Option Wide :=
  if token.opened ∧ token.size ≠ 0 ∧ token.filled then token.sid else none

theorem getCurrentUserToken_eq (token : TokenAnswers) :
    getCurrentUserToken token = token.read.getD (wide "default") := by
  unfold getCurrentUserToken TokenAnswers.read
  by_cases hopened : token.opened = true <;> by_cases hsize : token.size = 0 <;>
    by_cases hfilled : token.filled = true <;> simp [hopened, hsize, hfilled]

/-- What Windows answers to a process about its user and about the messages of its window. -/
structure ProcessAnswers where
  token : TokenAnswers
  registers : Wide → Bool

def ProcessAnswers.userToken (answers : ProcessAnswers) : Wide := getCurrentUserToken answers.token

def ProcessAnswers.messages (answers : ProcessAnswers) : AppMessages :=
  registerAppMessages answers.registers

/-! ### Processes -/

def mutexName (userToken : Wide) : Wide := wide "Local\\SteamSalesTray-" ++ userToken

/-- How a process ends: as the owner of the tray, without its window, with its action handed over
to a process or not, or by a kill.  `refused` is a `PostMessage` that fails, which the program does
not look at. -/
inductive Ending where
  | closed
  | failed
  | forwarded (target : Nat)
  | noWindow
  | noMessage
  | refused
  | windowGone
  | killed
deriving DecidableEq, Repr

/-- Where a process is in `wWinMain`.  The first one opens its window, serves it and closes; another
one looks for the window and posts to it. -/
inductive Place where
  | notStarted
  | started
  | opening
  | serving
  | closing
  | looking
  | posting (target : Nat)
  | leaving (ending : Ending)
  | exited (ending : Ending)
deriving DecidableEq, Repr

/-- A message that was posted, with the process that it is from. -/
structure Posting where
  sender : Nat
  message : Wide
deriving DecidableEq, Repr

/-- A process, with the name of the mutex that it has a handle of, and the messages that were
posted to its window: those that it has taken, and those that wait.  What waits when the window is
destroyed is never taken. -/
structure Process where
  argv : List Wide
  place : Place
  handle : Option Wide
  taken : List Posting
  queue : List Posting
deriving DecidableEq, Repr

namespace Process

def initial : Process := ⟨[], .notStarted, none, [], []⟩

def action (p : Process) : LaunchAction := (parseCommandLine p.argv).action

/-- `IsPrimary`, from the mutex to the end. -/
def Primary (p : Process) : Prop :=
  match p.place with
  | .opening | .serving | .closing => True
  | _ => False

instance (p : Process) : Decidable p.Primary := by
  unfold Primary
  split <;> infer_instance

/-- The process that this one has handed its action over to. -/
def forwardedTo (p : Process) : Option Nat :=
  match p.place with
  | .leaving (.forwarded target) | .exited (.forwarded target) => some target
  | _ => none

/-- What was posted to the window, in its order. -/
def postings (p : Process) : List Posting := p.taken ++ p.queue

end Process

/-- The processes by their ids. -/
abbrev Session := Nat → Process

def Session.initial : Session := fun _ => .initial

/-- The steps of the processes.  `CreateMutex` answers whether the mutex existed, if it succeeds;
`FindWindow` answers the process of the window. -/
inductive Step where
  | launch (p : Nat) (argv : List Wide)
  | createMutex (p : Nat) (existed : Option Bool)
  | createWindow (p : Nat) (succeeds : Bool)
  | findWindow (p : Nat) (found : Option Nat)
  | postMessage (p : Nat) (registered posted : Bool)
  | takeMessage (p : Nat)
  | destroyWindow (p : Nat)
  | exit (p : Nat)
  | kill (p : Nat)
deriving DecidableEq, Repr

namespace Session

variable (userToken : Nat → Wide) (s : Session)

def set (p : Nat) (process : Process) : Session := Function.update s p process

/-- A `PostMessage` that is not refused, to the window of a process, if it is still there. -/
def post (p target : Nat) : Session :=
  if (s target).place = .serving then
    (s.set target { s target with
      queue := (s target).queue ++ [⟨p, (s p).action.message⟩] }).set p
        { s p with place := .leaving (.forwarded target) }
  else s.set p { s p with place := .leaving .windowGone }

/-- One step; `none` is a step that cannot be made there. -/
def step : Step → Option Session
  | .launch p argv =>
    match (s p).place with
    | .notStarted => some (s.set p { s p with argv := argv, place := .started })
    | _ => none
  | .createMutex p existed =>
    match (s p).place, existed with
    | .started, some false =>
      some (s.set p { s p with place := .opening, handle := some (mutexName (userToken p)) })
    | .started, some true =>
      some (s.set p { s p with place := .looking, handle := some (mutexName (userToken p)) })
    | .started, none => some (s.set p { s p with place := .looking })
    | _, _ => none
  | .createWindow p succeeds =>
    match (s p).place with
    | .opening =>
      some (s.set p { s p with place := if succeeds then .serving else .leaving .failed })
    | _ => none
  | .findWindow p found =>
    match (s p).place, found with
    | .looking, some target => some (s.set p { s p with place := .posting target })
    | .looking, none => some (s.set p { s p with place := .leaving .noWindow })
    | _, _ => none
  | .postMessage p registered posted =>
    match (s p).place with
    | .posting target =>
      if registered then
        if posted then some (s.post p target)
        else some (s.set p { s p with place := .leaving .refused })
      else some (s.set p { s p with place := .leaving .noMessage })
    | _ => none
  | .takeMessage p =>
    match (s p).place, (s p).queue with
    | .serving, posting :: rest =>
      some (s.set p { s p with taken := (s p).taken ++ [posting], queue := rest })
    | _, _ => none
  | .destroyWindow p =>
    match (s p).place with
    | .serving => some (s.set p { s p with place := .closing })
    | _ => none
  | .exit p =>
    match (s p).place with
    | .closing => some (s.set p { s p with place := .exited .closed, handle := none })
    | .leaving ending => some (s.set p { s p with place := .exited ending, handle := none })
    | _ => none
  | .kill p =>
    match (s p).place with
    | .notStarted | .exited _ => none
    | .leaving ending => some (s.set p { s p with place := .exited ending, handle := none })
    | _ => some (s.set p { s p with place := .exited .killed, handle := none })

/-- What Windows answers: a mutex exists while a process has a handle of it, and a window while its
process serves it. -/
def Answers : Step → Prop
  | .createMutex p (some existed) =>
    existed = true ↔ ∃ q, (s q).handle = some (mutexName (userToken p))
  | .findWindow _ (some target) => (s target).place = .serving
  | .findWindow _ none => ∀ q, (s q).place ≠ .serving
  | _ => True

def Next (s' : Session) : Prop := ∃ a, s.Answers userToken a ∧ s.step userToken a = some s'

/-- The sessions that runs from no process lead to. -/
def Reached : Prop := Relation.ReflTransGen (Next userToken) .initial s

end Session

/-! ### What a step can do -/

/-- What a step makes of the process that takes it, short of posting its message; `gone` holds of
the processes without a window. -/
inductive Moves (name : Wide) (gone : Nat → Prop) (process : Process) :
    Step → Process → Prop where
  | launches (p argv) (h : process.place = .notStarted) :
      Moves name gone process (.launch p argv) { process with argv := argv, place := .started }
  | creates (p) (h : process.place = .started) :
      Moves name gone process (.createMutex p (some false))
        { process with place := .opening, handle := some name }
  | opens (p) (h : process.place = .started) :
      Moves name gone process (.createMutex p (some true))
        { process with place := .looking, handle := some name }
  | noMutex (p) (h : process.place = .started) :
      Moves name gone process (.createMutex p none) { process with place := .looking }
  | shows (p) (h : process.place = .opening) :
      Moves name gone process (.createWindow p true) { process with place := .serving }
  | fails (p) (h : process.place = .opening) :
      Moves name gone process (.createWindow p false) { process with place := .leaving .failed }
  | finds (p target) (h : process.place = .looking) :
      Moves name gone process (.findWindow p (some target))
        { process with place := .posting target }
  | findsNone (p) (h : process.place = .looking) :
      Moves name gone process (.findWindow p none) { process with place := .leaving .noWindow }
  | noMessage (p target posted) (h : process.place = .posting target) :
      Moves name gone process (.postMessage p false posted)
        { process with place := .leaving .noMessage }
  | refused (p target) (h : process.place = .posting target) :
      Moves name gone process (.postMessage p true false)
        { process with place := .leaving .refused }
  | windowGone (p target) (h : process.place = .posting target) (hgone : gone target) :
      Moves name gone process (.postMessage p true true)
        { process with place := .leaving .windowGone }
  | takes (p posting rest) (h : process.place = .serving)
      (hqueue : process.queue = posting :: rest) :
      Moves name gone process (.takeMessage p)
        { process with taken := process.taken ++ [posting], queue := rest }
  | closes (p) (h : process.place = .serving) :
      Moves name gone process (.destroyWindow p) { process with place := .closing }
  | exits (p) (h : process.place = .closing) :
      Moves name gone process (.exit p) { process with place := .exited .closed, handle := none }
  | leaves (p ending a) (h : process.place = .leaving ending) (ha : a = .exit p ∨ a = .kill p) :
      Moves name gone process a { process with place := .exited ending, handle := none }
  | killed (p) (hborn : process.place ≠ .notStarted) (hlives : ∀ e, process.place ≠ .exited e)
      (hstays : ∀ e, process.place ≠ .leaving e) :
      Moves name gone process (.kill p) { process with place := .exited .killed, handle := none }

/-- The process that takes a step. -/
def Step.process : Step → Nat
  | .launch p _ | .createMutex p _ | .createWindow p _ | .findWindow p _ | .postMessage p _ _
  | .takeMessage p | .destroyWindow p | .exit p | .kill p => p

/-- The process of a step moves to `process`. -/
def Session.Moved (userToken : Nat → Wide) (s : Session) (a : Step) (process : Process) : Prop :=
  Moves (mutexName (userToken a.process)) (fun target => (s target).place ≠ .serving)
    (s a.process) a process

namespace Session

variable {userToken : Nat → Wide} {s s' : Session} {a : Step}

/-- A step moves its process, or posts the message of it. -/
theorem step_cases (h : s.step userToken a = some s') :
    (∃ process, s.Moved userToken a process ∧
      s' = s.set a.process process) ∨
    ∃ target, (s a.process).place = .posting target ∧ (s target).place = .serving ∧
      s' = s.post a.process target := by
  cases a with
  | launch p argv =>
    cases hplace : (s p).place <;> simp [step, hplace] at h
    exact .inl ⟨_, .launches p argv hplace, h.symm⟩
  | createMutex p existed =>
    rcases existed with _ | _ | _ <;> cases hplace : (s p).place <;> simp [step, hplace] at h
    · exact .inl ⟨_, .noMutex p hplace, h.symm⟩
    · exact .inl ⟨_, .creates p hplace, h.symm⟩
    · exact .inl ⟨_, .opens p hplace, h.symm⟩
  | createWindow p succeeds =>
    cases succeeds <;> cases hplace : (s p).place <;> simp [step, hplace] at h
    · exact .inl ⟨_, .fails p hplace, h.symm⟩
    · exact .inl ⟨_, .shows p hplace, h.symm⟩
  | findWindow p found =>
    cases found <;> cases hplace : (s p).place <;> simp [step, hplace] at h
    · exact .inl ⟨_, .findsNone p hplace, h.symm⟩
    · exact .inl ⟨_, .finds p _ hplace, h.symm⟩
  | postMessage p registered posted =>
    cases registered <;> cases posted <;> cases hplace : (s p).place <;>
      simp [step, hplace] at h
    · exact .inl ⟨_, .noMessage p _ false hplace, h.symm⟩
    · exact .inl ⟨_, .noMessage p _ true hplace, h.symm⟩
    · exact .inl ⟨_, .refused p _ hplace, h.symm⟩
    · rename_i target
      by_cases hserving : (s target).place = .serving
      · exact .inr ⟨target, hplace, hserving, h.symm⟩
      · refine .inl ⟨_, .windowGone p target hplace hserving, ?_⟩
        rw [← h]
        exact if_neg hserving
  | takeMessage p =>
    cases hplace : (s p).place <;> simp [step, hplace] at h
    cases hqueue : (s p).queue with
    | nil => simp [hqueue] at h
    | cons posting rest =>
      simp only [hqueue, Option.some.injEq] at h
      refine .inl ⟨_, .takes p posting rest hplace hqueue, ?_⟩
      rw [← h]
      simp only [Step.process, hplace]
  | destroyWindow p =>
    cases hplace : (s p).place <;> simp [step, hplace] at h
    exact .inl ⟨_, .closes p hplace, h.symm⟩
  | exit p =>
    cases hplace : (s p).place <;> simp [step, hplace] at h
    · exact .inl ⟨_, .exits p hplace, h.symm⟩
    · exact .inl ⟨_, .leaves p _ _ hplace (.inl rfl), h.symm⟩
  | kill p =>
    cases hplace : (s p).place with
    | notStarted => simp [step, hplace] at h
    | exited ending => simp [step, hplace] at h
    | leaving ending =>
      simp only [step, hplace, Option.some.injEq] at h
      exact .inl ⟨_, .leaves p _ _ hplace (.inr rfl), h.symm⟩
    | _ =>
      simp only [step, hplace, Option.some.injEq] at h
      have hlives : (s (Step.kill p).process).place = _ := hplace
      exact .inl ⟨_, .killed p (by rw [hlives]; nofun) (fun _ => by rw [hlives]; nofun)
        (fun _ => by rw [hlives]; nofun), h.symm⟩

end Session

section Update

variable (s : Session) {p q target : Nat} {process : Process}

theorem Session.set_self : s.set p process p = process := Function.update_self ..

theorem Session.set_of_ne (h : q ≠ p) : s.set p process q = s q := Function.update_of_ne h ..

theorem Session.post_sender (hserving : (s target).place = .serving) :
    s.post p target p = { s p with place := .leaving (.forwarded target) } := by
  unfold Session.post
  rw [if_pos hserving, set_self]

theorem Session.post_target (hserving : (s target).place = .serving) (hne : target ≠ p) :
    s.post p target target =
      { s target with queue := (s target).queue ++ [⟨p, (s p).action.message⟩] } := by
  unfold Session.post
  rw [if_pos hserving, set_of_ne _ hne, set_self]

theorem Session.post_of_ne (hserving : (s target).place = .serving) (hp : q ≠ p)
    (ht : q ≠ target) : s.post p target q = s q := by
  unfold Session.post
  rw [if_pos hserving, set_of_ne _ hp, set_of_ne _ ht]

theorem Session.posting_ne (hplace : (s p).place = .posting target)
    (hserving : (s target).place = .serving) : target ≠ p := by
  rintro rfl
  cases hplace.symm.trans hserving

end Update

/-! ### One owner of the tray -/

/-- A process becomes the owner only by the mutex that it creates. -/
theorem Moves.primary {name : Wide} {gone : Nat → Prop} {process process' : Process} {a : Step}
    (h : Moves name gone process a process') (hprimary : process'.Primary) :
    process.Primary ∧ process'.handle = process.handle ∨
      a = .createMutex a.process (some false) ∧ process'.handle = some name := by
  unfold Process.Primary at hprimary ⊢
  cases h with
  | creates p h => exact .inr ⟨rfl, rfl⟩
  | shows p h => exact .inl ⟨by rw [h]; trivial, rfl⟩
  | takes p posting rest h hqueue => exact .inl ⟨by rw [h]; trivial, rfl⟩
  | closes p h => exact .inl ⟨by rw [h]; trivial, rfl⟩
  | launches | opens | noMutex | fails | finds | findsNone | noMessage | refused | windowGone
  | exits | leaves | killed => exact hprimary.elim

theorem Moves.handle {name : Wide} {gone : Nat → Prop} {process process' : Process} {a : Step}
    (h : Moves name gone process a process') :
    process'.handle = process.handle ∨ process'.handle = none ∨ process'.handle = some name := by
  cases h with
  | creates | opens => exact .inr (.inr rfl)
  | exits | leaves | killed => exact .inr (.inl rfl)
  | _ => exact .inl rfl

/-- Each owner has the mutex of its user, and of one user there is one. -/
structure Owned (userToken : Nat → Wide) (s : Session) : Prop where
  handle : ∀ p name, (s p).handle = some name → name = mutexName (userToken p)
  primary : ∀ p, (s p).Primary → (s p).handle = some (mutexName (userToken p))
  one : ∀ p q, (s p).Primary → (s q).Primary → userToken p = userToken q → p = q

namespace Owned

variable {userToken : Nat → Wide} {s s' : Session} {a : Step}

theorem initial : Owned userToken .initial := ⟨nofun, nofun, nofun⟩

/-- Nothing changes for the owners where every process keeps its handle, and no other one becomes
an owner. -/
theorem same (h : Owned userToken s) (hhandle : ∀ p, (s' p).handle = (s p).handle)
    (hprimary : ∀ p, (s' p).Primary → (s p).Primary) : Owned userToken s' where
  handle p name hname := h.handle p name (hhandle p ▸ hname)
  primary p hp := (hhandle p).trans (h.primary p (hprimary p hp))
  one p q hp hq := h.one p q (hprimary p hp) (hprimary q hq)

theorem post (h : Owned userToken s) {p target : Nat} (hplace : (s p).place = .posting target)
    (hserving : (s target).place = .serving) : Owned userToken (s.post p target) := by
  have hne := s.posting_ne hplace hserving
  have hpost : ∀ q, (s.post p target q).handle = (s q).handle ∧
      ((s.post p target q).Primary → (s q).Primary) := by
    intro q
    by_cases hq : q = p
    · rw [hq, s.post_sender hserving]
      exact ⟨rfl, False.elim⟩
    · by_cases hqt : q = target
      · rw [hqt, s.post_target hserving hne]
        exact ⟨rfl, id⟩
      · rw [s.post_of_ne hserving hq hqt]
        exact ⟨rfl, id⟩
  exact h.same (fun q => (hpost q).1) fun q => (hpost q).2

theorem moves (h : Owned userToken s) {process : Process} (hanswers : s.Answers userToken a)
    (hmoves : s.Moved userToken a process) :
    Owned userToken (s.set a.process process) := by
  -- Only a process that creates the mutex becomes an owner, and then no other one has a handle.
  have halone : process.Primary → (s a.process).Primary ∨
      ∀ q, (s q).Primary → userToken q ≠ userToken a.process := by
    intro hprimary
    obtain ⟨hbefore, -⟩ | ⟨ha, -⟩ := hmoves.primary hprimary
    · exact .inl hbefore
    · refine .inr fun q hq htoken => ?_
      rw [ha] at hanswers
      have hexists := hanswers.mpr ⟨q, by rw [← htoken]; exact h.primary q hq⟩
      cases hexists
  refine ⟨fun p name hname => ?_, fun p hp => ?_, fun p q hp hq htoken => ?_⟩
  · by_cases hpa : p = a.process
    · subst hpa
      rw [s.set_self] at hname
      obtain hsame | hnone | hsome := hmoves.handle
      · exact h.handle _ name (hsame.symm.trans hname)
      · cases hnone.symm.trans hname
      · exact (Option.some.inj (hsome.symm.trans hname)).symm
    · rw [s.set_of_ne hpa] at hname
      exact h.handle p name hname
  · by_cases hpa : p = a.process
    · subst hpa
      rw [s.set_self] at hp ⊢
      obtain ⟨hbefore, hsame⟩ | ⟨-, hsome⟩ := hmoves.primary hp
      · exact hsame.trans (h.primary _ hbefore)
      · exact hsome
    · rw [s.set_of_ne hpa] at hp ⊢
      exact h.primary p hp
  · by_cases hpa : p = a.process <;> by_cases hqa : q = a.process
    · exact hpa.trans hqa.symm
    · subst hpa
      rw [s.set_self] at hp
      rw [s.set_of_ne hqa] at hq
      obtain hbefore | hnone := halone hp
      · exact h.one _ _ hbefore hq htoken
      · exact absurd htoken.symm (hnone q hq)
    · subst hqa
      rw [s.set_self] at hq
      rw [s.set_of_ne hpa] at hp
      obtain hbefore | hnone := halone hq
      · exact h.one _ _ hp hbefore htoken
      · exact absurd htoken (hnone p hp)
    · rw [s.set_of_ne hpa] at hp
      rw [s.set_of_ne hqa] at hq
      exact h.one p q hp hq htoken

theorem next (h : Owned userToken s) (hnext : s.Next userToken s') : Owned userToken s' := by
  obtain ⟨a, hanswers, hstep⟩ := hnext
  obtain ⟨process, hmoves, rfl⟩ | ⟨target, hplace, hserving, rfl⟩ := Session.step_cases hstep
  · exact h.moves hanswers hmoves
  · exact h.post hplace hserving

end Owned

theorem Session.Reached.owned {userToken : Nat → Wide} {s : Session} (h : s.Reached userToken) :
    Owned userToken s := by
  induction h with
  | refl => exact .initial
  | tail _ hnext ih => exact ih.next hnext

/-! ### A launch that hands its action over -/

/-- A move tells nothing new of what a process has handed over, and keeps what was posted to its
window. -/
theorem Moves.keeps {name : Wide} {gone : Nat → Prop} {process process' : Process} {a : Step}
    (h : Moves name gone process a process') :
    process'.forwardedTo = process.forwardedTo ∧
      (process'.forwardedTo = none ∨ process'.action = process.action) ∧
      process'.postings = process.postings := by
  unfold Process.forwardedTo Process.postings
  cases h with
  | launches p argv h => exact ⟨by rw [h], .inl rfl, rfl⟩
  | takes p posting rest h hqueue =>
    refine ⟨rfl, .inr rfl, ?_⟩
    rw [hqueue, List.append_assoc]
    rfl
  | leaves p ending a h ha =>
    refine ⟨?_, .inr rfl, rfl⟩
    rw [h]
    cases ending <;> rfl
  | killed p hborn hlives hstays =>
    refine ⟨?_, .inl rfl, rfl⟩
    cases hplace : process.place with
    | leaving ending => exact absurd hplace (hstays ending)
    | exited ending => exact absurd hplace (hlives ending)
    | _ => rfl
  | creates p h | opens p h | noMutex p h | shows p h | fails p h | finds p target h
  | findsNone p h | noMessage p target posted h | refused p target h | windowGone p target h hgone
  | closes p h | exits p h =>
    exact ⟨by rw [h], .inr rfl, rfl⟩

/-- The window of `q` was posted exactly what each process has handed over to it: one message of
its action, from each that left so. -/
def Forwarded (s : Session) : Prop :=
  ∀ p q, (s q).postings.filter (·.sender = p) =
    if (s p).forwardedTo = some q then [⟨p, (s p).action.message⟩] else []

namespace Forwarded

variable {userToken : Nat → Wide} {s s' : Session} {a : Step}

theorem initial : Forwarded .initial := fun _ _ => rfl

theorem moves (h : Forwarded s) {process : Process}
    (hmoves : s.Moved userToken a process) :
    Forwarded (s.set a.process process) := by
  obtain ⟨hforwarded, haction, hpostings⟩ := hmoves.keeps
  intro p q
  have hq : (s.set a.process process q).postings = (s q).postings := by
    by_cases hqa : q = a.process
    · rw [hqa, s.set_self, hpostings]
    · rw [s.set_of_ne hqa]
  rw [hq, h p q]
  by_cases hpa : p = a.process
  · subst hpa
    rw [s.set_self, ← hforwarded]
    obtain hnone | hsame := haction
    · rw [hnone, if_neg nofun, if_neg nofun]
    · rw [hsame]
  · rw [s.set_of_ne hpa]

theorem post (h : Forwarded s) {p target : Nat} (hplace : (s p).place = .posting target)
    (hserving : (s target).place = .serving) : Forwarded (s.post p target) := by
  have hne := s.posting_ne hplace hserving
  have hnone : (s p).forwardedTo = none := by
    unfold Process.forwardedTo
    rw [hplace]
  -- The sender had posted nothing before, and of another one nothing changes.
  have hsender : ∀ q, (s q).postings.filter (·.sender = p) = [] := fun q => by
    rw [h p q, hnone, if_neg nofun]
  have hforwarded : ∀ r, r ≠ p → (s.post p target r).forwardedTo = (s r).forwardedTo ∧
      (s.post p target r).action = (s r).action := by
    intro r hr
    by_cases hrt : r = target
    · rw [hrt, s.post_target hserving hne]
      exact ⟨rfl, rfl⟩
    · rw [s.post_of_ne hserving hr hrt]
      exact ⟨rfl, rfl⟩
  intro r q
  have hpostings : (s.post p target q).postings =
      (s q).postings ++ if q = target then [⟨p, (s p).action.message⟩] else [] := by
    by_cases hqt : q = target
    · rw [if_pos hqt, hqt, s.post_target hserving hne]
      exact (List.append_assoc ..).symm
    · rw [if_neg hqt, List.append_nil]
      by_cases hqp : q = p
      · rw [hqp, s.post_sender hserving]
        rfl
      · rw [s.post_of_ne hserving hqp hqt]
  rw [hpostings, List.filter_append]
  by_cases hr : r = p
  · subst hr
    have hto : (s.post r target r).forwardedTo = some target := by
      rw [s.post_sender hserving]
      rfl
    have haction : (s.post r target r).action = (s r).action := by
      rw [s.post_sender hserving]
      rfl
    rw [hsender q, List.nil_append, hto, haction]
    by_cases hqt : q = target
    · rw [if_pos hqt, if_pos (congrArg some hqt.symm), List.filter_cons_of_pos (by simp),
        List.filter_nil]
    · rw [if_neg hqt, if_neg fun heq => hqt (Option.some.inj heq).symm, List.filter_nil]
  · obtain ⟨hto, haction⟩ := hforwarded r hr
    rw [hto, haction, h r q]
    by_cases hqt : q = target
    · rw [if_pos hqt, List.filter_cons_of_neg (by simpa using Ne.symm hr), List.filter_nil,
        List.append_nil]
    · rw [if_neg hqt, List.filter_nil, List.append_nil]

theorem next (h : Forwarded s) (hnext : s.Next userToken s') : Forwarded s' := by
  obtain ⟨a, -, hstep⟩ := hnext
  obtain ⟨process, hmoves, rfl⟩ | ⟨target, hplace, hserving, rfl⟩ := Session.step_cases hstep
  · exact h.moves hmoves
  · exact h.post hplace hserving

end Forwarded

theorem Session.Reached.forwarded {userToken : Nat → Wide} {s : Session}
    (h : s.Reached userToken) : Forwarded s := by
  induction h with
  | refl => exact .initial
  | tail _ hnext ih => exact ih.next hnext

/-- What the owner of the window of `q` reads of the messages that `p` sent there. -/
def Session.commands (answers : Nat → ProcessAnswers) (s : Session) (p q : Nat) :
    List (Option AppCommand) :=
  ((s q).postings.filter (·.sender = p)).map (handleMessage (answers q).messages ·.message)

/-- The command of `p` as the owner of the window of `q` reads it. -/
def Session.commandRead (answers : Nat → ProcessAnswers) (s : Session) (p q : Nat) :
    Option AppCommand :=
  if (answers q).registers (s p).action.message then some (s p).action.command else none

theorem Session.Reached.commands {userToken : Nat → Wide} {s : Session}
    (h : s.Reached userToken) (answers : Nat → ProcessAnswers) (p q : Nat) :
    s.commands answers p q =
      if (s p).forwardedTo = some q then [s.commandRead answers p q] else [] := by
  unfold Session.commands
  rw [h.forwarded p q]
  split
  · simp only [List.map_cons, List.map_nil, ProcessAnswers.messages, handleMessage_message,
      Session.commandRead]
  · rfl

/-! ### A launch beside a running owner -/

/-- How a process of the user of `q` can end while `q` serves its window. -/
def Ending.Beside (userToken : Nat → Wide) (q : Nat) : Ending → Prop
  | .forwarded target => target = q ∨ userToken target ≠ userToken q
  | .windowGone => ∃ r, userToken r ≠ userToken q
  | .noMessage | .refused | .killed => True
  | .closed | .failed | .noWindow => False

def Place.Beside (userToken : Nat → Wide) (q : Nat) : Place → Prop
  | .notStarted | .started | .looking => True
  | .posting target => target = q ∨ userToken target ≠ userToken q
  | .leaving ending | .exited ending => ending.Beside userToken q
  | .opening | .serving | .closing => False

theorem Place.Beside.not_primary {userToken : Nat → Wide} {process : Process} {q : Nat}
    (h : process.place.Beside userToken q) : ¬process.Primary := by
  unfold Process.Primary
  cases hplace : process.place with
  | opening | serving | closing =>
    rw [hplace] at h
    exact h.elim
  | _ => exact id

/-- The runs in which `q` serves its window all along. -/
def Session.Beside (userToken : Nat → Wide) (q : Nat) : Session → Session → Prop :=
  Relation.ReflTransGen fun s s' => s.Next userToken s' ∧ (s' q).place = .serving

section Beside

variable {userToken : Nat → Wide} {s s' : Session} {p q : Nat} {a : Step}

/-- The move of a process beside the owner of its user.  It cannot create the mutex, and it finds a
window. -/
theorem Session.Moved.beside {process : Process} (howned : Owned userToken s)
    (hserving : (s q).place = .serving) (htoken : userToken a.process = userToken q)
    (hanswers : s.Answers userToken a) (hmoves : s.Moved userToken a process)
    (h : (s a.process).place.Beside userToken q) : process.place.Beside userToken q := by
  have hhandle : (s q).handle = some (mutexName (userToken a.process)) := by
    rw [htoken]
    refine howned.primary q ?_
    unfold Process.Primary
    rw [hserving]
    trivial
  cases hmoves with
  | launches | opens | noMutex => trivial
  | creates p hplace => cases hanswers.mpr ⟨q, hhandle⟩
  | finds p target hplace =>
    refine (em (target = q)).imp_right fun hne htokens => hne ?_
    refine howned.one _ _ ?_ ?_ htokens <;> unfold Process.Primary
    · rw [show (s target).place = .serving from hanswers]
      trivial
    · rw [hserving]
      trivial
  | findsNone p hplace => exact absurd hserving (hanswers q)
  | noMessage | refused => trivial
  | windowGone p target hplace hgone =>
    rw [hplace] at h
    obtain rfl | hne := h
    · exact absurd hserving hgone
    · exact ⟨target, hne⟩
  | shows p hplace | fails p hplace | takes p posting rest hplace hqueue | closes p hplace
  | exits p hplace =>
    rw [hplace] at h
    exact h.elim
  | leaves p ending a hplace ha =>
    rw [hplace] at h
    exact h
  | killed => trivial

theorem Session.Next.beside (howned : Owned userToken s) (hserving : (s q).place = .serving)
    (htoken : userToken p = userToken q) (h : (s p).place.Beside userToken q)
    (hnext : s.Next userToken s') : (s' p).place.Beside userToken q := by
  obtain ⟨a, hanswers, hstep⟩ := hnext
  obtain ⟨process, hmoves, rfl⟩ | ⟨target, hplace, htarget, rfl⟩ := Session.step_cases hstep
  · by_cases hp : p = a.process
    · subst hp
      rw [s.set_self]
      exact hmoves.beside howned hserving htoken hanswers h
    · rw [s.set_of_ne hp]
      exact h
  · by_cases hp : p = a.process
    · subst hp
      rw [s.post_sender htarget]
      rw [hplace] at h
      exact h
    · by_cases hpt : p = target
      · subst hpt
        rw [s.post_target htarget hp]
        exact h
      · rw [s.post_of_ne htarget hp hpt]
        exact h

/-- A run beside the owner is a run, and a process that is born in it does not take the tray. -/
theorem Session.Beside.place (h : s.Beside userToken q s') (hreached : s.Reached userToken)
    (hserving : (s q).place = .serving) (htoken : userToken p = userToken q)
    (hborn : (s p).place = .notStarted) :
    s'.Reached userToken ∧ (s' q).place = .serving ∧ (s' p).place.Beside userToken q := by
  induction h with
  | refl =>
    refine ⟨hreached, hserving, ?_⟩
    rw [hborn]
    trivial
  | tail _ hnext ih =>
    obtain ⟨hreaches, hserves, hplace⟩ := ih
    exact ⟨hreaches.tail hnext.1, hnext.2,
      hnext.1.beside hreaches.owned hserves htoken hplace⟩

end Beside

/-! ### The launches of a session -/

/-- One user, whose SID is read, and messages that can be registered. -/
def plainAnswers : Nat → ProcessAnswers :=
  fun _ => ⟨⟨true, 44, true, some (wide "S-1")⟩, fun _ => true⟩

/-- The program is started, and then started again with `--settings`. -/
theorem settings_launched : ∃ s s' : Session, s.Reached (fun p => (plainAnswers p).userToken) ∧
    (s 0).place = .serving ∧ (s 1).place = .notStarted ∧
    s.Beside (fun p => (plainAnswers p).userToken) 0 s' ∧
    (s' 1).place = .exited (.forwarded 0) ∧ (s' 1).action = .settings :=
  ⟨_, _, ((Relation.ReflTransGen.refl.tail ⟨.launch 0 [wide "tray"], trivial, rfl⟩).tail
      ⟨.createMutex 0 (some false), ⟨nofun, fun ⟨q, hq⟩ => by cases q <;> cases hq⟩, rfl⟩).tail
      ⟨.createWindow 0 true, trivial, rfl⟩, rfl, rfl,
    ((((Relation.ReflTransGen.refl.tail
      ⟨⟨.launch 1 [wide "tray", wide "--settings"], trivial, rfl⟩, rfl⟩).tail
      ⟨⟨.createMutex 1 (some true), ⟨fun _ => ⟨0, rfl⟩, fun _ => rfl⟩, rfl⟩, rfl⟩).tail
      ⟨⟨.findWindow 1 (some 0), rfl, rfl⟩, rfl⟩).tail
      ⟨⟨.postMessage 1 true true, trivial, rfl⟩, rfl⟩).tail
      ⟨⟨.exit 1, trivial, rfl⟩, rfl⟩, rfl, rfl⟩

/-- However the processes start, end and are killed, the tray of a token has one owner, and so has
that of a user whose SID is read each time; and each window was sent one command, its action's, by
each process that has left it there, which the owner reads if it could register the message, and
none by others. -/
theorem launches_hand_over {answers : Nat → ProcessAnswers} {s : Session}
    (h : s.Reached fun p => (answers p).userToken) :
    (∀ p q, (s p).Primary → (s q).Primary → (answers p).userToken = (answers q).userToken →
      p = q) ∧
      (∀ p q sid, (s p).Primary → (s q).Primary → (answers p).token.read = some sid →
        (answers q).token.read = some sid → p = q) ∧
      ∀ p q, s.commands answers p q =
        if (s p).forwardedTo = some q then [s.commandRead answers p q] else [] := by
  refine ⟨h.owned.one, fun p q sid hp hq hreadp hreadq => h.owned.one p q hp hq ?_,
    h.commands answers⟩
  simp only [ProcessAnswers.userToken, getCurrentUserToken_eq, hreadp, hreadq]

theorem launches_hand_over_settings :
    ∃ s : Session, s.Reached (fun p => (plainAnswers p).userToken) ∧
      s.commands plainAnswers 1 0 = [some .openSettings] ∧ s.commands plainAnswers 0 1 = [] ∧
        ∀ q, (s q).Primary → q = 0 := by
  obtain ⟨s, s', hreached, hserving, hborn, hrun, hended, haction⟩ := settings_launched
  obtain ⟨hreaches, hserves, -⟩ := hrun.place (p := 1) hreached hserving rfl hborn
  obtain ⟨-, hone, hcommands⟩ := launches_hand_over hreaches
  refine ⟨s', hreaches, ?_, ?_, fun q hq => hone q 0 _ hq ?_ rfl rfl⟩
  · rw [hcommands, Session.commandRead, haction, if_pos]
    · rfl
    · unfold Process.forwardedTo
      rw [hended]
  · rw [hcommands, if_neg]
    unfold Process.forwardedTo
    rw [hserves]
    exact nofun
  · unfold Process.Primary
    rw [hserves]
    trivial

/-- A launch that reads the token of the running owner does not take the tray, and it sends its
command to the owner once, unless it is killed, its message has no number, or the window refuses it;
a window of a process with another token, on the same desktop, can be found in its place. -/
theorem launch_reaches_owner {answers : Nat → ProcessAnswers} {s s' : Session} {p q : Nat}
    (hreached : s.Reached fun p => (answers p).userToken) (hserving : (s q).place = .serving)
    (htoken : (answers p).userToken = (answers q).userToken)
    (hborn : (s p).place = .notStarted)
    (hrun : s.Beside (fun p => (answers p).userToken) q s') :
    ¬(s' p).Primary ∧
      ∀ ending, (s' p).place = .exited ending →
        ending = .killed ∨ ending = .noMessage ∨ ending = .refused ∨
          (∃ r, ending = .forwarded r ∧
            (r = q ∨ (answers r).userToken ≠ (answers q).userToken) ∧
            s'.commands answers p r = [s'.commandRead answers p r]) ∨
          ending = .windowGone ∧ ∃ r, (answers r).userToken ≠ (answers q).userToken := by
  obtain ⟨hreaches, -, hplace⟩ := hrun.place hreached hserving htoken hborn
  refine ⟨hplace.not_primary, fun ending hended => ?_⟩
  rw [hended] at hplace
  cases ending with
  | killed => exact .inl rfl
  | noMessage => exact .inr (.inl rfl)
  | refused => exact .inr (.inr (.inl rfl))
  | forwarded r =>
    refine .inr (.inr (.inr (.inl ⟨r, rfl, hplace, ?_⟩)))
    have hforwarded : (s' p).forwardedTo = some r := by
      unfold Process.forwardedTo
      rw [hended]
    rw [hreaches.commands, hforwarded, if_pos rfl]
  | windowGone => exact .inr (.inr (.inr (.inr ⟨rfl, hplace⟩)))
  | closed | failed | noWindow => exact hplace.elim

theorem launch_reaches_owner_settings :
    ∃ s s' : Session, s.Reached (fun p => (plainAnswers p).userToken) ∧
      s.Beside (fun p => (plainAnswers p).userToken) 0 s' ∧
      (s' 1).place = .exited (.forwarded 0) ∧
      s'.commands plainAnswers 1 0 = [some .openSettings] := by
  obtain ⟨s, s', hreached, hserving, hborn, hrun, hended, haction⟩ := settings_launched
  refine ⟨s, s', hreached, hrun, hended, ?_⟩
  obtain ⟨-, hends⟩ := launch_reaches_owner (p := 1) hreached hserving rfl hborn hrun
  obtain hkilled | hmessage | hrefused | ⟨r, hr, -, hcommands⟩ | ⟨hgone, -⟩ := hends _ hended
  · cases hkilled
  · cases hmessage
  · cases hrefused
  · cases hr
    rw [hcommands, Session.commandRead, haction]
    rfl
  · cases hgone

/-- A process whose SID cannot be read takes another mutex than the owner of its user, and opens a
second tray. -/
theorem second_tray_without_sid :
    ∃ (answers : Nat → ProcessAnswers) (s : Session),
      s.Reached (fun p => (answers p).userToken) ∧ (s 0).place = .serving ∧
        (s 1).place = .serving :=
  ⟨fun p => ⟨⟨p = 0, 44, true, some (wide "S-1")⟩, fun _ => true⟩, _,
    (((((Relation.ReflTransGen.refl.tail ⟨.launch 0 [wide "tray"], trivial, rfl⟩).tail
      ⟨.createMutex 0 (some false), ⟨nofun, fun ⟨q, hq⟩ => by cases q <;> cases hq⟩, rfl⟩).tail
      ⟨.createWindow 0 true, trivial, rfl⟩).tail ⟨.launch 1 [wide "tray"], trivial, rfl⟩).tail
      ⟨.createMutex 1 (some false), ⟨nofun, fun
        | ⟨0, hq⟩ => absurd hq (by decide)
        | ⟨1, hq⟩ => nomatch hq
        | ⟨_ + 2, hq⟩ => nomatch hq⟩, rfl⟩).tail ⟨.createWindow 1 true, trivial, rfl⟩, rfl, rfl⟩

/-- While the owner closes, its mutex is there and its window is not: a launch is lost then, and
nothing runs after it. -/
theorem launch_lost_at_close : ∃ s : Session, s.Reached (fun _ => wide "S-1") ∧
    (s 0).place = .exited .closed ∧ (s 1).place = .exited .noWindow ∧
      ∀ q, (s (q + 2)).place = .notStarted :=
  ⟨_, ((((((((Relation.ReflTransGen.refl.tail ⟨.launch 0 [wide "tray"], trivial, rfl⟩).tail
      ⟨.createMutex 0 (some false), ⟨nofun, fun ⟨q, hq⟩ => by cases q <;> cases hq⟩, rfl⟩).tail
      ⟨.createWindow 0 true, trivial, rfl⟩).tail ⟨.destroyWindow 0, trivial, rfl⟩).tail
      ⟨.launch 1 [wide "tray"], trivial, rfl⟩).tail
      ⟨.createMutex 1 (some true), ⟨fun _ => ⟨0, rfl⟩, fun _ => rfl⟩, rfl⟩).tail
      ⟨.findWindow 1 none, fun
        | 0 => nofun
        | 1 => nofun
        | _ + 2 => nofun, rfl⟩).tail ⟨.exit 1, trivial, rfl⟩).tail ⟨.exit 0, trivial, rfl⟩,
    rfl, rfl, fun _ => rfl⟩

end SteamSalesTray.App.SingleInstance
