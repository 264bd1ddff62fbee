import SteamSalesTray.Storage.SettingsStore

/-! The loop of the worker thread, `SalesSyncService::Run`: a pass at start-up, then a wait and a
pass again and again, while other threads signal events, change the interval, and let time pass. -/

namespace SteamSalesTray.Sync.WorkerLoop

open Storage

/-- The auto-reset events. -/
inductive Request where
  | manual
  | settings
deriving DecidableEq, Repr

/-- The events that the wait is for; `stop` is not reset by it. -/
structure Events where
  stop : Bool
  manual : Bool
  settings : Bool
deriving DecidableEq, Repr

def Events.signalled (e : Events) : Request → Bool
  | .manual => e.manual
  | .settings => e.settings

def Events.set (e : Events) : Request → Events
  | .manual => { e with manual := true }
  | .settings => { e with settings := true }

/-- `WaitForMultipleObjects` where an event is signalled: the first one in the order of the handles
(`none` is the stop event), and the events after the wait. -/
def Events.wait (e : Events) : Option (Option Request × Events) :=
  if e.stop then some (none, e)
  else if e.manual then some (some .manual, { e with manual := false })
  else if e.settings then some (some .settings, { e with settings := false })
  else none

theorem Events.signalled_set (e : Events) (r r' : Request) :
    (e.set r).signalled r' = (decide (r' = r) || e.signalled r') := by
  cases r <;> cases r' <;> rfl

theorem Events.wait_stop {e e' : Events} (h : e.wait = some (none, e')) : e' = e := by
  unfold wait at h
  split at h
  · cases h
    rfl
  · split at h
    · cases h
    · split at h <;> cases h

/-- A wait that ends at a request resets the event of that request alone. -/
theorem Events.wait_request {e e' : Events} {r : Request} (h : e.wait = some (some r, e')) :
    e.signalled r = true ∧ ∀ r', e'.signalled r' = (decide (r' ≠ r) && e.signalled r') := by
  unfold wait at h
  split at h
  · cases h
  · split at h
    · rename_i hmanual
      cases h
      exact ⟨hmanual, fun r' => by cases r' <;> rfl⟩
    · split at h
      · rename_i hsettings
        cases h
        exact ⟨hsettings, fun r' => by cases r' <;> rfl⟩
      · cases h

/-- Why a pass is run. -/
inductive Cause where
  | startUp
  | request (r : Request)
  | timeOut
deriving DecidableEq, Repr

/-- Where the worker is in `Run`.  A pass that cannot open the database ends without having taken
the request to clear the cache. -/
inductive Place where
  | starting
  | due (cause : Cause)
  | inPass (cause : Cause) (tookClearRequest : Bool)
  | resettingDeadline
  | settingDeadline (interval : RefreshInterval)
  | computingWait
  | comparingTicks
  | enteringWait (ms : Nat)
  | waiting (expires : Option Nat)
  | stopped
deriving DecidableEq, Repr

/-- The members of the service that the loop and the requests use, the tick count, the stored
interval, and how many calls of `RequestClearCache` have set the flag and not yet the event. -/
structure Worker where
  place : Place
  events : Events
  clearCacheRequested : Bool
  clearsUnderWay : Nat
  deadlineTick : Nat
  tick : Nat
  interval : RefreshInterval
deriving DecidableEq, Repr

/-- The worker when its thread starts. -/
def Worker.start (tick : Nat) (interval : RefreshInterval) (clearCacheRequested : Bool) :
    Worker where
  place := .starting
  events := ⟨false, false, false⟩
  clearCacheRequested := clearCacheRequested
  clearsUnderWay := 0
  deadlineTick := 0
  tick := tick
  interval := interval

def kStartupFreshnessSeconds : Int := 300

def kInfinite : Nat := 0xFFFFFFFF

def kMaxDword : Nat := 0xFFFFFFFF

/-- The deadline that `resetDeadline` sets at a tick. -/
def deadlineAt (interval : RefreshInterval) (tick : Nat) : Nat :=
  if interval.minutes = 0 then 0 else tick + interval.minutes.toNat * 60000

/-- What `ComputeWaitMs` returns at a tick where there is an interval. -/
def waitMsAt (deadlineTick tick : Nat) : Nat :=
  if deadlineTick ≤ tick then 0 else min (deadlineTick - tick) kMaxDword

inductive Action where
  | requestManualRefresh
  | notifySettingsChanged
  -- `RequestClearCache` sets the flag and then the event.
  | storeClearRequest
  | signalClearRequest
  | setRefreshInterval (interval : RefreshInterval)
  | signalStop
  | elapse (ticks : Nat)
  | checkLastSuccess (age : Int)
  | beginPass
  | takeClearRequest
  | finishPass
  | readInterval
  | readTick
  | beginWait
  | wake
  | timeOut
deriving DecidableEq, Repr

namespace Worker

variable (w : Worker)

/-- One step of the worker or of another thread; `none` is a step that cannot be made there. -/
def step : Action → Option Worker
  | .requestManualRefresh => some { w with events := w.events.set .manual }
  | .notifySettingsChanged => some { w with events := w.events.set .settings }
  | .storeClearRequest =>
    some { w with clearCacheRequested := true, clearsUnderWay := w.clearsUnderWay + 1 }
  | .signalClearRequest =>
    if w.clearsUnderWay = 0 then none
    else some { w with events := w.events.set .manual, clearsUnderWay := w.clearsUnderWay - 1 }
  | .setRefreshInterval interval => some { w with interval := interval }
  | .signalStop => some { w with events := { w.events with stop := true } }
  | .elapse ticks => some { w with tick := w.tick + ticks }
  | .checkLastSuccess age =>
    match w.place with
    | .starting =>
      some { w with place := if age > kStartupFreshnessSeconds then .due .startUp
                             else .resettingDeadline }
    | _ => none
  | .beginPass =>
    match w.place with
    | .due cause => some { w with place := .inPass cause false }
    | _ => none
  | .takeClearRequest =>
    match w.place with
    | .inPass cause false =>
      some { w with clearCacheRequested := false, place := .inPass cause true }
    | _ => none
  | .finishPass =>
    match w.place with
    | .inPass _ _ => some { w with place := .resettingDeadline }
    | _ => none
  | .readInterval =>
    match w.place with
    | .resettingDeadline => some { w with place := .settingDeadline w.interval }
    | .computingWait =>
      some { w with place := if w.interval.minutes = 0 then .enteringWait kInfinite
                             else .comparingTicks }
    | _ => none
  | .readTick =>
    match w.place with
    | .settingDeadline interval =>
      some { w with deadlineTick := deadlineAt interval w.tick, place := .computingWait }
    | .comparingTicks => some { w with place := .enteringWait (waitMsAt w.deadlineTick w.tick) }
    | _ => none
  | .beginWait =>
    match w.place with
    | .enteringWait ms =>
      some { w with place := .waiting (if ms = kInfinite then none else some (w.tick + ms)) }
    | _ => none
  | .wake =>
    match w.place, w.events.wait with
    | .waiting _, some (none, events) => some { w with events := events, place := .stopped }
    | .waiting _, some (some r, events) =>
      some { w with events := events, place := .due (.request r) }
    | _, _ => none
  | .timeOut =>
    match w.place, w.events.wait with
    | .waiting (some expires), none =>
      if expires ≤ w.tick then some { w with place := .due .timeOut } else none
    | _, _ => none

end Worker

/-! ### Runs -/

inductive LoopEvent where
  | signalled (r : Request)
  | began (cause : Cause)
  | ended
deriving DecidableEq, Repr

/-- What a step adds to the record of a run. -/
def Worker.records (w : Worker) : Action → List LoopEvent
  | .requestManualRefresh | .signalClearRequest => [.signalled .manual]
  | .notifySettingsChanged => [.signalled .settings]
  | .beginPass =>
    match w.place with
    | .due cause => [.began cause]
    | _ => []
  | .finishPass => [.ended]
  | _ => []

/-- The states that the worker can be in, each with its record, the newest event first. -/
inductive Reached : Worker → List LoopEvent → Prop where
  | start (tick interval clearCacheRequested) :
      Reached (.start tick interval clearCacheRequested) []
  | step {w w' past} (action : Action) (h : Reached w past) (hstep : w.step action = some w') :
      Reached w' (w.records action ++ past)

/-- The state and the record after some steps, if each of them can be made. -/
def Worker.run (w : Worker) :
    List Action → List LoopEvent → Option (Worker × List LoopEvent)
  | [], past => some (w, past)
  | action :: rest, past =>
    (w.step action).bind fun w' => w'.run rest (w.records action ++ past)

theorem Reached.run {actions : List Action} {w w' : Worker} {past past' : List LoopEvent}
    (h : Reached w past) (hrun : w.run actions past = some (w', past')) : Reached w' past' := by
  induction actions generalizing w past with
  | nil =>
    obtain ⟨rfl, rfl⟩ : w = w' ∧ past = past' := by simpa [Worker.run] using hrun
    exact h
  | cons action rest ih =>
    obtain ⟨w1, hstep, hrest⟩ := Option.bind_eq_some_iff.mp hrun
    exact ih (h.step action hstep) hrest

/-- What a step can do to the place of the worker, its events and the record. -/
inductive Moves (w w' : Worker) : List LoopEvent → Prop where
  | signals (r : Request) (hplace : w'.place = w.place) (hevents : w'.events = w.events.set r) :
      Moves w w' [.signalled r]
  /-- No request is signalled or answered. -/
  | silent (hevents : w'.events.signalled = w.events.signalled)
      (hplace : w'.place = w.place ∨
        (∀ cause, w.place ≠ .due cause) ∧ ∀ r, w'.place ≠ .due (.request r)) : Moves w w' []
  | woken (r : Request) (hfrom : ∀ cause, w.place ≠ .due cause)
      (hplace : w'.place = .due (.request r)) (hwait : w.events.wait = some (some r, w'.events)) :
      Moves w w' []
  | begins (cause : Cause) (hevents : w'.events = w.events) (hfrom : w.place = .due cause)
      (hplace : ∀ cause', w'.place ≠ .due cause') : Moves w w' [.began cause]
  | ends (hevents : w'.events = w.events) (hfrom : ∀ cause, w.place ≠ .due cause)
      (hplace : ∀ cause, w'.place ≠ .due cause) : Moves w w' [.ended]

theorem step_moves {w w' : Worker} {action : Action} (h : w.step action = some w') :
    Moves w w' (w.records action) := by
  cases action with
  | requestManualRefresh =>
    obtain rfl := Option.some.inj h
    exact .signals .manual rfl rfl
  | notifySettingsChanged =>
    obtain rfl := Option.some.inj h
    exact .signals .settings rfl rfl
  | storeClearRequest =>
    obtain rfl := Option.some.inj h
    exact .silent rfl (.inl rfl)
  | signalClearRequest =>
    obtain ⟨-, rfl⟩ : ¬w.clearsUnderWay = 0 ∧ _ = w' := by simpa [Worker.step] using h
    exact .signals .manual rfl rfl
  | setRefreshInterval interval =>
    obtain rfl := Option.some.inj h
    exact .silent rfl (.inl rfl)
  | signalStop =>
    obtain rfl := Option.some.inj h
    exact .silent (funext fun r => by cases r <;> rfl) (.inl rfl)
  | elapse ticks =>
    obtain rfl := Option.some.inj h
    exact .silent rfl (.inl rfl)
  | checkLastSuccess age =>
    cases hplace : w.place <;> simp [Worker.step, hplace] at h
    subst h
    refine .silent rfl (.inr ⟨by simp [hplace], fun r => ?_⟩)
    dsimp only
    split <;> nofun
  | beginPass =>
    cases hplace : w.place <;> simp [Worker.step, hplace] at h
    subst h
    simp only [Worker.records, hplace]
    exact .begins _ rfl hplace nofun
  | takeClearRequest =>
    cases hplace : w.place <;> simp [Worker.step, hplace] at h
    split at h
    · rename_i hinPass
      obtain rfl := Option.some.inj h
      exact .silent rfl (.inr ⟨by simp [hplace], nofun⟩)
    · cases h
  | finishPass =>
    cases hplace : w.place <;> simp [Worker.step, hplace] at h
    subst h
    exact .ends rfl (by simp [hplace]) nofun
  | readInterval =>
    cases hplace : w.place <;> simp [Worker.step, hplace] at h
    · subst h
      exact .silent rfl (.inr ⟨by simp [hplace], nofun⟩)
    · subst h
      refine .silent rfl (.inr ⟨by simp [hplace], fun r => ?_⟩)
      dsimp only
      split <;> nofun
  | readTick =>
    cases hplace : w.place <;> simp [Worker.step, hplace] at h
    · subst h
      exact .silent rfl (.inr ⟨by simp [hplace], nofun⟩)
    · subst h
      exact .silent rfl (.inr ⟨by simp [hplace], nofun⟩)
  | beginWait =>
    cases hplace : w.place <;> simp [Worker.step, hplace] at h
    subst h
    exact .silent rfl (.inr ⟨by simp [hplace], nofun⟩)
  | wake =>
    simp only [Worker.step] at h
    split at h
    · rename_i hplace hwait
      obtain rfl := Option.some.inj h
      exact .silent (by rw [Events.wait_stop hwait]) (.inr ⟨by simp [hplace], nofun⟩)
    · rename_i hplace hwait
      obtain rfl := Option.some.inj h
      exact .woken _ (by simp [hplace]) rfl hwait
    · cases h
  | timeOut =>
    simp only [Worker.step] at h
    split at h
    · rename_i hplace hwait
      obtain ⟨-, rfl⟩ : _ ≤ w.tick ∧ _ = w' := by simpa using h
      exact .silent rfl (.inr ⟨by simp [hplace], nofun⟩)
    · cases h

/-! ### What becomes of a request -/

/-- Since the last signal for `r` no pass began. -/
def Unserved (r : Request) : List LoopEvent → Prop
  | [] => False
  | .signalled r' :: past => r' = r ∨ Unserved r past
  | .began _ :: _ => False
  | .ended :: past => Unserved r past

/-- The worker is about to begin a pass for `r`. -/
def Worker.dueFor (w : Worker) (r : Request) : Bool := w.place = .due (.request r)

/-- How many passes for `r` the signals so far can still cause. -/
def Worker.pending (w : Worker) (r : Request) : Nat :=
  (w.dueFor r).toNat + (w.events.signalled r).toNat

/-- An unserved request is one that the worker is about to serve, or whose event is signalled. -/
def Kept (w : Worker) (past : List LoopEvent) : Prop :=
  ∀ r, Unserved r past → (∃ cause, w.place = .due cause) ∨ w.events.signalled r = true

theorem Moves.kept {w w' : Worker} {events past : List LoopEvent} (h : Moves w w' events)
    (hkept : Kept w past) : Kept w' (events ++ past) := by
  intro r hunserved
  cases h with
  | signals r' hplace hevents =>
    rw [hplace, hevents, Events.signalled_set]
    obtain rfl | hbefore := hunserved
    · exact .inr (by simp)
    · exact (hkept r hbefore).imp id fun hsignalled => by simp [hsignalled]
  | silent hevents hplace =>
    rw [hevents]
    obtain hsame | ⟨hfrom, -⟩ := hplace
    · rw [hsame]
      exact hkept r hunserved
    · exact .inr ((hkept r hunserved).resolve_left fun ⟨cause, hdue⟩ => hfrom cause hdue)
  | woken r' hfrom hplace hwait => exact .inl ⟨.request r', hplace⟩
  | begins cause hevents hfrom hplace => exact hunserved.elim
  | ends hevents hfrom hplace =>
    rw [hevents]
    exact .inr ((hkept r hunserved).resolve_left fun ⟨cause, hdue⟩ => hfrom cause hdue)

theorem Reached.kept {w : Worker} {past : List LoopEvent} (h : Reached w past) : Kept w past := by
  induction h with
  | start => exact fun _ => False.elim
  | step action _ hstep ih => exact (step_moves hstep).kept ih

theorem Worker.dueFor_of_not_due {w : Worker} (h : ∀ cause, w.place ≠ .due cause) (r : Request) :
    w.dueFor r = false := by
  simp [dueFor, h]

/-- A step that begins a pass for `r` uses up one signal, and only a signal for `r` adds one. -/
theorem Moves.pending_le {w w' : Worker} {events : List LoopEvent} (h : Moves w w' events)
    (r : Request) :
    events.count (.began (.request r)) + w'.pending r ≤
      events.count (.signalled r) + w.pending r := by
  unfold Worker.pending
  cases h with
  | signals r' hplace hevents =>
    have hdue : w'.dueFor r = w.dueFor r := by simp [Worker.dueFor, hplace]
    rw [hdue, hevents, Events.signalled_set]
    by_cases hr : r = r'
    · subst hr
      cases w.events.signalled r <;> simp
    · simp [hr]
  | silent hevents hplace =>
    rw [hevents]
    obtain hsame | ⟨-, hto⟩ := hplace
    · simp [Worker.dueFor, hsame]
    · simp [Worker.dueFor, hto r]
  | woken r' hfrom hplace hwait =>
    obtain ⟨hsignalled, hothers⟩ := Events.wait_request hwait
    rw [hothers, Worker.dueFor_of_not_due hfrom]
    by_cases hr : r = r'
    · subst hr
      simp [Worker.dueFor, hplace, hsignalled]
    · have hdue : w'.dueFor r = false := by simp [Worker.dueFor, hplace, Ne.symm hr]
      simp [hdue, hr]
  | begins cause hevents hfrom hplace =>
    rw [hevents, Worker.dueFor_of_not_due hplace]
    by_cases hcause : cause = .request r
    · subst hcause
      simp [Worker.dueFor, hfrom]
    · simp [hcause]
  | ends hevents hfrom hplace =>
    rw [hevents, Worker.dueFor_of_not_due hplace]
    simp

theorem Moves.pending_ended {w w' : Worker} (h : Moves w w' [.ended]) (r : Request) :
    w'.pending r ≤ 1 := by
  cases h with
  | ends hevents hfrom hplace =>
    rw [Worker.pending, Worker.dueFor_of_not_due hplace]
    cases w'.events.signalled r <;> simp

/-- The passes for `r` that begin after the end of some pass are at most one more than the signals
for `r` after it. -/
theorem Reached.collapse {w : Worker} {past : List LoopEvent} (h : Reached w past) (r : Request)
    {after before : List LoopEvent} (hpast : past = after ++ .ended :: before) :
    after.count (.began (.request r)) + w.pending r ≤ after.count (.signalled r) + 1 := by
  induction h generalizing after with
  | start => cases after <;> cases hpast
  | @step w w' past action _ hstep ih =>
    have hmoves := step_moves hstep
    generalize w.records action = events at hmoves hpast
    have hle := hmoves.pending_le r
    obtain rfl | ⟨e, rfl⟩ : events = [] ∨ ∃ e, events = [e] := by cases hmoves <;> simp
    · have := ih hpast
      simp at hle
      omega
    · cases after with
      | nil =>
        obtain ⟨rfl, -⟩ := List.cons.inj hpast
        simpa using hmoves.pending_ended r
      | cons e' after =>
        obtain ⟨rfl, hrest⟩ := List.cons.inj hpast
        have := ih hrest
        rw [List.count_cons, List.count_cons]
        rw [List.count_singleton, List.count_singleton] at hle
        omega

theorem unserved_of_no_pass {r : Request} {after before : List LoopEvent}
    (h : ∀ cause, .began cause ∉ after) : Unserved r (after ++ .signalled r :: before) := by
  induction after with
  | nil => exact .inl rfl
  | cons e after ih =>
    have hrest := ih fun cause hmem => h cause (.tail e hmem)
    cases e with
    | signalled r' => exact .inr hrest
    | began cause => exact absurd (.head after) (h cause)
    | ended => exact hrest

/-- In every state of every run, with requests, changes of the interval and time between any two
steps of the worker: after each signal for a request a pass began, or the worker is about to begin
one, or the event is still signalled; and after the end of a pass, the passes that begin for a
request, however often it was signalled before, are at most one more than its signals since. -/
theorem requests_kept_and_collapse {w : Worker} {past : List LoopEvent} (h : Reached w past)
    (r : Request) :
    (∀ after before, past = after ++ .signalled r :: before →
      (∃ cause, .began cause ∈ after) ∨ (∃ cause, w.place = .due cause) ∨
        w.events.signalled r = true) ∧
      ∀ after before, past = after ++ .ended :: before →
        after.count (.began (.request r)) ≤ after.count (.signalled r) + 1 := by
  refine ⟨fun after before hpast => ?_, fun after before hpast => ?_⟩
  · by_cases hbegan : ∃ cause, .began cause ∈ after
    · exact .inl hbegan
    · refine .inr (h.kept r ?_)
      rw [hpast]
      exact unserved_of_no_pass (not_exists.mp hbegan)
  · have := h.collapse r hpast
    omega

/-- Two refreshes are requested during the pass at start-up, under "manual only". -/
def twoRefreshes : List Action :=
  [.checkLastSuccess 301, .beginPass, .requestManualRefresh, .requestManualRefresh, .finishPass,
    .readInterval, .readTick, .readInterval, .beginWait, .wake, .beginPass]

theorem requests_kept_and_collapse_twice :
    let r := ((Worker.start 0 .manual false).run twoRefreshes []).get (by decide)
    r.2 = [.began (.request .manual), .ended, .signalled .manual, .signalled .manual,
        .began .startUp] ∧
      [LoopEvent.began (.request .manual)].count (.began (.request .manual)) ≤
        [LoopEvent.began (.request .manual)].count (.signalled .manual) + 1 := by
  intro r
  have hrun : (Worker.start 0 .manual false).run twoRefreshes [] = some (r.1, r.2) := rfl
  have hreached := (Reached.start 0 .manual false).run hrun
  exact ⟨rfl, (requests_kept_and_collapse hreached .manual).2 _ _ rfl⟩

/-- A worker that waits is woken by an event that is signalled. -/
theorem Worker.wakes_of_signalled {w : Worker} {expires : Option Nat} {r : Request}
    (hplace : w.place = .waiting expires) (hsignalled : w.events.signalled r = true)
    (hstop : w.events.stop = false) :
    ∃ w' r', w.step .wake = some w' ∧ w'.place = .due (.request r') := by
  obtain ⟨r', events, hwait⟩ : ∃ r' events, w.events.wait = some (some r', events) := by
    unfold Events.wait
    rw [hstop]
    cases hmanual : w.events.manual with
    | true => exact ⟨.manual, _, rfl⟩
    | false =>
      cases r with
      | manual => exact absurd (hmanual.symm.trans hsignalled) Bool.false_ne_true
      | settings =>
        have hsettings : w.events.settings = true := hsignalled
        exact ⟨.settings, _, by rw [hsettings]; rfl⟩
  refine ⟨{ w with events := events, place := .due (.request r') }, r', ?_, rfl⟩
  simp only [step, hplace, hwait]

end SteamSalesTray.Sync.WorkerLoop
