import SteamSalesTray.Lib.Progress
import SteamSalesTray.Sync.WorkerLoop

/-! How soon the worker thread answers: `Stop` joins it after few of its steps, and a request leads
to a pass after as few, whatever other threads do between them. -/

namespace SteamSalesTray.Sync.WorkerLoop

open Progress

/-- The steps of the worker thread. -/
def Action.ofWorker : Action → Bool
  | .checkLastSuccess _ | .beginPass | .takeClearRequest | .finishPass | .readInterval | .readTick
  | .beginWait | .wake | .timeOut => true
  | .requestManualRefresh | .notifySettingsChanged | .storeClearRequest | .signalClearRequest
  | .setRefreshInterval _ | .signalStop | .elapse _ => false

/-- Where a step of the worker thread can lead, with the events before it. -/
inductive Goes (e : Events) : Place → Place → Prop where
  | starts (cause) : Goes e .starting (.due cause)
  | fresh : Goes e .starting .resettingDeadline
  | begins (cause) : Goes e (.due cause) (.inPass cause false)
  | takes (cause) : Goes e (.inPass cause false) (.inPass cause true)
  | ends (cause took) : Goes e (.inPass cause took) .resettingDeadline
  | resets (interval) : Goes e .resettingDeadline (.settingDeadline interval)
  | sets (interval) : Goes e (.settingDeadline interval) .computingWait
  | manualOnly (ms) : Goes e .computingWait (.enteringWait ms)
  | compares : Goes e .computingWait .comparingTicks
  | computes (ms) : Goes e .comparingTicks (.enteringWait ms)
  | waits (ms expires) : Goes e (.enteringWait ms) (.waiting expires)
  | stops (expires) (h : e.stop = true) : Goes e (.waiting expires) .stopped
  | wakes (expires cause) (h : e.stop = false) : Goes e (.waiting expires) (.due cause)

theorem Events.wait_none {e : Events} (h : e.wait = none) :
    e.stop = false ∧ ∀ r, e.signalled r = false := by
  unfold wait at h
  split at h
  · cases h
  · split at h
    · cases h
    · split at h
      · cases h
      · rename_i hstop hmanual hsettings
        rw [Bool.not_eq_true] at hstop hmanual hsettings
        refine ⟨hstop, fun r => ?_⟩
        cases r with
        | manual => exact hmanual
        | settings => exact hsettings

theorem Events.wait_some_stop {e e' : Events} {r : Request} (h : e.wait = some (some r, e')) :
    e.stop = false ∧ e'.stop = false := by
  unfold wait at h
  split at h
  · cases h
  · rename_i hstop
    rw [Bool.not_eq_true] at hstop
    refine ⟨hstop, ?_⟩
    split at h
    · cases h
      exact hstop
    · split at h
      · cases h
        exact hstop
      · cases h

theorem Events.wait_none_stop {e e' : Events} (h : e.wait = some (none, e')) : e.stop = true := by
  by_contra hne
  unfold wait at h
  rw [if_neg hne] at h
  split at h
  · cases h
  · split at h <;> cases h

theorem step_goes {w w' : Worker} {action : Action} (h : w.step action = some w')
    (hown : action.ofWorker = true) :
    Goes w.events w.place w'.place ∧ w'.events.stop = w.events.stop := by
  cases action with
  | checkLastSuccess age =>
    cases hplace : w.place <;> simp [Worker.step, hplace] at h
    subst h
    refine ⟨?_, rfl⟩
    dsimp only
    split
    · exact .starts _
    · exact .fresh
  | beginPass =>
    cases hplace : w.place <;> simp [Worker.step, hplace] at h
    subst h
    exact ⟨.begins _, rfl⟩
  | takeClearRequest =>
    cases hplace : w.place <;> simp [Worker.step, hplace] at h
    rename_i cause took
    cases took with
    | true => cases h
    | false =>
      obtain rfl := Option.some.inj h
      exact ⟨.takes _, rfl⟩
  | finishPass =>
    cases hplace : w.place <;> simp [Worker.step, hplace] at h
    subst h
    exact ⟨.ends _ _, rfl⟩
  | readInterval =>
    cases hplace : w.place <;> simp [Worker.step, hplace] at h
    · subst h
      exact ⟨.resets _, rfl⟩
    · subst h
      refine ⟨?_, rfl⟩
      dsimp only
      split
      · exact .manualOnly _
      · exact .compares
  | readTick =>
    cases hplace : w.place <;> simp [Worker.step, hplace] at h
    · subst h
      exact ⟨.sets _, rfl⟩
    · subst h
      exact ⟨.computes _, rfl⟩
  | beginWait =>
    cases hplace : w.place <;> simp [Worker.step, hplace] at h
    subst h
    exact ⟨.waits _ _, rfl⟩
  | wake =>
    simp only [Worker.step] at h
    split at h
    · rename_i hplace hwait
      obtain rfl := Option.some.inj h
      rw [hplace]
      exact ⟨.stops _ (Events.wait_none_stop hwait), by rw [Events.wait_stop hwait]⟩
    · rename_i hplace hwait
      obtain rfl := Option.some.inj h
      obtain ⟨hbefore, hafter⟩ := Events.wait_some_stop hwait
      rw [hplace]
      exact ⟨.wakes _ _ hbefore, hafter.trans hbefore.symm⟩
    · cases h
  | timeOut =>
    simp only [Worker.step] at h
    split at h
    · rename_i hplace hwait
      obtain ⟨-, rfl⟩ : _ ≤ w.tick ∧ _ = w' := by simpa using h
      rw [hplace]
      exact ⟨.wakes _ _ (Events.wait_none hwait).1, rfl⟩
    · cases h
  | _ => cases hown

/-- A step of another thread leaves the worker where it is, and no event is reset by it. -/
theorem step_beside {w w' : Worker} {action : Action} (h : w.step action = some w')
    (hown : action.ofWorker = false) :
    w'.place = w.place ∧ (w.events.stop = true → w'.events.stop = true) ∧
      ∀ cause, .began cause ∉ w.records action := by
  cases action with
  | signalClearRequest =>
    obtain ⟨-, rfl⟩ : ¬w.clearsUnderWay = 0 ∧ _ = w' := by simpa [Worker.step] using h
    exact ⟨rfl, id, by simp [Worker.records]⟩
  | requestManualRefresh | notifySettingsChanged | storeClearRequest | setRefreshInterval
  | elapse =>
    obtain rfl := Option.some.inj h
    exact ⟨rfl, id, by simp [Worker.records]⟩
  | signalStop =>
    obtain rfl := Option.some.inj h
    exact ⟨rfl, fun _ => rfl, by simp [Worker.records]⟩
  | _ => cases hown

/-- Where a pass is due, the worker can only begin it. -/
theorem records_due {w w' : Worker} {action : Action} {cause : Cause}
    (h : w.step action = some w') (hown : action.ofWorker = true) (hdue : w.place = .due cause) :
    w.records action = [.began cause] := by
  cases action with
  | beginPass => simp [Worker.records, hdue]
  | checkLastSuccess | takeClearRequest | finishPass | readInterval | readTick | beginWait | wake
  | timeOut => simp [Worker.step, hdue] at h
  | _ => cases hown

/-- A worker that has not stopped can take a step, unless it waits for an event. -/
theorem Worker.can_step {w : Worker} (hplace : w.place ≠ .stopped)
    (hwaiting : ∀ expires, w.place = .waiting expires → w.events.wait ≠ none) :
    ∃ action, action.ofWorker = true ∧ (w.step action).isSome = true := by
  cases h : w.place with
  | starting => exact ⟨.checkLastSuccess 0, rfl, by simp [step, h]⟩
  | due cause => exact ⟨.beginPass, rfl, by simp [step, h]⟩
  | inPass cause took => exact ⟨.finishPass, rfl, by simp [step, h]⟩
  | resettingDeadline => exact ⟨.readInterval, rfl, by simp [step, h]⟩
  | settingDeadline interval => exact ⟨.readTick, rfl, by simp [step, h]⟩
  | computingWait => exact ⟨.readInterval, rfl, by simp [step, h]⟩
  | comparingTicks => exact ⟨.readTick, rfl, by simp [step, h]⟩
  | enteringWait ms => exact ⟨.beginWait, rfl, by simp [step, h]⟩
  | waiting expires =>
    refine ⟨.wake, rfl, ?_⟩
    cases hwait : w.events.wait with
    | none => exact absurd hwait (hwaiting expires h)
    | some woken =>
      obtain ⟨r, events⟩ := woken
      cases r <;> simp [step, h, hwait]
  | stopped => exact absurd h hplace

/-! ### Runs with their records -/

def recorded (s : Worker × List LoopEvent) (action : Action) :
    Option (Worker × List LoopEvent) :=
  (s.1.step action).map fun w' => (w', s.1.records action ++ s.2)

theorem run_eq_foldlM (w : Worker) (actions : List Action) (past : List LoopEvent) :
    w.run actions past = actions.foldlM recorded (w, past) := by
  induction actions generalizing w past with
  | nil => rfl
  | cons action rest ih =>
    rw [Worker.run, List.foldlM_cons, recorded]
    cases hstep : w.step action with
    | none => rfl
    | some w' => exact ih w' _

theorem recorded_some {s s' : Worker × List LoopEvent} {action : Action}
    (h : recorded s action = some s') :
    s.1.step action = some s'.1 ∧ s'.2 = s.1.records action ++ s.2 := by
  obtain ⟨w', hstep, rfl⟩ := Option.map_eq_some_iff.mp h
  exact ⟨hstep, rfl⟩

/-! ### Stopping -/

/-- How many steps the worker can take before it has stopped, once the stop event is signalled. -/
def Place.toStop : Place → Nat
  | .starting => 10
  | .due _ => 9
  | .inPass _ false => 8
  | .inPass _ true => 7
  | .resettingDeadline => 6
  | .settingDeadline _ => 5
  | .computingWait => 4
  | .comparingTicks => 3
  | .enteringWait _ => 2
  | .waiting _ => 1
  | .stopped => 0

theorem Place.toStop_le (place : Place) : place.toStop ≤ 10 := by
  unfold toStop
  split <;> omega

theorem Goes.toStop_lt {e : Events} {place place' : Place} (h : Goes e place place')
    (hstop : e.stop = true) : place'.toStop < place.toStop := by
  cases h with
  | ends cause took => cases took <;> simp [Place.toStop]
  | wakes expires cause hnot => exact absurd (hnot.symm.trans hstop) Bool.false_ne_true
  | _ => simp [Place.toStop]

theorem toStop_ranked :
    Ranked recorded Action.ofWorker (fun s => s.1.events.stop = true) (fun _ => False)
      fun s => s.1.place.toStop where
  lowers hs h hown := by
    obtain ⟨hgoes, hsame⟩ := step_goes (recorded_some h).1 hown
    exact .inr ⟨hsame.trans hs, hgoes.toStop_lt hs⟩
  keeps hs h hown := by
    obtain ⟨hplace, hstays, -⟩ := step_beside (recorded_some h).1 hown
    exact .inr ⟨hstays hs, by rw [hplace]⟩
  stays := False.elim

/-- A pass can still begin. -/
def Place.beforePass : Place → Nat
  | .starting | .due _ => 1
  | _ => 0

theorem Goes.beforePass_le {e : Events} {place place' : Place} (h : Goes e place place')
    (hstop : e.stop = true) : place'.beforePass ≤ place.beforePass := by
  cases h with
  | wakes expires cause hnot => exact absurd (hnot.symm.trans hstop) Bool.false_ne_true
  | _ => simp [Place.beforePass]

theorem Goes.beforePass_due {e : Events} {cause : Cause} {place' : Place}
    (h : Goes e (.due cause) place') : place'.beforePass = 0 := by
  cases h
  rfl

def LoopEvent.isBegan : LoopEvent → Bool
  | .began _ => true
  | _ => false

/-- Once the stop event is signalled, a pass begins only where one was due. -/
theorem began_le {s s' : Worker × List LoopEvent} {action : Action}
    (h : recorded s action = some s') (hstop : s.1.events.stop = true) :
    s'.2.countP LoopEvent.isBegan + s'.1.place.beforePass ≤
      s.2.countP LoopEvent.isBegan + s.1.place.beforePass := by
  obtain ⟨hstep, hrecord⟩ := recorded_some h
  rw [hrecord, List.countP_append]
  cases hown : action.ofWorker with
  | false =>
    obtain ⟨hplace, -, hnone⟩ := step_beside hstep hown
    have hzero : (s.1.records action).countP LoopEvent.isBegan = 0 := by
      apply List.countP_eq_zero.mpr
      intro e he hbegan
      cases e with
      | began cause => exact hnone cause he
      | _ => cases hbegan
    rw [hplace, hzero, Nat.zero_add]
  | true =>
    have hmoves := step_moves hstep
    have hle := (step_goes hstep hown).1.beforePass_le hstop
    generalize s.1.records action = events at hmoves
    cases hmoves with
    | begins cause hevents hfrom hplace =>
      have hnow : s'.1.place.beforePass = 0 := (hfrom ▸ (step_goes hstep hown).1).beforePass_due
      have hcount : [LoopEvent.began cause].countP LoopEvent.isBegan = 1 := rfl
      have hdue : s.1.place.beforePass = 1 := by rw [hfrom]; rfl
      omega
    | _ => simpa [LoopEvent.isBegan] using hle

theorem began_le_run {s s' : Worker × List LoopEvent} {actions : List Action}
    (hstop : s.1.events.stop = true) (hrun : actions.foldlM recorded s = some s') :
    s'.2.countP LoopEvent.isBegan + s'.1.place.beforePass ≤
      s.2.countP LoopEvent.isBegan + s.1.place.beforePass := by
  induction actions generalizing s with
  | nil =>
    obtain rfl := Option.some.inj hrun
    exact Nat.le_refl _
  | cons action rest ih =>
    obtain ⟨next, hstep, hrest⟩ := foldlM_cons_some hrun
    have hone : [action].foldlM recorded s = some next := by simpa using hstep
    have hstays := ((toStop_ranked.run hstop hone).resolve_left id).1
    have := ih hstays hrest
    have := began_le hstep hstop
    omega

/-- Once the stop event is signalled: the worker takes at most ten more steps, at most one pass
begins, and until it has stopped it can take a step.  So `Stop` returns. -/
theorem stops_soon {w w' : Worker} {past past' : List LoopEvent} {actions : List Action}
    (hstop : w.events.stop = true) (hrun : w.run actions past = some (w', past')) :
    ownSteps Action.ofWorker actions ≤ 10 ∧
      past'.countP LoopEvent.isBegan ≤ past.countP LoopEvent.isBegan + 1 ∧
      (w'.place = .stopped ∨
        ∃ action, action.ofWorker = true ∧ (w'.step action).isSome = true) := by
  rw [run_eq_foldlM] at hrun
  obtain ⟨hstill, hle⟩ := (toStop_ranked.run hstop hrun).resolve_left id
  refine ⟨?_, ?_, ?_⟩
  · have := w.place.toStop_le
    dsimp only at hle
    omega
  · have hone : w.place.beforePass ≤ 1 := by
      unfold Place.beforePass
      split <;> omega
    have := began_le_run hstop hrun
    dsimp only at this
    omega
  · by_cases hplace : w'.place = .stopped
    · exact .inl hplace
    · refine .inr (Worker.can_step hplace fun expires _ hwait => ?_)
      exact Bool.false_ne_true ((Events.wait_none hwait).1.symm.trans hstill)

/-- The stop event is signalled when the pass at start-up is due. -/
def stoppedAtStart : List Action :=
  [.beginPass, .requestManualRefresh, .takeClearRequest, .finishPass, .readInterval, .readTick,
    .readInterval, .readTick, .elapse 5, .beginWait, .wake]

theorem stops_soon_at_start :
    let w := { Worker.start 0 .min30 true with place := .due .startUp, events.stop := true }
    ownSteps Action.ofWorker stoppedAtStart ≤ 10 ∧
      (w.run stoppedAtStart []).map (fun r => r.1.place) = some .stopped := by
  intro w
  have hrun : w.run stoppedAtStart [] =
      some ((w.run stoppedAtStart []).get (by decide)) := by simp
  exact ⟨(stops_soon (w := w) rfl hrun).1, by decide⟩

/-! ### Answering a request -/

/-- How many steps the worker can take before a pass begins, where an event is signalled. -/
def Place.toPass : Place → Nat
  | .starting => 10
  | .inPass _ false => 9
  | .inPass _ true => 8
  | .resettingDeadline => 7
  | .settingDeadline _ => 6
  | .computingWait => 5
  | .comparingTicks => 4
  | .enteringWait _ => 3
  | .waiting _ => 2
  | .due _ => 1
  | .stopped => 0

theorem Place.toPass_le (place : Place) : place.toPass ≤ 10 := by
  unfold toPass
  split <;> omega

theorem Goes.toPass_lt {e : Events} {place place' : Place} (h : Goes e place place')
    (hstop : e.stop = false) (hdue : ∀ cause, place ≠ .due cause) :
    place'.toPass < place.toPass := by
  cases h with
  | ends cause took => cases took <;> simp [Place.toPass]
  | begins cause => exact absurd rfl (hdue cause)
  | stops expires hset => exact absurd (hstop.symm.trans hset) Bool.false_ne_true
  | _ => simp [Place.toPass]

theorem Goes.not_stopped {e : Events} {place place' : Place} (h : Goes e place place')
    (hstop : e.stop = false) : place' ≠ .stopped := by
  cases h with
  | stops expires hset => exact absurd (hstop.symm.trans hset) Bool.false_ne_true
  | _ => nofun

/-- The worker is about to begin a pass, or an event is signalled that is not the stop event. -/
structure Pending (w : Worker) : Prop where
  running : w.events.stop = false
  not_stopped : w.place ≠ .stopped
  request : (∃ cause, w.place = .due cause) ∨ ∃ r, w.events.signalled r = true

/-- A pass has begun since `past`, or the stop event has been signalled. -/
def Answered (past : List LoopEvent) (s : Worker × List LoopEvent) : Prop :=
  (∃ new cause, s.2 = new ++ past ∧ .began cause ∈ new) ∨ s.1.events.stop = true

/-- Nothing but records of other threads has been added since `past`. -/
def Asked (past : List LoopEvent) (s : Worker × List LoopEvent) : Prop :=
  Pending s.1 ∧ ∃ new, s.2 = new ++ past

theorem Moves.pending {w w' : Worker} {events : List LoopEvent} (h : Moves w w' events)
    (hpending : Pending w) (hnone : ∀ cause, .began cause ∉ events) :
    (∃ cause, w'.place = .due cause) ∨ ∃ r, w'.events.signalled r = true := by
  cases h with
  | signals r hplace hevents =>
    refine .inr ⟨r, ?_⟩
    rw [hevents, Events.signalled_set]
    simp
  | silent hevents hplace =>
    rw [hevents]
    obtain hsame | ⟨hfrom, -⟩ := hplace
    · rw [hsame]
      exact hpending.request
    · exact .inr (hpending.request.resolve_left fun ⟨cause, hdue⟩ => hfrom cause hdue)
  | woken r hfrom hplace hwait => exact .inl ⟨_, hplace⟩
  | begins cause hevents hfrom hplace => exact absurd (.head _) (hnone cause)
  | ends hevents hfrom hplace =>
    rw [hevents]
    exact .inr (hpending.request.resolve_left fun ⟨cause, hdue⟩ => hfrom cause hdue)

/-- A step answers, or what is pending stays pending. -/
theorem asked_step {past : List LoopEvent} {s s' : Worker × List LoopEvent} {action : Action}
    (hs : Asked past s) (h : recorded s action = some s') : Answered past s' ∨
      Asked past s' ∧ ∀ cause, .began cause ∉ s.1.records action := by
  obtain ⟨hstep, hrecord⟩ := recorded_some h
  obtain ⟨hpending, new, hnew⟩ := hs
  have hpast : s'.2 = (s.1.records action ++ new) ++ past := by
    rw [hrecord, hnew, List.append_assoc]
  by_cases hbegan : ∃ cause, .began cause ∈ s.1.records action
  · obtain ⟨cause, hcause⟩ := hbegan
    exact .inl (.inl ⟨_, cause, hpast, List.mem_append_left _ hcause⟩)
  · cases hstop : s'.1.events.stop with
    | true => exact .inl (.inr hstop)
    | false =>
      have hnone := not_exists.mp hbegan
      refine .inr ⟨⟨⟨hstop, ?_, (step_moves hstep).pending hpending hnone⟩, _, hpast⟩, hnone⟩
      cases hown : action.ofWorker with
      | true => exact (step_goes hstep hown).1.not_stopped hpending.running
      | false =>
        rw [(step_beside hstep hown).1]
        exact hpending.not_stopped

theorem toPass_ranked (past : List LoopEvent) :
    Ranked recorded Action.ofWorker (Asked past) (Answered past) fun s => s.1.place.toPass where
  lowers {s s' action} hs h hown := by
    refine (asked_step hs h).imp_right fun ⟨hasked, hnone⟩ => ⟨hasked, ?_⟩
    obtain ⟨hstep, -⟩ := recorded_some h
    refine (step_goes hstep hown).1.toPass_lt hs.1.running fun cause hdue => ?_
    exact hnone cause (by simp [records_due hstep hown hdue])
  keeps hs h hown := by
    refine (asked_step hs h).imp_right fun ⟨hasked, _⟩ => ⟨hasked, ?_⟩
    rw [(step_beside (recorded_some h).1 hown).1]
  stays {s s' action} hs h := by
    obtain ⟨hstep, hrecord⟩ := recorded_some h
    obtain ⟨new, cause, hnew, hcause⟩ | hstop := hs
    · refine .inl ⟨s.1.records action ++ new, cause, ?_, List.mem_append_right _ hcause⟩
      rw [hrecord, hnew, List.append_assoc]
    · refine .inr ?_
      cases hown : action.ofWorker with
      | true => exact (step_goes hstep hown).2.trans hstop
      | false => exact (step_beside hstep hown).2.1 hstop

theorem Reached.not_stopped {w : Worker} {past : List LoopEvent} (h : Reached w past) :
    w.events.stop = false → w.place ≠ .stopped := by
  induction h with
  | start => exact fun _ => nofun
  | @step w w' past action _ hstep ih =>
    intro hstop
    cases hown : action.ofWorker with
    | true =>
      obtain ⟨hgoes, hsame⟩ := step_goes hstep hown
      exact hgoes.not_stopped (hsame.symm.trans hstop)
    | false =>
      obtain ⟨hplace, hstays, -⟩ := step_beside hstep hown
      rw [hplace]
      refine ih (Bool.eq_false_iff.mpr fun hset => ?_)
      exact Bool.false_ne_true (hstop.symm.trans (hstays hset))

/-- In every run from a state where no pass has begun since a request was signalled, a pass begins
within ten steps of the worker, and until then it can take a step, unless the stop event is
signalled. -/
theorem request_answered_soon {w w' : Worker} {past past' : List LoopEvent}
    {actions : List Action} {r : Request} (h : Reached w past) (hunserved : Unserved r past)
    (hrun : w.run actions past = some (w', past')) (hstop : w'.events.stop = false) :
    (∃ new cause, past' = new ++ past ∧ .began cause ∈ new) ∨
      ownSteps Action.ofWorker actions < 10 ∧
        ∃ action, action.ofWorker = true ∧ (w'.step action).isSome = true := by
  rw [run_eq_foldlM] at hrun
  have hranked := toPass_ranked past
  cases hset : w.events.stop with
  | true =>
    have hstill := ((toStop_ranked.run hset hrun).resolve_left id).1
    exact absurd (hstop.symm.trans hstill) Bool.false_ne_true
  | false =>
    have hasked : Asked past (w, past) :=
      ⟨⟨hset, h.not_stopped hset, (h.kept r hunserved).imp_right fun hr => ⟨r, hr⟩⟩, [], rfl⟩
    obtain hanswered | ⟨hstill, hle⟩ := hranked.run hasked hrun
    · exact .inl (hanswered.resolve_right (by simp [hstop]))
    · refine .inr ⟨?_, Worker.can_step hstill.1.not_stopped fun expires hplace hwait => ?_⟩
      · have := w.place.toPass_le
        have hpos : 0 < w'.place.toPass := by
          have hne := hstill.1.not_stopped
          dsimp only at hne
          unfold Place.toPass
          split <;> simp_all
        dsimp only at hle
        omega
      · obtain ⟨cause, hdue⟩ | ⟨r', hr'⟩ := hstill.1.request
        · exact absurd (hplace.symm.trans hdue) nofun
        · exact Bool.false_ne_true (((Events.wait_none hwait).2 r').symm.trans hr')

/-- The worker waits for the first time and is woken, under "manual only". -/
def firstWait : List Action :=
  [.readInterval, .readTick, .elapse 5, .readInterval, .beginWait, .wake, .beginPass]

theorem request_answered_soon_early :
    let asked := ((Worker.start 0 .manual false).run
      [.checkLastSuccess 0, .requestManualRefresh] []).get (by decide)
    let r := (asked.1.run firstWait asked.2).get (by decide)
    (∃ new cause, r.2 = new ++ asked.2 ∧ .began cause ∈ new) ∨
      ownSteps Action.ofWorker firstWait < 10 ∧
        ∃ action, action.ofWorker = true ∧ (r.1.step action).isSome = true := by
  intro asked r
  have hasked : (Worker.start 0 .manual false).run [.checkLastSuccess 0, .requestManualRefresh] [] =
      some (asked.1, asked.2) := rfl
  have hrun : asked.1.run firstWait asked.2 = some (r.1, r.2) := rfl
  have hunserved : Unserved .manual asked.2 := .inl rfl
  exact request_answered_soon ((Reached.start 0 .manual false).run hasked) hunserved hrun rfl

end SteamSalesTray.Sync.WorkerLoop
