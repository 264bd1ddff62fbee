import SteamSalesTray.Sync.WorkerLoop

/-! The times at which the worker's loop begins its passes: a pass that begins because the wait
timed out keeps its distance from the pass before, as long as the interval does not become an
automatic one between the two reads of it. -/

namespace SteamSalesTray.Sync.WorkerLoop

open Storage

/-- A step and the state that it was made in. -/
abbrev Step := Worker × Action

/-- The runs whose steps all meet a condition on the step and on the steps before it, the newest
step first. -/
inductive Timed (meets : Worker → Action → List Step → Prop) : Worker → List Step → Prop where
  | start (tick interval clearCacheRequested) :
      Timed meets (.start tick interval clearCacheRequested) []
  | step {w w' past} (action : Action) (h : Timed meets w past) (hmeets : meets w action past)
      (hstep : w.step action = some w') : Timed meets w' ((w, action) :: past)

/-- The interval that `resetDeadline` has read since the end of the last pass, and the tick that it
has read then. -/
def lastReset : List Step → Option (RefreshInterval × Nat)
  | [] => none
  | (w, .readTick) :: past =>
    match w.place with
    | .settingDeadline interval => some (interval, w.tick)
    | _ => lastReset past
  | (_, .finishPass) :: _ => none
  | _ :: past => lastReset past

/-- The tick at which the last pass ended. -/
def lastEnd : List Step → Option Nat
  | [] => none
  | (w, .finishPass) :: _ => some w.tick
  | _ :: past => lastEnd past

/-- `ComputeWaitMs` reads an automatic interval only if `resetDeadline` has read one before. -/
def Steady (w : Worker) (action : Action) (past : List Step) : Prop :=
  action = .readInterval → w.place = .computingWait → w.interval.minutes ≠ 0 →
    ∀ r ∈ lastReset past, r.1.minutes ≠ 0

instance (w : Worker) (action : Action) (past : List Step) : Decidable (Steady w action past) := by
  unfold Steady
  infer_instance

/-- The deadline set since the last pass was set under an automatic interval and is over, and the
last pass ended 15 minutes ago. -/
def KeepsDistance (w : Worker) (past : List Step) : Prop :=
  (∃ r ∈ lastReset past, r.1.minutes ≠ 0 ∧ deadlineAt r.1 r.2 ≤ w.tick) ∧
    ∀ e ∈ lastEnd past, e + 15 * 60000 ≤ w.tick

/-- What came before a step of a run is a run. -/
theorem Timed.before {meets : Worker → Action → List Step → Prop} {w w₀ : Worker} {action : Action}
    {past after before : List Step} (h : Timed meets w past)
    (hpast : past = after ++ (w₀, action) :: before) : Timed meets w₀ before := by
  induction h generalizing after with
  | start => cases after <;> cases hpast
  | step _ h _ _ ih =>
    cases after with
    | nil =>
      cases hpast
      exact h
    | cons _ after => exact ih (List.cons.inj hpast).2

/-- Every step of a run meets a condition. -/
def Meets (meets : Worker → Action → List Step → Prop) : List Step → Prop
  | [] => True
  | (w, action) :: past => meets w action past ∧ Meets meets past

instance decidableMeets (meets : Worker → Action → List Step → Prop)
    [∀ w action past, Decidable (meets w action past)] :
    (past : List Step) → Decidable (Meets meets past)
  | [] => .isTrue trivial
  | (w, action) :: past =>
    have := decidableMeets meets past
    inferInstanceAs (Decidable (meets w action past ∧ Meets meets past))

abbrev AnyStep : Worker → Action → List Step → Prop := fun _ _ _ => True

theorem Timed.of_meets {meets : Worker → Action → List Step → Prop} {w : Worker} {past : List Step}
    (h : Timed AnyStep w past) (hmeets : Meets meets past) : Timed meets w past := by
  induction h with
  | start => exact .start _ _ _
  | step action _ _ hstep ih => exact (ih hmeets.2).step action hmeets.1 hstep

/-- The state and the steps after some actions, if each of them can be made. -/
def Worker.steps (w : Worker) : List Action → List Step → Option (Worker × List Step)
  | [], past => some (w, past)
  | action :: rest, past => (w.step action).bind fun w' => w'.steps rest ((w, action) :: past)

theorem Timed.steps {actions : List Action} {w w' : Worker} {past past' : List Step}
    (h : Timed AnyStep w past) (hsteps : w.steps actions past = some (w', past')) :
    Timed AnyStep w' past' := by
  induction actions generalizing w past with
  | nil =>
    obtain ⟨rfl, rfl⟩ : w = w' ∧ past = past' := by simpa [Worker.steps] using hsteps
    exact h
  | cons action rest ih =>
    obtain ⟨w1, hstep, hrest⟩ := Option.bind_eq_some_iff.mp hsteps
    exact ih (h.step action trivial hstep) hrest

/-! ### The deadline -/

/-- The deadline is the one of the last reset, which was after the last pass. -/
structure DeadlineSet (w : Worker) (past : List Step) (interval : RefreshInterval) (tick : Nat) :
    Prop where
  reset : lastReset past = some (interval, tick)
  deadline : w.deadlineTick = deadlineAt interval tick
  ended : ∀ e ∈ lastEnd past, e ≤ tick

def HasDeadline (w : Worker) (past : List Step) : Prop :=
  ∃ interval tick, DeadlineSet w past interval tick

/-- And it was set under an automatic interval. -/
def Automatic (w : Worker) (past : List Step) : Prop :=
  ∃ interval tick, DeadlineSet w past interval tick ∧ interval.minutes ≠ 0

/-- What each place says of the deadline, if the interval is steady. -/
def Timely (w : Worker) (past : List Step) : Prop :=
  match w.place with
  | .computingWait => HasDeadline w past
  | .comparingTicks => Automatic w past
  | .enteringWait ms => ms ≠ kInfinite → Automatic w past ∧ w.deadlineTick ≤ w.tick + ms
  | .waiting (some expires) => Automatic w past ∧ w.deadlineTick ≤ expires
  | .due .timeOut => Automatic w past ∧ w.deadlineTick ≤ w.tick
  | _ => True

/-- Places that say nothing of the deadline. -/
def Place.Untimed : Place → Prop
  | .computingWait | .comparingTicks | .waiting (some _) | .due .timeOut => False
  | .enteringWait ms => ms = kInfinite
  | _ => True

/-- What a step can do to the place of the worker, its deadline and the tick. -/
inductive Paces (w w' : Worker) : Action → Prop where
  | stays {action : Action} (haction : action ≠ .finishPass ∧ action ≠ .readTick)
      (hplace : w'.place = w.place) (hdeadline : w'.deadlineTick = w.deadlineTick)
      (htick : w.tick ≤ w'.tick) : Paces w w' action
  | goes {action : Action} (haction : action ≠ .readTick) (hplace : w'.place.Untimed)
      (htick : w'.tick = w.tick) : Paces w w' action
  | sets (interval : RefreshInterval) (hfrom : w.place = .settingDeadline interval)
      (hplace : w'.place = .computingWait)
      (hdeadline : w'.deadlineTick = deadlineAt interval w.tick) (htick : w'.tick = w.tick) :
      Paces w w' .readTick
  | reads (hfrom : w.place = .computingWait) (hinterval : w.interval.minutes ≠ 0)
      (hplace : w'.place = .comparingTicks) (hdeadline : w'.deadlineTick = w.deadlineTick)
      (htick : w'.tick = w.tick) : Paces w w' .readInterval
  | compares (hfrom : w.place = .comparingTicks)
      (hplace : w'.place = .enteringWait (waitMsAt w.deadlineTick w.tick))
      (hdeadline : w'.deadlineTick = w.deadlineTick) (htick : w'.tick = w.tick) :
      Paces w w' .readTick
  | waits (ms : Nat) (hfrom : w.place = .enteringWait ms) (hms : ms ≠ kInfinite)
      (hplace : w'.place = .waiting (some (w.tick + ms)))
      (hdeadline : w'.deadlineTick = w.deadlineTick) (htick : w'.tick = w.tick) :
      Paces w w' .beginWait
  | timesOut (expires : Nat) (hfrom : w.place = .waiting (some expires)) (hover : expires ≤ w.tick)
      (hplace : w'.place = .due .timeOut) (hdeadline : w'.deadlineTick = w.deadlineTick)
      (htick : w'.tick = w.tick) : Paces w w' .timeOut

theorem step_paces {w w' : Worker} {action : Action} (h : w.step action = some w') :
    Paces w w' action := by
  cases action with
  | requestManualRefresh | notifySettingsChanged | storeClearRequest | setRefreshInterval interval
  | signalStop =>
    obtain rfl := Option.some.inj h
    exact .stays (by simp) rfl rfl (Nat.le_refl _)
  | signalClearRequest =>
    obtain ⟨-, rfl⟩ : ¬w.clearsUnderWay = 0 ∧ _ = w' := by simpa [Worker.step] using h
    exact .stays (by simp) rfl rfl (Nat.le_refl _)
  | elapse ticks =>
    obtain rfl := Option.some.inj h
    exact .stays (by simp) rfl rfl (Nat.le_add_right _ _)
  | checkLastSuccess age =>
    cases hplace : w.place <;> simp [Worker.step, hplace] at h
    subst h
    refine .goes (by simp) ?_ rfl
    dsimp only
    split <;> trivial
  | beginPass =>
    cases hplace : w.place <;> simp [Worker.step, hplace] at h
    subst h
    exact .goes (by simp) trivial rfl
  | takeClearRequest =>
    cases hplace : w.place <;> simp [Worker.step, hplace] at h
    split at h
    · obtain rfl := Option.some.inj h
      exact .goes (by simp) trivial rfl
    · cases h
  | finishPass =>
    cases hplace : w.place <;> simp [Worker.step, hplace] at h
    subst h
    exact .goes (by simp) trivial rfl
  | readInterval =>
    cases hplace : w.place <;> simp [Worker.step, hplace] at h
    · subst h
      exact .goes (by simp) trivial rfl
    · subst h
      by_cases hinterval : w.interval.minutes = 0
      · refine .goes (by simp) ?_ rfl
        rw [if_pos hinterval]
        rfl
      · exact .reads hplace hinterval (if_neg hinterval) rfl rfl
  | readTick =>
    cases hplace : w.place <;> simp [Worker.step, hplace] at h
    · subst h
      exact .sets _ hplace rfl rfl rfl
    · subst h
      exact .compares hplace rfl rfl rfl
  | beginWait =>
    cases hplace : w.place <;> simp [Worker.step, hplace] at h
    rename_i ms
    subst h
    by_cases hms : ms = kInfinite
    · refine .goes (by simp) ?_ rfl
      rw [if_pos hms]
      trivial
    · exact .waits ms hplace hms (by rw [if_neg hms]) rfl rfl
  | wake =>
    simp only [Worker.step] at h
    split at h
    · obtain rfl := Option.some.inj h
      exact .goes (by simp) trivial rfl
    · obtain rfl := Option.some.inj h
      exact .goes (by simp) trivial rfl
    · cases h
  | timeOut =>
    simp only [Worker.step] at h
    split at h
    · rename_i hplace _
      obtain ⟨hover, rfl⟩ : _ ≤ w.tick ∧ _ = w' := by simpa using h
      exact .timesOut _ hplace hover rfl rfl rfl
    · cases h

theorem lastEnd_cons {w : Worker} {action : Action} (h : action ≠ .finishPass)
    (past : List Step) : lastEnd ((w, action) :: past) = lastEnd past := by
  cases action <;> first | rfl | exact absurd rfl h

theorem lastReset_cons {w : Worker} {action : Action}
    (h : action ≠ .finishPass ∧ action ≠ .readTick) (past : List Step) :
    lastReset ((w, action) :: past) = lastReset past := by
  cases action <;> first | rfl | exact absurd rfl h.1 | exact absurd rfl h.2

theorem Paces.tick_le {w w' : Worker} {action : Action} (h : Paces w w' action) :
    w.tick ≤ w'.tick := by
  cases h <;> omega

theorem Timed.ended {meets : Worker → Action → List Step → Prop} {w : Worker} {past : List Step}
    (h : Timed meets w past) : ∀ e ∈ lastEnd past, e ≤ w.tick := by
  induction h with
  | start => nofun
  | @step w w' past action _ _ hstep ih =>
    have hle := (step_paces hstep).tick_le
    by_cases haction : action = .finishPass
    · subst haction
      rintro e ⟨⟩
      exact hle
    · rw [lastEnd_cons haction]
      exact fun e he => Nat.le_trans (ih e he) hle

theorem DeadlineSet.cons {w w' : Worker} {past : List Step} {interval : RefreshInterval}
    {tick : Nat} (h : DeadlineSet w past interval tick) {action : Action}
    (haction : action ≠ .finishPass) (hreset : lastReset ((w, action) :: past) = lastReset past)
    (hdeadline : w'.deadlineTick = w.deadlineTick) :
    DeadlineSet w' ((w, action) :: past) interval tick where
  reset := by rw [hreset]; exact h.reset
  deadline := by rw [hdeadline]; exact h.deadline
  ended := by rw [lastEnd_cons haction]; exact h.ended

theorem Automatic.cons {w w' : Worker} {past : List Step} (h : Automatic w past) {action : Action}
    (haction : action ≠ .finishPass) (hreset : lastReset ((w, action) :: past) = lastReset past)
    (hdeadline : w'.deadlineTick = w.deadlineTick) : Automatic w' ((w, action) :: past) := by
  obtain ⟨interval, tick, hset, hminutes⟩ := h
  exact ⟨interval, tick, hset.cons haction hreset hdeadline, hminutes⟩

theorem timely_of_untimed {w : Worker} {past : List Step} (h : w.place.Untimed) :
    Timely w past := by
  unfold Place.Untimed at h
  unfold Timely
  split at h <;> simp_all

theorem Timely.stays {w w' : Worker} {past : List Step} (ht : Timely w past) {action : Action}
    (haction : action ≠ .finishPass ∧ action ≠ .readTick) (hplace : w'.place = w.place)
    (hdeadline : w'.deadlineTick = w.deadlineTick) (htick : w.tick ≤ w'.tick) :
    Timely w' ((w, action) :: past) := by
  have hreset := lastReset_cons (w := w) haction past
  have hauto : Automatic w past → Automatic w' ((w, action) :: past) := fun h =>
    h.cons haction.1 hreset hdeadline
  unfold Timely at ht ⊢
  rw [hplace, hdeadline]
  split at ht
  · obtain ⟨interval, tick, hset⟩ := ht
    exact ⟨interval, tick, hset.cons haction.1 hreset hdeadline⟩
  · exact hauto ht
  · intro hms
    obtain ⟨h, hle⟩ := ht hms
    exact ⟨hauto h, by omega⟩
  · exact ⟨hauto ht.1, ht.2⟩
  · exact ⟨hauto ht.1, Nat.le_trans ht.2 htick⟩
  · trivial

/-- A wait that is not endless lasts until the deadline. -/
theorem le_waitMsAt {deadlineTick tick : Nat} (h : waitMsAt deadlineTick tick ≠ kInfinite) :
    deadlineTick ≤ tick + waitMsAt deadlineTick tick := by
  unfold waitMsAt at h ⊢
  split
  · omega
  · rename_i hlater
    rw [if_neg hlater] at h
    have : kInfinite = kMaxDword := rfl
    omega

theorem Paces.timely {w w' : Worker} {past : List Step} {action : Action} (h : Paces w w' action)
    (hended : ∀ e ∈ lastEnd past, e ≤ w.tick) (hsteady : Steady w action past)
    (ht : Timely w past) : Timely w' ((w, action) :: past) := by
  cases h with
  | stays haction hplace hdeadline htick => exact ht.stays haction hplace hdeadline htick
  | goes haction hplace htick => exact timely_of_untimed hplace
  | sets interval hfrom hplace hdeadline htick =>
    unfold Timely
    rw [hplace]
    refine ⟨interval, w.tick, ?_, hdeadline, ?_⟩
    · rw [lastReset, hfrom]
    · rw [lastEnd_cons (by simp)]
      exact hended
  | reads hfrom hinterval hplace hdeadline htick =>
    unfold Timely at ht ⊢
    rw [hfrom] at ht
    rw [hplace]
    obtain ⟨interval, tick, hset⟩ := ht
    have hminutes := hsteady rfl hfrom hinterval _ hset.reset
    exact ⟨interval, tick, hset.cons (by simp) (lastReset_cons (by simp) past) hdeadline, hminutes⟩
  | compares hfrom hplace hdeadline htick =>
    have hreset : lastReset ((w, .readTick) :: past) = lastReset past := by
      rw [lastReset, hfrom]
    unfold Timely at ht ⊢
    rw [hfrom] at ht
    rw [hplace, hdeadline, htick]
    exact fun hms => ⟨Automatic.cons ht (by simp) hreset hdeadline, le_waitMsAt hms⟩
  | waits ms hfrom hms hplace hdeadline htick =>
    unfold Timely at ht ⊢
    rw [hfrom] at ht
    rw [hplace, hdeadline]
    obtain ⟨hautomatic, hle⟩ := ht hms
    exact ⟨hautomatic.cons (by simp) (lastReset_cons (by simp) past) hdeadline, hle⟩
  | timesOut expires hfrom hover hplace hdeadline htick =>
    unfold Timely at ht ⊢
    rw [hfrom] at ht
    rw [hplace, hdeadline, htick]
    exact ⟨ht.1.cons (by simp) (lastReset_cons (by simp) past) hdeadline, Nat.le_trans ht.2 hover⟩

theorem Timed.timely {w : Worker} {past : List Step} (h : Timed Steady w past) : Timely w past := by
  induction h with
  | start => trivial
  | step action h hsteady hstep ih => exact (step_paces hstep).timely h.ended hsteady ih

theorem minutes_le {interval : RefreshInterval} (h : interval.minutes ≠ 0) :
    15 ≤ interval.minutes.toNat := by
  cases interval with
  | manual => exact absurd rfl h
  | _ => decide

theorem Automatic.keepsDistance {w : Worker} {past : List Step} (h : Automatic w past)
    (htick : w.deadlineTick ≤ w.tick) : KeepsDistance w past := by
  obtain ⟨interval, tick, hset, hminutes⟩ := h
  rw [hset.deadline] at htick
  refine ⟨⟨_, hset.reset, hminutes, htick⟩, fun e he => ?_⟩
  have hend := hset.ended e he
  have hle := minutes_le hminutes
  rw [deadlineAt, if_neg hminutes] at htick
  omega

/-- In every run in which the interval is steady: a pass that begins because the wait timed out
begins no earlier than the deadline set since the pass before it, which is at least 15 minutes after
the end of that pass, and was not set under "manual only". -/
theorem automatic_passes_keep_distance {w : Worker} {past : List Step} (h : Timed Steady w past)
    {w₀ : Worker} {after before : List Step} (hpast : past = after ++ (w₀, .beginPass) :: before)
    (hcause : w₀.place = .due .timeOut) : KeepsDistance w₀ before := by
  have htimely := (h.before hpast).timely
  unfold Timely at htimely
  rw [hcause] at htimely
  exact htimely.1.keepsDistance htimely.2

theorem Timed.hasDeadline {meets : Worker → Action → List Step → Prop} {w : Worker}
    {past : List Step} (h : Timed meets w past) (hplace : w.place = .computingWait) :
    HasDeadline w past := by
  induction h with
  | start => cases hplace
  | @step w w' past action h hmeets hstep ih =>
    have hended := h.ended
    cases step_paces hstep with
    | stays haction hsame hdeadline htick =>
      obtain ⟨interval, tick, hset⟩ := ih (hsame.symm.trans hplace)
      exact ⟨interval, tick, hset.cons haction.1 (lastReset_cons haction past) hdeadline⟩
    | goes haction huntimed htick =>
      rw [hplace] at huntimed
      exact huntimed.elim
    | sets interval hfrom hto hdeadline htick =>
      refine ⟨interval, w.tick, by rw [lastReset, hfrom], hdeadline, ?_⟩
      rw [lastEnd_cons (by simp)]
      exact hended
    | reads hfrom hinterval hto => cases hto.symm.trans hplace
    | compares hfrom hto => cases hto.symm.trans hplace
    | waits ms hfrom hms hto => cases hto.symm.trans hplace
    | timesOut expires hfrom hover hto => cases hto.symm.trans hplace

/-- The condition is needed: wherever a step does not meet it and no event is signalled, a pass can
begin at once that does not keep its distance. -/
theorem early_pass_of_unsteady {w : Worker} {past : List Step} (h : Timed AnyStep w past)
    (hunsteady : ¬Steady w .readInterval past) (hevents : w.events.wait = none) :
    ∃ w₀ before, Timed AnyStep w₀ before ∧ w₀.place = .due .timeOut ∧ w₀.tick = w.tick ∧
      ¬KeepsDistance w₀ before := by
  simp only [Steady, not_forall] at hunsteady
  obtain ⟨-, hplace, hinterval, r, hreset, hmanual⟩ := hunsteady
  obtain ⟨interval, tick, hset⟩ := h.hasDeadline hplace
  obtain rfl : (interval, tick) = r := Option.some.inj (hset.reset.symm.trans hreset)
  have hdeadline : w.deadlineTick = 0 := by
    rw [hset.deadline, deadlineAt, if_pos (not_not.mp hmanual)]
  have hreads : w.step .readInterval = some { w with place := .comparingTicks } := by
    simp [Worker.step, hplace, hinterval]
  have hcompares : Worker.step { w with place := .comparingTicks } .readTick =
      some { w with place := .enteringWait 0 } := by
    simp [Worker.step, waitMsAt, hdeadline]
  have hwaits : Worker.step { w with place := .enteringWait 0 } .beginWait =
      some { w with place := .waiting (some w.tick) } := rfl
  have htimesOut : Worker.step { w with place := .waiting (some w.tick) } .timeOut =
      some { w with place := .due .timeOut } := by
    simp [Worker.step, hevents]
  refine ⟨_, _, (((h.step _ trivial hreads).step _ trivial hcompares).step _ trivial hwaits).step _
    trivial htimesOut, rfl, rfl, ?_⟩
  rintro ⟨⟨r, hr, hminutes, -⟩, -⟩
  obtain rfl : (interval, tick) = r := Option.some.inj (hset.reset.symm.trans hr)
  exact hmanual hminutes

/-- A pass that keeps its distance: the wait after the pass at start-up times out. -/
def waitOut : List Action :=
  [.checkLastSuccess 301, .beginPass, .finishPass, .readInterval, .readTick, .readInterval,
    .readTick, .beginWait, .elapse 900000, .timeOut, .beginPass]

theorem automatic_passes_keep_distance_once :
    let r := ((Worker.start 5 .min15 false).steps waitOut []).get (by decide)
    ∃ w₀ before, r.2 = (w₀, .beginPass) :: before ∧ w₀.place = .due .timeOut ∧
      KeepsDistance w₀ before := by
  intro r
  have hrun : Timed AnyStep r.1 r.2 := @Timed.steps waitOut _ _ _ _ (.start 5 .min15 false) rfl
  have hpast : r.2 = [] ++ _ := rfl
  exact ⟨_, _, rfl, rfl,
    automatic_passes_keep_distance (hrun.of_meets (by decide)) hpast rfl⟩

/-- The interval is changed from "manual only" to 15 minutes after `resetDeadline` has read it. -/
def changeOfInterval : List Action :=
  [.checkLastSuccess 301, .beginPass, .finishPass, .readInterval, .readTick,
    .setRefreshInterval .min15, .readInterval, .readTick, .beginWait, .timeOut, .beginPass]

theorem automatic_passes_fail_at_change :
    ¬∀ w past, Timed AnyStep w past → ∀ w₀ after before,
      past = after ++ (w₀, .beginPass) :: before → w₀.place = .due .timeOut →
        KeepsDistance w₀ before := by
  intro hall
  have hrun := @Timed.steps changeOfInterval _ _ _ _ (.start 5 .manual false) rfl
  obtain ⟨⟨r, hr, hminutes, -⟩, -⟩ := hall _ _ hrun _ [] _ rfl rfl
  obtain rfl : (.manual, 5) = r := Option.some.inj hr
  exact hminutes rfl

end SteamSalesTray.Sync.WorkerLoop
