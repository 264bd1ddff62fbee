import SteamSalesTray.Lib.Slot
import SteamSalesTray.Sync.Effects

/-! The notifications: the status has one slot for them, which each pass that stores dates
overwrites, and the UI thread shows what is in the slot when it handles `TOTALS_CHANGED`. -/

namespace SteamSalesTray.Sync

open Interaction Transaction Storage Steam

/-- The notifications that the passes have published, the oldest first. -/
def published : List Happened → List Wide
  | [] => []
  | .call (.updateStatus (.publish notification)) _ _ :: past =>
    published past ++ if notification.isEmpty then [] else [notification]
  | _ :: past => published past

/-- A pass has written its notification and not posted `TOTALS_CHANGED` yet. -/
def publishing : List Happened → Bool
  | .act _ _ :: past => publishing past
  | .call (.updateStatus (.publish _)) _ _ :: _ => true
  | _ => false

def toShow (notification : Wide) : Option Wide :=
  if notification.isEmpty then none else some notification

/-- The slot of the status, with the balloons that were shown before the run began. -/
def slotOf (earlier : List Wide) (s : Record) : Slot Wide where
  content := toShow s.state.status.notification
  signals := s.state.queue.count .totalsChanged
  unannounced := publishing s.past
  seen := s.state.balloons
  written := earlier ++ published s.past

/-- The calls that neither publish nor post `TOTALS_CHANGED`. -/
def Op.Silent : Op → Prop
  | .post .totalsChanged | .updateStatus (.publish _) => False
  | _ => True

theorem Op.Storing.silent {op : Op} (h : op.Storing) : op.Silent := by
  cases op with
  | post message => cases message <;> first | exact h | trivial
  | updateStatus update => cases update <;> exact h
  | _ => trivial

/-! ### The steps of the world are steps of the slot -/

section Steps

variable {earlier : List Wide} {s : Record}

theorem toShow_toList (notification : Wide) :
    (toShow notification).toList = if notification.isEmpty then [] else [notification] := by
  unfold toShow
  split <;> rfl

theorem slotOf_congr {s' : Record}
    (hstatus : s'.state.status.notification = s.state.status.notification)
    (hqueue : s'.state.queue.count .totalsChanged = s.state.queue.count .totalsChanged)
    (hpublishing : publishing s'.past = publishing s.past)
    (hballoons : s'.state.balloons = s.state.balloons)
    (hpublished : published s'.past = published s.past) :
    slotOf earlier s' = slotOf earlier s := by
  simp [slotOf, hstatus, hqueue, hpublishing, hballoons, hpublished]

theorem count_append_ne {message : Message} (h : message ≠ .totalsChanged) (queue : List Message) :
    (queue ++ [message]).count .totalsChanged = queue.count .totalsChanged := by
  rw [List.count_append, List.count_singleton, if_neg (by simpa using h), Nat.add_zero]

theorem slotOf_silent (earlier : List Wide) {s : Record} {op : Op} (hop : op.Silent)
    (h : publishing s.past = false) (reply : Reply) :
    slotOf earlier (service.traced.exec op reply s).2 = slotOf earlier s ∧
      publishing (service.traced.exec op reply s).2.past = false := by
  cases op with
  | post message =>
    have hne : message ≠ .totalsChanged := by
      rintro rfl
      exact hop
    exact ⟨slotOf_congr rfl (count_append_ne hne _) h.symm rfl rfl, rfl⟩
  | updateStatus update =>
    cases update with
    | publish notification => exact hop.elim
    | _ => exact ⟨slotOf_congr rfl rfl h.symm rfl rfl, rfl⟩
  | _ => exact ⟨slotOf_congr rfl rfl h.symm rfl rfl, rfl⟩

theorem slotOf_publish (notification : Wide) (reply : Reply) :
    slotOf earlier (service.traced.exec (.updateStatus (.publish notification)) reply s).2 =
      (slotOf earlier s).write (toShow notification) := by
  have hwritten : earlier ++ (published s.past ++ if notification.isEmpty then []
      else [notification]) = earlier ++ published s.past ++ (toShow notification).toList := by
    rw [toShow_toList, List.append_assoc]
  exact congrArg (Slot.mk (toShow notification) _ true s.state.balloons) hwritten

theorem slotOf_post (reply : Reply) :
    slotOf earlier (service.traced.exec (.post .totalsChanged) reply s).2 =
      (slotOf earlier s).announce := by
  have hsignals : (s.state.queue ++ [Message.totalsChanged]).count .totalsChanged =
      s.state.queue.count .totalsChanged + 1 := by simp
  exact congrArg (Slot.mk _ · false s.state.balloons _) hsignals

theorem slotOf_act (earlier : List Wide) (s : Record) (move : Move) :
    slotOf earlier (service.traced.act move s) = slotOf earlier s ∨
      0 < (slotOf earlier s).signals ∧
        slotOf earlier (service.traced.act move s) = (slotOf earlier s).read := by
  cases move with
  | handleMessage =>
    show slotOf earlier
        ⟨s.state.handleMessage, .act .handleMessage s.state.handleMessage :: s.past⟩ =
      slotOf earlier s ∨ _ ∧ slotOf earlier ⟨s.state.handleMessage, _ :: s.past⟩ = _
    obtain ⟨w, past⟩ := s
    unfold World.handleMessage
    cases hqueue : w.queue with
    | nil => exact .inl rfl
    | cons message rest =>
      cases message with
      | totalsChanged =>
        right
        refine ⟨by simp [slotOf, hqueue], ?_⟩
        cases hempty : w.status.notification.isEmpty with
        | true => simp [slotOf, Slot.read, toShow, hqueue, hempty, publishing, published]
        | false => simp [slotOf, Slot.read, toShow, hqueue, hempty, publishing, published]
      | _ => exact .inl (slotOf_congr rfl (by simp [hqueue]) rfl rfl rfl)
  | _ => exact .inl rfl

end Steps

/-! ### Runs -/

/-- A pass that publishes finds no `TOTALS_CHANGED` in the queue, or no text in the slot and has
none itself. -/
def PublishesPromptly (s : Record) : Op → Prop
  | .updateStatus (.publish notification) =>
    Message.totalsChanged ∉ s.state.queue ∨ s.state.status.notification = [] ∧ notification = []
  | _ => True

def promptRules : Rules Op Record Reply Move :=
  { aliveRules with call := fun op _ s => PublishesPromptly s op }

structure Allows (R : Rules Op Record Reply Move) (earlier : List Wide)
    (allows : Slot Wide → Option Wide → Prop) : Prop where
  publish : ∀ notification reply s, R.call (.updateStatus (.publish notification)) reply s →
    publishing s.past = false → allows (slotOf earlier s) (toShow notification)
  alive : ∀ s, ¬R.kill s

theorem aliveRules_allows (earlier : List Wide) : Allows aliveRules earlier fun _ _ => True :=
  ⟨fun _ _ _ _ _ => trivial, fun _ => id⟩

theorem promptRules_allows (earlier : List Wide) : Allows promptRules earlier Slot.Prompt where
  publish notification reply s hprompt hidle := by
    rcases hprompt with hqueue | ⟨hslot, rfl⟩
    · left
      show s.state.queue.count .totalsChanged + (publishing s.past).toNat = 0
      rw [hidle, List.count_eq_zero_of_not_mem hqueue]
      rfl
    · right
      exact ⟨by simp [slotOf, toShow, hslot], rfl⟩
  alive _ := id

section Runs

variable {R : Rules Op Record Reply Move} {earlier : List Wide}
  {allows : Slot Wide → Option Wide → Prop} {P : Slot Wide → Prop} {α : Type}

def slotContract (R : Rules Op Record Reply Move) (earlier : List Wide)
    (law : Slot.Law allows P) : Contract Op Op.Answer Record Reply Move where
  machine := service.traced
  rules := R
  inv s := P (slotOf earlier s)
  inv_act move s _ h := by
    rcases slotOf_act earlier s move with hsame | ⟨hpos, hread⟩
    · exact hsame ▸ h
    · exact hread ▸ law.read _ hpos h

def Quiet (s : Record) : Prop := publishing s.past = false

variable (law : Slot.Law allows P)

theorem stable_quiet : (slotContract R earlier law).Stable Quiet := fun _ _ _ _ h => h

theorem silent_spec {p : Worker α} (hp : p.Every Op.Silent) :
    (slotContract R earlier law).Spec Quiet p fun _ => Quiet := by
  refine Contract.Spec.every (stable_quiet law) (hp.mono fun op hop s reply hinv h _ => ?_)
  obtain ⟨hslot, hquiet⟩ := slotOf_silent earlier hop h reply
  exact ⟨(congrArg P hslot).mpr hinv, hquiet⟩

theorem publish_spec (hR : Allows R earlier allows) (notification : Wide) :
    (slotContract R earlier law).Spec Quiet (publish notification) fun _ => Quiet := by
  refine Contract.Spec.call (stable_quiet law) (R := fun _ s => publishing s.past = true) ?_
    fun _ => ?_
  · intro s reply hinv h hrules
    refine ⟨?_, rfl⟩
    show P (slotOf earlier (service.traced.exec _ reply s).2)
    rw [slotOf_publish]
    exact law.write _ _ (hR.publish notification reply s hrules h) hinv
  · refine Contract.Spec.call (fun _ _ _ _ h => h) (R := fun _ => Quiet) ?_ fun _ => ?_
    · intro s reply hinv h _
      refine ⟨?_, rfl⟩
      show P (slotOf earlier (service.traced.exec _ reply s).2)
      rw [slotOf_post]
      exact law.announce _ h hinv
    · exact silent_spec law ⟨trivial, fun _ => trivial⟩

theorem storing_spec {p : Worker α} (hp : p.Every Op.Storing) :
    (slotContract R earlier law).Spec Quiet p fun _ => Quiet :=
  silent_spec law (hp.mono fun _ h => h.silent)

theorem routine_spec {p : Worker α} (hp : p.Every Op.Routine) :
    (slotContract R earlier law).Spec Quiet p fun _ => Quiet :=
  storing_spec law (hp.mono fun _ h => h.storing)

theorem finishStored_spec (hR : Allows R earlier allows) (now : Bytes)
    (initial notifyEnabled : Bool) (resultHighwatermark : Bytes) (before : Snapshot) :
    (slotContract R earlier law).Spec Quiet
      (finishStored now initial notifyEnabled resultHighwatermark before) fun _ => Quiet := by
  unfold finishStored
  refine (storing_spec law (advanceMark_storing _)).bind fun _ => ?_
  refine (storing_spec law (checkpoint_storing _ _)).bind fun _ => ?_
  refine (routine_spec law (write_routine (by trivial))).bind fun _ => ?_
  refine (routine_spec law (write_routine (by trivial))).bind fun _ => ?_
  split
  · refine (routine_spec law (notificationAfter_routine before)).bind fun ⟨after, text⟩ => ?_
    refine (publish_spec law hR text).bind fun _ => ?_
    exact Contract.Spec.done (stable_quiet law)
  · refine (publish_spec law hR []).bind fun _ => ?_
    exact Contract.Spec.done (stable_quiet law)

theorem syncChanged_spec (hR : Allows R earlier allows) (key now : Bytes)
    (initial notifyEnabled : Bool) (changed : ChangedDates) :
    (slotContract R earlier law).Spec Quiet (syncChanged key now initial notifyEnabled changed)
      fun _ => Quiet := by
  unfold syncChanged
  refine (routine_spec law (readCursor_routine initial)).bind fun cursor => ?_
  refine (routine_spec law (updateStatus_routine (by trivial))).bind fun _ => ?_
  refine (routine_spec law (post_routine (by trivial))).bind fun _ => ?_
  refine (routine_spec law (snapshotBefore_routine _)).bind fun before => ?_
  refine (storing_spec law (syncDates_storing key now initial _)).bind fun failed => ?_
  cases failed with
  | some exit => exact Contract.Spec.done (stable_quiet law)
  | none => exact finishStored_spec law hR now initial notifyEnabled _ before

theorem syncWithKey_spec (hR : Allows R earlier allows) (key : Bytes) :
    (slotContract R earlier law).Spec Quiet (syncWithKey key) fun _ => Quiet := by
  have hread : (perform .getChangedDatesHighwatermark).Every Op.Silent :=
    ⟨trivial, fun _ => trivial⟩
  have hnotify : (perform .getNotifyOnNewUnits).Every Op.Silent := ⟨trivial, fun _ => trivial⟩
  unfold syncWithKey
  refine (silent_spec law hread).bind fun hwm => ?_
  refine (silent_spec law hnotify).bind fun notifyEnabled => ?_
  refine Contract.Spec.bind (R := fun _ => Quiet)
    (silent_spec law ⟨trivial, fun _ => trivial⟩) fun ⟨r, changed⟩ => ?_
  show (slotContract R earlier law).Spec _ (if r.ok = true then _ else _) _
  split
  · have hnow : (perform .utcNowIso8601).Every Op.Silent := ⟨trivial, fun _ => trivial⟩
    refine (silent_spec law hnow).bind fun now => ?_
    refine (routine_spec law (write_routine (by trivial))).bind fun _ => ?_
    split
    · exact storing_spec law (finishUnchanged_storing _)
    · exact syncChanged_spec law hR key now _ notifyEnabled changed
  · exact routine_spec law (failPass_routine _ _ _ _)

theorem pass_spec (hR : Allows R earlier allows) :
    (slotContract R earlier law).Spec Quiet runSynchronization fun _ => Quiet := by
  have hstarted : (post .syncStarted).Every Op.Silent := ⟨trivial, fun _ => trivial⟩
  exact runSynchronization_spec (silent_spec law hstarted)
    (routine_spec law (updateStatus_routine (by trivial)))
    (silent_spec law (ensureOpen_every trivial trivial))
    (routine_spec law (failPass_routine _ _ _ _))
    (silent_spec law (clearIfRequested_every trivial trivial))
    (routine_spec law loadKey_routine) (routine_spec law (failPass_routine _ _ _ _))
    (syncWithKey_spec law hR)

include law in
theorem slot_run (hR : Allows R earlier allows) {w : World} (hw : P (slotOf earlier ⟨w, []⟩))
    {es : List (Event Reply Move)}
    (hes : R.Admitted service.traced runSynchronization ⟨⟨w, []⟩, none⟩ es) :
    P (slotOf earlier (w.recordAfter es)) :=
  (Contract.sound (K := slotContract R earlier law) (stable_quiet law)
    (fun s hkill _ => absurd hkill (hR.alive s)) (fun _ _ _ h => h) (pass_spec law hR)
    (fun _ _ _ h => h) (Contract.Good.between hw (I := Quiet) rfl) hes).inv

end Runs

def StartsQuiet (w : World) : Prop :=
  w.status.notification = [] ∧ Message.totalsChanged ∉ w.queue

/-- The UI thread has handled every `TOTALS_CHANGED`, and no pass is about to post one. -/
def Settled (s : Record) : Prop := Message.totalsChanged ∉ s.state.queue ∧ Quiet s

/-- In every run the text that was published last is shown last, and if each pass that publishes
finds the messages of the earlier ones handled, every text is shown once and in order. -/
theorem notifications_shown {w : World} (hw : StartsQuiet w) {es : List (Event Reply Move)}
    (hes : aliveRules.Admitted service.traced runSynchronization ⟨⟨w, []⟩, none⟩ es)
    (hsettled : Settled (w.recordAfter es)) :
    ((w.after es).status.notification = [] ∨
        (w.after es).balloons.getLast? = some (w.after es).status.notification) ∧
      (promptRules.Admitted service.traced runSynchronization ⟨⟨w, []⟩, none⟩ es →
        (w.after es).balloons = w.balloons ++ published (w.recordAfter es).past) := by
  obtain ⟨hslot, hqueue⟩ := hw
  obtain ⟨hhandled, hquiet⟩ := hsettled
  have hdue : (slotOf w.balloons (w.recordAfter es)).due = 0 := by
    show List.count _ _ + (publishing _).toNat = 0
    rw [hquiet, List.count_eq_zero_of_not_mem hhandled]
    rfl
  have hempty : toShow w.status.notification = none := by simp [toShow, hslot]
  rw [← World.recordAfter_state]
  constructor
  · have hlatest := slot_run Slot.latest_law (aliveRules_allows w.balloons)
      (w := w) (fun _ => by simp [slotOf, hempty]) hes hdue
    cases htext : (w.recordAfter es).state.status.notification with
    | nil => exact .inl rfl
    | cons c rest =>
      right
      have hcontent : (slotOf w.balloons (w.recordAfter es)).content = some (c :: rest) := by
        simp [slotOf, toShow, htext]
      rw [hcontent] at hlatest
      obtain ⟨balloons, hballoons⟩ := hlatest
      exact (congrArg List.getLast? hballoons.symm).trans List.getLast?_concat
  · intro hprompt
    have hfaithful := slot_run Slot.faithful_law (promptRules_allows w.balloons) (w := w)
      ⟨by simp [slotOf, hempty, published], fun h => absurd hempty h⟩ hprompt
    have hseen := hfaithful.seen
    rw [if_pos hdue, List.append_nil] at hseen
    exact hseen.symm

instance : DecidablePred aliveRules.start := fun _ => .isTrue trivial

instance (op : Op) (reply : Reply) (s : Record) : Decidable (aliveRules.call op reply s) :=
  .isTrue trivial

instance (move : Move) (s : Record) : Decidable (aliveRules.act move s) := .isTrue trivial

instance : DecidablePred aliveRules.kill := fun _ => .isFalse id

instance : DecidablePred promptRules.start := fun _ => .isTrue trivial

instance (op : Op) (reply : Reply) (s : Record) : Decidable (promptRules.call op reply s) :=
  match op with
  | .updateStatus (.publish notification) =>
    inferInstanceAs (Decidable (_ ∨ s.state.status.notification = [] ∧ notification = []))
  | .updateStatus (.set _ _) | .updateStatus .upToDate | .updateStatus (.totalDates _)
  | .updateStatus .dateDone | .post _ | .isOpen | .openDatabase | .takeClearRequest
  | .clearAllSales | .hasStoredKey | .loadKey | .getChangedDatesHighwatermark
  | .getNotifyOnNewUnits | .getChangedDates _ _ | .utcNowIso8601 | .write _ | .getBackfillCursor
  | .queryLifetime | .iterate _ | .getAllDetailedSalesForDate _ _ | .replaceDate _ _ _
  | .steamToday | .sumForDate _ => .isTrue trivial

instance (move : Move) (s : Record) : Decidable (promptRules.act move s) := .isTrue trivial

instance : DecidablePred promptRules.kill := fun _ => .isFalse id

instance (s : Record) : Decidable (Settled s) := inferInstanceAs (Decidable (_ ∧ _ = _))

/-- Two passes that each find more units, with `handled` messages handled between them and all
after them. -/
def twoPasses (handled : Nat) : List (Event Reply Move) :=
  open Sample in
  [.act (.serverChange 0 july17 [sale 5]), .start] ++ calls 28 (reply [july17] 3 [sale 5]) ++
    List.replicate handled (.act .handleMessage) ++
    [.act (.serverChange 0 july18 [sale 7]), .start] ++ calls 28 (reply [july18] 4 [sale 7]) ++
    List.replicate 10 (.act .handleMessage)

theorem notifications_shown_run :
    (Sample.stored.after (twoPasses 5)).balloons.length = 2 ∧
      (Sample.stored.after (twoPasses 5)).balloons =
        Sample.stored.balloons ++ published (Sample.stored.recordAfter (twoPasses 5)).past := by
  refine ⟨by decide +kernel, ?_⟩
  have hshown := @notifications_shown Sample.stored ⟨rfl, nofun⟩ (twoPasses 5)
    (by decide +kernel) (by decide +kernel)
  exact hshown.2 (by decide +kernel)

/-- With no message handled between the passes, the first text is never seen and the second is
shown twice. -/
theorem notification_overwritten :
    ¬∀ (w : World) (es : List (Event Reply Move)), StartsQuiet w →
      aliveRules.Admitted service.traced runSynchronization ⟨⟨w, []⟩, none⟩ es →
      Settled (w.recordAfter es) →
      (w.after es).balloons.Perm (w.balloons ++ published (w.recordAfter es).past) := by
  intro h
  have hperm := h Sample.stored (twoPasses 0) ⟨rfl, nofun⟩ (by decide +kernel) (by decide +kernel)
  exact absurd hperm (by decide +kernel)

end SteamSalesTray.Sync
