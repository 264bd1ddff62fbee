import SteamSalesTray.Steam.Requests
import SteamSalesTray.Sync.Effects

/-! Ids on their way through the program: the mark of a pass, from the response that gives it to the
next request that sends it, and the cursors of a date, from each page to the next. -/

namespace SteamSalesTray.Sync

open Interaction Transaction Storage Steam SteamFinancialClient UrlQuery

def mark (t : Tables) : Bytes := t.syncState.changedDatesHighwatermark

/-! ### A pass that gets a mark -/

variable (client : SteamFinancialClient) (n : Nat)

/-- The change list comes from the client, the body that makes it a success gives the id `n` as the
mark, and writing the mark does not fail. -/
def GivesMark (reply : Reply) : Op → Prop
  | .getChangedDates key highwatermark => ∃ past,
    reply.changed = client.getChangedDates past key highwatermark ∧
      (reply.changed.1.ok = true →
        client.Gives (past ++ [changedDatesRequest key highwatermark]) "result_highwatermark" n)
  | .write (.changedDatesHighwatermark _) =>
    reply.faults .prepareUpdate = .done ∧ reply.faults .update = .done
  | _ => True

def markGivenRules : Rules Op World Reply Move where
  start _ := True
  call op reply _ := GivesMark client n reply op
  act _ _ := True
  kill _ := True

def markGivenContract : Contract Op Op.Answer World Reply Move where
  machine := service
  rules := markGivenRules client n
  inv _ := True
  inv_act _ _ _ _ := trivial

/-- The call leaves the connection and the mark as they are. -/
def Op.KeepsMark (op : Op) : Prop := op ≠ .openDatabase ∧ ∀ t, mark (op.effect t) = mark t

theorem Op.Quiet.keepsMark {op : Op} (h : op.Quiet) : op.KeepsMark :=
  ⟨h.1, fun t => (h.2 t).mark⟩

theorem checkpoint_keepsMark (initial : Bool) (date : Bytes) :
    (checkpoint initial date).Every Op.KeepsMark :=
  checkpoint_every ⟨nofun, fun _ => rfl⟩ initial

namespace MarkGiven

variable {client n} {α : Type}

theorem stable_shows (v : Tables → Prop) : (markGivenContract client n).Stable (Shows v) :=
  Contract.stable_of_kept (f := World.db) (fun move w => World.act_db w move)
    fun db => db.isOpen = true ∧ v db.conn.visible

/-- Calls other than opening the database leave it open. -/
theorem opened {p : Worker α} (hp : p.Every (· ≠ .openDatabase)) (fact : Prop) :
    (markGivenContract client n).Spec (Shows fun _ => fact) p fun _ => Shows fun _ => fact := by
  refine Contract.Spec.every (stable_shows _) (hp.mono fun op hop w reply _ h _ => ?_)
  exact ⟨trivial, (World.exec_isOpen op reply w hop).trans h.1, h.2⟩

theorem marked {p : Worker α} (hp : p.Every Op.KeepsMark) (text : Bytes) :
    (markGivenContract client n).Spec (Shows fun t => mark t = text) p
      fun _ => Shows fun t => mark t = text := by
  refine Contract.Spec.every (stable_shows _) (hp.mono fun op hop w reply _ h _ => ?_)
  refine ⟨trivial, (World.exec_isOpen op reply w hop.1).trans h.1, ?_⟩
  rcases World.exec_visible op reply w hop.1 with hsame | heffect
  · exact hsame ▸ h.2
  · exact heffect ▸ (hop.2 _).trans h.2

theorem any {p : Worker α} :
    (markGivenContract client n).Spec (fun _ => True) p fun _ _ => True :=
  Contract.Spec.every (Contract.stable_const True)
    (Program.every_of_forall (fun _ _ _ _ _ _ => ⟨trivial, trivial⟩) p)

def Ends (n : Nat) (exit : Exit) (w : World) : Prop :=
  ¬exit.Failed → Shows (fun t => mark t = decimal n) w

theorem failPass_spec (status : SyncStatus) (message : Wide) (lastError : Option Bytes)
    {exit : Exit} (hexit : exit.Failed) :
    (markGivenContract client n).Spec (fun _ => True) (failPass status message lastError exit)
      (Ends n) := by
  refine (any.returns (failPass_returns status message lastError exit)).post ?_
  rintro _ w ⟨_, rfl⟩ hdone
  exact absurd hexit hdone

theorem advanceMark_spec :
    (markGivenContract client n).Spec (Shows fun _ => True) (advanceMark (decimal n))
      fun _ => Shows fun t => mark t = decimal n := by
  unfold advanceMark
  rw [if_neg (by simp)]
  refine Contract.Spec.call (stable_shows _) (R := fun _ => Shows fun t => mark t = decimal n)
    (fun w reply _ h hrules => ⟨trivial, ?_, ?_⟩) fun _ =>
      Contract.Spec.done (stable_shows _)
  · exact (Database.writeSyncState_isOpen _ _ _).trans h.1
  · exact congrArg mark (Database.writeSyncState_done h.1 hrules.1 hrules.2)

theorem finishUnchanged_spec :
    (markGivenContract client n).Spec (Shows fun _ => True) (finishUnchanged (decimal n))
      (Ends n) := by
  have hupToDate : (perform (.updateStatus .upToDate)).Every Op.Routine :=
    ⟨trivial, fun _ => trivial⟩
  have hkept : ∀ {β : Type} {p : Worker β}, p.Every Op.Routine → p.Every Op.KeepsMark :=
    fun hp => hp.mono fun _ hop => hop.quiet.keepsMark
  unfold finishUnchanged
  refine advanceMark_spec.bind fun _ => ?_
  refine (marked (hkept (write_routine (by trivial))) _).bind fun _ => ?_
  refine (marked (hkept hupToDate) _).bind fun _ => ?_
  refine (marked (hkept (post_routine (by trivial))) _).bind fun _ => ?_
  exact Contract.Spec.ret (stable_shows _) fun _ _ h _ => h

theorem finishStored_spec (now : Bytes) (initial notifyEnabled : Bool) (before : Snapshot) :
    (markGivenContract client n).Spec (Shows fun _ => True)
      (finishStored now initial notifyEnabled (decimal n) before) (Ends n) := by
  have hkept : ∀ {β : Type} {p : Worker β}, p.Every Op.Quiet → p.Every Op.KeepsMark :=
    fun hp => hp.mono fun _ hop => hop.keepsMark
  have hroutine : ∀ {β : Type} {p : Worker β}, p.Every Op.Routine → p.Every Op.KeepsMark :=
    fun hp => hp.mono fun _ hop => hop.quiet.keepsMark
  have hends : ∀ exit, (markGivenContract client n).Spec (Shows fun t => mark t = decimal n)
      (pure exit) (Ends n) := fun exit =>
    Contract.Spec.ret (stable_shows _) fun _ _ h _ => h
  unfold finishStored
  refine advanceMark_spec.bind fun _ => ?_
  refine (marked (checkpoint_keepsMark _ _) _).bind fun _ => ?_
  refine (marked (hroutine (write_routine (by trivial))) _).bind fun _ => ?_
  refine (marked (hroutine (write_routine (by trivial))) _).bind fun _ => ?_
  split
  · refine (marked (hroutine (notificationAfter_routine before)) _).bind fun ⟨after, text⟩ => ?_
    exact (marked (hkept (publish_quiet text)) _).bind fun _ => hends _
  · exact (marked (hkept (publish_quiet [])) _).bind fun _ => hends _

theorem syncChanged_spec (key now : Bytes) (initial notifyEnabled : Bool) {changed : ChangedDates}
    (hchanged : changed.resultHighwatermark = decimal n) :
    (markGivenContract client n).Spec (Shows fun _ => True)
      (syncChanged key now initial notifyEnabled changed) (Ends n) := by
  have hopened : ∀ {β : Type} {p : Worker β}, p.Every Op.Storing → p.Every (· ≠ .openDatabase) :=
    fun hp => hp.mono fun _ hop => by rintro rfl; exact hop
  have hroutine : ∀ {β : Type} {p : Worker β}, p.Every Op.Routine → p.Every (· ≠ .openDatabase) :=
    fun hp => hopened (hp.mono fun _ hop => hop.storing)
  unfold syncChanged
  rw [hchanged]
  refine (opened (hroutine (readCursor_routine initial)) _).bind fun cursor => ?_
  refine (opened (hroutine (updateStatus_routine (by trivial))) _).bind fun _ => ?_
  refine (opened (hroutine (post_routine (by trivial))) _).bind fun _ => ?_
  refine (opened (hroutine (snapshotBefore_routine _)) _).bind fun before => ?_
  refine ((opened (hopened (syncDates_storing key now initial _)) True).returns
    (syncDates_returns key now initial _)).bind fun failed => ?_
  cases failed with
  | none => exact (finishStored_spec now initial notifyEnabled before).pre fun _ _ h => h.1
  | some exit =>
    refine Contract.Spec.ret ((stable_shows _).and (Contract.stable_const _)) ?_
    exact fun w _ h hdone => absurd (h.2 exit rfl) hdone

theorem syncWithKey_spec (key : Bytes) :
    (markGivenContract client n).Spec (Shows fun _ => True) (syncWithKey key) (Ends n) := by
  have hperform : ∀ op : Op, op ≠ .openDatabase → (perform op).Every (· ≠ .openDatabase) :=
    fun _ hop => ⟨hop, fun _ => trivial⟩
  unfold syncWithKey
  refine (opened (hperform .getChangedDatesHighwatermark nofun) _).bind fun hwm => ?_
  refine (opened (hperform .getNotifyOnNewUnits nofun) _).bind fun notifyEnabled => ?_
  refine Contract.Spec.call (stable_shows _)
    (R := fun answer => Shows fun _ =>
      answer.1.ok = true → answer.2.resultHighwatermark = decimal n) ?_ ?_
  · rintro w reply _ h ⟨past, hreply, hgives⟩
    refine ⟨trivial, h.1, fun hok => ?_⟩
    replace hok : reply.changed.1.ok = true := hok
    have hanswer := hgives hok
    show reply.changed.2.resultHighwatermark = decimal n
    rw [hreply] at hok ⊢
    exact hanswer.resultHighwatermark hok
  rintro ⟨r, changed⟩
  show (markGivenContract client n).Spec _ (if r.ok = true then _ else _) _
  split
  · rename_i hok
    have hwrite : ∀ now, (write (.lastSuccessfulCheckUtc now)).Every (· ≠ .openDatabase) :=
      fun _ => ⟨nofun, fun _ => trivial⟩
    refine (opened (hperform .utcNowIso8601 nofun) _).bind fun now => ?_
    refine (opened (hwrite now) _).bind fun _ => ?_
    split
    · intro w hw h
      rw [h.2 hok]
      exact finishUnchanged_spec w hw ⟨h.1, trivial⟩
    · exact fun w hw h => syncChanged_spec key now _ notifyEnabled (h.2 hok) w hw ⟨h.1, trivial⟩
  · exact (failPass_spec _ _ _ (by trivial)).pre fun _ _ _ => trivial

theorem ensureOpen_spec :
    (markGivenContract client n).Spec (fun _ => True) ensureOpen
      fun opened => fun w => opened = true → w.db.isOpen = true := by
  have hstable : ∀ opened : Bool, (markGivenContract client n).Stable fun w =>
      opened = true → w.db.isOpen = true := fun opened =>
    Contract.stable_of_kept (f := World.db) (fun move w => World.act_db w move)
      fun db => opened = true → db.isOpen = true
  refine Contract.Spec.call (Contract.stable_const True)
    (R := fun opened w => opened = true → w.db.isOpen = true)
    (fun _ _ _ _ _ => ⟨trivial, fun h => h⟩) fun opened => ?_
  cases opened with
  | true => exact Contract.Spec.ret (hstable true) fun _ _ h => h
  | false =>
    exact Contract.Spec.perform (hstable false) hstable fun _ _ _ _ _ => ⟨trivial, fun h => h⟩

theorem pass_spec :
    (markGivenContract client n).Spec (fun _ => True) runSynchronization (Ends n) := by
  have hclear : clearIfRequested.Every (· ≠ .openDatabase) := clearIfRequested_every nofun nofun
  have hkey : loadKey.Every (· ≠ .openDatabase) := loadKey_every nofun nofun
  exact runSynchronization_spec any any ensureOpen_spec
    ((failPass_spec _ _ _ (by trivial)).pre fun _ _ _ => trivial)
    ((opened hclear True).pre fun _ _ h => ⟨h rfl, trivial⟩) (opened hkey True)
    ((failPass_spec _ _ _ (by trivial)).pre fun _ _ _ => trivial) syncWithKey_spec

end MarkGiven

/-! ### The request after it -/

/-- The key and the mark of the first request for changed dates in a record. -/
def firstRequest : List Happened → Option (Bytes × Bytes)
  | .call (.getChangedDates key highwatermark) _ _ :: past =>
    (firstRequest past).or (some (key, highwatermark))
  | _ :: past => firstRequest past
  | [] => none

/-- The read of the mark does not fail, and the sales are not cleared. -/
def ReadsBack (reply : Reply) : Op → Prop
  | .getChangedDatesHighwatermark => reply.readLimit = none
  | .clearAllSales => False
  | _ => True

instance (reply : Reply) (op : Op) : Decidable (ReadsBack reply op) :=
  match op with
  | .getChangedDatesHighwatermark => inferInstanceAs (Decidable (reply.readLimit = none))
  | .clearAllSales => .isFalse id
  | .post _ | .updateStatus _ | .isOpen | .openDatabase | .takeClearRequest | .hasStoredKey
  | .loadKey | .getNotifyOnNewUnits | .getChangedDates _ _ | .utcNowIso8601 | .write _
  | .getBackfillCursor | .queryLifetime | .iterate _ | .getAllDetailedSalesForDate _ _
  | .replaceDate _ _ _ | .steamToday | .sumForDate _ => .isTrue trivial

/-- Until a request for changed dates is sent, the mark is not cleared, and it is committed when the
process is killed. -/
def markSentRules : Rules Op Record Reply Move where
  start _ := True
  call op reply s := firstRequest s.past = none → ReadsBack reply op
  act _ _ := True
  kill s := firstRequest s.past = none → s.state.db.conn.tx = none

instance : DecidablePred markSentRules.start := fun _ => .isTrue trivial

instance (op : Op) (reply : Reply) (s : Record) : Decidable (markSentRules.call op reply s) :=
  inferInstanceAs (Decidable (firstRequest s.past = none → ReadsBack reply op))

instance (move : Move) (s : Record) : Decidable (markSentRules.act move s) := .isTrue trivial

instance : DecidablePred markSentRules.kill := fun s =>
  inferInstanceAs (Decidable (firstRequest s.past = none → s.state.db.conn.tx = none))

/-- The mark is stored as long as it is not sent. -/
structure MarkOnItsWay (n : Nat) (s : Record) : Prop where
  stored : firstRequest s.past = none → mark s.state.db.conn.visible = decimal n
  closed : firstRequest s.past = none → s.state.db.isOpen = false → s.state.db.conn.tx = none
  sent : ∀ key highwatermark, firstRequest s.past = some (key, highwatermark) →
    highwatermark = decimal n

def markSentContract : Contract Op Op.Answer Record Reply Move where
  machine := service.traced
  rules := markSentRules
  inv := MarkOnItsWay n
  inv_act move s _ h := by
    obtain ⟨hstored, hclosed, hsent⟩ := h
    refine ⟨fun hnone => ?_, fun hnone hopen => ?_, hsent⟩
    · show mark (s.state.act move).db.conn.visible = decimal n
      rw [World.act_db]
      exact hstored hnone
    · show (s.state.act move).db.conn.tx = none
      have hopen : (s.state.act move).db.isOpen = false := hopen
      rw [World.act_db] at hopen ⊢
      exact hclosed hnone hopen

namespace MarkSent

variable {n} {α : Type}

theorem firstRequest_other {op : Op}
    (hop : ∀ key highwatermark, op ≠ .getChangedDates key highwatermark) (answer : op.Answer)
    (w : World) (past : List Happened) :
    firstRequest (.call op answer w :: past) = firstRequest past := by
  cases op with
  | getChangedDates key highwatermark => exact absurd rfl (hop key highwatermark)
  | _ => rfl

/-- Once there was a request, it stays the first one. -/
theorem firstRequest_call (op : Op) (answer : op.Answer) (w : World) {past : List Happened}
    (h : firstRequest past ≠ none) :
    firstRequest (.call op answer w :: past) = firstRequest past := by
  by_cases hop : ∃ key highwatermark, op = .getChangedDates key highwatermark
  · obtain ⟨key, highwatermark, rfl⟩ := hop
    obtain ⟨r, hr⟩ := Option.ne_none_iff_exists'.mp h
    show (firstRequest past).or _ = firstRequest past
    rw [hr, Option.or_some]
    rfl
  · exact firstRequest_other (fun key highwatermark hsame => hop ⟨key, highwatermark, hsame⟩)
      answer w past

theorem firstRequest_preliminary {op : Op} (hop : op.Preliminary) (answer : op.Answer) (w : World)
    (past : List Happened) : firstRequest (.call op answer w :: past) = firstRequest past :=
  firstRequest_other (by rintro key highwatermark rfl; exact hop) answer w past

theorem inv_asked (op : Op) (reply : Reply) {s : Record} (h : MarkOnItsWay n s)
    (hasked : firstRequest s.past ≠ none) :
    MarkOnItsWay n (service.traced.exec op reply s).2 ∧
      firstRequest (service.traced.exec op reply s).2.past ≠ none := by
  have hsame := firstRequest_call op (World.exec op reply s.state).1 (World.exec op reply s.state).2
    hasked
  refine ⟨⟨fun hnone => ?_, fun hnone => ?_, fun key highwatermark hsome => ?_⟩, ?_⟩
  · exact absurd (hsame.symm.trans hnone) hasked
  · exact absurd (hsame.symm.trans hnone) hasked
  · exact h.sent key highwatermark (hsame.symm.trans hsome)
  · exact fun hnone => hasked (hsame.symm.trans hnone)

theorem inv_preliminary {op : Op} (hop : op.Preliminary) {reply : Reply} {s : Record}
    (h : MarkOnItsWay n s) : MarkOnItsWay n (service.traced.exec op reply s).2 := by
  have hfirst := firstRequest_preliminary hop (World.exec op reply s.state).1
    (World.exec op reply s.state).2 s.past
  have hdb := World.exec_preliminary op reply s.state hop
  refine ⟨fun hnone => ?_, fun hnone hclosed => ?_, fun key highwatermark hsome => ?_⟩
  · show mark (World.exec op reply s.state).2.db.conn.visible = decimal n
    rw [hdb]
    exact h.stored (hfirst.symm.trans hnone)
  · replace hclosed : (World.exec op reply s.state).2.db.isOpen = false := hclosed
    show (World.exec op reply s.state).2.db.conn.tx = none
    rw [hdb] at hclosed ⊢
    exact h.closed (hfirst.symm.trans hnone) hclosed
  · exact h.sent key highwatermark (hfirst.symm.trans hsome)

/-- What is true of the database as long as the mark is not sent. -/
def Unasked (P : Database → Prop) (s : Record) : Prop :=
  firstRequest s.past = none → P s.state.db

theorem stable_unasked (P : Database → Prop) : (markSentContract n).Stable (Unasked P) := by
  intro move s _ _ h hnone
  show P (s.state.act move).db
  rw [World.act_db]
  exact h hnone

theorem preliminary {p : Worker α} (hp : p.Every Op.Preliminary) (P : Database → Prop) :
    (markSentContract n).Spec (Unasked P) p fun _ => Unasked P := by
  refine Contract.Spec.every (stable_unasked P) (hp.mono fun op hop s reply hs h _ => ?_)
  refine ⟨inv_preliminary hop hs, fun hnone => ?_⟩
  show P (World.exec op reply s.state).2.db
  rw [World.exec_preliminary op reply s.state hop]
  exact h ((firstRequest_preliminary hop _ _ _).symm.trans hnone)

theorem asked (p : Worker α) :
    (markSentContract n).Spec (fun s => firstRequest s.past ≠ none) p fun _ _ => True := by
  refine Contract.Spec.mono (P := fun s => firstRequest s.past ≠ none)
    (Q := fun _ s => firstRequest s.past ≠ none) ?_ (fun _ _ h => h) fun _ _ _ => trivial
  refine Contract.Spec.every (fun _ _ _ _ h => h) (Program.every_of_forall ?_ p)
  exact fun op _ reply hs h _ => inv_asked op reply hs h

theorem failPass_spec (status : SyncStatus) (message : Wide) (exit : Exit) :
    (markSentContract n).Spec (Unasked fun _ => True) (failPass status message none exit)
      fun _ _ => True := by
  have hfail : (failPass status message none exit).Every Op.Preliminary :=
    ⟨trivial, fun _ => ⟨trivial, fun _ => trivial⟩⟩
  exact (preliminary hfail _).post fun _ _ _ => trivial

theorem ensureOpen_spec :
    (markSentContract n).Spec (Unasked fun _ => True) ensureOpen
      fun opened => Unasked fun db => opened = true → db.isOpen = true := by
  have hisOpen : Op.isOpen.Preliminary := trivial
  refine Contract.Spec.call (stable_unasked _)
    (R := fun opened => Unasked fun db => db.isOpen = opened)
    (fun s _ hs _ _ => ⟨inv_preliminary hisOpen hs, fun _ => rfl⟩) fun opened => ?_
  cases opened with
  | true => exact Contract.Spec.ret (stable_unasked _) fun _ _ h hnone _ => h hnone
  | false =>
    refine Contract.Spec.perform (stable_unasked _) (fun _ => stable_unasked _) ?_
    refine fun s reply hs h _ => ⟨⟨fun hnone => ?_, fun _ _ => rfl, hs.sent⟩, fun _ => id⟩
    -- A closed database has all that it shows committed.
    have htx := hs.closed hnone (h hnone)
    show mark s.state.db.conn.drop.visible = decimal n
    rw [Connection.drop_visible, ← Connection.visible_of_closed htx]
    exact hs.stored hnone

theorem clearIfRequested_spec (P : Database → Prop) :
    (markSentContract n).Spec (Unasked P) clearIfRequested fun _ => Unasked P := by
  have htake : Op.takeClearRequest.Preliminary := trivial
  refine Contract.Spec.call (stable_unasked P) (R := fun _ => Unasked P)
    (fun s reply hs h _ => ⟨inv_preliminary htake hs, h⟩) fun taken => ?_
  cases taken with
  | false => exact Contract.Spec.done (stable_unasked P)
  | true =>
    refine Contract.Spec.call (stable_unasked P) (R := fun _ => Unasked P) ?_ fun _ =>
      Contract.Spec.done (stable_unasked P)
    intro s reply hs _ hrules
    have hasked : firstRequest s.past ≠ none := hrules
    obtain ⟨hinv, hstill⟩ := inv_asked .clearAllSales reply hs hasked
    exact ⟨hinv, fun hnone => absurd hnone hstill⟩

theorem syncWithKey_spec (key : Bytes) :
    (markSentContract n).Spec (Unasked fun db => db.isOpen = true) (syncWithKey key)
      fun _ _ => True := by
  have hnotify : (perform .getNotifyOnNewUnits).Every Op.Preliminary := ⟨trivial, fun _ => trivial⟩
  have hread : Op.getChangedDatesHighwatermark.Preliminary := trivial
  unfold syncWithKey
  refine Contract.Spec.call (stable_unasked _)
    (R := fun hwm => Unasked fun _ => hwm = decimal n) ?_ fun hwm => ?_
  · intro s reply hs h hrules
    refine ⟨inv_preliminary hread hs, fun hnone => ?_⟩
    have hlimit : reply.readLimit = none := hrules hnone
    have hmark := hs.stored hnone
    have hne : mark s.state.db.conn.visible ≠ [] := by
      rw [hmark]
      exact decimal_ne_nil n
    have hvalue := Database.getChangedDatesHighwatermark_open (h hnone) hne
    show s.state.db.getChangedDatesHighwatermark reply.readLimit = decimal n
    rw [hlimit, hvalue]
    exact hmark
  refine (preliminary hnotify _).bind fun notifyEnabled => ?_
  refine Contract.Spec.call (stable_unasked _) (R := fun _ s => firstRequest s.past ≠ none) ?_
    fun _ => asked _
  intro s reply hs h _
  by_cases hnone : firstRequest s.past = none
  · have hfirst : firstRequest
        (.call (.getChangedDates key hwm) reply.changed s.state :: s.past) = some (key, hwm) := by
      show (firstRequest s.past).or _ = _
      rw [hnone]
      rfl
    have hnext : firstRequest (service.traced.exec (.getChangedDates key hwm) reply s).2.past =
        some (key, hwm) := hfirst
    refine ⟨⟨fun h' => ?_, fun h' => ?_, fun key' hwm' h' => ?_⟩, fun h' => ?_⟩
    · exact absurd (hnext.symm.trans h') nofun
    · exact absurd (hnext.symm.trans h') nofun
    · obtain ⟨-, rfl⟩ := Prod.mk.inj (Option.some.inj (hnext.symm.trans h'))
      exact h hnone
    · exact absurd (hnext.symm.trans h') nofun
  · exact inv_asked _ reply hs hnone

theorem pass_spec :
    (markSentContract n).Spec (fun _ => True) runSynchronization fun _ _ => True := by
  have hposted : (post .syncStarted).Every Op.Preliminary := ⟨trivial, fun _ => trivial⟩
  have hsyncing : (setStatus .syncing (wide "Updating…")).Every Op.Preliminary :=
    ⟨trivial, fun _ => trivial⟩
  have hkey : loadKey.Every Op.Preliminary := loadKey_every trivial trivial
  exact runSynchronization_spec ((preliminary hposted fun _ => True).pre fun _ _ _ _ => trivial)
    (preliminary hsyncing _) ensureOpen_spec ((failPass_spec _ _ _).pre fun _ _ _ _ => trivial)
    ((clearIfRequested_spec _).pre fun _ _ h hnone => h hnone rfl) (preliminary hkey _)
    ((failPass_spec _ _ _).pre fun _ _ _ _ => trivial) syncWithKey_spec

end MarkSent

/-- Whichever way an id is given, a mark that a pass stored is the one that the next request for
changed dates sends, and the requests and records of a date are the same, its pages ending with the
id that was asked for. -/
theorem ids_survive (client : SteamFinancialClient) :
    (∀ n c c' es exit es' key highwatermark,
      Execution (markGivenRules client n) service runSynchronization c es exit c' → ¬exit.Failed →
      markSentRules.Admitted service.traced runSynchronization ⟨⟨c'.state, []⟩, none⟩ es' →
      firstRequest (c'.state.recordAfter es').past = some (key, highwatermark) →
        queryPairs (changedDatesRequest key highwatermark).query =
          [(wide "key", some key), (wide "include_view_grants", some (ascii "false")),
            (wide "highwatermark", some (decimal n))]) ∧
    (∀ client' past key date, SamePages client client' →
      getAllDetailedSalesForDate (client.salesServer past) key date =
        getAllDetailedSalesForDate (client'.salesServer past) key date) ∧
    ∀ past key date page m n, Chain.cursor (client.salesServer past) key date page = decimal m →
      client.Gives (past ++ (Chain.sent (client.salesServer past) key date (page + 1)).map
        pageRequest) "max_id" n →
      (Chain.answer (client.salesServer past) key date page).1.ok = true →
        (Chain.Settles (client.salesServer past) key date page ↔ n = m) ∧
          Chain.cursor (client.salesServer past) key date (page + 1) = decimal n := by
  refine ⟨?_, fun client' past key date h => by rw [h.salesServer],
    fun past key date page m n hcursor hgives hok => ?_⟩
  · intro n c c' es exit es' key highwatermark hpass hdone hadmitted hfirst
    have hspec : (markGivenContract client n).Spec (fun _ => True) runSynchronization
        (MarkGiven.Ends n) := MarkGiven.pass_spec
    obtain ⟨-, hends⟩ := hspec.execution hpass trivial trivial
    have hshows := hends hdone
    have hway : MarkOnItsWay n ⟨c'.state, []⟩ := by
      refine ⟨fun _ => hshows.2, fun _ hclosed => ?_, nofun⟩
      exact absurd (hshows.1.symm.trans hclosed) nofun
    have hrun := Contract.sound_inv (K := markSentContract n) (P := fun _ => True)
      (fun s hkill h => ⟨fun hnone => ?_, fun _ _ => rfl, h.sent⟩) (fun _ _ _ => trivial)
      MarkSent.pass_spec hway hadmitted
    · obtain rfl := hrun.sent key highwatermark hfirst
      refine (changedDatesQuery_read _ _).trans ?_
      rw [orZero, if_neg (by simp)]
    · have htx : s.state.db.conn.tx = none := hkill hnone
      show mark s.state.db.conn.drop.visible = decimal n
      rw [Connection.drop_visible, ← Connection.visible_of_closed htx]
      exact h.stored hnone
  · obtain ⟨hasMaxId, hmaxId⟩ := Gives.page hgives hok
    have hid : (Chain.answer (client.salesServer past) key date page).2.maxId = decimal n := hmaxId
    refine ⟨?_, hid⟩
    have hflag : (Chain.answer (client.salesServer past) key date page).2.hasMaxId = true :=
      hasMaxId
    unfold Chain.Settles
    rw [hflag, hid, hcursor]
    exact ⟨fun h => decimal_injective (h.resolve_left nofun), fun h => .inr (congrArg decimal h)⟩

/-! The greatest id, in the change list as a number, and in the pages of a date in either form. -/

def listedText : Bytes :=
  ascii "\x7b\"response\":\x7b\"result_highwatermark\":18446744073709551615\x7d\x7d"

def pageText (id : String) : Bytes :=
  ascii ("\x7b\"response\":\x7b\"max_id\":" ++ id ++ "\x7d\x7d")

def numberedPage : Bytes := pageText "18446744073709551615"

def quotedPage : Bytes := pageText "\"18446744073709551615\""

def readIds (json : Bytes) : Option Json :=
  if json = listedText then
    some (.obj [(ascii "response", .obj [(ascii "result_highwatermark",
      .uint 18446744073709551615)])])
  else if json = numberedPage then
    some (.obj [(ascii "response", .obj [(ascii "max_id", .uint 18446744073709551615)])])
  else if json = quotedPage then
    some (.obj [(ascii "response", .obj [(ascii "max_id", .str (ascii "18446744073709551615"))])])
  else none

/-- Every page of every date is `page`. -/
def servedBody (page : Bytes) (sent : List HttpRequest) : Bytes :=
  if sent.getLast?.map HttpRequest.path = some kPathChangedDates then listedText else page

def servingClient (page : Bytes) : SteamFinancialClient where
  isValid := true
  get sent := ⟨true, 0, 200, false, servedBody page sent⟩
  describeWinHttpError _ := []
  read := readIds

def listedReply : Reply :=
  { Sample.reply [] 0 [] with
    changed := (⟨.success, 200, []⟩, ⟨[], ascii "18446744073709551615"⟩) }

def listingPass : List (Event Reply Move) := Sample.calls 15 listedReply

def afterListing : Config Op Op.Answer World Exit :=
  service.run runSynchronization ⟨Sample.stored, none⟩ (.start :: listingPass)

theorem decimal_greatest : decimal (2 ^ 64 - 1) = ascii "18446744073709551615" := by decide +kernel

theorem listingPass_gives (page : Bytes) :
    Execution (markGivenRules (servingClient page) (2 ^ 64 - 1)) service runSynchronization
      ⟨Sample.stored, none⟩ listingPass .upToDate afterListing := by
  have hcall : ∀ op, GivesMark (servingClient page) (2 ^ 64 - 1) listedReply op := by
    intro op
    cases op with
    | getChangedDates key highwatermark =>
      refine ⟨[], rfl, fun _ => ?_⟩
      exact ⟨_, .uint 18446744073709551615, ⟨_, rfl, rfl, rfl⟩, rfl, .inl rfl⟩
    | write update => cases update <;> trivial
    | _ => trivial
  exact .of_calls trivial (fun _ => trivial) (fun op _ => hcall op) (by decide +kernel)

/-- The process is killed, and a new one asks for changed dates. -/
def askingAgain : List (Event Reply Move) := .kill :: .start :: Sample.calls 10 listedReply

theorem readIds_numbered : readIds numberedPage =
    some (.obj [(ascii "response", .obj [(ascii "max_id", .uint 18446744073709551615)])]) := by
  rw [readIds, if_neg (by decide +kernel), if_pos rfl]

theorem readIds_quoted : readIds quotedPage =
    some (.obj [(ascii "response",
      .obj [(ascii "max_id", .str (ascii "18446744073709551615"))])]) := by
  rw [readIds, if_neg (by decide +kernel), if_neg (by decide +kernel), if_pos rfl]

theorem greatest_forms : OtherForm (fun _ => True) (.uint 18446744073709551615)
    (.str (ascii "18446744073709551615")) := by
  rw [← decimal_greatest, ← signedDecimal_natCast]
  exact .asText rfl trivial

theorem samePage_forms : SamePage FitsInt64 (readIds numberedPage) (readIds quotedPage) := by
  have hresponse : Members (ResponseMember FitsInt64)
      [(ascii "max_id", .uint 18446744073709551615)]
      [(ascii "max_id", .str (ascii "18446744073709551615"))] :=
    .cons ⟨rfl, .inr (.inl ⟨rfl, greatest_forms⟩)⟩ .nil
  rw [readIds_numbered, readIds_quoted]
  exact .some (.inr (.obj (.cons ⟨rfl, .inr ⟨rfl, .obj hresponse⟩⟩ .nil)))

theorem samePages_of {page page' : Bytes} (h : SamePage FitsInt64 (readIds page) (readIds page')) :
    SamePages (servingClient page) (servingClient page') where
  isValid := rfl
  describe := rfl
  read := rfl
  response _ := rfl
  body sent := by
    show SamePage FitsInt64 (readIds (servedBody page sent)) (readIds (servedBody page' sent))
    unfold servedBody
    split
    · cases readIds listedText with
      | none => exact .none
      | some document => exact .some (.inl rfl)
    · exact h

theorem quoted_gives {sent : List HttpRequest} (hsent : servedBody quotedPage sent = quotedPage) :
    (servingClient quotedPage).Gives sent "max_id" (2 ^ 64 - 1) := by
  have hread : (servingClient quotedPage).read ((servingClient quotedPage).get sent).body =
      some (.obj [(ascii "response",
        .obj [(ascii "max_id", .str (ascii "18446744073709551615"))])]) := by
    show readIds (servedBody quotedPage sent) = _
    rw [hsent, readIds_quoted]
  exact ⟨_, _, ⟨_, hread, rfl, rfl⟩, rfl, .inr (by rw [decimal_greatest])⟩

theorem ids_survive_greatest :
    queryPairs (changedDatesRequest (ascii "key") (ascii "18446744073709551615")).query =
        [(wide "key", some (ascii "key")), (wide "include_view_grants", some (ascii "false")),
          (wide "highwatermark", some (decimal (2 ^ 64 - 1)))] ∧
      getAllDetailedSalesForDate ((servingClient numberedPage).salesServer []) (ascii "key")
          Sample.july17 =
        getAllDetailedSalesForDate ((servingClient quotedPage).salesServer []) (ascii "key")
          Sample.july17 ∧
      Chain.Settles ((servingClient quotedPage).salesServer []) (ascii "key") Sample.july17 1 := by
  refine ⟨?_, ?_, ?_⟩
  · exact (ids_survive (servingClient numberedPage)).1 _ _ _ listingPass .upToDate askingAgain _ _
      (listingPass_gives numberedPage) nofun (by decide +kernel) (by decide +kernel)
  · exact (ids_survive (servingClient numberedPage)).2.1 _ _ _ _ (samePages_of samePage_forms)
  · have hpage := (ids_survive (servingClient quotedPage)).2.2 [] (ascii "key") Sample.july17 1
      (2 ^ 64 - 1) (2 ^ 64 - 1) (by decide +kernel) (quoted_gives (by decide +kernel))
      (by decide +kernel)
    exact hpage.1.mpr rfl

end SteamSalesTray.Sync
