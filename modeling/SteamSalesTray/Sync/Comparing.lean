import SteamSalesTray.Sync.Effects

/-! What a record says about the reads of a pass, and which passes compare two snapshots: those that
store their dates under a mark other than 0 with notifications on. -/

namespace SteamSalesTray.Sync

open Interaction Storage Steam

/-- A pass that stores its dates compares two snapshots if it is incremental and notifications are
on. -/
theorem syncChanged_returns (key now : Bytes) (initial notifyEnabled : Bool)
    (changed : ChangedDates) :
    (syncChanged key now initial notifyEnabled changed).Returns fun exit =>
      ∀ compared, exit = .stored compared → compared.isSome = (notifyEnabled && !initial) := by
  unfold syncChanged
  refine (Program.returns_any _).bind fun cursor _ => ?_
  refine (Program.returns_any _).bind fun _ _ => (Program.returns_any _).bind fun _ _ => ?_
  refine (Program.returns_any _).bind fun before _ => ?_
  refine (syncDates_returns key now initial _).bind fun failed hfailed => ?_
  cases failed with
  | some exit =>
    rintro compared rfl
    exact (hfailed _ rfl).elim
  | none =>
    unfold finishStored
    refine (Program.returns_any _).bind fun _ _ => (Program.returns_any _).bind fun _ _ => ?_
    refine (Program.returns_any _).bind fun _ _ => (Program.returns_any _).bind fun _ _ => ?_
    cases hcompare : notifyEnabled && !initial with
    | true =>
      rw [if_pos rfl]
      refine (Program.returns_any _).bind fun ⟨after, text⟩ _ => ?_
      refine (Program.returns_any _).bind fun _ _ => ?_
      rintro _ ⟨⟩
      rfl
    | false =>
      rw [if_neg nofun]
      refine (Program.returns_any _).bind fun _ _ => ?_
      rintro _ ⟨⟩
      rfl

theorem finishUnchanged_returns (resultHighwatermark : Bytes) :
    (finishUnchanged resultHighwatermark).Returns (· = .upToDate) :=
  (Program.returns_any (advanceMark resultHighwatermark)).bind fun _ _ _ _ _ => rfl

/-- The mark that a pass got, with the one that was stored then. -/
def markRead : Happened → Option (Bytes × Bytes)
  | .call .getChangedDatesHighwatermark highwatermark after =>
    some (highwatermark, after.db.conn.visible.syncState.changedDatesHighwatermark)
  | _ => none

def notifyRead : Happened → Option Bool
  | .call .getNotifyOnNewUnits on _ => some on
  | _ => none

/-- The latest pass is incremental, and it found notifications on. -/
def Compares (past : List Happened) : Prop :=
  (∃ read ∈ past.findSome? markRead, read.1 ≠ ascii "0" ∧ read.1 ≠ []) ∧
    past.findSome? notifyRead = some true

instance (past : List Happened) : Decidable (Compares past) :=
  inferInstanceAs (Decidable ((∃ _ ∈ _, _) ∧ _))

theorem markRead_call {op : Op} (hop : op ≠ .getChangedDatesHighwatermark)
    {answer : op.Answer} {after : World} : markRead (.call op answer after) = none := by
  cases op with
  | getChangedDatesHighwatermark => exact absurd rfl hop
  | _ => rfl

theorem notifyRead_call {op : Op} (hop : op ≠ .getNotifyOnNewUnits) {answer : op.Answer}
    {after : World} : notifyRead (.call op answer after) = none := by
  cases op with
  | getNotifyOnNewUnits => exact absurd rfl hop
  | _ => rfl

def recordContract : Contract Op Op.Answer Record Reply Move where
  machine := service.traced
  rules := .any
  inv _ := True
  inv_act _ _ _ h := h

namespace RecordRuns

variable {α : Type}

/-- The pass works under the mark and the setting that it got. -/
structure Works (highwatermark : Bytes) (notifyEnabled : Bool) (s : Record) : Prop where
  mark : ∃ stored, s.past.findSome? markRead = some (highwatermark, stored)
  notify : s.past.findSome? notifyRead = some notifyEnabled

theorem Works.compares_iff {highwatermark : Bytes} {notifyEnabled : Bool} {s : Record}
    (h : Works highwatermark notifyEnabled s) :
    (notifyEnabled && !(decide (highwatermark = ascii "0") || highwatermark.isEmpty)) = true ↔
      Compares s.past := by
  obtain ⟨stored, hmark⟩ := h.mark
  simp [Compares, hmark, h.notify, and_comm]

def Reads (op : Op) : Prop := op = .getChangedDatesHighwatermark ∨ op = .getNotifyOnNewUnits

theorem not_reads {op : Op} (hop : op.Follows) : ¬Reads op := by
  rintro (rfl | rfl)
  · exact hop
  · exact hop

theorem stable_works (highwatermark : Bytes) (notifyEnabled : Bool) :
    recordContract.Stable (Works highwatermark notifyEnabled) := fun _ _ _ _ h => ⟨h.mark, h.notify⟩

theorem works_spec {p : Worker α} (hp : p.Every fun op => ¬Reads op) (highwatermark : Bytes)
    (notifyEnabled : Bool) :
    recordContract.Spec (Works highwatermark notifyEnabled) p
      fun _ => Works highwatermark notifyEnabled := by
  refine Contract.Spec.every (stable_works _ _) (hp.mono fun op hop s reply _ h _ => ?_)
  obtain ⟨hmark, hnotify⟩ := not_or.mp hop
  refine ⟨trivial, ?_, ?_⟩
  · show ∃ stored, List.findSome? markRead (.call op _ _ :: s.past) = _
    rw [List.findSome?_cons, markRead_call hmark]
    exact h.mark
  · show List.findSome? notifyRead (.call op _ _ :: s.past) = _
    rw [List.findSome?_cons, notifyRead_call hnotify]
    exact h.notify

theorem any_spec (p : Worker α) : recordContract.Spec (fun _ => True) p fun _ _ => True :=
  Contract.Spec.every (Contract.stable_const True)
    (Program.every_of_forall (fun _ _ _ _ _ _ => ⟨trivial, trivial⟩) p)

/-- A pass that ends with its dates stored has compared two snapshots if its reads say so. -/
def Ends (exit : Exit) (s : Record) : Prop :=
  ∀ compared, exit = .stored compared → (compared.isSome ↔ Compares s.past)

theorem ends_of_returns {p : Worker Exit} (hp : p.Returns fun exit => ∀ compared,
    exit ≠ .stored compared) : recordContract.Spec (fun _ => True) p Ends :=
  ((any_spec p).returns hp).post fun _ _ h compared hexit =>
    absurd hexit (h.2 compared)

theorem failPass_ends (status : SyncStatus) (message : Wide) (lastError : Option Bytes)
    {exit : Exit} (hexit : exit.Failed) :
    recordContract.Spec (fun _ => True) (failPass status message lastError exit) Ends := by
  refine ends_of_returns ((failPass_returns status message lastError exit).mono ?_)
  rintro _ rfl compared rfl
  exact hexit

theorem syncWithKey_ends (key : Bytes) :
    recordContract.Spec (fun _ => True) (syncWithKey key) Ends := by
  have hmark : ∀ highwatermark, recordContract.Stable fun s : Record =>
      ∃ stored, s.past.findSome? markRead = some (highwatermark, stored) := fun _ _ _ _ _ h => h
  have hchanged : ∀ initial notifyEnabled changed now,
      (syncChanged key now initial notifyEnabled changed).Every fun op => ¬Reads op :=
    fun _ _ _ _ => (syncChanged_follows _ _ _ _ _).mono fun _ hop => not_reads hop
  unfold syncWithKey
  refine Contract.Spec.call (Contract.stable_const True)
    (R := fun highwatermark s =>
      ∃ stored, s.past.findSome? markRead = some (highwatermark, stored))
    (fun _ _ _ _ _ => ⟨trivial, _, rfl⟩) fun highwatermark => ?_
  refine Contract.Spec.call (hmark highwatermark) (R := Works highwatermark)
    (fun _ _ _ h _ => ⟨trivial, h, rfl⟩) fun notifyEnabled => ?_
  refine (works_spec (p := perform (.getChangedDates key highwatermark))
    ⟨by simp [Reads], fun _ => trivial⟩ _ _).bind fun ⟨r, changed⟩ => ?_
  show recordContract.Spec _ (if r.ok = true then _ else _) _
  split
  · refine (works_spec (p := perform .utcNowIso8601) ⟨by simp [Reads], fun _ => trivial⟩ _ _).bind
      fun now => ?_
    refine (works_spec (p := write (.lastSuccessfulCheckUtc now))
      ⟨by simp [Reads], fun _ => trivial⟩ _ _).bind fun _ => ?_
    split
    · refine (ends_of_returns ((finishUnchanged_returns _).mono ?_)).pre fun _ _ _ => trivial
      rintro _ rfl
      exact nofun
    · refine ((works_spec (hchanged _ notifyEnabled changed now) _ _).returns
        (syncChanged_returns key now _ notifyEnabled changed)).post ?_
      rintro exit s ⟨hworks, hexit⟩ compared hstored
      rw [hexit compared hstored]
      exact hworks.compares_iff
  · exact (failPass_ends _ _ _ (by trivial)).pre fun _ _ _ => trivial

theorem pass_ends : recordContract.Spec (fun _ => True) runSynchronization Ends :=
  runSynchronization_spec (any_spec _) (any_spec _) (any_spec _)
    ((failPass_ends _ _ _ (by trivial)).pre fun _ _ _ => trivial) (any_spec _) (any_spec _)
    ((failPass_ends _ _ _ (by trivial)).pre fun _ _ _ => trivial) syncWithKey_ends

end RecordRuns

/-- A pass that ends with its dates stored has compared two snapshots exactly if it is incremental
and found notifications on. -/
theorem compared_iff {R : Rules Op Record Reply Move} {c c' : Config Op Op.Answer Record Exit}
    {es : List (Event Reply Move)} {compared : Option (Snapshot × Snapshot)}
    (h : Execution R service.traced runSynchronization c es (.stored compared) c') :
    compared.isSome ↔ Compares c'.state.past :=
  (RecordRuns.pass_ends.execution (K := recordContract)
    (h.under (Rules.any_admitted _ _ _ _)) trivial trivial).2 compared rfl

end SteamSalesTray.Sync
