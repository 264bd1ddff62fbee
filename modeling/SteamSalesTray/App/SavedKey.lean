import SteamSalesTray.Platform.Transcoding
import SteamSalesTray.Steam.Requests
import SteamSalesTray.Sync.Effects
import SteamSalesTray.UI.SettingsSession

/-! The key that Steam gets is the text that was last stored in a settings dialog, after its way
through the edit box, DPAPI, the key file, the worker and the query string. -/

namespace SteamSalesTray.App

open Interaction Platform Security Steam Storage Sync UI UrlQuery

/-! ### The key file -/

/-- The key is stored in the file. -/
structure KeyHeld (dpapi : Dpapi) (keyStore : DpapiSecretStore) (key : Bytes)
    (file : Option Bytes) : Prop where
  stored : keyStore.hasStoredKey file = true
  loads : keyStore.load dpapi file = (true, key)
  nonempty : key ≠ []

section KeyFile

variable {dpapi : Dpapi} (hdpapi : dpapi.Documented) {keyStore : DpapiSecretStore}
  (hpath : keyStore.filePath ≠ [])
include hdpapi hpath

theorem keyHeld_envelope {key blob : Bytes} (hkey : key ≠ [])
    (hprotect : dpapi.protect key kEntropy = some blob) (hpositive : 1 ≤ blob.length)
    (hlimit : blob.length ≤ 2 ^ 20) : KeyHeld dpapi keyStore key (some (envelope blob)) where
  stored := (DpapiSecretStore.hasStoredKey_some hpath _).mpr
    ((isEnvelope_iff _ _).mp (isEnvelope_envelope hpositive hlimit)).1
  loads := by
    have hblob : keyStore.loadBlob (some (envelope blob)) = some blob :=
      (DpapiSecretStore.loadBlob_some hpath _ _).mpr (isEnvelope_envelope hpositive hlimit)
    rw [DpapiSecretStore.load, hblob]
    simp only [hdpapi.inverts key kEntropy blob hprotect]
  nonempty := hkey

/-- What `Store` leaves when it succeeds. -/
theorem keyHeld_of_store {key : Bytes} (hlength : key.length < 2 ^ 32) {old tmp : Option Bytes}
    {es : List (Event FileReply ReaderMove)} {c : Config FileOp FileOp.Answer Files Bool}
    (h : Execution fileRules fileMachine (keyStore.store dpapi key)
      ⟨⟨old, tmp, .closed, []⟩, none⟩ es true c) : KeyHeld dpapi keyStore key c.state.key := by
  have hfails : ∀ {p : FileProgram Bool}, p = pure false →
      ¬Execution fileRules fileMachine p ⟨⟨old, tmp, .closed, []⟩, none⟩ es true c := by
    rintro _ rfl hexecution
    exact Bool.false_ne_true (hexecution.returns (Q := (false = ·)) rfl)
  have hcast : key.take (key.length % 2 ^ 32) = key := by
    rw [Nat.mod_eq_of_lt hlength, List.take_length]
  unfold DpapiSecretStore.store at h
  split at h
  · exact absurd h (hfails rfl)
  · rename_i hentered
    rw [hcast] at h
    cases hprotect : dpapi.protect key kEntropy with
    | none =>
      rw [hprotect] at h
      exact absurd h (hfails rfl)
    | some blob =>
      rw [hprotect] at h
      simp only at h
      split at h
      · exact absurd h (hfails rfl)
      · rename_i hbounds
        have hblob : ¬(blob.length = 0 ∨ 2 ^ 20 < blob.length) := hbounds
        rw [writeFileAtomic_returns (whole_start old tmp (envelope blob)) h, if_pos rfl]
        refine keyHeld_envelope hdpapi hpath ?_ hprotect (by omega) (by omega)
        rintro rfl
        exact hentered (.inr rfl)

end KeyFile

/-! ### The dialog -/

/-- What a press gets back as the key file is one that `Store` has written. -/
def StoredBy (dpapi : Dpapi) (keyStore : DpapiSecretStore) (reply : KeyReply) : Prop :=
  ∀ key file, reply.store key = some file →
    ∃ old tmp es c, Execution fileRules fileMachine (keyStore.store dpapi key)
      ⟨⟨old, tmp, .closed, []⟩, none⟩ es true c ∧ c.state.key = some file

/-- The texts are such as an edit box can hold, and the key files such as `Store` writes. -/
def Possible (dpapi : Dpapi) (keyStore : DpapiSecretStore) : SettingsStep → Prop
  | .edit controls => controls.apiKey.length < 2 ^ 30
  | .save reply => StoredBy dpapi keyStore reply
  | _ => True

/-- The dialog, with the text that was last stored and has not been removed since. -/
structure KeySession where
  session : SettingsSession
  typed : Option Wide

namespace KeySession

variable (exe : Wide) (keyStore : DpapiSecretStore)

def typedAfter (k : KeySession) : SettingsStep → Option Wide
  | .save reply =>
    if (SettingsSession.fileWritten exe reply k.session.dialog).isSome then
      some k.session.dialog.controls.apiKey
    else k.typed
  | .removeKey confirmed deletes =>
    if keyStore.hasStoredKey k.session.keyFile ∧ confirmed ∧ deletes then none else k.typed
  | _ => k.typed

def step (k : KeySession) (step : SettingsStep) : KeySession where
  session := k.session.step exe keyStore step
  typed := if k.session.isOpen then k.typedAfter exe keyStore step else k.typed

def run (steps : List SettingsStep) (k : KeySession) : KeySession :=
  steps.foldl (KeySession.step exe keyStore) k

/-- The record of what is typed changes nothing about the session. -/
theorem run_session (steps : List SettingsStep) (k : KeySession) :
    (k.run exe keyStore steps).session = k.session.run exe keyStore steps := by
  induction steps generalizing k with
  | nil => rfl
  | cons step steps ih => exact ih _

end KeySession

/-- The key that is made of a text. -/
def keyOf (text : Wide) : Bytes := wideToUtf8 (trimWhitespace text)

/-- The file has the key of the text, or no key. -/
def Holds (dpapi : Dpapi) (keyStore : DpapiSecretStore) : Option Wide → Option Bytes → Prop
  | none, file => keyStore.hasStoredKey file = false
  | some text, file => KeyHeld dpapi keyStore (keyOf text) file

theorem length_trimWhitespace_le (text : Wide) : (trimWhitespace text).length ≤ text.length :=
  (List.rdropWhile_prefix _ _).length_le.trans (List.dropWhile_suffix _).length_le

section Sessions

variable {exe : Wide} {dpapi : Dpapi} (hdpapi : dpapi.Documented) {keyStore : DpapiSecretStore}
  (hpath : keyStore.filePath ≠ [])

/-- The key file has the key of the text that is recorded, and the edit box no more than it can
hold. -/
structure Tracked (dpapi : Dpapi) (keyStore : DpapiSecretStore) (k : KeySession) : Prop where
  file : Holds dpapi keyStore k.typed k.session.keyFile
  fits : k.session.dialog.controls.apiKey.length < 2 ^ 30

theorem onSave_controls (services : KeyServices) (d : Dialog) :
    (onSave exe services d).2.controls = d.controls := by
  have hkept : (savePreferences exe d).controls = d.controls := (savePreferences_keeps exe d).1
  unfold onSave
  rcases saveKey_cases services (savePreferences exe d) with ⟨hsave, -⟩ | hsave | ⟨hsave, -⟩ <;>
    rw [hsave] <;> exact hkept

include hdpapi hpath

theorem holds_written {reply : KeyReply} (hreply : StoredBy dpapi keyStore reply) {d : Dialog}
    (hfits : d.controls.apiKey.length < 2 ^ 30) {file : Bytes}
    (h : SettingsSession.fileWritten exe reply d = some file) :
    Holds dpapi keyStore (some d.controls.apiKey) (some file) := by
  unfold SettingsSession.fileWritten at h
  simp only at h
  split at h
  · obtain ⟨old, tmp, es, c, hexecution, hfile⟩ := hreply _ _ h
    have hlength : (keyOf d.controls.apiKey).length < 2 ^ 32 := by
      have hbytes := length_wideToUtf8_le (trimWhitespace d.controls.apiKey)
      have htrimmed := length_trimWhitespace_le d.controls.apiKey
      unfold keyOf
      omega
    rw [← hfile]
    exact keyHeld_of_store hdpapi hpath hlength hexecution
  · cases h

theorem Tracked.step {k : KeySession} (hk : Tracked dpapi keyStore k) {step : SettingsStep}
    (hstep : Possible dpapi keyStore step) : Tracked dpapi keyStore (k.step exe keyStore step) := by
  obtain ⟨hfile, hfits⟩ := hk
  unfold KeySession.step SettingsSession.step
  by_cases hopen : k.session.isOpen = true
  · rw [if_pos hopen, if_pos hopen]
    cases step with
    | edit controls => exact ⟨hfile, hstep⟩
    | test validator => exact ⟨hfile, hfits⟩
    | cancel => exact ⟨hfile, hfits⟩
    | clearCache confirmed => cases confirmed <;> exact ⟨hfile, hfits⟩
    | save reply =>
      refine ⟨?_, ?_⟩
      · show Holds dpapi keyStore
          (if (SettingsSession.fileWritten exe reply k.session.dialog).isSome then
            some k.session.dialog.controls.apiKey else k.typed)
          ((SettingsSession.fileWritten exe reply k.session.dialog).or k.session.keyFile)
        cases hwritten : SettingsSession.fileWritten exe reply k.session.dialog with
        | none => exact hfile
        | some file => exact holds_written hdpapi hpath hstep hfits hwritten
      · show (onSave exe reply.services k.session.dialog).2.controls.apiKey.length < 2 ^ 30
        rw [onSave_controls]
        exact hfits
    | removeKey confirmed deletes =>
      unfold SettingsSession.onRemoveKey KeySession.typedAfter
      cases hstored : keyStore.hasStoredKey k.session.keyFile with
      | false => exact ⟨by simpa [hstored] using hfile, by simpa using hfits⟩
      | true =>
        cases confirmed with
        | false => exact ⟨by simpa using hfile, by simpa using hfits⟩
        | true =>
          cases deletes with
          | false => exact ⟨by simpa using hfile, by simpa using hfits⟩
          | true =>
            refine ⟨?_, by simpa using hfits⟩
            simp [Holds, DpapiSecretStore.hasStoredKey, readWholeFile]
  · rw [if_neg hopen, if_neg hopen]
    exact ⟨hfile, hfits⟩

theorem Tracked.run {k : KeySession} (hk : Tracked dpapi keyStore k) {steps : List SettingsStep}
    (hsteps : ∀ step ∈ steps, Possible dpapi keyStore step) :
    Tracked dpapi keyStore (k.run exe keyStore steps) := by
  induction steps generalizing k with
  | nil => exact hk
  | cons step steps ih =>
    obtain ⟨hstep, hrest⟩ := List.forall_mem_cons.mp hsteps
    exact ih (hk.step hdpapi hpath hstep) hrest

end Sessions

/-! ### Sessions one after the other -/

/-- A session: the registry that it begins with, and what the user does. -/
structure Visit where
  registry : Registry
  steps : List SettingsStep

/-- The key file after a session, with the text that is recorded. -/
def visit (exe : Wide) (keyStore : DpapiSecretStore) (before : Option Wide × Option Bytes)
    (v : Visit) : Option Wide × Option Bytes :=
  let k := KeySession.run exe keyStore v.steps ⟨.start exe v.registry before.2, before.1⟩
  (k.typed, k.session.keyFile)

def visits (exe : Wide) (keyStore : DpapiSecretStore) (vs : List Visit)
    (before : Option Wide × Option Bytes) : Option Wide × Option Bytes :=
  vs.foldl (visit exe keyStore) before

theorem holds_visits {exe : Wide} {dpapi : Dpapi} (hdpapi : dpapi.Documented)
    {keyStore : DpapiSecretStore} (hpath : keyStore.filePath ≠ []) {vs : List Visit}
    (hvs : ∀ v ∈ vs, ∀ step ∈ v.steps, Possible dpapi keyStore step)
    {before : Option Wide × Option Bytes} (h : Holds dpapi keyStore before.1 before.2) :
    Holds dpapi keyStore (visits exe keyStore vs before).1
      (visits exe keyStore vs before).2 := by
  induction vs generalizing before with
  | nil => exact h
  | cons v vs ih =>
    obtain ⟨hv, hrest⟩ := List.forall_mem_cons.mp hvs
    have hstart : Tracked dpapi keyStore ⟨.start exe v.registry before.2, before.1⟩ :=
      ⟨h, show 0 < 2 ^ 30 by decide⟩
    exact ih hrest (hstart.run hdpapi hpath hv).file

/-! ### The worker -/

/-- The key store answers from the file. -/
def keyRules (dpapi : Dpapi) (keyStore : DpapiSecretStore) (file : Option Bytes) :
    Rules Op Record Reply Move where
  start _ := True
  call _ reply _ := reply.hasKey = keyStore.hasStoredKey file ∧
    reply.key = if (keyStore.load dpapi file).1 then some (keyStore.load dpapi file).2 else none
  act _ _ := True
  kill _ := True

/-- The call sends the query. -/
def Sends : Op → Wide → Prop
  | .getChangedDates key highwatermark, query => query = changedDatesQuery key highwatermark
  | .getAllDetailedSalesForDate key date, query => ∃ id, query = detailedSalesQuery key date id
  | _, _ => False

/-- If the call sends anything, then with the key. -/
def WithKey (key : Option Bytes) : Op → Prop
  | .getChangedDates sent _ | .getAllDetailedSalesForDate sent _ => key = some sent
  | _ => True

theorem routine_withKey {α : Type} {p : Worker α} (hp : p.Every Op.Routine) (key : Option Bytes) :
    p.Every (WithKey key) := by
  refine hp.mono fun op hop => ?_
  cases op with
  | getChangedDates sent highwatermark => exact hop.elim
  | getAllDetailedSalesForDate sent date => exact hop.elim
  | _ => trivial

theorem syncDates_withKey (key now : Bytes) (initial : Bool) (todo : List Bytes) :
    (syncDates key now initial todo).Every (WithKey (some key)) := by
  have hfail : ∀ status message lastError exit,
      (failPass status message lastError exit >>= fun exit => pure (some exit)).Every
        (WithKey (some key)) := fun status message lastError exit =>
    (routine_withKey (failPass_routine status message lastError exit) _).bind fun _ => trivial
  induction todo with
  | nil => trivial
  | cons date rest ih =>
    refine ⟨rfl, fun ⟨pr, records⟩ => ?_⟩
    show Program.Every _ (if pr.ok = true then _ else _)
    split
    · refine ⟨trivial, fun saved => ?_⟩
      cases saved with
      | true =>
        refine (checkpoint_every trivial initial).bind fun _ => ?_
        exact ⟨trivial, fun _ => ⟨trivial, fun _ => ih⟩⟩
      | false =>
        exact hfail .databaseError (wide "Failed to save sales data.")
          (some (ascii "database write failed")) .replaceFailed
    · exact hfail _ _ _ _

theorem finishStored_withKey (now : Bytes) (initial notifyEnabled : Bool)
    (resultHighwatermark : Bytes) (before : Snapshot) (key : Option Bytes) :
    (finishStored now initial notifyEnabled resultHighwatermark before).Every (WithKey key) := by
  have hpublish : ∀ (notification : Wide) (exit : Exit),
      (publish notification >>= fun _ => pure exit).Every (WithKey key) := fun _ _ =>
    ⟨trivial, fun _ => ⟨trivial, fun _ => ⟨trivial, fun _ => trivial⟩⟩⟩
  unfold finishStored
  refine (advanceMark_every trivial).bind fun _ => (checkpoint_every trivial initial).bind
    fun _ => ?_
  refine ⟨trivial, fun _ => ⟨trivial, fun _ => ?_⟩⟩
  show Program.Every _ (if _ then _ else _)
  split
  · exact (routine_withKey (notificationAfter_routine before) key).bind
      fun ⟨after, notification⟩ => hpublish notification _
  · exact hpublish [] _

/-- Every request of a pass carries the key that the pass has loaded. -/
theorem syncWithKey_withKey (key : Bytes) : (syncWithKey key).Every (WithKey (some key)) := by
  refine ⟨trivial, fun hwm => ⟨trivial, fun notifyEnabled => ⟨rfl, fun ⟨r, changed⟩ => ?_⟩⟩⟩
  show Program.Every _ (if r.ok = true then _ else _)
  split
  · refine ⟨trivial, fun now => ⟨trivial, fun _ => ?_⟩⟩
    show Program.Every _ (if _ then _ else _)
    split
    · exact (advanceMark_every trivial).bind fun _ =>
        ⟨trivial, fun _ => ⟨trivial, fun _ => ⟨trivial, fun _ => trivial⟩⟩⟩
    · refine (routine_withKey (readCursor_routine _) _).bind fun cursor => ?_
      refine ⟨trivial, fun _ => ⟨trivial, fun _ => ?_⟩⟩
      refine (routine_withKey (snapshotBefore_routine _) _).bind fun before => ?_
      refine (syncDates_withKey key now _ _).bind fun failed => ?_
      cases failed with
      | some exit => trivial
      | none => exact finishStored_withKey now _ notifyEnabled _ before _
  · exact routine_withKey (failPass_routine _ _ _ _) _

/-- All requests of the run so far carry the key. -/
def Carries (key : Option Bytes) (s : Record) : Prop :=
  ∀ op answer after, Entry.call op answer after ∈ s.past → WithKey key op

section Worker

variable (dpapi : Dpapi) (keyStore : DpapiSecretStore) (file : Option Bytes)
  (key : Option Bytes)

def keyContract : Contract Op Op.Answer Record Reply Move where
  machine := service.traced
  rules := keyRules dpapi keyStore file
  inv := Carries key
  inv_act move s _ h op answer after hmem := by
    rcases List.mem_cons.mp hmem with hlast | hmem
    · cases hlast
    · exact h op answer after hmem

variable {dpapi keyStore file key}

theorem carries_exec {op : Op} (hop : WithKey key op) {reply : Reply} {s : Record}
    (h : Carries key s) : Carries key (service.traced.exec op reply s).2 := by
  intro op' answer after hmem
  rcases List.mem_cons.mp hmem with hlast | hmem
  · cases hlast
    exact hop
  · exact h op' answer after hmem

theorem withKey_spec {α : Type} {p : Worker α} (hp : p.Every (WithKey key)) :
    (keyContract dpapi keyStore file key).Spec (fun _ => True) p fun _ _ => True :=
  Contract.Spec.every (Contract.stable_const True) <| hp.mono
    fun _ hop _ _ hinv _ _ => ⟨carries_exec hop hinv, trivial⟩

/-- A call that sends nothing, with what the file makes of its answer. -/
theorem answered (dpapi : Dpapi) (keyStore : DpapiSecretStore) (file : Option Bytes)
    {key : Option Bytes} (op : Op) (hop : WithKey key op) {Q : op.Answer → Prop}
    (h : ∀ reply s, (keyRules dpapi keyStore file).call op reply s →
      Q (service.traced.exec op reply s).1) :
    (keyContract dpapi keyStore file key).Spec (fun _ => True) (perform op) fun answer _ =>
      Q answer :=
  Contract.Spec.perform (Contract.stable_const True)
    (fun answer => Contract.stable_const (Q answer)) fun s reply hinv _ hreply =>
      ⟨carries_exec hop hinv, h reply s hreply⟩

theorem Carries.crash {s : Record} (h : Carries key s) : Carries key (service.traced.crash s) := by
  intro op answer after hmem
  rcases List.mem_cons.mp hmem with hlast | hmem
  · cases hlast
  · exact h op answer after hmem

/-- What the worker loads is the key of the file, if it has one. -/
theorem loadKey_spec (hfile : keyStore.hasStoredKey file = true →
      ∀ sent, keyStore.load dpapi file = (true, sent) → key = some sent) :
    (keyContract dpapi keyStore file key).Spec (fun _ => True) loadKey
      fun sent _ => sent ≠ [] → key = some sent := by
  have hhas := @answered dpapi keyStore file key .hasStoredKey trivial
    (fun stored => stored = keyStore.hasStoredKey file) fun _ _ hreply => hreply.1
  have hload := @answered dpapi keyStore file key .loadKey trivial
    (fun answer => answer =
      if (keyStore.load dpapi file).1 then some (keyStore.load dpapi file).2 else none)
    fun _ _ hreply => hreply.2
  refine hhas.bind fun stored => ?_
  cases stored with
  | false => exact Contract.Spec.ret (Contract.stable_const _) fun _ _ _ hne => absurd rfl hne
  | true =>
    rintro s hinv hstored
    refine (hload.bind fun answer => ?_) s hinv trivial
    refine Contract.Spec.ret (Contract.stable_const _) fun _ _ hanswer hne => ?_
    rw [hanswer] at hne ⊢
    cases hloads : (keyStore.load dpapi file).1 with
    | false => simp [hloads] at hne
    | true =>
      rw [if_pos rfl]
      exact hfile hstored.symm _ (Prod.ext hloads rfl)

theorem pass_spec (hfile : keyStore.hasStoredKey file = true →
      ∀ sent, keyStore.load dpapi file = (true, sent) → key = some sent) :
    (keyContract dpapi keyStore file key).Spec (fun _ => True) runSynchronization
      fun _ _ => True := by
  have hplain : ∀ {α : Type} {p : Worker α}, p.Every Op.Routine →
      (keyContract dpapi keyStore file key).Spec (fun _ => True) p fun _ _ => True :=
    fun hp => withKey_spec (routine_withKey hp key)
  unfold runSynchronization
  refine (withKey_spec (p := post .syncStarted) ⟨trivial, fun _ => trivial⟩).bind fun _ => ?_
  refine (hplain (updateStatus_routine (by trivial))).bind fun _ => ?_
  refine (withKey_spec (ensureOpen_every trivial trivial)).bind fun opened => ?_
  cases opened with
  | false => exact hplain (failPass_routine .databaseError _ none .databaseError)
  | true =>
    refine (withKey_spec (clearIfRequested_every trivial trivial)).bind fun _ => ?_
    refine (loadKey_spec hfile).bind fun sent => ?_
    split
    · exact (hplain (failPass_routine _ _ _ _)).pre fun _ _ _ => trivial
    · rename_i hentered
      intro s hinv hsent
      have hkey : key = some sent := hsent (by simpa using hentered)
      subst hkey
      exact withKey_spec (syncWithKey_withKey sent) s hinv trivial

end Worker

/-- The parameters of a query that are named `key`. -/
def keyPairs (query : Wide) : List (Wide × Option Bytes) :=
  (queryPairs query).filter fun p => p.1 = wide "key"

/-- A query has one key, that of the call. -/
theorem key_of_query {key : Option Bytes} {op : Op} (hop : WithKey key op) {query : Wide}
    (h : Sends op query) :
    ∃ sent, key = some sent ∧ keyPairs query = [(wide "key", some sent)] := by
  have hfirst : ∀ (sent : Bytes) (rest : List (Wide × Option Bytes)),
      (∀ p ∈ rest, p.1 ≠ wide "key") →
        (((wide "key", some sent) :: rest).filter fun p => p.1 = wide "key") =
          [(wide "key", some sent)] := by
    intro sent rest hrest
    rw [List.filter_cons_of_pos (by simp), List.filter_eq_nil_iff.mpr fun p hp => by
      simpa using hrest p hp]
  cases op with
  | getChangedDates sent highwatermark =>
    obtain rfl := h
    refine ⟨sent, hop, ?_⟩
    rw [keyPairs, changedDatesQuery_read]
    exact hfirst sent _ (by simp only [List.forall_mem_cons]; decide)
  | getAllDetailedSalesForDate sent date =>
    obtain ⟨id, rfl⟩ := h
    refine ⟨sent, hop, ?_⟩
    rw [keyPairs, detailedSalesQuery_read]
    exact hfirst sent _ (by simp only [List.forall_mem_cons]; decide)
  | _ => exact h.elim

/-- The blanks that are taken from a text are no surrogates. -/
theorem trimmed_units (c : UInt16)
    (h : decide (c ∈ ([32, 9, 13, 10, 12, 11] : List UInt16)) = true) : c < 0xD800 := by
  have hmem := of_decide_eq_true h
  simp only [List.mem_cons, List.not_mem_nil, or_false] at hmem
  rcases hmem with rfl | rfl | rfl | rfl | rfl | rfl <;> decide

/-- The query was sent in the run. -/
def Requested (s : Record) (query : Wide) : Prop :=
  ∃ op answer after, Entry.call op answer after ∈ s.past ∧ Sends op query

/-- In whatever way the dialog has been used, in any number of sessions: every query of every later
pass has one key, which is that of the text that was last stored; after it was removed, or before
one was stored, there is no query.  If the text is well-formed, the key decodes to what was entered,
without the blanks around it. -/
theorem typed_key_is_sent {exe : Wide} {dpapi : Dpapi} (hdpapi : dpapi.Documented)
    {keyStore : DpapiSecretStore} (hpath : keyStore.filePath ≠ []) {vs : List Visit}
    (hvs : ∀ v ∈ vs, ∀ step ∈ v.steps, Possible dpapi keyStore step) {file : Option Bytes}
    (hfile : keyStore.hasStoredKey file = false) {typed : Option Wide} {keyFile : Option Bytes}
    (hafter : visits exe keyStore vs (none, file) = (typed, keyFile)) {w : World}
    {es : List (Event Reply Move)} (hes : (keyRules dpapi keyStore keyFile).Admitted service.traced
      runSynchronization ⟨⟨w, []⟩, none⟩ es) {query : Wide}
    (hquery : Requested (w.recordAfter es) query) :
    ∃ text, typed = some text ∧
      keyPairs query = [(wide "key", some (keyOf text))] ∧
      (IsUtf16 text → utf8ToWide (keyOf text) = trimWhitespace text) := by
  have hholds : Holds dpapi keyStore typed keyFile := by
    have hvisits := @holds_visits exe dpapi hdpapi keyStore hpath vs hvs (none, file) hfile
    rwa [hafter] at hvisits
  have hloads : keyStore.hasStoredKey keyFile = true → ∀ sent,
      keyStore.load dpapi keyFile = (true, sent) → typed.map keyOf = some sent := by
    intro hstored sent hload
    cases typed with
    | none => exact absurd hstored (by rw [hholds]; exact Bool.false_ne_true)
    | some text => exact congrArg some (Prod.mk.inj (hholds.loads.symm.trans hload)).2
  have hcarries : Carries (typed.map keyOf) (w.recordAfter es) :=
    Contract.sound_inv (K := keyContract dpapi keyStore keyFile (typed.map keyOf))
      (fun _ _ h => h.crash) (fun _ _ _ => trivial) (pass_spec hloads)
      (fun _ _ _ hmem => absurd hmem List.not_mem_nil) hes
  obtain ⟨op, answer, after, hmem, hsends⟩ := hquery
  obtain ⟨key, hkey, hpairs⟩ := key_of_query (hcarries op answer after hmem) hsends
  obtain ⟨text, rfl, rfl⟩ := Option.map_eq_some_iff.mp hkey
  exact ⟨text, rfl, hpairs, fun hwell => utf8ToWide_wideToUtf8 (hwell.trimmed trimmed_units)⟩

namespace Sample

/-- Keys that are not too long are stored. -/
def keyReply : KeyReply where
  validator := none
  store key := if key ≠ [] ∧ key.length < 1000 then some (envelope (kEntropy ++ key)) else none

theorem keyReply_stored : StoredBy prefixing keyStore keyReply := by
  intro key file h
  obtain ⟨⟨hkey, hshort⟩, hfile⟩ := Option.ite_none_right_eq_some.mp h
  obtain rfl := Option.some.inj hfile
  have hprotect : prefixing.protect key kEntropy = some (kEntropy ++ key) := if_pos (by omega)
  have hblob : (kEntropy ++ key).length = 24 + key.length := List.length_append
  have hlength : (envelope (kEntropy ++ key)).length = 12 + (kEntropy ++ key).length :=
    length_parts rfl rfl rfl rfl
  have hexecution := @writeFileAtomic_succeeds none none (envelope (kEntropy ++ key))
    (List.cons_ne_nil _ _) (by omega)
  rw [← DpapiSecretStore.store_eq (s := keyStore) (by decide) prefixing_documented hkey hprotect
    (by omega) (by omega)] at hexecution
  exact ⟨none, none, _, _, hexecution, rfl⟩

/-- The text ` a&b€ `. -/
def typed : Wide := [32, 97, 38, 98, 0x20AC, 32]

def controls (apiKey : Wide) : Controls := ⟨some ⟨3, by decide⟩, true, false, false, apiKey⟩

/-- A key is stored; in a second session it is removed, and another one is stored. -/
def keyVisits : List Visit :=
  [⟨⟨⟨none, none, none⟩, none⟩, [.edit (controls (wide "OLD")), .save keyReply]⟩,
    ⟨⟨⟨none, none, none⟩, none⟩, [.removeKey true true, .edit (controls typed), .save keyReply]⟩]

def keyFile : Bytes := envelope (kEntropy ++ keyOf typed)

/-- A pass that loads the key of the file. -/
def keyedPass : List (Event Reply Move) :=
  .start :: List.replicate 30 (.call { Sync.Sample.reply [Sync.Sample.july18] 2
    [Sync.Sample.sale 1] with key := some (keyOf typed) })

theorem keyVisits_possible :
    ∀ v ∈ keyVisits, ∀ step ∈ v.steps, Possible prefixing keyStore step := by
  simp only [keyVisits, List.forall_mem_cons]
  exact ⟨⟨show (3 : Nat) < 2 ^ 30 by decide, keyReply_stored, nofun⟩,
    ⟨trivial, show (6 : Nat) < 2 ^ 30 by decide, keyReply_stored, nofun⟩, nofun⟩

theorem keyedPass_admitted : (keyRules prefixing keyStore (some keyFile)).Admitted service.traced
    runSynchronization ⟨⟨Sync.Sample.world, []⟩, none⟩ keyedPass := by
  refine Rules.admitted_of_events (fun e he c => ?_) _ _ _
  rcases List.mem_cons.mp he with rfl | he
  · trivial
  · obtain ⟨-, rfl⟩ := List.mem_replicate.mp he
    exact Rules.admits_call (R := keyRules prefixing keyStore (some keyFile))
      (fun _ _ => ⟨by decide +kernel, by decide +kernel⟩) c

def changedQuery : Happened → Option Wide
  | .call (.getChangedDates key highwatermark) _ _ => some (changedDatesQuery key highwatermark)
  | _ => none

theorem requested_of_changed {s : Record} {query : Wide}
    (h : query ∈ s.past.filterMap changedQuery) : Requested s query := by
  obtain ⟨entry, hentry, hquery⟩ := List.mem_filterMap.mp h
  cases entry with
  | act move after => cases hquery
  | kill after => cases hquery
  | call op answer after =>
    cases op with
    | getChangedDates key highwatermark =>
      exact ⟨_, answer, after, hentry, (Option.some.inj hquery).symm⟩
    | _ => cases hquery

end Sample

/-- The key of the second text is sent, without the blanks. -/
theorem typed_key_is_sent_sample : ∃ text, some Sample.typed = some text ∧
    keyPairs (changedDatesQuery (keyOf Sample.typed) (ascii "0")) =
        [(wide "key", some (keyOf text))] ∧
      (IsUtf16 text → utf8ToWide (keyOf text) = trimWhitespace text) :=
  @typed_key_is_sent (wide "app.exe") prefixing prefixing_documented keyStore (by decide)
    Sample.keyVisits Sample.keyVisits_possible none rfl (some Sample.typed) (some Sample.keyFile)
    (by decide +kernel) Sync.Sample.world Sample.keyedPass Sample.keyedPass_admitted
    (changedDatesQuery (keyOf Sample.typed) (ascii "0"))
    (Sample.requested_of_changed (by decide +kernel))

end SteamSalesTray.App
