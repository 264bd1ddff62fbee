import SteamSalesTray.Lib.Program
import SteamSalesTray.Text

/-! `WriteFileAtomic`: the key file is replaced by way of a temporary file, while another thread
reads it and the process may be killed. -/

namespace SteamSalesTray.Security

open Interaction

/-- The calls of `WriteFileAtomic` on the temporary file. -/
inductive FileOp where
  | createFile
  | writeFile (bytes : Bytes)
  | flushFileBuffers
  | closeHandle
  | moveFileEx
  | deleteFile

/-- `WriteFile` also answers how many bytes it has written. -/
abbrev FileOp.Answer : FileOp → Type
  | .createFile | .flushFileBuffers | .moveFileEx => Bool
  | .writeFile _ => Bool × Nat
  | .closeHandle | .deleteFile => Unit

abbrev FileProgram := Program FileOp FileOp.Answer

abbrev callFile (op : FileOp) : FileProgram op.Answer := Program.perform op

def writeBytes (bytes : Bytes) : FileProgram Bool :=
  if bytes.isEmpty then pure true
  else do
    let result ← callFile (.writeFile bytes)
    pure (result.1 && result.2 == bytes.length)

def flushIf (ok : Bool) : FileProgram Bool :=
  if ok then callFile .flushFileBuffers else pure false

def moveIf (ok : Bool) : FileProgram Bool :=
  if ok then callFile .moveFileEx else pure false

def cleanUp (ok : Bool) : FileProgram Bool :=
  if ok then pure ok
  else do
    callFile .deleteFile
    pure ok

/-- Temporary file, flush, replace, cleanup. -/
def writeFileAtomic (bytes : Bytes) : FileProgram Bool := do
  if ← callFile .createFile then
    let ok ← writeBytes bytes
    let ok ← flushIf ok
    callFile .closeHandle
    let ok ← moveIf ok
    cleanUp ok
  else pure false

/-! ### The files -/

/-- Another thread in `ReadWholeFile`: it has the key file open, and then knows its size. -/
inductive Reader where
  | closed
  | opened
  | sized (size : Nat)
deriving DecidableEq, Repr

/-- The key file and the temporary one, if they exist, the reader of the key file, and what it has
read so far, the latest last. -/
structure Files where
  key : Option Bytes
  tmp : Option Bytes
  reader : Reader
  loaded : List Bytes
deriving DecidableEq, Repr

/-- Whether a call succeeds, and how many bytes a write gets to the file. -/
structure FileReply where
  succeeds : Bool
  written : Nat
deriving DecidableEq, Repr

inductive ReaderMove where
  | createFile
  | getFileSizeEx
  | readFile
deriving DecidableEq, Repr

namespace Files

/-- `CREATE_ALWAYS` empties a temporary file that is left over.  A `DWORD` has 32 bits.  The reader
does not share the key file for deletion, so it cannot be replaced while it is open. -/
def exec (op : FileOp) (reply : FileReply) (s : Files) : op.Answer × Files :=
  match op with
  | .createFile => (reply.succeeds, if reply.succeeds then { s with tmp := some [] } else s)
  | .writeFile bytes =>
    let written := min reply.written (bytes.length % 2 ^ 32)
    ((reply.succeeds, written), { s with tmp := s.tmp.map (· ++ bytes.take written) })
  | .flushFileBuffers => (reply.succeeds, s)
  | .closeHandle => ((), s)
  | .moveFileEx =>
    if reply.succeeds = true ∧ s.reader = .closed ∧ s.tmp.isSome = true then
      (true, { s with key := s.tmp, tmp := none })
    else (false, s)
  | .deleteFile => ((), if reply.succeeds then { s with tmp := none } else s)

/-- `readFile` gets as many bytes as the file has had at its size query, and closes it. -/
def act (move : ReaderMove) (s : Files) : Files :=
  match move, s.reader, s.key with
  | .createFile, .closed, some _ => { s with reader := .opened }
  | .getFileSizeEx, .opened, some content => { s with reader := .sized content.length }
  | .readFile, .sized size, some content =>
    { s with reader := .closed, loaded := s.loaded ++ [content.take size] }
  | _, _, _ => s

/-- The process is killed, and with it the reader. -/
def crash (s : Files) : Files := { s with reader := .closed }

end Files

def fileMachine : Machine FileOp FileOp.Answer Files FileReply ReaderMove :=
  ⟨Files.exec, Files.act, Files.crash⟩

/-- Anything may happen at any time. -/
def fileRules : Rules FileOp Files FileReply ReaderMove :=
  ⟨fun _ => True, fun _ _ _ => True, fun _ _ => True, fun _ => True⟩

/-! ### All or nothing -/

/-- The key file has what it had or the new bytes, the reader knows the size of the one that it has
open, and it has read nothing else. -/
structure Whole (old : Option Bytes) (bytes : Bytes) (s : Files) : Prop where
  key : s.key = old ∨ s.key = some bytes
  sized : ∀ size, s.reader = .sized size → ∃ content, s.key = some content ∧ content.length = size
  loaded : ∀ content ∈ s.loaded, some content = old ∨ content = bytes

namespace Whole

variable {old : Option Bytes} {bytes : Bytes} {s : Files}

theorem act (h : Whole old bytes s) (move : ReaderMove) : Whole old bytes (s.act move) := by
  unfold Files.act
  split
  · exact ⟨h.key, nofun, h.loaded⟩
  · rename_i content _ hkey
    refine ⟨h.key, ?_, h.loaded⟩
    rintro _ ⟨⟩
    exact ⟨content, hkey, rfl⟩
  · rename_i size content hreader hkey
    refine ⟨h.key, nofun, fun c hc => ?_⟩
    rcases List.mem_append.mp hc with hc | hc
    · exact h.loaded c hc
    · obtain ⟨content', hkey', hlength⟩ := h.sized size hreader
      obtain rfl := Option.some.inj (hkey.symm.trans hkey')
      obtain rfl := List.mem_singleton.mp hc
      rw [List.take_of_length_le (Nat.le_of_eq hlength)]
      rcases h.key with hold | hnew
      · exact .inl (hkey.symm.trans hold)
      · exact .inr (Option.some.inj (hkey.symm.trans hnew))
  · exact h

theorem crash (h : Whole old bytes s) : Whole old bytes s.crash := ⟨h.key, nofun, h.loaded⟩

/-- A call that leaves the key file and its reader alone. -/
theorem of_same {s' : Files} (h : Whole old bytes s) (hkey : s'.key = s.key)
    (hreader : s'.reader = s.reader) (hloaded : s'.loaded = s.loaded) : Whole old bytes s' := by
  refine ⟨?_, ?_, ?_⟩
  · rw [hkey]
    exact h.key
  · rw [hkey, hreader]
    exact h.sized
  · rw [hloaded]
    exact h.loaded

theorem exec (h : Whole old bytes s) (op : FileOp)
    (hmove : op = .moveFileEx → s.tmp = some bytes) (reply : FileReply) :
    Whole old bytes (Files.exec op reply s).2 := by
  cases op with
  | moveFileEx =>
    simp only [Files.exec]
    split
    · rename_i hdone
      refine ⟨.inr (hmove rfl), fun size hsized => ?_, h.loaded⟩
      rw [hdone.2.1] at hsized
      cases hsized
    · exact h
  | createFile =>
    refine h.of_same ?_ ?_ ?_ <;> cases hreply : reply.succeeds <;> simp [Files.exec, hreply]
  | deleteFile =>
    refine h.of_same ?_ ?_ ?_ <;> cases hreply : reply.succeeds <;> simp [Files.exec, hreply]
  | _ => exact h.of_same rfl rfl rfl

end Whole

def fileContract (old : Option Bytes) (bytes : Bytes) :
    Contract FileOp FileOp.Answer Files FileReply ReaderMove where
  machine := fileMachine
  rules := fileRules
  inv := Whole old bytes
  inv_act move _ _ h := h.act move

/-- The key file is untouched, and the temporary file has all the bytes where `ok` says so. -/
def Written (prev : Option Bytes) (bytes : Bytes) (ok : Bool) (s : Files) : Prop :=
  s.key = prev ∧ (ok = true → s.tmp = some bytes)

def Stored (prev : Option Bytes) (bytes : Bytes) (ok : Bool) (s : Files) : Prop :=
  s.key = if ok then some bytes else prev

section Steps

variable (old prev : Option Bytes) (bytes : Bytes)

theorem stable_files (P : Option Bytes → Option Bytes → Prop) :
    (fileContract old bytes).Stable fun s => P s.key s.tmp := by
  refine Contract.stable_of_kept (f := fun s : Files => (s.key, s.tmp)) ?_ fun f => P f.1 f.2
  intro move s
  show ((s.act move).key, (s.act move).tmp) = (s.key, s.tmp)
  unfold Files.act
  split <;> rfl

theorem stable_written (ok : Bool) : (fileContract old bytes).Stable (Written prev bytes ok) :=
  stable_files old bytes fun key tmp => key = prev ∧ (ok = true → tmp = some bytes)

theorem stable_stored (ok : Bool) : (fileContract old bytes).Stable (Stored prev bytes ok) :=
  stable_files old bytes fun key _ => key = if ok then some bytes else prev

theorem writeBytes_spec :
    (fileContract old bytes).Spec (fun s => s.key = prev ∧ s.tmp = some []) (writeBytes bytes)
      (Written prev bytes) := by
  have hstable := stable_files old bytes fun key tmp => key = prev ∧ tmp = some []
  unfold writeBytes
  split
  · rename_i hempty
    refine Contract.Spec.ret hstable fun s _ h => ⟨h.1, fun _ => ?_⟩
    rw [h.2, List.isEmpty_iff.mp hempty]
  · refine Contract.Spec.call hstable (R := fun answer s => s.key = prev ∧
      s.tmp = some (bytes.take answer.2)) ?_ fun answer => ?_
    · intro s reply hs h _
      refine ⟨hs.exec (.writeFile bytes) nofun reply, h.1, ?_⟩
      show s.tmp.map _ = _
      rw [h.2]
      rfl
    · refine Contract.Spec.ret (stable_files old bytes fun key tmp => key = prev ∧
        tmp = some (bytes.take answer.2)) fun s _ h => ⟨h.1, fun hok => ?_⟩
      have hwritten : answer.2 = bytes.length := by simpa using (Bool.and_eq_true_iff.mp hok).2
      rw [h.2, hwritten, List.take_length]

theorem flushIf_spec (ok : Bool) :
    (fileContract old bytes).Spec (Written prev bytes ok) (flushIf ok) (Written prev bytes) := by
  cases ok with
  | false => exact Contract.Spec.ret (stable_written old prev bytes false) fun _ _ h => h
  | true =>
    refine Contract.Spec.perform (stable_written old prev bytes true)
      (stable_written old prev bytes) ?_
    exact fun s reply hs h _ => ⟨hs, h.1, fun _ => h.2 rfl⟩

theorem closeHandle_spec (ok : Bool) :
    (fileContract old bytes).Spec (Written prev bytes ok) (callFile .closeHandle)
      fun _ => Written prev bytes ok :=
  Contract.Spec.perform (stable_written old prev bytes ok)
    (fun _ => stable_written old prev bytes ok) fun _ _ hs h _ => ⟨hs, h⟩

theorem moveIf_spec (ok : Bool) :
    (fileContract old bytes).Spec (Written prev bytes ok) (moveIf ok) (Stored prev bytes) := by
  cases ok with
  | false =>
    exact Contract.Spec.ret (stable_written old prev bytes false) fun _ _ h => h.1
  | true =>
    refine Contract.Spec.perform (stable_written old prev bytes true)
      (stable_stored old prev bytes) ?_
    intro s reply hs h _
    refine ⟨hs.exec .moveFileEx (fun _ => h.2 rfl) reply, ?_⟩
    show Stored prev bytes (Files.exec .moveFileEx reply s).1 (Files.exec .moveFileEx reply s).2
    simp only [Files.exec]
    split
    · exact h.2 rfl
    · exact h.1

theorem cleanUp_spec (ok : Bool) :
    (fileContract old bytes).Spec (Stored prev bytes ok) (cleanUp ok) (Stored prev bytes) := by
  cases ok with
  | true => exact Contract.Spec.ret (stable_stored old prev bytes true) fun _ _ h => h
  | false =>
    refine Contract.Spec.call (stable_stored old prev bytes false)
      (R := fun _ => Stored prev bytes false) ?_ fun _ =>
        Contract.Spec.ret (stable_stored old prev bytes false) fun _ _ h => h
    intro s reply hs h _
    refine ⟨hs.exec .deleteFile nofun reply, ?_⟩
    show (Files.exec .deleteFile reply s).2.key = _
    simp only [Files.exec]
    split
    · exact h
    · exact h

theorem writeFileAtomic_spec :
    (fileContract old bytes).Spec (fun s => s.key = prev) (writeFileAtomic bytes)
      (Stored prev bytes) := by
  have hstable := stable_files old bytes fun key _ => key = prev
  refine Contract.Spec.call hstable (R := fun created s => s.key = prev ∧
    (created = true → s.tmp = some [])) ?_ fun created => ?_
  · intro s reply hs h _
    refine ⟨hs.exec .createFile nofun reply, ?_⟩
    show (Files.exec .createFile reply s).2.key = prev ∧
      (reply.succeeds = true → (Files.exec .createFile reply s).2.tmp = some [])
    cases hreply : reply.succeeds with
    | true => simp [Files.exec, hreply, h]
    | false => simp [Files.exec, hreply, h]
  · cases created with
    | false =>
      exact Contract.Spec.ret (stable_files old bytes fun key tmp => key = prev ∧
        (false = true → tmp = some [])) fun _ _ h => h.1
    | true =>
      refine ((writeBytes_spec old prev bytes).pre fun _ _ h => ⟨h.1, h.2 rfl⟩).bind fun ok => ?_
      refine (flushIf_spec old prev bytes ok).bind fun ok => ?_
      refine (closeHandle_spec old prev bytes ok).bind fun _ => ?_
      refine (moveIf_spec old prev bytes ok).bind fun ok => ?_
      exact cleanUp_spec old prev bytes ok

end Steps

theorem fileRules_admitted {bytes : Bytes} (c : Config FileOp FileOp.Answer Files Bool)
    (es : List (Event FileReply ReaderMove)) :
    fileRules.Admitted fileMachine (writeFileAtomic bytes) c es :=
  Rules.admitted_of_all (fun _ => trivial) (fun _ _ _ => trivial) (fun _ _ => trivial)
    (fun _ => trivial) _ _ c es

theorem whole_start (old tmp : Option Bytes) (bytes : Bytes) :
    Whole old bytes ⟨old, tmp, .closed, []⟩ := ⟨.inl rfl, nofun, nofun⟩

theorem whole_run {old : Option Bytes} {bytes : Bytes} {s : Files} (h : Whole old bytes s)
    (es : List (Event FileReply ReaderMove)) :
    Whole old bytes (fileMachine.run (writeFileAtomic bytes) ⟨s, none⟩ es).state := by
  refine Contract.sound_inv (K := fileContract old bytes) (P := fun _ => True)
    (Q := fun _ _ => True) (fun _ _ hs => hs.crash) (fun _ _ _ => trivial) ?_ h
    (fileRules_admitted _ es)
  intro t ht _
  exact (writeFileAtomic_spec old t.key bytes).post (fun _ _ _ => trivial) t ht rfl

theorem writeFileAtomic_returns {old : Option Bytes} {bytes : Bytes}
    {c c' : Config FileOp FileOp.Answer Files Bool} {es : List (Event FileReply ReaderMove)}
    {ok : Bool} (hwhole : Whole old bytes c.state)
    (h : Execution fileRules fileMachine (writeFileAtomic bytes) c es ok c') :
    c'.state.key = if ok then some bytes else c.state.key :=
  ((writeFileAtomic_spec old c.state.key bytes).execution (K := fileContract old bytes) h hwhole
    rfl).2

/-- Whatever the steps come to, wherever the process is killed and the other thread reads: the key
file has what it had or the new bytes, a read gets one of the two, and what `WriteFileAtomic`
returns says which of them is in place. -/
theorem write_all_or_nothing (old tmp : Option Bytes) (bytes : Bytes)
    (es : List (Event FileReply ReaderMove)) :
    let c := fileMachine.run (writeFileAtomic bytes) ⟨⟨old, tmp, .closed, []⟩, none⟩ es
    Whole old bytes c.state ∧
      ∀ es' ok c', Execution fileRules fileMachine (writeFileAtomic bytes) c es' ok c' →
        c'.state.key = if ok then some bytes else c.state.key := by
  intro c
  have hwhole := whole_run (whole_start old tmp bytes) es
  exact ⟨hwhole, fun _ _ _ h => writeFileAtomic_returns hwhole h⟩

/-- With no reader and no failure the new bytes get in place. -/
theorem writeFileAtomic_succeeds (old tmp : Option Bytes) {bytes : Bytes} (hbytes : bytes ≠ [])
    (hlength : bytes.length < 2 ^ 32) :
    Execution fileRules fileMachine (writeFileAtomic bytes) ⟨⟨old, tmp, .closed, []⟩, none⟩
      (List.replicate 5 (.call ⟨true, bytes.length⟩)) true
      ⟨⟨some bytes, none, .closed, []⟩, some (.ret true)⟩ := by
  have hwritten : bytes.length % 4294967296 = bytes.length := Nat.mod_eq_of_lt hlength
  have hempty : bytes.isEmpty = false := by simpa using hbytes
  refine ⟨trivial, by simp [Event.Within], fileRules_admitted _ _, ?_, rfl⟩
  simp [Machine.run, Machine.step, fileMachine, Files.exec, writeFileAtomic, writeBytes, flushIf,
    moveIf, cleanUp, callFile, Program.perform, Bind.bind, Program.bind, pure, hempty, hwritten]

end SteamSalesTray.Security
