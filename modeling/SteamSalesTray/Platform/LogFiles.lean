import SteamSalesTray.Platform.Logging
import SteamSalesTray.Platform.StringUtil

/-! `Log::Write` on the two files of the log: how large they get, and what they have of the lines
that were written. -/

namespace SteamSalesTray.Platform.Log

def kMaxBytes : Nat := 1024 * 1024

inductive LogLevel where
  | info
  | warn
  | error
deriving DecidableEq, Repr

def levelName : LogLevel → Wide
  | .info => wide "INFO "
  | .warn => wide "WARN "
  | .error => wide "ERROR"

/-- One call of `Write`, with the time that it takes. -/
structure Entry where
  nowUtc : Bytes
  level : LogLevel
  component : Wide
  message : Wide
deriving DecidableEq, Repr

/-- What the call appends to the file. -/
def Entry.line (e : Entry) : Bytes :=
  wideToUtf8 (utf8ToWide e.nowUtc ++ wide " " ++ levelName e.level ++ wide " " ++ e.component ++
    wide " " ++ redactSecrets e.message ++ [13, 10])

/-- `app.log` and `app.log.1`; `none` is a file that does not exist. -/
structure LogFiles where
  current : Option Bytes
  rotated : Option Bytes
deriving DecidableEq, Repr

def LogFiles.missing : LogFiles := ⟨none, none⟩

def fileSize (file : Option Bytes) : Nat := (file.getD []).length

def rotateIfNeeded (f : LogFiles) : LogFiles :=
  if fileSize f.current < kMaxBytes then f
  else ⟨none, f.current⟩

def appendUtf8 (utf8 : Bytes) (f : LogFiles) : LogFiles :=
  { f with current := some (f.current.getD [] ++ utf8) }

def write (f : LogFiles) (e : Entry) : LogFiles := appendUtf8 e.line (rotateIfNeeded f)

/-- The files after some calls. -/
def writeAll (f : LogFiles) (entries : List Entry) : LogFiles := entries.foldl write f

/-- How many of the calls rotate the files. -/
def rotations (f : LogFiles) : List Entry → Nat
  | [] => 0
  | e :: rest => (if fileSize f.current < kMaxBytes then 0 else 1) + rotations (write f e) rest

def content (f : LogFiles) : Bytes := f.rotated.getD [] ++ f.current.getD []

def written (entries : List Entry) : Bytes := (entries.map Entry.line).flatten

/-- What the files have of `lines` after `n` rotations: the last ones, the older of them in
`app.log.1`.  The first rotation drops nothing. -/
structure Keeps (L : Nat) (lines : List Bytes) (n : Nat) (f : LogFiles) : Prop where
  current_lt : fileSize f.current < kMaxBytes + L
  rotated_lt : fileSize f.rotated < kMaxBytes + L
  split : ∃ dropped older newer, lines = dropped ++ older ++ newer ∧
    f.rotated.getD [] = older.flatten ∧ f.current.getD [] = newer.flatten ∧
      (n = 0 → older = []) ∧ (n ≤ 1 → dropped = [])
  rotated_ge : 1 ≤ n → kMaxBytes ≤ fileSize f.rotated

theorem kMaxBytes_pos : 0 < kMaxBytes := by decide

theorem keeps_missing (L : Nat) : Keeps L [] 0 .missing := by
  have := kMaxBytes_pos
  have hsize : fileSize none < kMaxBytes + L := by
    show 0 < _
    omega
  exact ⟨hsize, hsize, ⟨[], [], [], rfl, rfl, rfl, fun _ => rfl, fun _ => rfl⟩, nofun⟩

/-- A call on files that it does not rotate. -/
theorem Keeps.append {L n : Nat} {lines : List Bytes} {f : LogFiles} (h : Keeps L lines n f)
    {line : Bytes} (hline : line.length ≤ L) (hsize : fileSize f.current < kMaxBytes) :
    Keeps L (lines ++ [line]) n (appendUtf8 line f) := by
  obtain ⟨dropped, older, newer, hlines, holder, hnewer, hnone, hfirst⟩ := h.split
  refine ⟨?_, h.rotated_lt, ⟨dropped, older, newer ++ [line], ?_, holder, ?_, hnone, hfirst⟩,
    h.rotated_ge⟩
  · have happend : fileSize (appendUtf8 line f).current = fileSize f.current + line.length :=
      List.length_append
    omega
  · rw [hlines, List.append_assoc]
  · show f.current.getD [] ++ line = _
    rw [hnewer]
    simp

/-- The file that is rotated has reached the limit. -/
theorem Keeps.rotate {L n : Nat} {lines : List Bytes} {f : LogFiles} (h : Keeps L lines n f)
    (hsize : ¬fileSize f.current < kMaxBytes) : Keeps L lines (1 + n) ⟨none, f.current⟩ := by
  obtain ⟨dropped, older, newer, hlines, holder, hnewer, hnone, hfirst⟩ := h.split
  refine ⟨(keeps_missing L).current_lt, h.current_lt, ⟨dropped ++ older, newer, [], ?_, hnewer, rfl,
    fun hn => by omega, fun hn => ?_⟩, fun _ => Nat.not_lt.mp hsize⟩
  · rw [hlines, List.append_nil]
  · rw [hnone (by omega), hfirst (by omega)]
    rfl

theorem Keeps.write {L n : Nat} {lines : List Bytes} {f : LogFiles} (h : Keeps L lines n f)
    {e : Entry} (he : e.line.length ≤ L) :
    Keeps L (lines ++ [e.line]) ((if fileSize f.current < kMaxBytes then 0 else 1) + n)
      (write f e) := by
  unfold Log.write rotateIfNeeded
  split
  · rename_i hsize
    rw [Nat.zero_add]
    exact h.append he hsize
  · rename_i hsize
    exact (h.rotate hsize).append he kMaxBytes_pos

theorem Keeps.writeAll {L n : Nat} {lines : List Bytes} {f : LogFiles} (h : Keeps L lines n f)
    {entries : List Entry} (hentries : ∀ e ∈ entries, e.line.length ≤ L) :
    Keeps L (lines ++ entries.map Entry.line) (rotations f entries + n) (writeAll f entries) := by
  induction entries generalizing lines n f with
  | nil =>
    rw [List.map_nil, List.append_nil, rotations, Nat.zero_add]
    exact h
  | cons e rest ih =>
    obtain ⟨he, hrest⟩ := List.forall_mem_cons.mp hentries
    have hnext := ih (h.write he) hrest
    rw [List.append_assoc, ← Nat.add_assoc] at hnext
    rw [List.map_cons, rotations, Nat.add_comm _ (rotations _ rest)]
    exact hnext

/-- From no files, with lines of `L` bytes at most: each file stays below 1 MB and `L`, the files
have the last lines, all of them until the second rotation and 1 MB at least from then on. -/
theorem log_keeps_tail {L : Nat} {entries : List Entry}
    (hentries : ∀ e ∈ entries, e.line.length ≤ L) :
    fileSize (writeAll .missing entries).current < kMaxBytes + L ∧
      fileSize (writeAll .missing entries).rotated < kMaxBytes + L ∧
      (∃ k, content (writeAll .missing entries) = written (entries.drop k)) ∧
      (rotations .missing entries ≤ 1 →
        content (writeAll .missing entries) = written entries) ∧
      (2 ≤ rotations .missing entries →
        kMaxBytes ≤ (content (writeAll .missing entries)).length) := by
  have h := (keeps_missing L).writeAll hentries
  rw [List.nil_append, Nat.add_zero] at h
  obtain ⟨dropped, older, newer, hlines, holder, hnewer, -, hfirst⟩ := h.split
  have hcontent : content (writeAll .missing entries) = (older ++ newer).flatten := by
    rw [content, holder, hnewer, List.flatten_append]
  refine ⟨h.current_lt, h.rotated_lt, ⟨dropped.length, ?_⟩, fun hn => ?_, fun hn => ?_⟩
  · rw [hcontent, written, List.map_drop, hlines, List.append_assoc, List.drop_left]
  · rw [hcontent, written, hlines, hfirst hn, List.nil_append]
  · have hrotated := h.rotated_ge (by omega)
    rw [content, List.length_append]
    exact Nat.le_add_right_of_le hrotated

theorem length_written_replicate (n : Nat) (e : Entry) :
    (written (List.replicate n e)).length = n * e.line.length := by
  rw [written, List.map_replicate, List.length_flatten, List.map_replicate,
    List.sum_replicate_nat]

def plainEntry : Entry := ⟨ascii "2026-07-20T00:00:00Z", .info, wide "Sync", wide "key=ABC"⟩

/-- So many lines that `app.log` is rotated twice. -/
def manyEntries : List Entry := List.replicate 60000 plainEntry

theorem log_keeps_tail_rotated :
    2 ≤ rotations .missing manyEntries ∧
      kMaxBytes ≤ (content (writeAll .missing manyEntries)).length ∧
      ∃ k, 0 < k ∧ content (writeAll .missing manyEntries) = written (manyEntries.drop k) := by
  have hline : plainEntry.line.length = 46 := by decide +kernel
  have hentries : ∀ e ∈ manyEntries, e.line.length ≤ 46 := fun e he => by
    rw [List.eq_of_mem_replicate he, hline]
  have hwritten : (written manyEntries).length = 60000 * 46 :=
    (length_written_replicate 60000 plainEntry).trans (by rw [hline])
  obtain ⟨hcurrent, hrotated, ⟨k, hcontent⟩, hfew, hmany⟩ := log_keeps_tail hentries
  have hfull : content (writeAll .missing manyEntries) ≠ written manyEntries := by
    intro hall
    have hlength := congrArg List.length hall
    rw [hwritten, content, List.length_append] at hlength
    unfold fileSize kMaxBytes at hcurrent hrotated
    omega
  have htwice : 2 ≤ rotations .missing manyEntries := by
    by_contra hless
    exact hfull (hfew (by omega))
  refine ⟨htwice, hmany htwice, k, Nat.pos_of_ne_zero ?_, hcontent⟩
  rintro rfl
  exact hfull hcontent

end SteamSalesTray.Platform.Log
