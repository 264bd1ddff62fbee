import SteamSalesTray.Steam.Models

/-! The partner's server as far as the change list goes: a log of changes with increasing ids, each
with the records that its date has from then on. -/

namespace SteamSalesTray.Steam

structure Change where
  id : Nat
  date : Bytes
  records : List DetailedSalesRecord
deriving DecidableEq, Repr

/-- The changes so far, the newest first. -/
structure ChangeLog where
  changes : List Change
  increasing : changes.Pairwise fun newer older => older.id < newer.id
  positive : ∀ c ∈ changes, 0 < c.id

namespace ChangeLog

def empty : ChangeLog := ⟨[], .nil, nofun⟩

theorem eq_of_changes {log log' : ChangeLog} (h : log.changes = log'.changes) : log = log' := by
  cases log
  cases log'
  cases h
  rfl

def greatestId (log : ChangeLog) : Nat := (log.changes.head?.map Change.id).getD 0

def latest (log : ChangeLog) (date : Bytes) : Option Change :=
  log.changes.find? fun c => c.date = date

def content (log : ChangeLog) (date : Bytes) : List DetailedSalesRecord :=
  ((log.latest date).map Change.records).getD []

theorem id_le_greatestId {log : ChangeLog} {c : Change} (hc : c ∈ log.changes) :
    c.id ≤ log.greatestId := by
  obtain ⟨changes, hinc, hpos⟩ := log
  cases changes with
  | nil => cases hc
  | cons first rest =>
    rcases List.mem_cons.mp hc with rfl | hc
    · exact Nat.le_refl _
    · exact Nat.le_of_lt ((List.pairwise_cons.mp hinc).1 c hc)

theorem mem_of_latest {log : ChangeLog} {date : Bytes} {c : Change}
    (h : log.latest date = some c) : c ∈ log.changes ∧ c.date = date :=
  ⟨List.mem_of_find?_eq_some h, by simpa using List.find?_some h⟩

theorem latest_le_greatestId {log : ChangeLog} {date : Bytes} {c : Change}
    (h : log.latest date = some c) : c.id ≤ log.greatestId :=
  id_le_greatestId (mem_of_latest h).1

theorem latest_pos {log : ChangeLog} {date : Bytes} {c : Change}
    (h : log.latest date = some c) : 0 < c.id :=
  log.positive c (mem_of_latest h).1

theorem content_of_latest {log : ChangeLog} {date : Bytes} {c : Change}
    (h : log.latest date = some c) : log.content date = c.records := by
  simp [content, h]

/-- The server changes a date; `gap` ids are left out. -/
def push (gap : Nat) (date : Bytes) (records : List DetailedSalesRecord) (log : ChangeLog) :
    ChangeLog where
  changes := ⟨log.greatestId + 1 + gap, date, records⟩ :: log.changes
  increasing := List.pairwise_cons.mpr ⟨fun c hc => by
    have := id_le_greatestId hc
    show c.id < log.greatestId + 1 + gap
    omega, log.increasing⟩
  positive c hc := by
    rcases List.mem_cons.mp hc with rfl | hc
    · show 0 < log.greatestId + 1 + gap
      omega
    · exact log.positive c hc

theorem greatestId_push (gap : Nat) (date : Bytes) (records : List DetailedSalesRecord)
    (log : ChangeLog) : (log.push gap date records).greatestId = log.greatestId + 1 + gap := rfl

/-- A change is the latest of its date, newer than all before it, and no other date's. -/
theorem latest_push {gap : Nat} {date : Bytes} {records : List DetailedSalesRecord}
    {log : ChangeLog} {d : Bytes} {c : Change}
    (h : (log.push gap date records).latest d = some c) :
    log.greatestId < c.id ∨ log.latest d = some c := by
  by_cases hd : date = d
  · left
    have hc : (⟨log.greatestId + 1 + gap, date, records⟩ : Change) = c := by
      simpa [push, latest, hd] using h
    subst hc
    show log.greatestId < log.greatestId + 1 + gap
    omega
  · right
    simpa [push, latest, hd] using h

/-- The answer to `GetChangedDates`: every date with a latest change after the mark that was sent,
and the greatest id. -/
structure Lists (log : ChangeLog) (highwatermark : Bytes) (changed : ChangedDates) : Prop where
  sound : ∀ d ∈ changed.dates, ∃ c ∈ log.changes,
    log.latest d = some c ∧ number highwatermark < c.id
  complete : ∀ c ∈ log.changes, log.latest c.date = some c → number highwatermark < c.id →
    c.date ∈ changed.dates
  mark : changed.resultHighwatermark = decimal log.greatestId

instance (log : ChangeLog) (highwatermark : Bytes) (changed : ChangedDates) :
    Decidable (log.Lists highwatermark changed) :=
  decidable_of_iff (_ ∧ _ ∧ _) ⟨fun h => ⟨h.1, h.2.1, h.2.2⟩, fun h => ⟨h.1, h.2, h.3⟩⟩

theorem Lists.mem_dates {log : ChangeLog} {highwatermark : Bytes} {changed : ChangedDates}
    (h : log.Lists highwatermark changed) {d : Bytes} :
    d ∈ changed.dates ↔ ∃ c, log.latest d = some c ∧ number highwatermark < c.id := by
  constructor
  · intro hd
    obtain ⟨c, _, hc, hid⟩ := h.sound d hd
    exact ⟨c, hc, hid⟩
  · rintro ⟨c, hc, hid⟩
    obtain ⟨hmem, rfl⟩ := mem_of_latest hc
    exact h.complete c hmem hc hid

end ChangeLog

end SteamSalesTray.Steam
