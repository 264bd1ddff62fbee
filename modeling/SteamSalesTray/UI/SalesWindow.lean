import SteamSalesTray.Platform.Thousands
import SteamSalesTray.Platform.Timestamps
import SteamSalesTray.Storage.Database

/-! The status line of the sales window: the last error, or how long ago the last sync was. -/

namespace SteamSalesTray.UI

open Platform Storage

def relativeUpdated (utcNow : SystemTime) (lastSyncUtc : Bytes) : Wide :=
  if lastSyncUtc.isEmpty then wide "Not yet synced"
  else
    let secs := secondsSinceUtc utcNow lastSyncUtc
    if secs < 90 then wide "Updated just now"
    else if secs < 3600 then wide "Updated " ++ wideDecimal (secs / 60) ++ wide " min ago"
    else if secs < 86400 then wide "Updated " ++ wideDecimal (secs / 3600) ++ wide "h ago"
    else wide "Updated " ++ wideDecimal (secs / 86400) ++ wide "d ago"

/-- The limits are those of the two reads. -/
def updateStatusLine (utcNow : SystemTime) (errorLimit syncLimit : Option Nat) (db : Database) :
    Wide :=
  let lastError := db.getLastError errorLimit
  if ¬lastError.isEmpty then wide "⚠ " ++ utf8ToWide lastError
  else relativeUpdated utcNow (db.getLastSuccessfulSyncUtc syncLimit)

/-- The line has the error, the age of the time that is stored, or no time where none is stored or
the read fails. -/
theorem updateStatusLine_cases (utcNow : SystemTime) (errorLimit syncLimit : Option Nat)
    (db : Database) :
    (∃ message, updateStatusLine utcNow errorLimit syncLimit db = wide "⚠ " ++ message) ∨
      (updateStatusLine utcNow errorLimit syncLimit db = wide "Not yet synced" ∧
        (db.isOpen = true → syncLimit ≠ some 0 →
          db.conn.visible.syncState.lastSuccessfulSyncUtc = none)) ∨
      ∃ text, db.conn.visible.syncState.lastSuccessfulSyncUtc = some text ∧
        updateStatusLine utcNow errorLimit syncLimit db = relativeUpdated utcNow text := by
  unfold updateStatusLine
  dsimp only
  split
  · exact .inl ⟨_, rfl⟩
  · refine .inr ?_
    rw [Database.getLastSuccessfulSyncUtc_eq]
    split
    · cases db.conn.visible.syncState.lastSuccessfulSyncUtc with
      | none => exact .inl ⟨rfl, fun _ _ => rfl⟩
      | some text => exact .inr ⟨text, rfl, rfl⟩
    · rename_i hread
      exact .inl ⟨rfl, fun hopen hlimit => absurd ⟨hopen, hlimit⟩ hread⟩

end SteamSalesTray.UI
