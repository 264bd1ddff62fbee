import SteamSalesTray.Sync.Effects

/-! The stored high-water mark and the stored rows: whatever the mark covers is stored with the
content that the server has now.

The server is honest, reads return all their rows, and everything else is up to the environment:
requests and SQL steps fail, the server changes between any two calls, the process is killed. -/

namespace SteamSalesTray.Sync

open Interaction Transaction Storage Steam

/-- The date of a change is stored with exactly the rows that its records aggregate to. -/
def Stores (t : Tables) (c : Change) : Prop :=
  t.dateRows c.date = (aggregateDate c.records).map (·.toDaily c.date)

instance (t : Tables) (c : Change) : Decidable (Stores t c) := inferInstanceAs (Decidable (_ = _))

/-- The mark is `m`, an id that the server has reached, and if it is not 0, every date whose latest
change has an id of at most `m` is stored with its current content. -/
structure MarkSound (log : ChangeLog) (m : Nat) (t : Tables) : Prop where
  mark : t.syncState.changedDatesHighwatermark = decimal m
  reached : m ≤ log.greatestId
  current : m ≠ 0 → ∀ c ∈ log.changes, log.latest c.date = some c → c.id ≤ m → Stores t c

instance (log : ChangeLog) (m : Nat) (t : Tables) : Decidable (MarkSound log m t) :=
  decidable_of_iff (_ ∧ _ ∧ _) ⟨fun h => ⟨h.1, h.2.1, h.2.2⟩, fun h => ⟨h.1, h.2, h.3⟩⟩

/-- `MarkSound` for a mark that need not be an id that the server has reached. -/
structure MarkCovers (log : ChangeLog) (m : Nat) (t : Tables) : Prop where
  mark : t.syncState.changedDatesHighwatermark = decimal m
  current : m ≠ 0 → ∀ c ∈ log.changes, log.latest c.date = some c → c.id ≤ m → Stores t c

instance (log : ChangeLog) (m : Nat) (t : Tables) : Decidable (MarkCovers log m t) :=
  decidable_of_iff (_ ∧ _) ⟨fun h => ⟨h.1, h.2⟩, fun h => ⟨h.1, h.2⟩⟩

/-! ### What may happen in a run -/

/-- A change list is complete, and so are the records of a date that are fetched. -/
def Honest (reply : Reply) (w : World) : Op → Prop
  | .getChangedDates _ highwatermark =>
    reply.changed.1.ok = true → w.server.Lists highwatermark reply.changed.2
  | .getAllDetailedSalesForDate _ date =>
    reply.sales.1.ok = true → reply.sales.2 = w.server.content date
  | _ => True

instance (reply : Reply) (w : World) (op : Op) : Decidable (Honest reply w op) :=
  match op with
  | .getChangedDates _ _ => inferInstanceAs (Decidable (_ → ChangeLog.Lists _ _ _))
  | .getAllDetailedSalesForDate _ _ => inferInstanceAs (Decidable (_ → _ = _))
  | .post _ | .updateStatus _ | .isOpen | .openDatabase | .takeClearRequest | .clearAllSales
  | .hasStoredKey | .loadKey | .getChangedDatesHighwatermark | .getNotifyOnNewUnits
  | .utcNowIso8601 | .write _ | .getBackfillCursor | .queryLifetime | .iterate _
  | .replaceDate _ _ _ | .steamToday | .sumForDate _ => .isTrue trivial

def serverRules : Rules Op World Reply Move where
  start _ := True
  call op reply w := reply.readLimit = none ∧ Honest reply w op
  act _ _ := True
  kill _ := True

/-- When an initial pass gets the change list, no date that the backfill cursor covers has changed
since it was stored. -/
def CoveredIsCurrent (reply : Reply) (w : World) : Op → Prop
  | .getChangedDates _ highwatermark =>
    reply.changed.1.ok = true → highwatermark = ascii "0" →
      ∀ cursor ∈ w.db.conn.visible.syncState.backfillCursor,
        ∀ c ∈ w.server.changes, w.server.latest c.date = some c → c.date ≤ cursor →
          Stores w.db.conn.visible c
  | _ => True

instance (reply : Reply) (w : World) (op : Op) : Decidable (CoveredIsCurrent reply w op) :=
  match op with
  | .getChangedDates _ _ => inferInstanceAs (Decidable (_ → _ → ∀ _ ∈ _, ∀ _ ∈ _, _ → _ → _))
  | .post _ | .updateStatus _ | .isOpen | .openDatabase | .takeClearRequest | .clearAllSales
  | .hasStoredKey | .loadKey | .getChangedDatesHighwatermark | .getNotifyOnNewUnits
  | .utcNowIso8601 | .write _ | .getBackfillCursor | .queryLifetime | .iterate _
  | .getAllDetailedSalesForDate _ _ | .replaceDate _ _ _ | .steamToday | .sumForDate _ =>
    .isTrue trivial

def resumeRules : Rules Op World Reply Move :=
  { serverRules with
    call := fun op reply w => serverRules.call op reply w ∧ CoveredIsCurrent reply w op }

def noClearRules : Rules Op World Reply Move :=
  { serverRules with act := fun move _ => move ≠ .requestClearCache }

instance : DecidablePred serverRules.start := fun _ => .isTrue trivial

instance (op : Op) (reply : Reply) (w : World) : Decidable (serverRules.call op reply w) :=
  inferInstanceAs (Decidable (_ ∧ _))

instance (move : Move) (w : World) : Decidable (serverRules.act move w) := .isTrue trivial

instance : DecidablePred serverRules.kill := fun _ => .isTrue trivial

instance : DecidablePred resumeRules.start := fun _ => .isTrue trivial

instance (op : Op) (reply : Reply) (w : World) : Decidable (resumeRules.call op reply w) :=
  inferInstanceAs (Decidable (serverRules.call op reply w ∧ _))

instance (move : Move) (w : World) : Decidable (resumeRules.act move w) := .isTrue trivial

instance : DecidablePred resumeRules.kill := fun _ => .isTrue trivial

instance : DecidablePred noClearRules.start := fun _ => .isTrue trivial

instance (op : Op) (reply : Reply) (w : World) : Decidable (noClearRules.call op reply w) :=
  inferInstanceAs (Decidable (serverRules.call op reply w))

instance (move : Move) (w : World) : Decidable (noClearRules.act move w) :=
  inferInstanceAs (Decidable (move ≠ .requestClearCache))

instance : DecidablePred noClearRules.kill := fun _ => .isTrue trivial

/-! ### Views of the tables -/

/-- A property of the server and the tables that later changes of the server and routine updates of
`sync_state` leave true. -/
structure View where
  holds : ChangeLog → Tables → Prop
  push : ∀ {log t gap date records}, holds log t → holds (log.push gap date records) t
  same : ∀ {log t t'}, SameData t t' → holds log t → holds log t'

theorem SameData.stores {t t' : Tables} (h : SameData t t') {c : Change} (hc : Stores t c) :
    Stores t' c := by
  unfold Stores Tables.dateRows at *
  rw [h.daily]
  exact hc

theorem MarkSound.push {log : ChangeLog} {m : Nat} {t : Tables} (h : MarkSound log m t) (gap : Nat)
    (date : Bytes) (records : List DetailedSalesRecord) :
    MarkSound (log.push gap date records) m t where
  mark := h.mark
  reached := by
    have := h.reached
    rw [ChangeLog.greatestId_push]
    omega
  current hm c _ hlatest hid := by
    rcases ChangeLog.latest_push hlatest with hnew | hold
    · have := h.reached
      omega
    · exact h.current hm c (ChangeLog.mem_of_latest hold).1 hold hid

theorem MarkSound.same {log : ChangeLog} {m : Nat} {t t' : Tables} (h : MarkSound log m t)
    (hsame : SameData t t') : MarkSound log m t' where
  mark := hsame.mark.trans h.mark
  reached := h.reached
  current hm c hc hlatest hid := hsame.stores (h.current hm c hc hlatest hid)

theorem markSound_zero {log : ChangeLog} {t : Tables}
    (h : t.syncState.changedDatesHighwatermark = ascii "0") : MarkSound log 0 t :=
  ⟨h.trans decimal_zero.symm, Nat.zero_le _, fun h => absurd rfl h⟩

theorem stores_replaced {t : Tables} {c : Change} {date nowUtc : Bytes}
    {records : List DetailedSalesRecord} (hself : c.date = date → c.records = records)
    (hother : c.date ≠ date → Stores t c) :
    Stores (t.replaced date (aggregateDate records) nowUtc) c := by
  unfold Stores
  by_cases hdate : c.date = date
  · rw [hdate, Tables.dateRows_replaced_self, hself hdate]
  · rw [Tables.dateRows_replaced_ne hdate]
    exact hother hdate

namespace View

def anything : View := ⟨fun _ _ => True, fun _ => trivial, fun _ _ => trivial⟩

def fact (p : Prop) : View := ⟨fun _ _ => p, fun h => h, fun _ h => h⟩

def and (v v' : View) : View where
  holds log t := v.holds log t ∧ v'.holds log t
  push h := ⟨v.push h.1, v'.push h.2⟩
  same hsame h := ⟨v.same hsame h.1, v'.same hsame h.2⟩

def given (p : Prop) (v : View) : View where
  holds log t := p → v.holds log t
  push h hp := v.push (h hp)
  same hsame h hp := v.same hsame (h hp)

def sound (positive : Bool) : View where
  holds log t := ∃ m, (positive = true → m ≠ 0) ∧ MarkSound log m t
  push := fun ⟨m, hm, h⟩ => ⟨m, hm, h.push _ _ _⟩
  same := fun hsame ⟨m, hm, h⟩ => ⟨m, hm, h.same hsame⟩

def markIs (highwatermark : Bytes) : View where
  holds _ t := t.syncState.changedDatesHighwatermark = highwatermark
  push h := h
  same hsame h := hsame.mark.trans h

/-- Every date whose latest change has an id of at most `top` is to be done or stored. -/
def pending (top : Nat) (todo : List Bytes) : View where
  holds log t := top ≤ log.greatestId ∧
    ∀ c ∈ log.changes, log.latest c.date = some c → c.id ≤ top → c.date ∈ todo ∨ Stores t c
  push := by
    rintro log t gap date records ⟨htop, h⟩
    refine ⟨?_, fun c _ hlatest hid => ?_⟩
    · rw [ChangeLog.greatestId_push]
      omega
    · rcases ChangeLog.latest_push hlatest with hnew | hold
      · omega
      · exact h c (ChangeLog.mem_of_latest hold).1 hold hid
  same := fun hsame ⟨htop, h⟩ => ⟨htop, fun c hc hlatest hid =>
    (h c hc hlatest hid).imp id hsame.stores⟩

/-- Every date up to the cursor whose latest change has an id of at most `top` is stored. -/
def covered (top : Nat) : View where
  holds log t := top ≤ log.greatestId ∧ ∀ cursor, t.syncState.backfillCursor = some cursor →
    ∀ c ∈ log.changes, log.latest c.date = some c → c.id ≤ top → c.date ≤ cursor → Stores t c
  push := by
    rintro log t gap date records ⟨htop, h⟩
    refine ⟨?_, fun cursor hcursor c _ hlatest hid => ?_⟩
    · rw [ChangeLog.greatestId_push]
      omega
    · rcases ChangeLog.latest_push hlatest with hnew | hold
      · omega
      · exact h cursor hcursor c (ChangeLog.mem_of_latest hold).1 hold hid
  same := fun hsame ⟨htop, h⟩ => ⟨htop, fun cursor hcursor c hc hlatest hid hle =>
    hsame.stores (h cursor (hsame.cursor ▸ hcursor) c hc hlatest hid hle)⟩

/-- The records are those of the date's latest change, unless that has an id above the mark and
above `top`. -/
def fetched (top : Nat) (date : Bytes) (records : List DetailedSalesRecord) : View where
  holds log t := ∃ n, top ≤ n ∧ n ≤ log.greatestId ∧
    (∀ m, t.syncState.changedDatesHighwatermark = decimal m → m ≤ n) ∧
      ∀ c ∈ log.changes, log.latest c.date = some c → c.id ≤ n → c.date = date →
        c.records = records
  push := by
    rintro log t gap date' records' ⟨n, htop, hn, hmark, h⟩
    refine ⟨n, htop, ?_, hmark, fun c _ hlatest hid => ?_⟩
    · rw [ChangeLog.greatestId_push]
      omega
    · rcases ChangeLog.latest_push hlatest with hnew | hold
      · omega
      · exact h c (ChangeLog.mem_of_latest hold).1 hold hid
  same := fun hsame ⟨n, htop, hn, hmark, h⟩ =>
    ⟨n, htop, hn, fun m hm => hmark m (hsame.mark ▸ hm), h⟩

end View

end SteamSalesTray.Sync
