import SteamSalesTray.Sync.MarkSound

/-! The state that a backfill builds up on a server that does not change: what a finished date
looks like, when the cursor and the mark tell the truth about it, and that a complete state is
determined by the server. -/

namespace SteamSalesTray.Sync

open Interaction Transaction Storage Steam

/-- The products that the date of the change has rows of. -/
def appsOf (c : Change) : List Int := (aggregateDate c.records).map DailyProductRow.appId

/-- No date after `date` has a row of the product. -/
def LastSold (log : ChangeLog) (date : Bytes) (app : Int) : Prop :=
  ∀ c ∈ log.changes, log.latest c.date = some c → date < c.date → app ∉ appsOf c

/-- The rows of the date are stored, and the names of its products that no later date overwrites. -/
structure DateDone (log : ChangeLog) (t : Tables) (c : Change) : Prop where
  rows : Stores t c
  names : ∀ row ∈ aggregateDate c.records, LastSold log c.date row.appId →
    t.nameOf row.appId = some (storedName row)

def DoneUpTo (log : ChangeLog) (cursor : Bytes) (t : Tables) : Prop :=
  ∀ c ∈ log.changes, log.latest c.date = some c → c.date ≤ cursor → DateDone log t c

def AllDone (log : ChangeLog) (t : Tables) : Prop :=
  ∀ c ∈ log.changes, log.latest c.date = some c → DateDone log t c

/-- The tables hold dates and products of the server alone. -/
structure Clean (log : ChangeLog) (t : Tables) : Prop where
  dates : ∀ r ∈ t.daily, ∃ c, log.latest r.financialDate = some c
  apps : ∀ app name, t.nameOf app = some name →
    ∃ c ∈ log.changes, log.latest c.date = some c ∧ app ∈ appsOf c

/-- Every date up to the cursor is done, and with the mark every date is. -/
structure BackfillSound (log : ChangeLog) (t : Tables) : Prop where
  clean : Clean log t
  cursor : ∀ cursor, t.syncState.backfillCursor = some cursor → cursor ≠ [] ∧ DoneUpTo log cursor t
  mark : t.syncState.changedDatesHighwatermark = ascii "0" ∨
    t.syncState.changedDatesHighwatermark = decimal log.greatestId ∧ AllDone log t

def SameSales (t t' : Tables) : Prop := t'.daily = t.daily ∧ t'.products = t.products

theorem SameData.sales {t t' : Tables} (h : SameData t t') : SameSales t t' := ⟨h.daily, h.products⟩

theorem DateDone.same {log : ChangeLog} {t t' : Tables} {c : Change} (h : DateDone log t c)
    (hsame : SameSales t t') : DateDone log t' c where
  rows := by
    unfold Stores Tables.dateRows
    rw [hsame.1]
    exact h.rows
  names row hrow hlast := by
    unfold Tables.nameOf
    rw [hsame.2]
    exact h.names row hrow hlast

theorem Clean.same {log : ChangeLog} {t t' : Tables} (h : Clean log t) (hsame : SameSales t t') :
    Clean log t' where
  dates r hr := h.dates r (hsame.1 ▸ hr)
  apps app name hname := by
    unfold Tables.nameOf at hname
    rw [hsame.2] at hname
    exact h.apps app name hname

theorem BackfillSound.same {log : ChangeLog} {t t' : Tables} (h : BackfillSound log t)
    (hsame : SameData t t') : BackfillSound log t' where
  clean := h.clean.same hsame.sales
  cursor cursor hcursor := by
    obtain ⟨hne, hdone⟩ := h.cursor cursor (hsame.cursor ▸ hcursor)
    exact ⟨hne, fun c hc hlatest hle => (hdone c hc hlatest hle).same hsame.sales⟩
  mark := by
    rw [hsame.mark]
    exact h.mark.imp id fun ⟨hmark, hall⟩ =>
      ⟨hmark, fun c hc hlatest => (hall c hc hlatest).same hsame.sales⟩

theorem backfillSound_fresh (log : ChangeLog) : BackfillSound log Tables.fresh where
  clean := ⟨nofun, nofun⟩
  cursor _ h := nomatch h
  mark := .inl rfl

section Replace

variable {log : ChangeLog} {t : Tables} {c₀ : Change} (hc₀ : log.latest c₀.date = some c₀)
  (nowUtc : Bytes)
include hc₀

theorem Clean.replaced (h : Clean log t) :
    Clean log (t.replaced c₀.date (aggregateDate c₀.records) nowUtc) where
  dates r hr := by
    rw [Tables.replaced_daily] at hr
    rcases List.mem_append.mp hr with hold | hnew
    · exact h.dates r (List.mem_of_mem_filter hold)
    · obtain ⟨row, _, rfl⟩ := List.mem_map.mp hnew
      exact ⟨c₀, hc₀⟩
  apps app name hname := by
    by_cases happ : app ∈ appsOf c₀
    · exact ⟨c₀, (ChangeLog.mem_of_latest hc₀).1, hc₀, happ⟩
    · rw [Tables.nameOf_replaced_of_notMem happ] at hname
      exact h.apps app name hname

theorem dateDone_replaced {c : Change} (hc : log.latest c.date = some c) (hle : c.date ≤ c₀.date)
    (hdone : c.date ≠ c₀.date → DateDone log t c) :
    DateDone log (t.replaced c₀.date (aggregateDate c₀.records) nowUtc) c := by
  have hsame : c.date = c₀.date → c = c₀ := by
    intro hdate
    rw [hdate, hc₀] at hc
    exact (Option.some.inj hc).symm
  refine ⟨stores_replaced (fun hdate => by rw [hsame hdate]) fun hdate => (hdone hdate).rows, ?_⟩
  intro row hrow hlast
  by_cases hdate : c.date = c₀.date
  · obtain rfl := hsame hdate
    exact Tables.nameOf_replaced_of_mem (nodup_aggregateDate c.records) hrow
  · have hlt : c.date < c₀.date := lt_of_le_of_ne hle hdate
    have happ := hlast c₀ (ChangeLog.mem_of_latest hc₀).1 hc₀ hlt
    rw [Tables.nameOf_replaced_of_notMem happ]
    exact (hdone hdate).names row hrow hlast

/-- Storing a date that the cursor does not go beyond, before the mark is stored. -/
theorem BackfillSound.replaced (h : BackfillSound log t)
    (hmark : t.syncState.changedDatesHighwatermark = ascii "0")
    (hcursor : ∀ cursor, t.syncState.backfillCursor = some cursor → cursor ≤ c₀.date) :
    BackfillSound log (t.replaced c₀.date (aggregateDate c₀.records) nowUtc) where
  clean := h.clean.replaced hc₀ nowUtc
  cursor cursor hcur := by
    rw [Tables.replaced_syncState] at hcur
    obtain ⟨hne, hdone⟩ := h.cursor cursor hcur
    refine ⟨hne, fun c hc hlatest hle => ?_⟩
    exact dateDone_replaced hc₀ nowUtc hlatest (le_trans hle (hcursor cursor hcur))
      fun _ => hdone c hc hlatest hle
  mark := .inl (by rw [Tables.replaced_syncState, hmark])

end Replace

/-! ### Inside a pass -/

/-- A pass that has the dates `todo` before it, in order: all others are done and come before. -/
structure PrefixDone (log : ChangeLog) (todo : List Bytes) (t : Tables) : Prop where
  unmarked : t.syncState.changedDatesHighwatermark = ascii "0"
  sorted : todo.Pairwise (· ≤ ·)
  listed : ∀ d ∈ todo, ∃ c, log.latest d = some c
  done : ∀ c ∈ log.changes, log.latest c.date = some c →
    c.date ∈ todo ∨ DateDone log t c ∧ ∀ d ∈ todo, c.date ≤ d
  cursor : ∀ cursor, t.syncState.backfillCursor = some cursor → ∀ d ∈ todo, cursor ≤ d

/-- The pass has stored `date` and not yet written the cursor. -/
structure Saved (log : ChangeLog) (date : Bytes) (rest : List Bytes) (t : Tables) : Prop where
  before : PrefixDone log rest t
  done : ∀ c, log.latest c.date = some c → c.date = date → DateDone log t c
  ahead : ∀ d ∈ rest, date ≤ d
  behind : ∀ cursor, t.syncState.backfillCursor = some cursor → cursor ≤ date

theorem PrefixDone.same {log : ChangeLog} {todo : List Bytes} {t t' : Tables}
    (h : PrefixDone log todo t) (hsame : SameData t t') : PrefixDone log todo t' where
  unmarked := hsame.mark.trans h.unmarked
  sorted := h.sorted
  listed := h.listed
  done c hc hlatest :=
    (h.done c hc hlatest).imp id fun ⟨hdone, hle⟩ => ⟨hdone.same hsame.sales, hle⟩
  cursor cursor hcursor := h.cursor cursor (hsame.cursor ▸ hcursor)

theorem PrefixDone.allDone {log : ChangeLog} {t : Tables} (h : PrefixDone log [] t) :
    AllDone log t := by
  intro c hc hlatest
  rcases h.done c hc hlatest with hmem | ⟨hdone, _⟩
  · cases hmem
  · exact hdone

theorem prefixDone_datesToProcess {log : ChangeLog} {t : Tables} {dates : List Bytes}
    (h : BackfillSound log t) (hmark : t.syncState.changedDatesHighwatermark = ascii "0")
    (hdates : ∀ d, d ∈ dates ↔ ∃ c, log.latest d = some c) :
    PrefixDone log (datesToProcess true (t.syncState.backfillCursor.getD []) dates) t where
  unmarked := hmark
  sorted := (List.pairwise_insertionSort (· ≤ ·) dates).filter _
  listed d hd := (hdates d).mp ((List.mem_insertionSort _).mp (List.mem_of_mem_filter hd))
  done c hc hlatest := by
    by_cases hskip : (t.syncState.backfillCursor.getD []).isEmpty = false ∧
        c.date ≤ t.syncState.backfillCursor.getD []
    · right
      obtain ⟨hne, hle⟩ := hskip
      cases hcur : t.syncState.backfillCursor with
      | none => simp [hcur] at hne
      | some cursor =>
        rw [hcur] at hle
        refine ⟨(h.cursor cursor hcur).2 c hc hlatest hle, fun d hd => ?_⟩
        have hkept := of_decide_eq_true (List.mem_filter.mp hd).2
        simp only [Option.getD_some, true_and, not_and, not_le] at hkept
        exact le_trans hle (le_of_lt (hkept (by simpa using (h.cursor cursor hcur).1)))
    · left
      refine List.mem_filter.mpr ⟨(List.mem_insertionSort _).mpr ((hdates c.date).mpr ⟨c, hlatest⟩),
        decide_eq_true fun h => hskip ⟨h.2.1, h.2.2⟩⟩
  cursor cursor hcur d hd := by
    have hkept := of_decide_eq_true (List.mem_filter.mp hd).2
    simp only [hcur, Option.getD_some, true_and, not_and, not_le] at hkept
    exact le_of_lt (hkept (by simpa using (h.cursor cursor hcur).1))

theorem PrefixDone.replaced {log : ChangeLog} {t : Tables} {c₀ : Change} {rest : List Bytes}
    (h : PrefixDone log (c₀.date :: rest) t) (hc₀ : log.latest c₀.date = some c₀)
    (nowUtc : Bytes) :
    Saved log c₀.date rest (t.replaced c₀.date (aggregateDate c₀.records) nowUtc) := by
  have hself : ∀ c, log.latest c.date = some c → c.date = c₀.date →
      DateDone log (t.replaced c₀.date (aggregateDate c₀.records) nowUtc) c := fun c hc hdate =>
    dateDone_replaced hc₀ nowUtc hc (le_of_eq hdate) fun hne => absurd hdate hne
  obtain ⟨hahead, hsorted⟩ := List.pairwise_cons.mp h.sorted
  refine ⟨⟨?_, hsorted, fun d hd => h.listed d (by simp [hd]), fun c hc hlatest => ?_, ?_⟩, hself,
    hahead, ?_⟩
  · rw [Tables.replaced_syncState, h.unmarked]
  · rcases h.done c hc hlatest with htodo | ⟨hdone, hle⟩
    · rcases List.mem_cons.mp htodo with hdate | hrest
      · exact .inr ⟨hself c hlatest hdate, fun d hd => hdate ▸ hahead d hd⟩
      · exact .inl hrest
    · exact .inr ⟨dateDone_replaced hc₀ nowUtc hlatest (hle c₀.date (by simp)) fun _ => hdone,
        fun d hd => hle d (by simp [hd])⟩
  · intro cursor hcursor d hd
    rw [Tables.replaced_syncState] at hcursor
    exact h.cursor cursor hcursor d (by simp [hd])
  · intro cursor hcursor
    rw [Tables.replaced_syncState] at hcursor
    exact h.cursor cursor hcursor c₀.date (by simp)

section Saved

variable {log : ChangeLog} {date : Bytes} {rest : List Bytes} {t : Tables}
  (h : Saved log date rest t)
include h

theorem Saved.upTo : DoneUpTo log date t := by
  intro c hc hlatest hle
  rcases h.before.done c hc hlatest with hrest | ⟨hdone, _⟩
  · exact h.done c hlatest (le_antisymm hle (h.ahead c.date hrest))
  · exact hdone

theorem Saved.written_prefix : PrefixDone log rest (t.written (.backfillCursor date)) where
  unmarked := h.before.unmarked
  sorted := h.before.sorted
  listed := h.before.listed
  done c hc hlatest := (h.before.done c hc hlatest).imp id
    fun ⟨hdone, hle⟩ => ⟨hdone.same ⟨rfl, rfl⟩, hle⟩
  cursor cursor hcursor d hd := by
    have hdate : cursor = date := by
      simp only [Tables.written, SyncState.written] at hcursor
      split at hcursor
      · cases hcursor
      · exact (Option.some.inj hcursor).symm
    exact hdate ▸ h.ahead d hd

theorem Saved.written_sound (ht : BackfillSound log t) :
    BackfillSound log (t.written (.backfillCursor date)) where
  clean := ht.clean.same ⟨rfl, rfl⟩
  cursor cursor hcursor := by
    simp only [Tables.written, SyncState.written] at hcursor
    split at hcursor
    · cases hcursor
    · rename_i hne
      obtain rfl := Option.some.inj hcursor
      refine ⟨by simpa using hne, fun c hc hlatest hle => ?_⟩
      exact (h.upTo c hc hlatest hle).same ⟨rfl, rfl⟩
  mark := .inl h.before.unmarked

end Saved

theorem PrefixDone.written_mark {log : ChangeLog} {t : Tables} (h : PrefixDone log [] t)
    (ht : BackfillSound log t) :
    BackfillSound log (t.written (.changedDatesHighwatermark (decimal log.greatestId))) where
  clean := ht.clean.same ⟨rfl, rfl⟩
  cursor cursor hcursor := by
    obtain ⟨hne, hdone⟩ := ht.cursor cursor hcursor
    exact ⟨hne, fun c hc hlatest hle => (hdone c hc hlatest hle).same ⟨rfl, rfl⟩⟩
  mark := .inr ⟨rfl, fun c hc hlatest => (h.allDone c hc hlatest).same ⟨rfl, rfl⟩⟩

/-! ### The end -/

/-- Among the dates with rows of a product there is a last one. -/
theorem exists_lastSold {log : ChangeLog} {app : Int}
    (h : ∃ c ∈ log.changes, log.latest c.date = some c ∧ app ∈ appsOf c) :
    ∃ c ∈ log.changes, log.latest c.date = some c ∧ app ∈ appsOf c ∧
      LastSold log c.date app := by
  obtain ⟨c₁, hc₁, hlatest₁, happ₁⟩ := h
  obtain ⟨c, hc, hmax⟩ := Finset.exists_max_image
    (log.changes.toFinset.filter fun c => log.latest c.date = some c ∧ app ∈ appsOf c) Change.date
    ⟨c₁, by simp [hc₁, hlatest₁, happ₁]⟩
  simp only [Finset.mem_filter, List.mem_toFinset] at hc hmax
  refine ⟨c, hc.1, hc.2.1, hc.2.2, fun c' hc' hlatest' hlt happ' => ?_⟩
  exact absurd (hmax c' ⟨hc', hlatest', happ'⟩) (not_le_of_gt hlt)

/-- The server determines the rows and the names of a complete state. -/
theorem complete_unique {log : ChangeLog} {t t' : Tables} (hclean : Clean log t)
    (hall : AllDone log t) (hclean' : Clean log t') (hall' : AllDone log t') :
    (∀ date, t.dateRows date = t'.dateRows date) ∧ ∀ app, t.nameOf app = t'.nameOf app := by
  constructor
  · intro date
    cases hlatest : log.latest date with
    | some c =>
      obtain ⟨hc, rfl⟩ := ChangeLog.mem_of_latest hlatest
      exact (hall c hc hlatest).rows.trans (hall' c hc hlatest).rows.symm
    | none =>
      have hempty : ∀ u, Clean log u → u.dateRows date = [] := by
        intro u hu
        refine List.filter_eq_nil_iff.mpr fun r hr hdate => ?_
        obtain ⟨c, hc⟩ := hu.dates r hr
        rw [of_decide_eq_true hdate, hlatest] at hc
        cases hc
      rw [hempty t hclean, hempty t' hclean']
  · intro app
    by_cases hsold : ∃ c ∈ log.changes, log.latest c.date = some c ∧ app ∈ appsOf c
    · obtain ⟨c, hc, hlatest, happ, hlast⟩ := exists_lastSold hsold
      obtain ⟨row, hrow, rfl⟩ := List.mem_map.mp happ
      exact ((hall c hc hlatest).names row hrow hlast).trans
        ((hall' c hc hlatest).names row hrow hlast).symm
    · have hnone : ∀ u, Clean log u → u.nameOf app = none := by
        intro u hu
        cases hname : u.nameOf app with
        | none => rfl
        | some name => exact absurd (hu.apps app name hname) hsold
      rw [hnone t hclean, hnone t' hclean']

end SteamSalesTray.Sync
