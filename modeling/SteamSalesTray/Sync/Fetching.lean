import SteamSalesTray.Steam.FinancialClient
import SteamSalesTray.Sync.Effects

/-! The fetch of a whole date and the pass that relies on it: what is fetched is complete unless the
chain of pages goes on beyond the cap. -/

namespace SteamSalesTray.Sync

open Interaction Storage Steam

def Op.Harmless : Op → Prop
  | .replaceDate _ _ _ | .write (.changedDatesHighwatermark _) => False
  | _ => True

def passFrom (key now : Bytes) (initial notifyEnabled : Bool) (resultHighwatermark : Bytes)
    (before : Snapshot) (date : Bytes) (rest : List Bytes) : Worker Exit := do
  match ← syncDates key now initial (date :: rest) with
  | some exit => pure exit
  | none => finishStored now initial notifyEnabled resultHighwatermark before

/-- After a fetch that comes to `answer`, a pass neither replaces a date nor advances the mark. -/
def LeavesDate (key date : Bytes) (answer : FinancialResult × List DetailedSalesRecord) : Prop :=
  ∀ now initial notifyEnabled resultHighwatermark before rest, ∃ next,
    passFrom key now initial notifyEnabled resultHighwatermark before date rest =
        .call (.getAllDetailedSalesForDate key date) next ∧
      (next answer).Every Op.Harmless

/-- A fetch that reports success got all pages of the chain, up to the one that ends it.  Where no
page within the cap ends the chain, it reports no success, and the pass leaves date and mark. -/
structure FetchComplete (server : SalesServer) (key date : Bytes) : Prop where
  success : (getAllDetailedSalesForDate server key date).result.ok = true →
    ∃ n < kMaxPagesPerDate, Chain.EndsAt server key date n ∧
      (getAllDetailedSalesForDate server key date).out = Chain.records server key date (n + 1)
  endless : (¬∃ n < kMaxPagesPerDate, Chain.EndsAt server key date n) →
    (getAllDetailedSalesForDate server key date).result.ok = false ∧
      LeavesDate key date ((getAllDetailedSalesForDate server key date).result,
        (getAllDetailedSalesForDate server key date).out)

theorem leavesDate_of_failed (key date : Bytes)
    {answer : FinancialResult × List DetailedSalesRecord} (h : answer.1.ok = false) :
    LeavesDate key date answer := by
  obtain ⟨pr, records⟩ := answer
  intro now initial notifyEnabled resultHighwatermark before rest
  refine ⟨_, rfl, ?_⟩
  show Program.Every _ ((if pr.ok = true then _ else _) >>= _)
  rw [if_neg (by simp [h])]
  -- `setStatus`, `SetLastError` and `SYNC_FAILED` are all that is left.
  exact ⟨trivial, fun _ => ⟨trivial, fun _ => ⟨trivial, fun _ => trivial⟩⟩⟩

/-- A fetch is complete unless every page up to the cap sends the chain on. -/
theorem fetchComplete_iff (server : SalesServer) (key date : Bytes) :
    FetchComplete server key date ↔
      ¬∀ k < kMaxPagesPerDate, Chain.Advances server key date k := by
  have hcases := @Chain.getAll_cases server key date
  constructor
  · intro h hall
    have hnone : ¬∃ n < kMaxPagesPerDate, Chain.EndsAt server key date n :=
      fun ⟨n, hn, hend⟩ => hend.not_advances hn hall
    have hfail := (h.endless hnone).1
    rcases hcases with ⟨n, hn, _, hok, _⟩ | ⟨n, hn, hend, _⟩ | ⟨_, heq⟩
    · rw [(hall n hn).1] at hok
      cases hok
    · exact hnone ⟨n, hn, hend⟩
    · rw [heq] at hfail
      cases hfail
  · intro hstop
    rcases hcases with ⟨n, hn, hbefore, hok, heq⟩ | ⟨n, hn, hend, heq⟩ | ⟨hall, _⟩
    · refine ⟨fun h => ?_, fun _ => ?_⟩
      · rw [heq, hok] at h
        cases h
      · rw [heq]
        exact ⟨hok, leavesDate_of_failed key date hok⟩
    · refine ⟨fun _ => ⟨n, hn, hend, by rw [heq]⟩, fun hnone => ?_⟩
      exact absurd ⟨n, hn, hend⟩ hnone
    · exact absurd hall hstop

def cyclingServer : SalesServer := fun sent =>
  (.succeeded, ⟨[], if sent.length % 2 = 1 then ascii "1" else ascii "2", true⟩)

theorem length_sent (server : SalesServer) (key date : Bytes) (n : Nat) :
    (Chain.sent server key date n).length = n := by
  induction n with
  | zero => rfl
  | succ n ih => rw [Chain.sent_succ, List.length_append, ih, List.length_singleton]

theorem cyclingServer_advances (key date : Bytes) (k : Nat) :
    Chain.Advances cyclingServer key date k := by
  have hmaxId : ∀ n, (Chain.answer cyclingServer key date n).2.maxId =
      if (n + 1) % 2 = 1 then ascii "1" else ascii "2" := fun n => by
    simp [Chain.answer, cyclingServer, length_sent]
  refine ⟨rfl, ?_⟩
  rintro (hnone | hsame)
  · cases hnone
  · rw [hmaxId] at hsame
    cases k with
    | zero =>
      change ascii "1" = ascii "0" at hsame
      exact absurd hsame (by decide)
    | succ k =>
      rw [Chain.cursor_succ, hmaxId] at hsame
      rcases Nat.mod_two_eq_zero_or_one k with hk | hk
      · rw [if_neg (by omega), if_pos (by omega)] at hsame
        exact absurd hsame (by decide)
      · rw [if_pos (by omega), if_neg (by omega)] at hsame
        exact absurd hsame (by decide)

/-- After `kMaxPagesPerDate` pages the fetch gives up and still reports success. -/
theorem endless_chain_succeeds :
    ¬∀ (server : SalesServer) (key date : Bytes), FetchComplete server key date := by
  intro h
  have hall : ∀ k, Chain.Advances cyclingServer (ascii "key") (ascii "2026/07/18") k :=
    cyclingServer_advances _ _
  have hfail := ((h cyclingServer (ascii "key") (ascii "2026/07/18")).endless
    fun ⟨n, _, hend⟩ => (hall n).2 hend.2.2).1
  have hend := Chain.fetchPages_advance (fun k (_ : k < kMaxPagesPerDate) => hall k) 0
  have heq : getAllDetailedSalesForDate cyclingServer (ascii "key") (ascii "2026/07/18") =
      ⟨.succeeded, _, _⟩ := hend
  rw [heq] at hfail
  cases hfail

end SteamSalesTray.Sync
