import SteamSalesTray.Steam.Models

/-! `GetAllDetailedSalesForDate`: the pages of one date, fetched along a chain of cursors.

A server answers a request as a function of all requests that it has received, the last one being
the one that it answers. -/

namespace SteamSalesTray.Steam

structure SalesRequest where
  key : Bytes
  date : Bytes
  highwatermarkId : Bytes
deriving DecidableEq, Repr

/-- The request of `GetDetailedSales`, which asks for "0" in place of an empty id. -/
def salesRequest (key date highwatermarkId : Bytes) : SalesRequest :=
  ⟨key, date, if highwatermarkId.isEmpty then ascii "0" else highwatermarkId⟩

abbrev SalesServer := List SalesRequest → FinancialResult × DetailedSalesPage

/-- What a fetch of all pages comes to, and the requests that it sent. -/
structure Fetch where
  result : FinancialResult
  out : List DetailedSalesRecord
  sent : List SalesRequest
deriving DecidableEq

def kMaxPagesPerDate : Nat := 10000

variable (server : SalesServer) (key date : Bytes)

/-- The page loop, with the number of pages that it may still fetch. -/
def fetchPages : Nat → List SalesRequest → Bytes → List DetailedSalesRecord → Fetch
  -- The cap ends the loop, and the function returns `Success` as after a last page.
  | 0, sent, _, out => ⟨.succeeded, out, sent⟩
  | pages + 1, sent, requested, out =>
    let sent := sent ++ [salesRequest key date requested]
    let r := (server sent).1
    let pageResult := (server sent).2
    if ¬r.ok then ⟨r, out, sent⟩
    else
      let out := out ++ pageResult.records
      if ¬pageResult.hasMaxId ∨ pageResult.maxId = requested then ⟨.succeeded, out, sent⟩
      else fetchPages pages sent pageResult.maxId out

def getAllDetailedSalesForDate : Fetch :=
  fetchPages server key date kMaxPagesPerDate [] (ascii "0") []

namespace Chain

/-- The first `n` requests of the chain of cursors that starts at "0", and the cursor after them. -/
def upTo : Nat → List SalesRequest × Bytes
  | 0 => ([], ascii "0")
  | n + 1 =>
    let sent := (upTo n).1 ++ [salesRequest key date (upTo n).2]
    (sent, (server sent).2.maxId)

def sent (n : Nat) : List SalesRequest := (upTo server key date n).1

def cursor (n : Nat) : Bytes := (upTo server key date n).2

def answer (n : Nat) : FinancialResult × DetailedSalesPage := server (sent server key date (n + 1))

def records (n : Nat) : List DetailedSalesRecord :=
  (List.range n).flatMap fun k => (answer server key date k).2.records

/-- Page `n` carries no `max_id`, or the id that was requested. -/
def Settles (n : Nat) : Prop :=
  (answer server key date n).2.hasMaxId = false ∨
    (answer server key date n).2.maxId = cursor server key date n

/-- Page `n` is fetched and sends the chain on to another cursor. -/
def Advances (n : Nat) : Prop :=
  (answer server key date n).1.ok = true ∧ ¬Settles server key date n

/-- The chain reaches page `n`, which ends it. -/
def EndsAt (n : Nat) : Prop :=
  (∀ k < n, Advances server key date k) ∧ (answer server key date n).1.ok = true ∧
    Settles server key date n

variable {server key date}

theorem sent_succ (n : Nat) :
    sent server key date (n + 1) =
      sent server key date n ++ [salesRequest key date (cursor server key date n)] := rfl

theorem cursor_succ (n : Nat) :
    cursor server key date (n + 1) = (answer server key date n).2.maxId := rfl

theorem records_succ (n : Nat) :
    records server key date (n + 1) =
      records server key date n ++ (answer server key date n).2.records := by
  simp [records, List.range_succ]

instance (n : Nat) : Decidable (Settles server key date n) := inferInstanceAs (Decidable (_ ∨ _))

theorem fetchPages_succ (pages n : Nat) :
    fetchPages server key date (pages + 1) (sent server key date n) (cursor server key date n)
        (records server key date n) =
      if (answer server key date n).1.ok = false then
        ⟨(answer server key date n).1, records server key date n, sent server key date (n + 1)⟩
      else if Settles server key date n then
        ⟨.succeeded, records server key date (n + 1), sent server key date (n + 1)⟩
      else fetchPages server key date pages (sent server key date (n + 1))
        (cursor server key date (n + 1)) (records server key date (n + 1)) := by
  rw [records_succ, cursor_succ, sent_succ]
  have hans : answer server key date n =
    server (sent server key date n ++ [salesRequest key date (cursor server key date n)]) := rfl
  simp only [Settles, hans]
  conv_lhs => rw [fetchPages]
  generalize server _ = reply
  by_cases hok : reply.1.ok = true
  · by_cases hend : reply.2.hasMaxId = false ∨ reply.2.maxId = cursor server key date n
    · simp [hok, hend]
    · simp [hok, hend]
  · simp [hok]

theorem fetchPages_advance {n : Nat} (h : ∀ k < n, Advances server key date k) (pages : Nat) :
    fetchPages server key date (n + pages) [] (ascii "0") [] =
      fetchPages server key date pages (sent server key date n) (cursor server key date n)
        (records server key date n) := by
  induction n generalizing pages with
  | zero =>
    rw [Nat.zero_add]
    rfl
  | succ n ih =>
    obtain ⟨hok, hgo⟩ := h n (by omega)
    rw [show n + 1 + pages = n + (pages + 1) by omega, ih (fun k hk => h k (by omega)),
      fetchPages_succ, if_neg (by simp [hok]), if_neg hgo]

/-- The three exits of the loop: the first page that does not advance is an error or the end of the
chain, or there is none among the pages that may be fetched. -/
theorem getAll_cases :
    (∃ n < kMaxPagesPerDate, (∀ k < n, Advances server key date k) ∧
      (answer server key date n).1.ok = false ∧
      getAllDetailedSalesForDate server key date =
        ⟨(answer server key date n).1, records server key date n, sent server key date (n + 1)⟩) ∨
    (∃ n < kMaxPagesPerDate, EndsAt server key date n ∧
      getAllDetailedSalesForDate server key date =
        ⟨.succeeded, records server key date (n + 1), sent server key date (n + 1)⟩) ∨
    ((∀ k < kMaxPagesPerDate, Advances server key date k) ∧
      getAllDetailedSalesForDate server key date =
        ⟨.succeeded, records server key date kMaxPagesPerDate,
          sent server key date kMaxPagesPerDate⟩) := by
  unfold getAllDetailedSalesForDate
  generalize kMaxPagesPerDate = cap
  by_cases hall : ∀ k < cap, Advances server key date k
  · exact .inr (.inr ⟨hall, fetchPages_advance hall 0⟩)
  · classical
    have hex : ∃ n, n < cap ∧ ¬Advances server key date n := by
      simpa only [not_forall, exists_prop] using hall
    obtain ⟨hcap, hstop⟩ := Nat.find_spec hex
    have hbefore : ∀ k < Nat.find hex, Advances server key date k := by
      intro k hk
      by_contra hnot
      exact Nat.find_min hex hk ⟨by omega, hnot⟩
    generalize Nat.find hex = n at hcap hstop hbefore
    have hrun := fetchPages_advance hbefore (cap - n - 1 + 1)
    rw [show n + (cap - n - 1 + 1) = cap by omega, fetchPages_succ] at hrun
    cases hok : (answer server key date n).1.ok with
    | false =>
      rw [if_pos hok] at hrun
      exact .inl ⟨n, hcap, hbefore, hok, hrun⟩
    | true =>
      have hend : Settles server key date n := by
        by_contra hgo
        exact hstop ⟨hok, hgo⟩
      rw [if_neg (by simp [hok]), if_pos hend] at hrun
      exact .inr (.inl ⟨n, hcap, ⟨hbefore, hok, hend⟩, hrun⟩)

theorem EndsAt.not_advances {n m : Nat} (h : EndsAt server key date n) (hnm : n < m) :
    ¬∀ k < m, Advances server key date k :=
  fun hall => (hall n hnm).2 h.2.2

end Chain

end SteamSalesTray.Steam
