import SteamSalesTray.Steam.FinancialClient

/-! A date whose records have increasing ids, served in pages of any sizes: the client puts the
pages together to the records of the date, each once and in order. -/

namespace SteamSalesTray.Steam

/-- The records of one date with their ids. -/
structure NumberedRecords where
  items : List (Nat × DetailedSalesRecord)
  increasing : items.Pairwise fun a b => a.1 < b.1
  positive : ∀ item ∈ items, 0 < item.1

namespace NumberedRecords

variable (log : NumberedRecords)

def all : List DetailedSalesRecord := log.items.map Prod.snd

/-- The items that follow the id `h`. -/
def after (h : Nat) : List (Nat × DetailedSalesRecord) := log.items.filter fun item => h < item.1

/-- What a server may answer to a request with the id `h`. -/
inductive Answers (h : Nat) : FinancialResult × DetailedSalesPage → Prop where
  /-- A block of the records right after `h`, of any length, that ends with `last`. -/
  | block (init rest : List (Nat × DetailedSalesRecord)) (last : Nat × DetailedSalesRecord)
      (hafter : log.after h = init ++ last :: rest) (r : FinancialResult) (hr : r.ok = true) :
      Answers h (r, ⟨(init ++ [last]).map Prod.snd, decimal last.1, true⟩)
  | finished (hafter : log.after h = []) (r : FinancialResult) (hr : r.ok = true) :
      Answers h (r, ⟨[], decimal h, true⟩)

/-- The server answers every request for the date in one of these ways, whatever came before. -/
def Paginates (key date : Bytes) (server : SalesServer) : Prop :=
  ∀ past h, log.Answers h (server (past ++ [salesRequest key date (decimal h)]))

variable {log}

theorem after_zero : log.after 0 = log.items :=
  List.filter_eq_self.mpr fun item hitem => by simpa using log.positive item hitem

theorem after_last {init rest : List (Nat × DetailedSalesRecord)}
    {last : Nat × DetailedSalesRecord} (h : log.items = init ++ last :: rest) :
    log.after last.1 = rest := by
  have hpairs := log.increasing
  rw [h, List.pairwise_append] at hpairs
  obtain ⟨-, hlast, hinit⟩ := hpairs
  have hbefore : init.filter (fun item => last.1 < item.1) = [] := by
    rw [List.filter_eq_nil_iff]
    intro item hitem
    have := hinit item hitem last (by simp)
    simp only [decide_eq_true_eq]
    omega
  have hrest : rest.filter (fun item => last.1 < item.1) = rest :=
    List.filter_eq_self.mpr fun item hitem => by
      simpa using (List.pairwise_cons.mp hlast).1 item hitem
  rw [after, h, List.filter_append, hbefore, List.filter_cons_of_neg (by simp), hrest]
  rfl

end NumberedRecords

namespace Chain

open NumberedRecords

variable {log : NumberedRecords} {server : SalesServer} {key date : Bytes}

/-- The first `n` pages of the chain have records. -/
def Filled (server : SalesServer) (key date : Bytes) (n : Nat) : Prop :=
  ∀ k < n, (answer server key date k).2.records ≠ []

theorem answers (hserver : log.Paginates key date server) {n h : Nat}
    (hcursor : cursor server key date n = decimal h) :
    log.Answers h (answer server key date n) := by
  have := hserver (sent server key date n) h
  rwa [← hcursor, ← sent_succ] at this

/-- After `n` filled pages the records so far and those after the cursor are all records. -/
theorem filled_prefix (hserver : log.Paginates key date server) {n : Nat}
    (hn : Filled server key date n) :
    ∃ done h, log.items = done ++ log.after h ∧ cursor server key date n = decimal h ∧
      records server key date n = done.map Prod.snd ∧ n ≤ done.length ∧
      ∀ k < n, Advances server key date k := by
  induction n with
  | zero => exact ⟨[], 0, after_zero.symm, decimal_zero.symm, rfl, Nat.zero_le _, by simp⟩
  | succ n ih =>
    obtain ⟨done, h, hitems, hcursor, hrecords, hlength, hadvance⟩ := ih fun k hk => hn k (by omega)
    have hfilled := hn n (by omega)
    have hanswer := answers hserver hcursor
    rw [records_succ, cursor_succ, hrecords]
    generalize hpage : answer server key date n = page at hfilled hanswer
    cases hanswer with
    | finished hafter r hr => exact absurd rfl hfilled
    | block init rest last hafter r hr =>
      have hsplit : log.items = (done ++ init) ++ last :: rest := by
        rw [hitems, hafter, List.append_assoc]
      have hlater : h < last.1 := by
        have hmem : last ∈ log.after h := by simp [hafter]
        simpa using (List.mem_filter.mp hmem).2
      refine ⟨done ++ (init ++ [last]), last.1, ?_, rfl, by simp, ?_, fun k hk => ?_⟩
      · rw [after_last hsplit, hsplit]
        simp
      · simp only [List.length_append, List.length_singleton]
        omega
      · rcases Nat.lt_succ_iff_lt_or_eq.mp hk with hk | rfl
        · exact hadvance k hk
        · refine ⟨by rw [hpage]; exact hr, ?_⟩
          rintro (hnone | hsame)
          · rw [hpage] at hnone
            cases hnone
          · rw [hpage, hcursor] at hsame
            have := decimal_injective hsame
            omega

theorem ends_at_empty (hserver : log.Paginates key date server) {n : Nat}
    (hn : Filled server key date n) (hempty : (answer server key date n).2.records = []) :
    EndsAt server key date n ∧ records server key date (n + 1) = log.all := by
  obtain ⟨done, h, hitems, hcursor, hrecords, -, hadvance⟩ := filled_prefix hserver hn
  have hanswer := answers hserver hcursor
  rw [records_succ, hrecords]
  generalize hpage : answer server key date n = page at hempty hanswer
  cases hanswer with
  | block init rest last hafter r hr => simp at hempty
  | finished hafter r hr =>
    rw [hafter, List.append_nil] at hitems
    refine ⟨⟨hadvance, by rw [hpage]; exact hr, .inr (by rw [hpage, hcursor])⟩, ?_⟩
    rw [NumberedRecords.all, hitems]
    simp

theorem filled_le (hserver : log.Paginates key date server) {n : Nat}
    (hn : Filled server key date n) : n ≤ log.items.length := by
  obtain ⟨done, h, hitems, -, -, hlength, -⟩ := filled_prefix hserver hn
  rw [hitems, List.length_append]
  omega

theorem fetch_all (hserver : log.Paginates key date server)
    (hpages : ∀ n, Filled server key date n → n ≤ 9999) :
    (getAllDetailedSalesForDate server key date).result = .succeeded ∧
      (getAllDetailedSalesForDate server key date).out = log.all := by
  have hex : ∃ n, (answer server key date n).2.records = [] := by
    by_contra hall
    have := hpages 10000 fun k _ hempty => hall ⟨k, hempty⟩
    omega
  classical
  have hfilled : Filled server key date (Nat.find hex) := fun k hk => Nat.find_min hex hk
  obtain ⟨hends, hall⟩ := ends_at_empty hserver hfilled (Nat.find_spec hex)
  have hcap := hpages _ hfilled
  generalize Nat.find hex = n at hends hall hcap
  rcases @getAll_cases server key date with
    ⟨m, -, hm, hfailed, -⟩ | ⟨m, -, hm, hfetch⟩ | ⟨hm, -⟩
  · rcases Nat.lt_trichotomy m n with hlt | rfl | hgt
    · rw [(hends.1 m hlt).1] at hfailed
      cases hfailed
    · rw [hends.2.1] at hfailed
      cases hfailed
    · exact absurd hm (hends.not_advances hgt)
  · have hmn : m = n := by
      rcases Nat.lt_trichotomy m n with hlt | heq | hgt
      · exact absurd hends.1 (hm.not_advances hlt)
      · exact heq
      · exact absurd hm.1 (hends.not_advances hgt)
    rw [hfetch, hmn]
    exact ⟨rfl, hall⟩
  · exact absurd hm (hends.not_advances (Nat.lt_of_le_of_lt hcap (by decide)))

end Chain

open NumberedRecords Chain in
/-- Whatever the sizes of the pages, the fetch succeeds with the records of the date. -/
theorem pages_make_date {log : NumberedRecords} {key date : Bytes} {server : SalesServer}
    (hserver : log.Paginates key date server)
    (hpages : ∀ n, Filled server key date n → n ≤ 9999) :
    (getAllDetailedSalesForDate server key date).result.kind = .success ∧
      (getAllDetailedSalesForDate server key date).out = log.all ∧
      ∀ server', log.Paginates key date server' → (∀ n, Filled server' key date n → n ≤ 9999) →
        (getAllDetailedSalesForDate server' key date).result =
            (getAllDetailedSalesForDate server key date).result ∧
          (getAllDetailedSalesForDate server' key date).out =
            (getAllDetailedSalesForDate server key date).out := by
  obtain ⟨hresult, hout⟩ := fetch_all hserver hpages
  refine ⟨by rw [hresult]; rfl, hout, fun server' hserver' hpages' => ?_⟩
  obtain ⟨hresult', hout'⟩ := fetch_all hserver' hpages'
  exact ⟨hresult'.trans hresult.symm, hout'.trans hout.symm⟩

/-- A server that sends at most `size + 1` records a page. -/
def NumberedRecords.serve (log : NumberedRecords) (size : Nat) : SalesServer := fun sent =>
  let h := match sent.getLast? with
    | some request => number request.highwatermarkId
    | none => 0
  let page := (log.after h).take (size + 1)
  (.succeeded, ⟨page.map Prod.snd, decimal ((page.getLast?.map Prod.fst).getD h), true⟩)

theorem NumberedRecords.serve_paginates (log : NumberedRecords) (size : Nat) (key date : Bytes) :
    log.Paginates key date (log.serve size) := by
  intro past h
  have hid : (salesRequest key date (decimal h)).highwatermarkId = decimal h := by
    simp [salesRequest]
  simp only [serve, List.getLast?_concat, hid, number_decimal]
  rcases List.eq_nil_or_concat ((log.after h).take (size + 1)) with hnone | ⟨init, last, hpage⟩
  · rw [hnone]
    exact .finished ((List.take_eq_nil_iff.mp hnone).resolve_left (by omega)) _ rfl
  · rw [hpage, List.concat_eq_append, List.getLast?_concat]
    refine .block init ((log.after h).drop (size + 1)) last ?_ _ rfl
    conv_lhs => rw [← List.take_append_drop (size + 1) (log.after h), hpage]
    simp

/-- Three records of a date, in pages of two. -/
def threeRecords : NumberedRecords where
  items := [(1, ⟨ascii "Package", ascii "Steam", 480, ascii "git gud", 1, 1, 0⟩),
    (5, ⟨ascii "Package", ascii "Steam", 480, ascii "git gud", 2, 3, 1⟩),
    (9, ⟨ascii "Package", ascii "Steam", 481, ascii "MTX", 1, 1, 0⟩)]
  increasing := by decide
  positive := by decide

theorem pages_make_date_three :
    (getAllDetailedSalesForDate (threeRecords.serve 1) (ascii "key") (ascii "2026/07/18")).out =
      threeRecords.all :=
  (pages_make_date (threeRecords.serve_paginates 1 _ _) fun _ hn =>
    Nat.le_trans (Chain.filled_le (threeRecords.serve_paginates 1 _ _) hn) (by decide)).2.1

end SteamSalesTray.Steam
