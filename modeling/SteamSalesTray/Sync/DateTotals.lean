import SteamSalesTray.Lib.Grouping
import SteamSalesTray.Steam.IntegerForms
import SteamSalesTray.Sync.Aggregator

/-! What `AggregateDate` computes: the counted records grouped by product. -/

namespace SteamSalesTray.Sync

open Grouping Steam Storage

/-- A package sold on Steam, of a product that has an id. -/
def Counted (record : DetailedSalesRecord) : Prop :=
  record.lineItemType = ascii "Package" ∧ record.packageSaleType = ascii "Steam" ∧
    record.primaryAppId ≠ 0

instance : DecidablePred Counted := fun _ => inferInstanceAs (Decidable (_ ∧ _ ∧ _))

/-- The row of a product: the sums over its records, and the last of their names that is not
empty. -/
def productRow (app : Int) (records : List DetailedSalesRecord) : DailyProductRow where
  appId := app
  displayName := lastNonEmpty (records.map DetailedSalesRecord.primaryAppName)
  netUnitsSold := (records.map DetailedSalesRecord.netUnitsSold).sum
  grossUnitsSold := (records.map DetailedSalesRecord.grossUnitsSold).sum
  grossUnitsReturned := (records.map DetailedSalesRecord.grossUnitsReturned).sum

/-- One row for each product of a counted record, in the order of the first such records. -/
def dateTotals (records : List DetailedSalesRecord) : List DailyProductRow :=
  groupMap DetailedSalesRecord.primaryAppId productRow (records.filter Counted)

/-- The row of a product with its units of a later part added. -/
def mergeRow (row later : DailyProductRow) : DailyProductRow where
  appId := row.appId
  displayName := if later.displayName = [] then row.displayName else later.displayName
  netUnitsSold := row.netUnitsSold + later.netUnitsSold
  grossUnitsSold := row.grossUnitsSold + later.grossUnitsSold
  grossUnitsReturned := row.grossUnitsReturned + later.grossUnitsReturned

def mergeRows (rows later : List DailyProductRow) : List DailyProductRow :=
  mergeBy DailyProductRow.appId mergeRow rows later

theorem productRow_append (app : Int) (records later : List DetailedSalesRecord) :
    productRow app (records ++ later) =
      mergeRow (productRow app records) (productRow app later) := by
  simp only [productRow, mergeRow, List.map_append, List.sum_append, lastNonEmpty_append]
  congr

theorem productRow_singleton (app : Int) (record : DetailedSalesRecord) :
    productRow app [record] = ⟨app, record.primaryAppName, record.netUnitsSold,
      record.grossUnitsSold, record.grossUnitsReturned⟩ := by
  simp [productRow, lastNonEmpty_singleton]

theorem dateTotals_append (records later : List DetailedSalesRecord) :
    dateTotals (records ++ later) = mergeRows (dateTotals records) (dateTotals later) := by
  unfold dateTotals
  rw [List.filter_append]
  exact groupMap_append _ (fun _ _ => rfl) (fun app l l' _ _ => productRow_append app l l') _ _

theorem dateTotals_singleton (record : DetailedSalesRecord) :
    dateTotals [record] =
      if Counted record then [productRow record.primaryAppId [record]] else [] := by
  by_cases h : Counted record <;> simp [dateTotals, groupMap, fiber, h, List.eraseDups_cons]

/-! ### The loop -/

theorem mergeRows_singleton (rows : List DailyProductRow) (row : DailyProductRow) :
    mergeRows rows [row] =
      if row.appId ∈ rows.map DailyProductRow.appId then
        rows.map fun r => if r.appId = row.appId then mergeRow r row else r
      else rows ++ [row] := by
  have hfind : ∀ r, (([row].find? fun later => later.appId = r.appId).map (mergeRow r)).getD r =
      if r.appId = row.appId then mergeRow r row else r := by
    intro r
    by_cases h : r.appId = row.appId
    · simp [h]
    · simp [h, Ne.symm h]
  unfold mergeRows mergeBy
  simp only [hfind]
  by_cases h : row.appId ∈ rows.map DailyProductRow.appId
  · rw [if_pos h, List.filter_cons_of_neg (by simpa using h), List.filter_nil, List.append_nil]
  · have hsame : ∀ r ∈ rows, (if r.appId = row.appId then mergeRow r row else r) = r :=
      fun r hr => if_neg fun happ => h (List.mem_map.mpr ⟨r, hr, happ⟩)
    rw [if_neg h, List.filter_cons_of_pos (by simpa using h), List.filter_nil,
      List.map_congr_left hsame, List.map_id']

/-- The row that the index gives for a product is its only one. -/
theorem Aggregation.Indexed.modify_eq {a : Aggregation} (h : a.Indexed) {app : Int} {i : Nat}
    (hi : a.indexByApp.lookup app = some i) (f : DailyProductRow → DailyProductRow) :
    a.rows.modify i f = a.rows.map fun row => if row.appId = app then f row else row := by
  apply List.ext_getElem?
  intro k
  rw [List.getElem?_modify, List.getElem?_map]
  cases hrow : a.rows[k]? with
  | none => rfl
  | some row =>
    have hk : row.appId = app ↔ i = k := by
      have happ := h app k
      rw [hi, List.getElem?_map, hrow] at happ
      simpa using happ.symm
    by_cases hik : i = k
    · simp [hik, hk.mpr hik]
    · simp [hik, mt hk.mp hik]

/-- A record that is counted is merged into the rows, and any other passed over. -/
theorem Aggregation.add_rows {a : Aggregation} (h : a.Indexed) (record : DetailedSalesRecord) :
    (a.add record).rows = mergeRows a.rows (dateTotals [record]) := by
  have hnone : mergeRows a.rows [] = a.rows := by simp [mergeRows, mergeBy]
  rw [dateTotals_singleton]
  unfold Aggregation.add
  split
  · rename_i hexcluded
    rw [if_neg fun hcounted => hexcluded.elim (· hcounted.1) (· hcounted.2.1), hnone]
  split
  · rename_i hzero
    rw [if_neg fun hcounted => hcounted.2.2 hzero, hnone]
  rename_i hincluded hid
  have hcounted : Counted record := by
    simpa [Counted, hid] using hincluded
  rw [if_pos hcounted, productRow_singleton, mergeRows_singleton]
  have hmem : record.primaryAppId ∈ a.rows.map DailyProductRow.appId ↔
      ∃ i, a.indexByApp.lookup record.primaryAppId = some i := by
    rw [List.mem_iff_getElem?]
    exact exists_congr fun i => (h _ i).symm
  split
  · rename_i hlookup
    rw [if_neg fun hold => ?_]
    obtain ⟨i, hi⟩ := hmem.mp hold
    cases hlookup.symm.trans hi
  · rename_i i hlookup
    rw [if_pos (hmem.mpr ⟨i, hlookup⟩)]
    refine (h.modify_eq hlookup _).trans (List.map_congr_left fun row _ => ?_)
    by_cases hname : record.primaryAppName = [] <;> simp [mergeRow, hname]

theorem aggregateDate_eq (records : List DetailedSalesRecord) :
    aggregateDate records = dateTotals records := by
  have hindexed : ∀ records : List DetailedSalesRecord,
      (records.foldl Aggregation.add ⟨[], []⟩).Indexed := fun records =>
    indexed_foldl (fun app i => by simp) records
  unfold aggregateDate
  induction records using List.reverseRecOn with
  | nil => rfl
  | append_singleton records record ih =>
    rw [List.foldl_append, List.foldl_cons, List.foldl_nil,
      Aggregation.add_rows (hindexed records), ih, dateTotals_append]

/-! ### The grouping -/

def SameUnits (row row' : DailyProductRow) : Prop :=
  row.appId = row'.appId ∧ row.netUnitsSold = row'.netUnitsSold ∧
    row.grossUnitsSold = row'.grossUnitsSold ∧ row.grossUnitsReturned = row'.grossUnitsReturned

/-- The records that count for a product. -/
def countedFor (records : List DetailedSalesRecord) (app : Int) : List DetailedSalesRecord :=
  fiber DetailedSalesRecord.primaryAppId (records.filter Counted) app

theorem mem_dateTotals {records : List DetailedSalesRecord} {row : DailyProductRow} :
    row ∈ dateTotals records ↔
      (∃ record ∈ records, Counted record ∧ record.primaryAppId = row.appId) ∧
        row = productRow row.appId (countedFor records row.appId) := by
  unfold dateTotals groupMap
  simp only [List.mem_map, List.mem_eraseDups, List.mem_filter, decide_eq_true_eq]
  constructor
  · rintro ⟨_, ⟨record, ⟨hrecord, hcounted⟩, rfl⟩, rfl⟩
    exact ⟨⟨record, hrecord, hcounted, rfl⟩, rfl⟩
  · rintro ⟨⟨record, hrecord, hcounted, happ⟩, hrow⟩
    exact ⟨row.appId, ⟨record, ⟨hrecord, hcounted⟩, happ⟩, hrow.symm⟩

theorem productRow_perm {records reordered : List DetailedSalesRecord}
    (h : records.Perm reordered) (app : Int) :
    SameUnits (productRow app records) (productRow app reordered) :=
  ⟨rfl, (h.map _).sum_eq, (h.map _).sum_eq, (h.map _).sum_eq⟩

theorem dateTotals_perm {records reordered : List DetailedSalesRecord}
    (h : records.Perm reordered) {row : DailyProductRow} (hrow : row ∈ dateTotals records) :
    ∃ row' ∈ dateTotals reordered, SameUnits row row' := by
  obtain ⟨⟨record, hrecord, hcounted⟩, heq⟩ := mem_dateTotals.mp hrow
  refine ⟨productRow row.appId (countedFor reordered row.appId),
    mem_dateTotals.mpr ⟨⟨record, h.mem_iff.mp hrecord, hcounted⟩, rfl⟩, ?_⟩
  rw [heq]
  exact productRow_perm ((h.filter _).filter _) _

/-- `AggregateDate` groups the counted records by product, in the order in which the products come
first; the units do not depend on the order of the records, and the rows of a concatenation are the
merged rows of its parts. -/
theorem aggregateDate_groups {records reordered : List DetailedSalesRecord}
    (h : records.Perm reordered) (later : List DetailedSalesRecord) :
    (aggregateDate records).map DailyProductRow.appId =
        ((records.filter Counted).map DetailedSalesRecord.primaryAppId).eraseDups ∧
      ((aggregateDate records).map DailyProductRow.appId).Nodup ∧
      (∀ row ∈ aggregateDate records,
        row = productRow row.appId (countedFor records row.appId)) ∧
      (∀ row ∈ aggregateDate records, ∃ row' ∈ aggregateDate reordered, SameUnits row row') ∧
      aggregateDate (records ++ later) =
        mergeRows (aggregateDate records) (aggregateDate later) := by
  simp only [aggregateDate_eq]
  refine ⟨keys_groupMap _ (fun _ _ => rfl) _, nodup_keys_groupMap _ (fun _ _ => rfl) _,
    fun row hrow => (mem_dateTotals.mp hrow).2, fun row hrow => dateTotals_perm h hrow,
    dateTotals_append records later⟩

/-- Two packages of one product and one of another, in either order. -/
theorem aggregateDate_groups_swapped :
    ∃ row' ∈ aggregateDate [⟨ascii "Package", ascii "Steam", 480, [], 1, 1, 0⟩,
        ⟨ascii "Package", ascii "Steam", 480, ascii "git gud", 2, 3, 1⟩],
      SameUnits ⟨480, ascii "git gud", 3, 4, 1⟩ row' :=
  (aggregateDate_groups (List.Perm.swap ⟨ascii "Package", ascii "Steam", 480, [], 1, 1, 0⟩
    ⟨ascii "Package", ascii "Steam", 480, ascii "git gud", 2, 3, 1⟩ []) []).2.2.2.1 _ (by decide)

/-! ### Rows of pages in either form -/

/-- Pages that differ only in the forms of integers of 64 signed bits have the same records and
rows.  Of a greater integer, the number is read 2^64 below it, and the string as the greatest
integer there is. -/
theorem integer_forms_agree {read : Bytes → Option Json} {json json' : Bytes}
    (h : SamePage FitsInt64 (read json) (read json')) :
    parseDetailedSalesPage read json = parseDetailedSalesPage read json' ∧
      aggregateDate (parseDetailedSalesPage read json).2.records =
        aggregateDate (parseDetailedSalesPage read json').2.records ∧
      ∀ o o' key v n, objGet o key = some v → v.integer? = some n → ¬FitsInt64 n →
        objGet o' key = some (.str (signedDecimal n)) →
          getInt64 o key = n - 2 ^ 64 ∧ getInt64 o' key = 2 ^ 63 - 1 := by
  refine ⟨h.parse, by rw [h.parse], fun o o' key v n hget hn hfits hget' => ?_⟩
  have hgreat : 2 ^ 63 ≤ n := by
    have := (Json.isToken_of_integer hn).1
    unfold FitsInt64 at hfits
    omega
  have hstring : getInt64 o' key = strtoll (signedDecimal n) := by rw [getInt64, hget']
  rw [getInt64_of_integer hget hn, if_neg (by omega), hstring, strtoll_signedDecimal]
  exact ⟨rfl, by omega⟩

/-- A page with one record, whose only field is its app id. -/
def onePage (app : Json) : Json :=
  .obj [(ascii "response",
    .obj [(ascii "results", .arr [.obj [(ascii "primary_appid", app)]])])]

def onePageText (app : Bytes) : Bytes :=
  ascii "\x7b\"response\":\x7b\"results\":[\x7b\"primary_appid\":" ++ app ++
    ascii "\x7d]\x7d\x7d"

def quoted (text : Bytes) : Bytes := ascii "\"" ++ text ++ ascii "\""

/-- The reader on the page with this number, plain or as a string. -/
def readForms (value : UInt64) (json : Bytes) : Option Json :=
  if json = onePageText (decimal value.toNat) then some (onePage (.uint value))
  else if json = onePageText (quoted (decimal value.toNat)) then
    some (onePage (.str (decimal value.toNat)))
  else none

theorem readForms_string (value : UInt64) :
    readForms value (onePageText (quoted (decimal value.toNat))) =
      some (onePage (.str (decimal value.toNat))) := by
  refine (if_neg fun hsame => ?_).trans (if_pos rfl)
  have hdigits : quoted (decimal value.toNat) = decimal value.toNat :=
    List.append_cancel_left (List.append_cancel_right hsame)
  have hquote : (34 : UInt8) ∈ decimal value.toNat := hdigits ▸ List.mem_cons_self
  exact absurd (decimal_isDigit hquote).1 (by decide)

theorem readForms_same {P : Int → Prop} {value : UInt64} (h : P value.toNat) :
    SamePage P (readForms value (onePageText (decimal value.toNat)))
      (readForms value (onePageText (quoted (decimal value.toNat)))) := by
  have hform : OtherForm P (.uint value) (.str (decimal value.toNat)) :=
    signedDecimal_natCast value.toNat ▸ OtherForm.asText rfl h
  have happId : ascii "primary_appid" ∈ recordIntegers.map ascii := by decide
  have hresults : ascii "results" ∈ kRecordArrayKeys.map ascii := by decide
  have hrecord : Objects (RecordMember P) (.obj [(ascii "primary_appid", .uint value)])
      (.obj [(ascii "primary_appid", .str (decimal value.toNat))]) :=
    ⟨.cons ⟨rfl, .inr ⟨happId, hform⟩⟩ .nil⟩
  have hrecords : Arrays (Objects (RecordMember P))
      (.arr [.obj [(ascii "primary_appid", .uint value)]])
      (.arr [.obj [(ascii "primary_appid", .str (decimal value.toNat))]]) :=
    ⟨.cons (.inr hrecord) .nil⟩
  have hresponse : Objects (ResponseMember P)
      (.obj [(ascii "results", .arr [.obj [(ascii "primary_appid", .uint value)]])])
      (.obj [(ascii "results", .arr [.obj [(ascii "primary_appid",
        .str (decimal value.toNat))]])]) :=
    ⟨.cons ⟨rfl, .inr (.inr (.inr ⟨hresults, hrecords⟩))⟩ .nil⟩
  rw [readForms_string, readForms, if_pos rfl]
  exact .some (.inr ⟨.cons ⟨rfl, .inr ⟨rfl, hresponse⟩⟩ .nil⟩)

theorem integer_forms_agree_480 :
    aggregateDate (parseDetailedSalesPage (readForms 480)
        (onePageText (decimal (480 : UInt64).toNat))).2.records =
      aggregateDate (parseDetailedSalesPage (readForms 480)
        (onePageText (quoted (decimal (480 : UInt64).toNat)))).2.records :=
  (integer_forms_agree (readForms_same ⟨by decide, by decide⟩)).2.1

/-- 2^63 is an app id that is read as two different ones. -/
theorem great_integer_forms_differ :
    ¬∀ (read : Bytes → Option Json) (json json' : Bytes),
      SamePage IsToken (read json) (read json') →
        parseDetailedSalesPage read json = parseDetailedSalesPage read json' := by
  intro h
  have hsame := h (readForms 9223372036854775808) _ _
    (readForms_same ⟨by decide +kernel, by decide +kernel⟩)
  unfold parseDetailedSalesPage readResponse at hsame
  rw [readForms_string, readForms, if_pos rfl] at hsame
  have hids := congrArg (fun page => page.2.records.map DetailedSalesRecord.primaryAppId) hsame
  exact absurd hids (by decide +kernel)

end SteamSalesTray.Sync
