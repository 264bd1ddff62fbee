import SteamSalesTray.Steam.JsonParser

/-! The records of a page: the elements that they are made of, and where their names come from. -/

namespace SteamSalesTray.Steam

/-- `items` is the first candidate member that is an array. -/
def FirstArray (response : JsonObject) (items : List Json) : Prop :=
  ∃ before key after, kRecordArrayKeys = before ++ key :: after ∧
    objGet response key = some (.arr items) ∧
    ∀ earlier ∈ before, ∀ other, objGet response earlier ≠ some (.arr other)

/-- The objects of `app_info`. -/
def appInfo (response : JsonObject) : List JsonObject :=
  match objGet response "app_info" with
  | some (.arr entries) => entries.filterMap Json.object?
  | _ => []

/-- The names that some entries of `app_info` give for an id. -/
def namesFor (entries : List JsonObject) (id : Int) : List Bytes :=
  (entries.filter fun entry => getInt64 entry "appid" = id).map fun entry =>
    getStr entry "app_name"

/-- The record has the fields of the object.  Its name is the object's own, or else the last one
that `app_info` gives for its id, or else empty. -/
structure Extracts (entries : List JsonObject) (item : JsonObject) (record : DetailedSalesRecord) :
    Prop where
  lineItemType : record.lineItemType = getStr item "line_item_type"
  packageSaleType : record.packageSaleType = getStr item "package_sale_type"
  primaryAppId : record.primaryAppId = getInt64 item "primary_appid"
  netUnitsSold : record.netUnitsSold = getInt64 item "net_units_sold"
  grossUnitsSold : record.grossUnitsSold = getInt64 item "gross_units_sold"
  grossUnitsReturned : record.grossUnitsReturned = getInt64 item "gross_units_returned"
  ownName : getStr item "primary_app_name" ≠ [] →
    record.primaryAppName = getStr item "primary_app_name"
  foundName : getStr item "primary_app_name" = [] → record.primaryAppId ≠ 0 →
    record.primaryAppName = lastNonEmpty (namesFor entries record.primaryAppId)
  noName : getStr item "primary_app_name" = [] → record.primaryAppId = 0 →
    record.primaryAppName = []

/-- One record for each object of the first array, in its order; none where there is no array. -/
structure RecordsExtracted (response : JsonObject) (records : List DetailedSalesRecord) : Prop where
  each : ∀ items, FirstArray response items →
    List.Forall₂ (Extracts (appInfo response)) (items.filterMap Json.object?) records
  none : (∀ items, ¬FirstArray response items) → records = []

/-- The entries that the parser uses are of distinct ids. -/
def DistinctIds (entries : List JsonObject) : Prop :=
  ((entries.filter fun entry => getInt64 entry "appid" ≠ 0 ∧ getStr entry "app_name" ≠ []).map
    fun entry => getInt64 entry "appid").Nodup

instance (entries : List JsonObject) : Decidable (DistinctIds entries) :=
  inferInstanceAs (Decidable (List.Nodup _))

/-- The same members, but for the order of the entries of `app_info`. -/
structure Reordered (response response' : JsonObject) : Prop where
  others : ∀ key, ascii key ≠ ascii "app_info" → objGet response' key = objGet response key
  entries : (appInfo response').Perm (appInfo response)

/-! ### The names -/

theorem namesFor_concat (entries : List JsonObject) (entry : JsonObject) (id : Int) :
    namesFor (entries ++ [entry]) id =
      if getInt64 entry "appid" = id then namesFor entries id ++ [getStr entry "app_name"]
      else namesFor entries id := by
  by_cases h : getInt64 entry "appid" = id <;> simp [namesFor, List.filter_append, h]

theorem appNames_of_array {response : JsonObject} {entries : List Json}
    (h : objGet response "app_info" = some (.arr entries)) (id : Int) :
    (appNames response id).getD [] =
      if id = 0 then [] else lastNonEmpty (namesFor (entries.filterMap Json.object?) id) := by
  unfold appNames
  rw [h]
  clear h
  induction entries using List.reverseRecOn with
  | nil => simp [namesFor]
  | append_singleton entries entry ih =>
    dsimp only at ih ⊢
    rw [List.foldl_append, List.filterMap_append, List.foldl_cons, List.foldl_nil]
    generalize entries.foldl _ _ = names at ih ⊢
    cases entry with
    | obj entry =>
      rw [show [Json.obj entry].filterMap Json.object? = [entry] from rfl, namesFor_concat]
      by_cases hid : getInt64 entry "appid" = id
      · subst hid
        rw [if_pos rfl, lastNonEmpty_concat]
        by_cases hzero : getInt64 entry "appid" = 0
        · simpa [hzero] using ih
        · by_cases hname : getStr entry "app_name" = []
          · simpa [hzero, hname] using ih
          · simp [hzero, hname]
      · rw [if_neg hid, ← ih]
        dsimp only
        split
        · exact congrArg (Option.getD · []) (if_neg (Ne.symm hid))
        · rfl
    | _ =>
      rw [List.filterMap_cons_none rfl, List.filterMap_nil, List.append_nil]
      exact ih

/-- The map of the parser: no name for the id 0, and the last one for any other. -/
theorem appNames_getD (response : JsonObject) (id : Int) :
    (appNames response id).getD [] =
      if id = 0 then [] else lastNonEmpty (namesFor (appInfo response) id) := by
  cases hinfo : objGet response "app_info" with
  | none => simp [appNames, appInfo, hinfo, namesFor]
  | some v =>
    cases v with
    | arr entries =>
      rw [appNames_of_array hinfo, appInfo, hinfo]
    | _ => simp [appNames, appInfo, hinfo, namesFor]

theorem parseRecord_extracts (response item : JsonObject) :
    Extracts (appInfo response) item (parseRecord (appNames response) item) where
  lineItemType := rfl
  packageSaleType := rfl
  primaryAppId := rfl
  netUnitsSold := rfl
  grossUnitsSold := rfl
  grossUnitsReturned := rfl
  ownName h := if_neg (by simpa using h)
  foundName h hid := by
    refine (if_pos (by simpa using h)).trans ((appNames_getD response _).trans (if_neg ?_))
    exact hid
  noName h hid := by
    refine (if_pos (by simpa using h)).trans ((appNames_getD response _).trans (if_pos ?_))
    exact hid

/-! ### The array -/

theorem recordArray_of_firstArray {response : JsonObject} {items : List Json}
    (h : FirstArray response items) : recordArray response = some items := by
  obtain ⟨before, key, after, hkeys, hfound, hbefore⟩ := h
  unfold recordArray
  rw [hkeys, List.findSome?_append, List.findSome?_cons, hfound,
    List.findSome?_eq_none_iff.mpr fun earlier hearlier => ?_]
  · rfl
  · split
    · rename_i other hother
      exact absurd hother (hbefore earlier hearlier other)
    · rfl

theorem firstArray_of_recordArray {response : JsonObject} {items : List Json}
    (h : recordArray response = some items) : FirstArray response items := by
  obtain ⟨before, key, after, hkeys, hfound, hbefore⟩ := List.findSome?_eq_some_iff.mp h
  refine ⟨before, key, after, hkeys, ?_, fun earlier hearlier other hother => ?_⟩
  · split at hfound
    · rename_i hget
      exact Option.some.inj hfound ▸ hget
    · cases hfound
  · have := hbefore earlier hearlier
    rw [hother] at this
    cases this

theorem responseRecords_extracted (response : JsonObject) :
    RecordsExtracted response (responseRecords response) where
  each items hitems := by
    unfold responseRecords
    rw [recordArray_of_firstArray hitems, Option.getD_some]
    induction items.filterMap Json.object? with
    | nil => exact .nil
    | cons item rest ih => exact .cons (parseRecord_extracts response item) ih
  none hnone := by
    unfold responseRecords
    cases h : recordArray response with
    | none => rfl
    | some items => exact absurd (firstArray_of_recordArray h) (hnone items)

/-! ### The order of `app_info` -/

/-- With distinct ids, an id other than 0 has at most one name that is not empty. -/
theorem DistinctIds.namesFor_length {entries : List JsonObject} (h : DistinctIds entries) {id : Int}
    (hid : id ≠ 0) : ((namesFor entries id).filter fun name => name ≠ []).length ≤ 1 := by
  have hcount := List.nodup_iff_count_le_one.mp h id
  rw [List.count_eq_countP, List.countP_map, List.countP_filter, List.countP_eq_length_filter]
    at hcount
  refine le_trans (le_of_eq ?_) hcount
  unfold namesFor
  rw [List.filter_map, List.length_map, List.filter_filter]
  refine congrArg List.length (List.filter_congr fun entry _ => ?_)
  by_cases hentry : getInt64 entry "appid" = id
  · simp [hentry, hid]
  · simp [hentry]

theorem appNames_reordered {response response' : JsonObject} (h : Reordered response response')
    (hdistinct : DistinctIds (appInfo response)) (id : Int) :
    (appNames response' id).getD [] = (appNames response id).getD [] := by
  rw [appNames_getD, appNames_getD]
  by_cases hid : id = 0
  · rw [if_pos hid, if_pos hid]
  · rw [if_neg hid, if_neg hid]
    have hnames : (namesFor (appInfo response) id).Perm (namesFor (appInfo response') id) :=
      (h.entries.symm.filter _).map _
    exact (lastNonEmpty_perm hnames (hdistinct.namesFor_length hid)).symm

theorem responseRecords_reordered {response response' : JsonObject}
    (h : Reordered response response') (hdistinct : DistinctIds (appInfo response)) :
    responseRecords response' = responseRecords response := by
  have harray : recordArray response' = recordArray response := by
    unfold recordArray kRecordArrayKeys
    simp only [List.findSome?_cons, List.findSome?_nil, h.others "results" (by decide),
      h.others "sales" (by decide), h.others "line_items" (by decide)]
  unfold responseRecords
  rw [harray]
  refine List.map_congr_left fun item _ => ?_
  unfold parseRecord
  simp only [appNames_reordered h hdistinct]

theorem parseDetailedSalesPage_answers {read : Bytes → Option Json} {json : Bytes}
    {response : JsonObject} (h : Answers (read json) response) :
    parseDetailedSalesPage read json =
      (⟨.ok, []⟩, ⟨responseRecords response, getNumberAsString response "max_id",
        !(getNumberAsString response "max_id").isEmpty⟩) := by
  rw [parseDetailedSalesPage, readResponse_ok_iff.mpr h]

/-- A body that answers is parsed to the records of its objects under the names of its `app_info`,
whose order is of no account where no id has two entries. -/
theorem records_extracted {read : Bytes → Option Json} {json : Bytes} {response : JsonObject}
    (h : Answers (read json) response) :
    (parseDetailedSalesPage read json).1.ok = true ∧
      RecordsExtracted response (parseDetailedSalesPage read json).2.records ∧
      (DistinctIds (appInfo response) → ∀ json' response', Answers (read json') response' →
        Reordered response response' →
          parseDetailedSalesPage read json' = parseDetailedSalesPage read json) := by
  rw [parseDetailedSalesPage_answers h]
  refine ⟨rfl, responseRecords_extracted response, fun hdistinct json' response' h' hsame => ?_⟩
  have hmaxId : getNumberAsString response' "max_id" = getNumberAsString response "max_id" := by
    unfold getNumberAsString
    rw [hsame.others "max_id" (by decide)]
  rw [parseDetailedSalesPage_answers h', responseRecords_reordered hsame hdistinct, hmaxId]

/-- A page with one record of `git gud`, and what `app_info` it is given. -/
def namedPage (entries : List Json) : JsonObject :=
  [(ascii "app_info", .arr entries),
    (ascii "results", .arr [.obj [(ascii "primary_appid", .uint 480),
      (ascii "net_units_sold", .uint 2)]])]

def namedPageText (entries : String) : Bytes :=
  ascii ("\x7b\"response\":\x7b\"app_info\":[" ++ entries ++
    "],\"results\":[\x7b\"primary_appid\":480,\"net_units_sold\":2\x7d]\x7d\x7d")

def gitGudEntry : Json :=
  .obj [(ascii "appid", .uint 480), (ascii "app_name", .str (ascii "git gud"))]

def mtxEntry : Json := .obj [(ascii "appid", .uint 481), (ascii "app_name", .str (ascii "MTX"))]

def gitGudText : String := "\x7b\"appid\":480,\"app_name\":\"git gud\"\x7d"

def mtxText : String := "\x7b\"appid\":481,\"app_name\":\"MTX\"\x7d"

/-- The reader on the page with its two entries in either order. -/
def readNamed (json : Bytes) : Option Json :=
  if json = namedPageText (gitGudText ++ "," ++ mtxText) then
    some (.obj [(ascii "response", .obj (namedPage [gitGudEntry, mtxEntry]))])
  else if json = namedPageText (mtxText ++ "," ++ gitGudText) then
    some (.obj [(ascii "response", .obj (namedPage [mtxEntry, gitGudEntry]))])
  else none

theorem records_extracted_named :
    (parseDetailedSalesPage readNamed (namedPageText (gitGudText ++ "," ++ mtxText))).1.ok = true ∧
      parseDetailedSalesPage readNamed (namedPageText (mtxText ++ "," ++ gitGudText)) =
        parseDetailedSalesPage readNamed (namedPageText (gitGudText ++ "," ++ mtxText)) := by
  have hread : readNamed (namedPageText (gitGudText ++ "," ++ mtxText)) =
      some (.obj [(ascii "response", .obj (namedPage [gitGudEntry, mtxEntry]))]) := if_pos rfl
  have hread' : readNamed (namedPageText (mtxText ++ "," ++ gitGudText)) =
      some (.obj [(ascii "response", .obj (namedPage [mtxEntry, gitGudEntry]))]) := by
    rw [readNamed, if_neg (by decide +kernel), if_pos rfl]
  have hothers : ∀ key, ascii key ≠ ascii "app_info" →
      objGet (namedPage [mtxEntry, gitGudEntry]) key =
        objGet (namedPage [gitGudEntry, mtxEntry]) key := by
    intro key hkey
    simp [objGet, namedPage, Ne.symm hkey]
  have hdistinct : DistinctIds (appInfo (namedPage [gitGudEntry, mtxEntry])) := by decide
  obtain ⟨hok, -, horder⟩ := records_extracted ⟨_, hread, rfl, rfl⟩
  exact ⟨hok, horder hdistinct _ _ ⟨_, hread', rfl, rfl⟩ ⟨hothers, .swap _ _ _⟩⟩

end SteamSalesTray.Steam
