import Mathlib.Data.Rat.Floor
import SteamSalesTray.Steam.Models

/-! The parsers of Steam's responses, from the JSON document that `yyjson_read` makes of a body.

The reader is a parameter: a function from the body to its document, if the body is JSON. -/

namespace SteamSalesTray.Steam

/-- A document as the reader keeps it: integers that fit are `uint` or, below zero, `sint`, and
every other number is a `double`. -/
inductive Json where
  | null
  | bool (value : Bool)
  | uint (value : UInt64)
  | sint (value : Int64)
  | real (value : Rat)
  | str (value : Bytes)
  | arr (items : List Json)
  | obj (members : List (Bytes × Json))

abbrev JsonObject := List (Bytes × Json)

def Json.string? : Json → Option Bytes
  | .str value => some value
  | _ => none

def Json.object? : Json → Option JsonObject
  | .obj members => some members
  | _ => none

/-- `yyjson_obj_get`: the first member with the key. -/
def objGet (o : JsonObject) (key : String) : Option Json :=
  (o.find? fun m => m.1 = ascii key).map Prod.snd

def getStr (o : JsonObject) (key : String) : Bytes :=
  match objGet o key with
  | some (.str value) => value
  | _ => []

/-- `strtoll` in base 10, which saturates. -/
def strtoll (text : Bytes) : Int :=
  let text := text.dropWhile fun c => c ∈ [32, 9, 10, 11, 12, 13]
  let digits : Bytes → Nat := fun text => number (text.takeWhile fun c => 48 ≤ c ∧ c ≤ 57)
  match text with
  | 45 :: rest => max (-(digits rest : Int)) (-2 ^ 63)
  | 43 :: rest => min (digits rest) (2 ^ 63 - 1)
  | rest => min (digits rest) (2 ^ 63 - 1)

/-- `static_cast<int64_t>` of a `double`: towards zero, and the least integer for a number that
does not fit, which the language leaves undefined. -/
def truncate (value : Rat) : Int :=
  let toward := if 0 ≤ value then ⌊value⌋ else ⌈value⌉
  if -2 ^ 63 ≤ toward ∧ toward < 2 ^ 63 then toward else -2 ^ 63

def getInt64 (o : JsonObject) (key : String) : Int :=
  match objGet o key with
  -- The 64 bits of an unsigned number are read as a signed one.
  | some (.uint value) => value.toInt64.toInt
  | some (.sint value) => value.toInt
  | some (.real value) => truncate value
  | some (.str value) => strtoll value
  | _ => 0

def getNumberAsString (o : JsonObject) (key : String) : Bytes :=
  match objGet o key with
  | some (.str value) => value
  | some (.uint value) => decimal value.toNat
  | some (.sint value) => signedDecimal value.toInt
  | _ => []

inductive ParseStatus where
  | ok
  | invalidJson
  | missingResponse
  | apiError
  | structureError
deriving DecidableEq, Repr

structure ParseResult where
  status : ParseStatus
  message : Wide
deriving DecidableEq, Repr

def ParseResult.ok (r : ParseResult) : Bool := r.status = .ok

def getResponse (root : Json) : Except ParseResult JsonObject :=
  match root with
  | .obj root =>
    if (objGet root "error").isSome then .error ⟨.apiError, wide "Steam returned an API error"⟩
    else
      match objGet root "response" with
      | some (.obj response) => .ok response
      | _ => .error ⟨.missingResponse, wide "missing \"response\" object"⟩
  | _ => .error ⟨.structureError, wide "response is not a JSON object"⟩

/-- What both parsers do before they read the response. -/
def readResponse (read : Bytes → Option Json) (json : Bytes) : Except ParseResult JsonObject :=
  match read json with
  | none => .error ⟨.invalidJson, wide "could not parse JSON"⟩
  | some root => getResponse root

/-! ### The changed dates -/

/-- The strings of the array; an element of another type, or a member that is no array, is passed
over. -/
def responseDates (response : JsonObject) : List Bytes :=
  match objGet response "dates" with
  | some (.arr items) => items.filterMap Json.string?
  | _ => []

def parseChangedDates (read : Bytes → Option Json) (json : Bytes) : ParseResult × ChangedDates :=
  match readResponse read json with
  | .error result => (result, ⟨[], []⟩)
  | .ok response =>
    (⟨.ok, []⟩, ⟨responseDates response, getNumberAsString response "result_highwatermark"⟩)

/-! ### A page of detailed sales -/

/-- The map from app ids to names after the entries of `app_info`; the last name of an id stays. -/
def appNames (response : JsonObject) : Int → Option Bytes :=
  match objGet response "app_info" with
  | some (.arr entries) =>
    entries.foldl (fun names entry =>
      match entry with
      | .obj entry =>
        let id := getInt64 entry "appid"
        let name := getStr entry "app_name"
        if id ≠ 0 ∧ name ≠ [] then fun i => if i = id then some name else names i else names
      | _ => names) fun _ => none
  | _ => fun _ => none

def kRecordArrayKeys : List String := ["results", "sales", "line_items"]

/-- The first of the candidate members that is an array. -/
def recordArray (response : JsonObject) : Option (List Json) :=
  kRecordArrayKeys.findSome? fun key =>
    match objGet response key with
    | some (.arr items) => some items
    | _ => none

def parseRecord (names : Int → Option Bytes) (item : JsonObject) : DetailedSalesRecord :=
  let primaryAppId := getInt64 item "primary_appid"
  let primaryAppName := getStr item "primary_app_name"
  { lineItemType := getStr item "line_item_type"
    packageSaleType := getStr item "package_sale_type"
    primaryAppId := primaryAppId
    primaryAppName :=
      if primaryAppName.isEmpty then (names primaryAppId).getD [] else primaryAppName
    netUnitsSold := getInt64 item "net_units_sold"
    grossUnitsSold := getInt64 item "gross_units_sold"
    grossUnitsReturned := getInt64 item "gross_units_returned" }

/-- One record for each object of the array; an element of another type is passed over. -/
def responseRecords (response : JsonObject) : List DetailedSalesRecord :=
  (((recordArray response).getD []).filterMap Json.object?).map (parseRecord (appNames response))

def parseDetailedSalesPage (read : Bytes → Option Json) (json : Bytes) :
    ParseResult × DetailedSalesPage :=
  match readResponse read json with
  | .error result => (result, ⟨[], [], false⟩)
  | .ok response =>
    let maxId := getNumberAsString response "max_id"
    (⟨.ok, []⟩, ⟨responseRecords response, maxId, !maxId.isEmpty⟩)

/-! ### What is discarded -/

/-- The document is an object without an `error` member and with this `response` object. -/
def Answers (document : Option Json) (response : JsonObject) : Prop :=
  ∃ root, document = some (.obj root) ∧ objGet root "error" = none ∧
    objGet root "response" = some (.obj response)

/-- `dates` is every element of the array, in order; none where there is no such member. -/
def DatesListed (response : JsonObject) (dates : List Bytes) : Prop :=
  match objGet response "dates" with
  | none => dates = []
  | some (.arr items) => items = dates.map Json.str
  | some _ => False

/-- Each candidate that is there is an array, and `records` has one record for every element of the
first one. -/
def RecordsListed (response : JsonObject) (records : List DetailedSalesRecord) : Prop :=
  (∀ key ∈ kRecordArrayKeys, ∀ v, objGet response key = some v → ∃ items, v = .arr items) ∧
    List.Forall₂ (fun item record => ∃ o, item = .obj o ∧
      record = parseRecord (appNames response) o) ((recordArray response).getD []) records

/-- A `dates` member is an array of strings. -/
def DatesWellFormed (response : JsonObject) : Prop :=
  ∀ v, objGet response "dates" = some v → ∃ dates : List Bytes, v = .arr (dates.map Json.str)

/-- A candidate member is an array, and the first one has objects alone. -/
def RecordsWellFormed (response : JsonObject) : Prop :=
  (∀ key ∈ kRecordArrayKeys, ∀ v, objGet response key = some v → ∃ items, v = .arr items) ∧
    ∀ item ∈ (recordArray response).getD [], ∃ o, item = .obj o

theorem getResponse_ok_iff {root : Json} {response : JsonObject} :
    getResponse root = .ok response ↔ Answers (some root) response := by
  constructor
  · intro h
    unfold getResponse at h
    split at h
    · rename_i root
      split at h
      · cases h
      · rename_i herror
        split at h
        · rename_i hresponse
          cases h
          exact ⟨root, rfl, by simpa using herror, hresponse⟩
        · cases h
    · cases h
  · rintro ⟨root', hroot, herror, hresponse⟩
    obtain rfl := Option.some.inj hroot
    simp only [getResponse, herror, hresponse]
    rfl

theorem readResponse_ok_iff {read : Bytes → Option Json} {json : Bytes} {response : JsonObject} :
    readResponse read json = .ok response ↔ Answers (read json) response := by
  unfold readResponse
  cases hread : read json with
  | none => exact ⟨nofun, fun ⟨_, h, _⟩ => nomatch h⟩
  | some root => exact getResponse_ok_iff

theorem readResponse_error {read : Bytes → Option Json} {json : Bytes} {result : ParseResult}
    (h : readResponse read json = .error result) : result.ok = false := by
  unfold readResponse at h
  split at h
  · cases h
    rfl
  · unfold getResponse at h
    split at h
    · split at h
      · cases h
        rfl
      · split at h
        · cases h
        · cases h
          rfl
    · cases h
      rfl

theorem responseDates_listed_iff (response : JsonObject) :
    DatesListed response (responseDates response) ↔ DatesWellFormed response := by
  unfold DatesListed DatesWellFormed responseDates
  cases hdates : objGet response "dates" with
  | none => simp
  | some v =>
    cases v with
    | arr items =>
      constructor
      · rintro hitems v hv
        obtain rfl := Option.some.inj hv
        exact ⟨_, congrArg Json.arr hitems⟩
      · intro h
        obtain ⟨dates, hitems⟩ := h _ rfl
        obtain rfl := Json.arr.inj hitems
        show _ = ((dates.map Json.str).filterMap Json.string?).map Json.str
        rw [List.filterMap_map]
        simp [Function.comp_def, Json.string?]
    | _ => simp

theorem records_listed_iff (names : Int → Option Bytes) (items : List Json) :
    List.Forall₂ (fun item record => ∃ o, item = .obj o ∧ record = parseRecord names o) items
        ((items.filterMap Json.object?).map (parseRecord names)) ↔
      ∀ item ∈ items, ∃ o, item = .obj o := by
  constructor
  · generalize (items.filterMap Json.object?).map (parseRecord names) = records
    intro h
    induction h with
    | nil => simp
    | cons hhead _ ih =>
      obtain ⟨o, rfl, -⟩ := hhead
      exact List.forall_mem_cons.mpr ⟨⟨o, rfl⟩, ih⟩
  · intro h
    induction items with
    | nil => exact .nil
    | cons item rest ih =>
      obtain ⟨o, rfl⟩ := h item (by simp)
      exact .cons ⟨o, rfl, rfl⟩ (ih fun item hitem => h item (by simp [hitem]))

theorem responseRecords_listed_iff (response : JsonObject) :
    RecordsListed response (responseRecords response) ↔ RecordsWellFormed response :=
  and_congr Iff.rfl (records_listed_iff (appNames response) _)

/-- Whatever the body: `Ok` means that nothing was discarded exactly if, in a body that answers, the
members that are there have the documented types. -/
theorem ok_discards_nothing_iff (read : Bytes → Option Json) (json : Bytes) :
    (((parseChangedDates read json).1.ok = true → ∃ response, Answers (read json) response ∧
        DatesListed response (parseChangedDates read json).2.dates) ↔
      ∀ response, Answers (read json) response → DatesWellFormed response) ∧
    (((parseDetailedSalesPage read json).1.ok = true → ∃ response, Answers (read json) response ∧
        RecordsListed response (parseDetailedSalesPage read json).2.records) ↔
      ∀ response, Answers (read json) response → RecordsWellFormed response) := by
  unfold parseChangedDates parseDetailedSalesPage
  cases hread : readResponse read json with
  | error result =>
    have hnot : ∀ response, ¬Answers (read json) response := fun response hanswers => by
      rw [readResponse_ok_iff.mpr hanswers] at hread
      cases hread
    simp [readResponse_error hread, hnot]
  | ok response =>
    have honly : ∀ response', Answers (read json) response' ↔ response' = response :=
      fun response' => by
        rw [← readResponse_ok_iff, hread]
        exact ⟨fun h => (Except.ok.inj h).symm, fun h => h ▸ rfl⟩
    simp only [honly, exists_eq_left, forall_eq, ← responseDates_listed_iff,
      ← responseRecords_listed_iff]
    exact ⟨⟨fun h => h rfl, fun h _ => h⟩, ⟨fun h => h rfl, fun h _ => h⟩⟩

/-- A `dates` member that is a string, and a `results` member that is an object. -/
def malformedDates : JsonObject :=
  [(ascii "dates", .str (ascii "2024/05/01")), (ascii "result_highwatermark", .str (ascii "7"))]

def malformedResults : JsonObject :=
  [(ascii "max_id", .str (ascii "7")),
    (ascii "results", .obj [(ascii "line_item_type", .str (ascii "Package"))])]

def malformedDatesText : Bytes :=
  ascii ("\x7b\"response\":\x7b\"dates\":\"2024/05/01\"," ++
    "\"result_highwatermark\":\"7\"\x7d\x7d")

def malformedResultsText : Bytes :=
  ascii ("\x7b\"response\":\x7b\"max_id\":\"7\"," ++
    "\"results\":\x7b\"line_item_type\":\"Package\"\x7d\x7d\x7d")

/-- The reader on these two texts. -/
def readMalformed (json : Bytes) : Option Json :=
  if json = malformedDatesText then some (.obj [(ascii "response", .obj malformedDates)])
  else if json = malformedResultsText then
    some (.obj [(ascii "response", .obj malformedResults)])
  else none

theorem malformed_members_discarded :
    (Answers (readMalformed malformedDatesText) malformedDates ∧
      objGet malformedDates "dates" = some (.str (ascii "2024/05/01")) ∧
      parseChangedDates readMalformed malformedDatesText = (⟨.ok, []⟩, ⟨[], ascii "7"⟩)) ∧
    Answers (readMalformed malformedResultsText) malformedResults ∧
      objGet malformedResults "results" =
        some (.obj [(ascii "line_item_type", .str (ascii "Package"))]) ∧
      parseDetailedSalesPage readMalformed malformedResultsText =
        (⟨.ok, []⟩, ⟨[], ascii "7", true⟩) := by
  have hdates : readMalformed malformedDatesText =
      some (.obj [(ascii "response", .obj malformedDates)]) := if_pos rfl
  have hresults : readMalformed malformedResultsText =
      some (.obj [(ascii "response", .obj malformedResults)]) := by
    rw [readMalformed, if_neg (by decide), if_pos rfl]
  refine ⟨⟨⟨_, hdates, rfl, rfl⟩, rfl, ?_⟩, ⟨_, hresults, rfl, rfl⟩, rfl, ?_⟩
  · rw [parseChangedDates, readResponse, hdates]
    rfl
  · rw [parseDetailedSalesPage, readResponse, hresults]
    rfl

end SteamSalesTray.Steam
