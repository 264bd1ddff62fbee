import SteamSalesTray.Steam.FinancialClient
import SteamSalesTray.Steam.IntegerForms
import SteamSalesTray.Steam.Query

/-! `SteamFinancialClient`: the queries that it sends, what it makes of the responses, and that a
query is read back as the values that it was made of.

WinHTTP is a parameter: a response for each request, given the requests before it. -/

namespace SteamSalesTray.Steam

open UrlQuery Network Platform

/-! ### The queries -/

/-- What is sent in place of an empty mark or cursor. -/
def orZero (id : Bytes) : Bytes := if id.isEmpty then ascii "0" else id

def changedDatesQuery (keyUtf8 highwatermark : Bytes) : Wide :=
  buildQuery keyUtf8 (wide "highwatermark=" ++ encodeComponent (orZero highwatermark))

def detailedSalesQuery (keyUtf8 date highwatermarkId : Bytes) : Wide :=
  buildQuery keyUtf8 (wide "date=" ++ encodeComponent date ++ wide "&highwatermark_id=" ++
    encodeComponent (orZero highwatermarkId))

/-! ### The client -/

def kHost : Wide := wide "partner.steam-api.com"

def kPort : Nat := 443

def kPathChangedDates : Wide := wide "/IPartnerFinancialsService/GetChangedDatesForPartner/v001/"

def kPathDetailedSales : Wide := wide "/IPartnerFinancialsService/GetDetailedSales/v001/"

def kMaxChangedDates : Nat := 8 * 1024 * 1024

def kMaxDetailedSales : Nat := 32 * 1024 * 1024

structure HttpRequest where
  host : Wide
  port : Nat
  path : Wide
  query : Wide
  maxBytes : Nat
deriving DecidableEq, Repr

structure HttpResult where
  transportOk : Bool
  win32Error : Nat
  statusCode : Int
  exceededLimit : Bool
  body : Bytes
deriving DecidableEq, Repr

/-- The session of a client: whether it could be opened, the response to the last of some requests,
the system's text for an error, and the JSON reader. -/
structure SteamFinancialClient where
  isValid : Bool
  get : List HttpRequest → HttpResult
  describeWinHttpError : Nat → Wide
  read : Bytes → Option Json

/-- `ERROR_WINHTTP_NAME_NOT_RESOLVED`, `ERROR_WINHTTP_CANNOT_CONNECT`, `ERROR_WINHTTP_TIMEOUT` and
`ERROR_WINHTTP_CONNECTION_ERROR`. -/
def offlineErrors : List Nat := [12007, 12029, 12002, 12030]

/-- `std::to_wstring`. -/
def wideDecimal (i : Int) : Wide := (signedDecimal i).map UInt8.toUInt16

def parseMessage (p : ParseResult) : Wide :=
  if p.message.isEmpty then wide "Could not read Steam's response." else p.message

namespace SteamFinancialClient

variable (client : SteamFinancialClient)

def classify (http : HttpResult) : FinancialResult :=
  let s := http.statusCode
  if http.exceededLimit then
    ⟨.tooLarge, s, wide "The response was larger than the allowed limit."⟩
  else if ¬http.transportOk then
    ⟨if http.win32Error ∈ offlineErrors then .offline else .other, s,
      client.describeWinHttpError http.win32Error⟩
  else if 200 ≤ s ∧ s < 300 then ⟨.success, s, []⟩
  else if s = 401 ∨ s = 403 then
    ⟨.auth, s, wide ("The API key was rejected (check the key and its " ++
      "Financial API Group access).")⟩
  else if s = 429 then ⟨.rateLimited, s, wide "Rate limited by Steam; will retry later."⟩
  else if 500 ≤ s then
    ⟨.serverError, s, wide "Steam reported a server error (HTTP " ++ wideDecimal s ++ wide ")."⟩
  else ⟨.other, s, wide "Unexpected HTTP status " ++ wideDecimal s ++ wide "."⟩

/-- What both requests do: send, classify, and parse the body of a success.  Without one the output
stays empty. -/
def request {α : Type} (parse : Bytes → ParseResult × α) (empty : α) (past : List HttpRequest)
    (next : HttpRequest) : FinancialResult × α :=
  if ¬client.isValid then
    (⟨.offline, 0, wide "Could not initialize the network session."⟩, empty)
  else
    let http := client.get (past ++ [next])
    let result := client.classify http
    if ¬result.ok then (result, empty)
    else
      let parsed := parse http.body
      if ¬parsed.1.ok then
        ({ result with
            kind := if parsed.1.status = .apiError then .auth else .parse
            message := parseMessage parsed.1 }, parsed.2)
      else (result, parsed.2)

def changedDatesRequest (key highwatermark : Bytes) : HttpRequest :=
  ⟨kHost, kPort, kPathChangedDates, changedDatesQuery key highwatermark, kMaxChangedDates⟩

def getChangedDates (past : List HttpRequest) (key highwatermark : Bytes) :
    FinancialResult × ChangedDates :=
  client.request (parseChangedDates client.read) ⟨[], []⟩ past
    (changedDatesRequest key highwatermark)

def detailedSalesRequest (key date highwatermarkId : Bytes) : HttpRequest :=
  ⟨kHost, kPort, kPathDetailedSales, detailedSalesQuery key date highwatermarkId,
    kMaxDetailedSales⟩

def getDetailedSales (past : List HttpRequest) (key date highwatermarkId : Bytes) :
    FinancialResult × DetailedSalesPage :=
  client.request (parseDetailedSalesPage client.read) ⟨[], [], false⟩ past
    (detailedSalesRequest key date highwatermarkId)

def pageRequest (r : SalesRequest) : HttpRequest :=
  detailedSalesRequest r.key r.date r.highwatermarkId

/-- The client as the page loop sees it, after the requests of `past`. -/
def salesServer (past : List HttpRequest) : SalesServer := fun sent =>
  match sent.getLast? with
  | some r => client.getDetailedSales (past ++ sent.dropLast.map pageRequest) r.key r.date
      r.highwatermarkId
  | none => (.succeeded, ⟨[], [], false⟩)

/-- The last request is answered as `GetDetailedSales` has it answered after the ones before. -/
theorem salesServer_concat (past : List HttpRequest) (sent : List SalesRequest)
    (key date highwatermarkId : Bytes) :
    client.salesServer past (sent ++ [salesRequest key date highwatermarkId]) =
      client.getDetailedSales (past ++ sent.map pageRequest) key date highwatermarkId := by
  have hquery : detailedSalesRequest key date (orZero highwatermarkId) =
      detailedSalesRequest key date highwatermarkId := by
    cases highwatermarkId <;> rfl
  unfold salesServer
  rw [List.getLast?_concat, List.dropLast_concat]
  exact congrArg (client.request _ _ _) hquery

end SteamFinancialClient

/-! ### What a query is read as -/

/-- The parameters of each query. -/
def changedDatesPairs (key highwatermark : Bytes) : List (Wide × Bytes) :=
  [(wide "key", key), (wide "include_view_grants", ascii "false"),
    (wide "highwatermark", orZero highwatermark)]

def detailedSalesPairs (key date highwatermarkId : Bytes) : List (Wide × Bytes) :=
  [(wide "key", key), (wide "include_view_grants", ascii "false"), (wide "date", date),
    (wide "highwatermark_id", orZero highwatermarkId)]

/-- The two parameters that stand in every query, and those that are added to them. -/
theorem buildQuery_joinPairs (key : Bytes) {pairs : List (Wide × Bytes)} (h : pairs ≠ []) :
    buildQuery key (joinPairs encodeComponent pairs) =
      joinPairs encodeComponent
        ((wide "key", key) :: (wide "include_view_grants", ascii "false") :: pairs) := by
  have hgrants : wide "include_view_grants" ++ 61 :: encodeComponent (ascii "false") =
      wide "include_view_grants=false" := by decide
  have hextra : joinPairs encodeComponent pairs ≠ [] := by
    obtain ⟨p, rest, rfl⟩ := List.exists_cons_of_ne_nil h
    cases rest with
    | nil => simp [joinPairs_singleton]
    | cons q rest => simp [joinPairs_cons]
  rw [joinPairs_cons _ _ (List.cons_ne_nil _ _), joinPairs_cons _ _ h, hgrants, buildQuery,
    if_neg (by simpa using hextra)]
  simp only [List.append_assoc]
  rfl

theorem changedDatesQuery_eq (key highwatermark : Bytes) :
    changedDatesQuery key highwatermark =
      joinPairs encodeComponent (changedDatesPairs key highwatermark) := by
  unfold changedDatesQuery changedDatesPairs
  rw [← buildQuery_joinPairs key (List.cons_ne_nil _ _), joinPairs_singleton]
  rfl

theorem detailedSalesQuery_eq (key date highwatermarkId : Bytes) :
    detailedSalesQuery key date highwatermarkId =
      joinPairs encodeComponent (detailedSalesPairs key date highwatermarkId) := by
  unfold detailedSalesQuery detailedSalesPairs
  rw [← buildQuery_joinPairs key (List.cons_ne_nil _ _), joinPairs_cons _ _ (List.cons_ne_nil _ _),
    joinPairs_singleton]
  simp only [List.append_assoc]
  rfl

theorem changedDatesPairs_names (key highwatermark : Bytes) :
    ∀ p ∈ changedDatesPairs key highwatermark, 38 ∉ p.1 ∧ 61 ∉ p.1 := by
  simp only [changedDatesPairs, List.forall_mem_cons]
  decide

theorem detailedSalesPairs_names (key date highwatermarkId : Bytes) :
    ∀ p ∈ detailedSalesPairs key date highwatermarkId, 38 ∉ p.1 ∧ 61 ∉ p.1 := by
  simp only [detailedSalesPairs, List.forall_mem_cons]
  decide

theorem changedDatesQuery_read (key highwatermark : Bytes) :
    queryPairs (changedDatesQuery key highwatermark) =
      [(wide "key", some key), (wide "include_view_grants", some (ascii "false")),
        (wide "highwatermark", some (orZero highwatermark))] := by
  rw [changedDatesQuery_eq]
  exact queryPairs_joinPairs percentDecode_encodeComponent
    (fun value => (encodeComponent_no_separator value).1) (List.cons_ne_nil _ _)
    (changedDatesPairs_names _ _)

theorem detailedSalesQuery_read (key date highwatermarkId : Bytes) :
    queryPairs (detailedSalesQuery key date highwatermarkId) =
      [(wide "key", some key), (wide "include_view_grants", some (ascii "false")),
        (wide "date", some date), (wide "highwatermark_id", some (orZero highwatermarkId))] := by
  rw [detailedSalesQuery_eq]
  exact queryPairs_joinPairs percentDecode_encodeComponent
    (fun value => (encodeComponent_no_separator value).1) (List.cons_ne_nil _ _)
    (detailedSalesPairs_names _ _ _)

/-- Each query is read back as the values that it was made of, so that different values have
different queries: an empty mark or cursor alone is the same as "0". -/
theorem queries_read_back :
    (∀ key highwatermark, queryPairs (changedDatesQuery key highwatermark) =
      [(wide "key", some key), (wide "include_view_grants", some (ascii "false")),
        (wide "highwatermark", some (orZero highwatermark))]) ∧
    (∀ key date highwatermarkId, queryPairs (detailedSalesQuery key date highwatermarkId) =
      [(wide "key", some key), (wide "include_view_grants", some (ascii "false")),
        (wide "date", some date), (wide "highwatermark_id", some (orZero highwatermarkId))]) ∧
    (∀ key highwatermark key' highwatermark',
      changedDatesQuery key highwatermark = changedDatesQuery key' highwatermark' ↔
        key = key' ∧ orZero highwatermark = orZero highwatermark') ∧
    (∀ key date highwatermarkId key' date' highwatermarkId',
      detailedSalesQuery key date highwatermarkId =
          detailedSalesQuery key' date' highwatermarkId' ↔
        key = key' ∧ date = date' ∧ orZero highwatermarkId = orZero highwatermarkId') ∧
    ∀ key highwatermark key' date highwatermarkId,
      changedDatesQuery key highwatermark ≠ detailedSalesQuery key' date highwatermarkId := by
  have hdecode := percentDecode_encodeComponent
  have hseparator := fun value => (encodeComponent_no_separator value).1
  refine ⟨changedDatesQuery_read, detailedSalesQuery_read, ?_⟩
  simp only [changedDatesQuery_eq, detailedSalesQuery_eq]
  refine ⟨fun key highwatermark key' highwatermark' => ?_,
    fun key date highwatermarkId key' date' highwatermarkId' => ?_,
    fun key highwatermark key' date highwatermarkId h => ?_⟩
  · refine (joinPairs_inj hdecode hseparator (List.cons_ne_nil _ _) (List.cons_ne_nil _ _)
      (changedDatesPairs_names _ _) (changedDatesPairs_names _ _)).trans ?_
    simp
  · refine (joinPairs_inj hdecode hseparator (List.cons_ne_nil _ _) (List.cons_ne_nil _ _)
      (detailedSalesPairs_names _ _ _) (detailedSalesPairs_names _ _ _)).trans ?_
    simp
  · have hpairs := (joinPairs_inj hdecode hseparator (List.cons_ne_nil _ _) (List.cons_ne_nil _ _)
      (changedDatesPairs_names _ _) (detailedSalesPairs_names _ _ _)).mp h
    exact absurd (congrArg List.length hpairs) (by simp)

/-- The cursors "" and "0" have one query. -/
theorem empty_cursor_as_zero :
    ¬∀ key date highwatermarkId key' date' highwatermarkId',
      detailedSalesQuery key date highwatermarkId =
          detailedSalesQuery key' date' highwatermarkId' →
        key = key' ∧ date = date' ∧ highwatermarkId = highwatermarkId' := by
  intro h
  have hsame := h (ascii "key") (ascii "2026/07/18") [] (ascii "key") (ascii "2026/07/18")
    (ascii "0") rfl
  exact absurd hsame.2.2 (by decide)

/-! ### Ids in either form -/

namespace SteamFinancialClient

/-- The two clients get the same responses but for the forms of the integers in their bodies. -/
structure SamePages (client client' : SteamFinancialClient) : Prop where
  isValid : client.isValid = client'.isValid
  describe : client.describeWinHttpError = client'.describeWinHttpError
  read : client.read = client'.read
  response : ∀ sent, { client.get sent with body := [] } = { client'.get sent with body := [] }
  body : ∀ sent, SamePage FitsInt64 (client.read (client.get sent).body)
    (client.read (client'.get sent).body)

variable {client client' : SteamFinancialClient}

theorem SamePages.classify (h : SamePages client client') (sent : List HttpRequest) :
    client.classify (client.get sent) = client'.classify (client'.get sent) := by
  have hsame : client.classify { client.get sent with body := [] } =
      client'.classify { client'.get sent with body := [] } := by
    rw [h.response, SteamFinancialClient.classify, h.describe]
    rfl
  exact hsame

theorem SamePages.getDetailedSales (h : SamePages client client') (past : List HttpRequest)
    (key date highwatermarkId : Bytes) :
    client.getDetailedSales past key date highwatermarkId =
      client'.getDetailedSales past key date highwatermarkId := by
  unfold SteamFinancialClient.getDetailedSales request
  dsimp only
  rw [h.isValid, h.classify, (h.body _).parse, h.read]

theorem SamePages.salesServer (h : SamePages client client') (past : List HttpRequest) :
    client.salesServer past = client'.salesServer past := by
  funext sent
  unfold SteamFinancialClient.salesServer
  split
  · exact h.getDetailedSales _ _ _ _
  · rfl

/-- A request that succeeds has parsed the body of its response. -/
theorem request_ok {α : Type} {parse : Bytes → ParseResult × α} {empty : α}
    {past : List HttpRequest} {next : HttpRequest}
    (h : (client.request parse empty past next).1.ok = true) :
    (client.request parse empty past next).2 = (parse (client.get (past ++ [next])).body).2 := by
  unfold request at h ⊢
  split
  · rename_i hvalid
    rw [if_pos hvalid] at h
    cases h
  · rename_i hvalid
    rw [if_neg hvalid] at h
    dsimp only at h ⊢
    split
    · rename_i hfail
      rw [if_pos hfail] at h
      exact absurd h hfail
    · split <;> rfl

/-- The body of the response gives `n` as the member `name`. -/
def Gives (client : SteamFinancialClient) (sent : List HttpRequest) (name : String) (n : Nat) :
    Prop :=
  ∃ response v, Answers (client.read (client.get sent).body) response ∧
    objGet response name = some v ∧ GivesId n v

theorem Gives.maxId {past : List HttpRequest} {key date highwatermarkId : Bytes} {n : Nat}
    (h : client.Gives (past ++ [detailedSalesRequest key date highwatermarkId]) "max_id" n)
    (hok : (client.getDetailedSales past key date highwatermarkId).1.ok = true) :
    (client.getDetailedSales past key date highwatermarkId).2.hasMaxId = true ∧
      (client.getDetailedSales past key date highwatermarkId).2.maxId = decimal n := by
  obtain ⟨response, v, hanswers, hget, hid⟩ := h
  have hpage := request_ok hok
  rw [parseDetailedSalesPage_answers hanswers, hid.getNumberAsString hget] at hpage
  exact ⟨(congrArg DetailedSalesPage.hasMaxId hpage).trans (by simp),
    congrArg DetailedSalesPage.maxId hpage⟩

theorem Gives.page {past : List HttpRequest} {sent : List SalesRequest} {r : SalesRequest} {n : Nat}
    (h : client.Gives (past ++ (sent ++ [r]).map pageRequest) "max_id" n)
    (hok : (client.salesServer past (sent ++ [r])).1.ok = true) :
    (client.salesServer past (sent ++ [r])).2.hasMaxId = true ∧
      (client.salesServer past (sent ++ [r])).2.maxId = decimal n := by
  rw [List.map_append, ← List.append_assoc] at h
  unfold SteamFinancialClient.salesServer at hok ⊢
  rw [List.getLast?_concat, List.dropLast_concat] at hok ⊢
  exact h.maxId hok

theorem Gives.resultHighwatermark {past : List HttpRequest} {key highwatermark : Bytes} {n : Nat}
    (h : client.Gives (past ++ [changedDatesRequest key highwatermark]) "result_highwatermark" n)
    (hok : (client.getChangedDates past key highwatermark).1.ok = true) :
    (client.getChangedDates past key highwatermark).2.resultHighwatermark = decimal n := by
  obtain ⟨response, v, hanswers, hget, hid⟩ := h
  have hchanged := request_ok hok
  rw [parseChangedDates, readResponse_ok_iff.mpr hanswers] at hchanged
  exact (congrArg ChangedDates.resultHighwatermark hchanged).trans (hid.getNumberAsString hget)

end SteamFinancialClient

end SteamSalesTray.Steam
