import SteamSalesTray.Network.Wire

/-! The requests of the worker over WinHTTP.  However the responses are delivered, and whichever
calls fail, a request either comes to what it comes to where the server is asked directly, or it
reports a failure. -/

namespace SteamSalesTray.Network

open Interaction Steam SteamFinancialClient

/-! ### The requests as programs -/

section Programs

variable (describe : Nat → Wide) (read : Bytes → Option Json)

/-- A request of the client.  Without a session `Get` makes no call. -/
def requestOver {α : Type} (parse : Bytes → ParseResult × α) (empty : α) (next : HttpRequest)
    (http : WinHttpClient) : HttpProgram ((FinancialResult × α) × WinHttpClient) := do
  let got ← http.get next.host next.port next.path next.query next.maxBytes
  pure (request ⟨http.session, fun _ => got.1, describe, read⟩ parse empty [] next, got.2)

def getDetailedSalesOver (key date highwatermarkId : Bytes) :
    WinHttpClient → HttpProgram ((FinancialResult × DetailedSalesPage) × WinHttpClient) :=
  requestOver describe read (parseDetailedSalesPage read) ⟨[], [], false⟩
    (detailedSalesRequest key date highwatermarkId)

/-- The page loop. -/
def fetchPagesOver (key date : Bytes) : Nat → List SalesRequest → Bytes →
    List DetailedSalesRecord → WinHttpClient → HttpProgram (Fetch × WinHttpClient)
  | 0, sent, _, out, http => pure (⟨.succeeded, out, sent⟩, http)
  | pages + 1, sent, requested, out, http => do
    let got ← getDetailedSalesOver describe read key date requested http
    let sent := sent ++ [salesRequest key date requested]
    let r := got.1.1
    let pageResult := got.1.2
    if ¬r.ok then pure (⟨r, out, sent⟩, got.2)
    else
      let out := out ++ pageResult.records
      if ¬pageResult.hasMaxId ∨ pageResult.maxId = requested then
        pure (⟨.succeeded, out, sent⟩, got.2)
      else fetchPagesOver key date pages sent pageResult.maxId out got.2

/-- What the worker asks of the client. -/
inductive Job where
  | changedDates (key highwatermark : Bytes)
  | salesForDate (key date : Bytes)

namespace Job

abbrev Answer : Job → Type
  | .changedDates _ _ => FinancialResult × ChangedDates
  | .salesForDate _ _ => Fetch

def ok : (job : Job) → job.Answer → Bool
  | .changedDates _ _, answer => answer.1.ok
  | .salesForDate _ _, answer => answer.result.ok

def program : (job : Job) → WinHttpClient → HttpProgram (job.Answer × WinHttpClient)
  | .changedDates key highwatermark, http =>
    requestOver describe read (parseChangedDates read) ⟨[], []⟩
      (changedDatesRequest key highwatermark) http
  | .salesForDate key date, http =>
    fetchPagesOver describe read key date kMaxPagesPerDate [] (ascii "0") [] http

/-- The answer of a client that asks its server directly. -/
def directly (client : SteamFinancialClient) : (job : Job) → job.Answer
  | .changedDates key highwatermark => client.getChangedDates [] key highwatermark
  | .salesForDate key date => getAllDetailedSalesForDate (client.salesServer []) key date

/-- The requests of that client. -/
def requests (client : SteamFinancialClient) : Job → List HttpRequest
  | .changedDates key highwatermark => [changedDatesRequest key highwatermark]
  | .salesForDate key date =>
    (getAllDetailedSalesForDate (client.salesServer []) key date).sent.map pageRequest

end Job

end Programs

/-! ### The server asked directly -/

def arrivalOf (r : HttpRequest) : Arrival :=
  ⟨r.host, r.port, (WinHttpClient.requestTarget r.path r.query).takeWhile (· ≠ 0)⟩

/-- The client of a server that has had some requests before. -/
def direct (describe : Nat → Wide) (read : Bytes → Option Json) (server : WireServer)
    (past : List Arrival) : SteamFinancialClient where
  isValid := true
  get requests :=
    match requests.getLast? with
    | some r => capped r.maxBytes (server (past ++ requests.map arrivalOf))
    | none => initialResult
  describeWinHttpError := describe
  read := read

/-- Some requests have arrived and are answered, or a call has failed on the way, and the result
says so. -/
inductive Served (past : List Arrival) (w w' : Wire) (requests : List HttpRequest) (ok : Bool)
    (given : Prop) : Prop where
  | directly (failures : w'.failures = w.failures)
      (arrived : w'.arrived = past ++ requests.map arrivalOf) (given : given)
  | failed (failures : w.failures < w'.failures) (notOk : ok = false) (asked : List HttpRequest)
      (first : asked <+: requests) (arrived : w'.arrived = past ++ asked.map arrivalOf)

/-- The client is connected to Steam or to nothing, and was connected at most once. -/
structure ToSteam (http : WinHttpClient) (w : Wire) : Prop where
  linked : Linked http w
  target : http.connection = true → http.Holds kHost kPort
  connects : w.connects = if http.connection then 1 else 0

theorem ToSteam.reconnected {http http' : WinHttpClient} {w w' : Wire} (h : ToSteam http w)
    (hreconnected : Reconnected kHost kPort http w http' w') : ToSteam http' w' := by
  by_cases hholds : http.Holds kHost kPort
  · obtain ⟨rfl, hconnects⟩ := hreconnected.kept hholds
    exact ⟨hreconnected.linked, h.target, hconnects.trans h.connects⟩
  · obtain ⟨htarget, hconnects⟩ := hreconnected.opened hholds
    refine ⟨hreconnected.linked, htarget, ?_⟩
    have hnone : ¬http.connection = true := fun hopen => hholds (h.target hopen)
    rw [hconnects, h.connects, if_neg hnone, Nat.zero_add]

theorem fetchPages_sent (server : SalesServer) (key date : Bytes) (pages : Nat)
    (sent : List SalesRequest) (requested : Bytes) (out : List DetailedSalesRecord) :
    sent <+: (fetchPages server key date pages sent requested out).sent := by
  induction pages generalizing sent requested out with
  | zero => exact List.prefix_rfl
  | succ pages ih =>
    have hnext : sent <+: sent ++ [salesRequest key date requested] := List.prefix_append _ _
    rw [fetchPages]
    dsimp only
    split
    · exact hnext
    · split
      · exact hnext
      · exact hnext.trans (ih _ _ _)

/-- A loop that may fetch a page asks for it. -/
theorem fetchPages_asks (server : SalesServer) (key date : Bytes) (pages : Nat)
    (sent : List SalesRequest) (requested : Bytes) (out : List DetailedSalesRecord) :
    sent ++ [salesRequest key date requested] <+:
      (fetchPages server key date (pages + 1) sent requested out).sent := by
  rw [fetchPages]
  dsimp only
  split
  · exact List.prefix_rfl
  · split
    · exact List.prefix_rfl
    · exact fetchPages_sent server key date pages _ _ _

section Served

variable {describe : Nat → Wide} {read : Bytes → Option Json} {server : WireServer}
  {past : List Arrival}

theorem direct_get (sent : List HttpRequest) (next : HttpRequest) :
    (direct describe read server past).get (sent ++ [next]) =
      capped next.maxBytes (server (past ++ (sent ++ [next]).map arrivalOf)) := by
  simp only [direct, List.getLast?_concat]

theorem classify_lost {client : SteamFinancialClient} {http : HttpResult}
    (h : http.transportOk = false ∧ http.exceededLimit = false) :
    (client.classify http).ok = false := by
  unfold classify
  rw [h.1, h.2]
  simp only [Bool.false_eq_true, if_false, not_false_eq_true, if_true]
  split <;> rfl

theorem request_served {α : Type} {parse : Bytes → ParseResult × α} {empty : α}
    {next : HttpRequest} (hhost : next.host = kHost) (hport : next.port = kPort)
    {http : WinHttpClient} {w : Wire} (h : ToSteam http w) {sent : List HttpRequest}
    (hw : w.arrived = past ++ sent.map arrivalOf) :
    (wireContract server).Spec (· = w) (requestOver describe read parse empty next http)
      fun got w' => ToSteam got.2 w' ∧ Served past w w' (sent ++ [next]) got.1.1.ok
        (got.1 = (direct describe read server past).request parse empty sent next) := by
  refine (get_exchanged server next.maxBytes h.linked next.host next.port next.path
    next.query).bind fun got => Contract.Spec.ret (stable_wire server _) ?_
  rintro w' - ⟨hreconnected, hexchanged⟩
  rw [hhost, hport] at hreconnected
  refine ⟨h.reconnected hreconnected, ?_⟩
  have harrival : w.arrived ++ [arrivalOf next] = past ++ (sent ++ [next]).map arrivalOf := by
    rw [hw, List.map_append, List.append_assoc]
    rfl
  cases hexchanged with
  | answered hfailures harrived hgiven =>
    have hget : (direct describe read server past).get (sent ++ [next]) = got.1 := by
      rw [direct_get, ← harrival, hgiven, harrived]
      rfl
    refine .directly hfailures (harrived.trans harrival) ?_
    unfold request
    rw [hget, h.linked.session]
    rfl
  | lost hfailures harrived hgiven =>
    have hlost : (request ⟨http.session, fun _ => got.1, describe, read⟩ parse empty [] next).1.ok =
        false := by
      unfold request
      rw [if_neg (by simp [h.linked.session])]
      dsimp only
      rw [classify_lost hgiven, if_pos (by simp)]
      exact classify_lost hgiven
    rcases harrived with harrived | harrived
    · exact .failed hfailures hlost sent (List.prefix_append _ _) (harrived.trans hw)
    · exact .failed hfailures hlost _ List.prefix_rfl (harrived.trans harrival)

theorem pageRequest_salesRequest (key date requested : Bytes) :
    pageRequest (salesRequest key date requested) = detailedSalesRequest key date requested := by
  cases requested <;> rfl

theorem fetchPages_served {key date : Bytes} (pages : Nat) (sent : List SalesRequest)
    (requested : Bytes) (out : List DetailedSalesRecord) {http : WinHttpClient} {w : Wire}
    (h : ToSteam http w) (hw : w.arrived = past ++ (sent.map pageRequest).map arrivalOf) :
    (wireContract server).Spec (· = w)
      (fetchPagesOver describe read key date pages sent requested out http) fun got w' =>
        ToSteam got.2 w' ∧ Served past w w'
          ((fetchPages ((direct describe read server past).salesServer []) key date pages sent
            requested out).sent.map pageRequest) got.1.result.ok
          (got.1 = fetchPages ((direct describe read server past).salesServer []) key date pages
            sent requested out) := by
  -- On the pages that may still be fetched; `hw` says that what was sent so far has arrived.
  induction pages generalizing sent requested out http w with
  | zero =>
    refine Contract.Spec.ret (stable_wire server _) ?_
    rintro _ - rfl
    exact ⟨h, .directly rfl hw rfl⟩
  | succ pages ih =>
    have hrequests : (sent ++ [salesRequest key date requested]).map pageRequest =
        sent.map pageRequest ++ [detailedSalesRequest key date requested] := by
      rw [List.map_append, List.map_singleton, pageRequest_salesRequest]
    have hanswer := salesServer_concat (direct describe read server past) [] sent key date requested
    rw [List.nil_append] at hanswer
    refine (request_served rfl rfl h hw).bind fun got => ?_
    rintro s hs ⟨hsteam, hserved⟩
    cases hserved with
    | failed hfailures hlost asked hasked harrived =>
      -- The loop ends here, while the direct one may go on: its first requests are the same.
      have hprefix := (fetchPages_asks ((direct describe read server past).salesServer []) key date
        pages sent requested out).map pageRequest
      rw [hrequests] at hprefix
      dsimp only
      rw [if_pos (by simp [hlost])]
      refine Contract.Spec.ret (P := (· = s)) (stable_wire server _) ?_ s hs rfl
      rintro _ - rfl
      exact ⟨hsteam, .failed hfailures hlost asked (hasked.trans hprefix) harrived⟩
    | directly hfailures harrived hgiven =>
      have hgot : (direct describe read server past).salesServer []
          (sent ++ [salesRequest key date requested]) = got.1 := hanswer.trans hgiven.symm
      rw [← hrequests] at harrived
      rw [fetchPages]
      dsimp only
      rw [hgot]
      split
      · refine Contract.Spec.ret (P := (· = s)) (stable_wire server _) ?_ s hs rfl
        rintro _ - rfl
        exact ⟨hsteam, .directly hfailures harrived rfl⟩
      · split
        · refine Contract.Spec.ret (P := (· = s)) (stable_wire server _) ?_ s hs rfl
          rintro _ - rfl
          exact ⟨hsteam, .directly hfailures harrived rfl⟩
        · refine (ih _ _ _ hsteam harrived).post ?_ s hs rfl
          rintro value w' ⟨hsteam', hserved'⟩
          refine ⟨hsteam', ?_⟩
          cases hserved' with
          | directly hf ha hg => exact .directly (hf.trans hfailures) ha hg
          | failed hf hn asked hfirst ha => exact .failed (by omega) hn asked hfirst ha

theorem job_served (job : Job) {http : WinHttpClient} {w : Wire} (h : ToSteam http w)
    (hw : w.arrived = past) :
    (wireContract server).Spec (· = w) (job.program describe read http) fun got w' =>
      ToSteam got.2 w' ∧ Served past w w' (job.requests (direct describe read server past))
        (job.ok got.1) (got.1 = job.directly (direct describe read server past)) := by
  have hnone : w.arrived = past ++ ([] : List HttpRequest).map arrivalOf := by
    rw [hw, List.map_nil, List.append_nil]
  cases job with
  | changedDates key highwatermark =>
    exact request_served rfl rfl h hnone
  | salesForDate key date =>
    exact fetchPages_served kMaxPagesPerDate [] (ascii "0") [] h hnone

end Served

/-! ### Any number of requests -/

theorem requests_toSteam (client : SteamFinancialClient) (job : Job) {r : HttpRequest}
    (h : r ∈ job.requests client) : r.host = kHost ∧ r.port = kPort := by
  cases job with
  | changedDates key highwatermark =>
    obtain rfl := List.mem_singleton.mp h
    exact ⟨rfl, rfl⟩
  | salesForDate key date =>
    obtain ⟨r, -, rfl⟩ := List.mem_map.mp h
    exact ⟨rfl, rfl⟩

section Reached

variable (describe : Nat → Wide) (read : Bytes → Option Json) (server : WireServer)

/-- The client and the wire after some jobs, each of them with any failures. -/
inductive Reached : WinHttpClient → Wire → Prop where
  | opened : Reached ⟨true, false, [], 0⟩ .initial
  | job {http : WinHttpClient} {w : Wire} (before : Reached http w) (job : Job)
      {es : List (Event WireReply Empty)} {answer : job.Answer} {http' : WinHttpClient}
      {c : Config HttpOp HttpOp.Answer Wire (job.Answer × WinHttpClient)}
      (executed : Execution wireRules (wireMachine server) (job.program describe read http)
        ⟨w, none⟩ es (answer, http') c) : Reached http' c.state

variable {describe read server}

theorem job_executed {http : WinHttpClient} {w : Wire} (h : ToSteam http w) (job : Job)
    {es : List (Event WireReply Empty)} {answer : job.Answer} {http' : WinHttpClient}
    {c : Config HttpOp HttpOp.Answer Wire (job.Answer × WinHttpClient)}
    (hexecution : Execution wireRules (wireMachine server) (job.program describe read http)
      ⟨w, none⟩ es (answer, http') c) :
    ToSteam http' c.state ∧ Served w.arrived w c.state
      (job.requests (direct describe read server w.arrived)) (job.ok answer)
      (answer = job.directly (direct describe read server w.arrived)) :=
  ((job_served job h rfl).execution (K := wireContract server) hexecution trivial rfl).2

theorem Served.toSteam {past : List Arrival} {w w' : Wire} {client : SteamFinancialClient}
    {job : Job} {ok : Bool} {given : Prop} (h : Served past w w' (job.requests client) ok given)
    (hpast : ∀ r ∈ past, r.host = kHost ∧ r.port = kPort) :
    ∀ r ∈ w'.arrived, r.host = kHost ∧ r.port = kPort := by
  have hnew : ∀ asked, asked <+: job.requests client →
      ∀ r ∈ past ++ asked.map arrivalOf, r.host = kHost ∧ r.port = kPort := by
    intro asked hasked r hr
    rcases List.mem_append.mp hr with hr | hr
    · exact hpast r hr
    · obtain ⟨request, hrequest, rfl⟩ := List.mem_map.mp hr
      exact requests_toSteam client job (hasked.subset hrequest)
  cases h with
  | directly _ harrived _ =>
    rw [harrived]
    exact hnew _ List.prefix_rfl
  | failed _ _ asked hasked harrived =>
    rw [harrived]
    exact hnew asked hasked

theorem Reached.toSteam {http : WinHttpClient} {w : Wire}
    (h : Reached describe read server http w) :
    ToSteam http w ∧ ∀ r ∈ w.arrived, r.host = kHost ∧ r.port = kPort := by
  induction h with
  | opened => exact ⟨⟨⟨rfl, rfl⟩, nofun, rfl⟩, nofun⟩
  | job _ job executed ih =>
    obtain ⟨hsteam, hserved⟩ := job_executed ih.1 job executed
    exact ⟨hsteam, hserved.toSteam ih.2⟩

/-- A request of the worker, after any number of requests with any failed calls, and however the
bodies are delivered: if no call fails, the answer and the requests that arrive are those of a
client that asks its server directly.  If one fails, the answer is a failure, and no more arrives
than the first of these requests.  Every request arrives at Steam, over one connection that is
opened once. -/
theorem transfers_are_direct {http : WinHttpClient} {w : Wire}
    (hreached : Reached describe read server http w) (job : Job)
    {es : List (Event WireReply Empty)} {answer : job.Answer} {http' : WinHttpClient}
    {c : Config HttpOp HttpOp.Answer Wire (job.Answer × WinHttpClient)}
    (hexecution : Execution wireRules (wireMachine server) (job.program describe read http)
      ⟨w, none⟩ es (answer, http') c) :
    (c.state.failures = w.failures →
      answer = job.directly (direct describe read server w.arrived) ∧ c.state.arrived =
        w.arrived ++ (job.requests (direct describe read server w.arrived)).map arrivalOf) ∧
      (c.state.failures ≠ w.failures → job.ok answer = false ∧
        ∃ asked, asked <+: job.requests (direct describe read server w.arrived) ∧
          c.state.arrived = w.arrived ++ asked.map arrivalOf) ∧
      c.state.connects ≤ 1 ∧ ∀ r ∈ c.state.arrived, r.host = kHost ∧ r.port = kPort := by
  obtain ⟨hbefore, hpast⟩ := hreached.toSteam
  obtain ⟨hsteam, hserved⟩ := job_executed hbefore job hexecution
  have hconnects : c.state.connects ≤ 1 := by
    rw [hsteam.connects]
    split <;> omega
  refine ⟨fun hnone => ?_, fun hsome => ?_, hconnects, hserved.toSteam hpast⟩
  · cases hserved with
    | directly _ harrived hgiven => exact ⟨hgiven, harrived⟩
    | failed hfailures => omega
  · cases hserved with
    | directly hfailures => exact absurd hfailures hsome
    | failed _ hnotOk asked hasked harrived => exact ⟨hnotOk, asked, hasked, harrived⟩

end Reached

namespace Sample

/-- A body is the `max_id` of its page. -/
def read (body : Bytes) : Option Json :=
  some (.obj [(ascii "response",
    .obj (if body.isEmpty then [] else [(ascii "max_id", .str body)]))])

/-- The first page sends the client on to another one. -/
def server : WireServer := fun past => (200, if past.length = 1 then ascii "7" else [])

def key : Bytes := ascii "key"

abbrev changed : Job := .changedDates key []

abbrev sales : Job := .salesForDate key (ascii "2026/07/18")

def reply (succeeds : Bool) (size : Nat) : Event WireReply Empty :=
  .call ⟨⟨succeeds, size, 12029⟩, false⟩

/-- No connection can be made. -/
def refused : Config HttpOp HttpOp.Answer Wire (changed.Answer × WinHttpClient) :=
  (wireMachine server).run (changed.program (fun _ => []) read ⟨true, false, [], 0⟩)
    ⟨.initial, none⟩ (.start :: [reply false 0, reply true 0])

/-- Two pages, of one byte and of none. -/
def pages : List (Event WireReply Empty) :=
  [0, 0, 0, 0, 0, 1, 1, 0, 0, 0, 0, 0, 0].map (reply true)

def fetched : Config HttpOp HttpOp.Answer Wire (sales.Answer × WinHttpClient) :=
  (wireMachine server).run (sales.program (fun _ => []) read ⟨true, false, [], 0⟩)
    ⟨refused.state, none⟩ (.start :: pages)

def fetch : Fetch := ⟨.succeeded, [], [salesRequest key (ascii "2026/07/18") (ascii "0"),
  salesRequest key (ascii "2026/07/18") (ascii "7")]⟩

theorem refused_executed : Execution wireRules (wireMachine server)
    (changed.program (fun _ => []) read ⟨true, false, [], 0⟩) ⟨.initial, none⟩
    [reply false 0, reply true 0] ((⟨.offline, 0, []⟩, ⟨[], []⟩), ⟨true, false, [], 0⟩) refused :=
  ⟨trivial, by decide, by decide +kernel, rfl, by decide +kernel⟩

theorem pages_executed : Execution wireRules (wireMachine server)
    (sales.program (fun _ => []) read ⟨true, false, [], 0⟩) ⟨refused.state, none⟩ pages
    (fetch, ⟨true, true, kHost, kPort⟩) fetched :=
  ⟨trivial, by decide, by decide +kernel, rfl, by decide +kernel⟩

end Sample

/-- After a refused connection the pages of a date are fetched. -/
theorem transfers_are_direct_refused :
    Sample.fetch = Sample.sales.directly
        (direct (fun _ => []) Sample.read Sample.server Sample.refused.state.arrived) ∧
      Sample.fetched.state.arrived = Sample.refused.state.arrived ++
        (Sample.sales.requests (direct (fun _ => []) Sample.read Sample.server
          Sample.refused.state.arrived)).map arrivalOf :=
  (transfers_are_direct (.job .opened Sample.changed Sample.refused_executed) Sample.sales
    Sample.pages_executed).1 (by decide +kernel)

end SteamSalesTray.Network
