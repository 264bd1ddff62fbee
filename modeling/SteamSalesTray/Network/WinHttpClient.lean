import SteamSalesTray.Lib.Program
import SteamSalesTray.Steam.Requests

/-! `WinHttpClient::Get`: one HTTPS request, whose body is read in pieces as WinHTTP delivers it and
is held to a limit. -/

namespace SteamSalesTray.Network

open Interaction Steam

/-- The calls of `Get`.  The two of the body loop come with `result.body` as it stands. -/
inductive HttpOp where
  | connect (host : Wide) (port : Nat)
  | openRequest (target : Wide)
  | sendRequest (headers : Wide)
  | receiveResponse
  | queryStatusCode
  | queryDataAvailable (body : Bytes)
  | readData (body : Bytes) (offset toRead : Nat)
  | getLastError

/-- `none` where the call fails.  A read answers the bytes that it has put at the offset. -/
abbrev HttpOp.Answer : HttpOp → Type
  | .connect _ _ | .openRequest _ | .sendRequest _ | .receiveResponse => Bool
  | .queryStatusCode | .queryDataAvailable _ => Option Nat
  | .readData _ _ toRead => Option { chunk : Bytes // chunk.length ≤ toRead }
  | .getLastError => Nat

abbrev HttpProgram := Program HttpOp HttpOp.Answer

abbrev callHttp (op : HttpOp) : HttpProgram op.Answer := Program.perform op

def kReadChunk : Nat := 64 * 1024

def kHeaders : Wide := wide "Accept: application/json" ++ [13, 10] ++ wide "Cache-Control: no-cache"

/-- `std::string::resize`. -/
def resize (text : Bytes) (size : Nat) : Bytes :=
  text.take size ++ List.replicate (size - text.length) 0

@[simp] theorem length_resize (text : Bytes) (size : Nat) : (resize text size).length = size := by
  simp only [resize, List.length_append, List.length_take, List.length_replicate]
  omega

/-- The bytes of a chunk put at the offset of a buffer. -/
def store (buffer : Bytes) (offset : Nat) (chunk : Bytes) : Bytes :=
  buffer.take offset ++ chunk ++ buffer.drop (offset + chunk.length)

def initialResult : HttpResult := ⟨false, 0, 0, false, []⟩

/-- The way out of a call that has failed. -/
def failed (result : HttpResult) : HttpProgram HttpResult := do
  let win32Error ← callHttp .getLastError
  pure { result with transportOk := false, win32Error := win32Error, body := [] }

/-- The body loop. -/
def readBody (maxBytes : Nat) (result : HttpResult) : HttpProgram HttpResult := do
  match ← callHttp (.queryDataAvailable result.body) with
  | none => failed result
  | some available =>
    if available = 0 then pure result
    else
      let toRead := min available kReadChunk
      if maxBytes < result.body.length + toRead then
        pure { result with exceededLimit := true, body := [] }
      else
        let offset := result.body.length
        let buffer := resize result.body (offset + toRead)
        match ← callHttp (.readData buffer offset toRead) with
        | none => failed result
        | some ⟨chunk, _⟩ =>
          let body := resize (store buffer offset chunk) (offset + chunk.length)
          if chunk.length = 0 then pure { result with body := body }
          else readBody maxBytes { result with body := body }
termination_by maxBytes - result.body.length
decreasing_by
  have : 0 < kReadChunk := by decide
  rw [length_resize]
  omega

/-! ### The client -/

structure WinHttpClient where
  session : Bool
  connection : Bool
  connectedHost : Wide
  connectedPort : Nat
deriving DecidableEq, Repr

namespace WinHttpClient

def ensureConnection (client : WinHttpClient) (host : Wide) (port : Nat) :
    HttpProgram (Bool × WinHttpClient) :=
  if client.connection ∧ client.connectedHost = host ∧ client.connectedPort = port then
    pure (true, client)
  else do
    if ← callHttp (.connect host port) then
      pure (true, { client with connection := true, connectedHost := host, connectedPort := port })
    else pure (false, { client with connection := false })

/-- The next step, unless the call before it has failed. -/
def orFailed (ok : Bool) (next : HttpProgram HttpResult) : HttpProgram HttpResult :=
  if ok then next else failed initialResult

def requestTarget (path query : Wide) : Wide :=
  if query.isEmpty then path else path ++ wide "?" ++ query

/-- The result in front of the body.  The status code is a `DWORD`, cast to an `int`. -/
def responseHead (statusCode : Nat) : HttpResult :=
  { initialResult with
    transportOk := true
    statusCode := (statusCode : Int).bmod (2 ^ 32) }

def readResponse (maxBytes : Nat) : HttpProgram HttpResult := do
  match ← callHttp .queryStatusCode with
  | none => failed initialResult
  | some statusCode => readBody maxBytes (responseHead statusCode)

/-- What `Get` does once it is connected.  The target is passed as a C string. -/
def sendAndRead (path query : Wide) (maxBytes : Nat) : HttpProgram HttpResult := do
  let opened ← callHttp (.openRequest ((requestTarget path query).takeWhile (· ≠ 0)))
  orFailed opened do
    let sent ← callHttp (.sendRequest kHeaders)
    orFailed sent do
      let received ← callHttp .receiveResponse
      orFailed received (readResponse maxBytes)

/-- `ERROR_INVALID_HANDLE` without a session. -/
def get (client : WinHttpClient) (host : Wide) (port : Nat) (path query : Wide) (maxBytes : Nat) :
    HttpProgram (HttpResult × WinHttpClient) :=
  if ¬client.session then pure ({ initialResult with win32Error := 6 }, client)
  else do
    let connected ← client.ensureConnection host port
    let result ← orFailed connected.1 (sendAndRead path query maxBytes)
    pure (result, connected.2)

end WinHttpClient

/-! ### What WinHTTP delivers -/

/-- The response to a request: its status, what is left of its body, and whether a call has failed
so far. -/
structure Response where
  statusCode : Nat
  remaining : Bytes
  failed : Bool
deriving DecidableEq, Repr

/-- Whether a call succeeds, how many bytes a query reports or a read gets, and what the error of
the last failure is. -/
structure HttpReply where
  succeeds : Bool
  size : Nat
  error : Nat
deriving DecidableEq, Repr

namespace Response

def after (reply : HttpReply) (s : Response) : Response :=
  { s with failed := s.failed || !reply.succeeds }

def exec (op : HttpOp) (reply : HttpReply) (s : Response) : op.Answer × Response :=
  match op with
  | .connect _ _ | .openRequest _ | .sendRequest _ | .receiveResponse =>
    (reply.succeeds, s.after reply)
  | .queryStatusCode => (if reply.succeeds then some s.statusCode else none, s.after reply)
  | .queryDataAvailable _ => (if reply.succeeds then some reply.size else none, s.after reply)
  | .readData _ _ toRead =>
    if reply.succeeds then
      (some ⟨s.remaining.take (min reply.size toRead), by
        rw [List.length_take]; omega⟩,
        { s with remaining := s.remaining.drop (min reply.size toRead) })
    else (none, s.after reply)
  | .getLastError => (reply.error, s)

/-- A query reports some of the bytes that are left, or 0 at their end.  A read gets at least one
byte and at most those it asks for. -/
def Delivers (op : HttpOp) (reply : HttpReply) (s : Response) : Prop :=
  match op with
  | .queryDataAvailable _ =>
    reply.succeeds = true → reply.size ≤ s.remaining.length ∧ (reply.size = 0 → s.remaining = [])
  | .readData _ _ toRead => reply.succeeds = true → 1 ≤ reply.size ∧ reply.size ≤ toRead
  | _ => True

instance (op : HttpOp) (reply : HttpReply) (s : Response) : Decidable (Delivers op reply s) := by
  cases op <;> (unfold Delivers; infer_instance)

end Response

def httpMachine : Machine HttpOp HttpOp.Answer Response HttpReply Empty :=
  ⟨Response.exec, nofun, id⟩

def httpRules : Rules HttpOp Response HttpReply Empty :=
  ⟨fun _ => True, Response.Delivers, nofun, fun _ => True⟩

instance : DecidablePred httpRules.start := fun _ => .isTrue trivial

instance (op : HttpOp) (reply : HttpReply) (s : Response) : Decidable (httpRules.call op reply s) :=
  inferInstanceAs (Decidable (Response.Delivers op reply s))

instance (move : Empty) (s : Response) : Decidable (httpRules.act move s) := move.elim

instance : DecidablePred httpRules.kill := fun _ => .isTrue trivial

def httpContract : Contract HttpOp HttpOp.Answer Response HttpReply Empty :=
  ⟨httpMachine, httpRules, fun _ => True, nofun⟩

/-! ### The limit -/

/-- The body is within the limit, and a read writes into the end of it. -/
def HttpOp.Fits (maxBytes : Nat) : HttpOp → Prop
  | .queryDataAvailable body => body.length ≤ maxBytes
  | .readData body offset toRead => body.length ≤ maxBytes ∧ offset + toRead = body.length
  | _ => True

theorem failed_fits (maxBytes : Nat) (result : HttpResult) :
    (failed result).Every (HttpOp.Fits maxBytes) := ⟨trivial, fun _ => trivial⟩

theorem readBody_fits (maxBytes : Nat) (result : HttpResult) (h : result.body.length ≤ maxBytes) :
    (readBody maxBytes result).Every (HttpOp.Fits maxBytes) := by
  induction result using readBody.induct maxBytes with
  | case1 result ih =>
    rw [readBody]
    refine Program.Every.bind ⟨h, fun _ => trivial⟩ fun answer => ?_
    rcases answer with _ | available
    · exact failed_fits maxBytes result
    · dsimp only
      split
      · trivial
      · split
        · trivial
        · rename_i hfits
          have hbuffer : result.body.length + min available kReadChunk ≤ maxBytes := by omega
          refine Program.Every.bind ⟨⟨by rwa [length_resize], (length_resize _ _).symm⟩,
            fun _ => trivial⟩ fun answer => ?_
          rcases answer with _ | ⟨chunk, hchunk⟩
          · exact failed_fits maxBytes result
          · dsimp only
            split
            · trivial
            · rename_i hread
              refine ih available hfits chunk hchunk hread ?_
              show (resize _ _).length ≤ maxBytes
              rw [length_resize]
              omega

theorem resize_store (body chunk : Bytes) (toRead : Nat) :
    resize (store (resize body (body.length + toRead)) body.length chunk)
      (body.length + chunk.length) = body ++ chunk := by
  have hbody : (resize body (body.length + toRead)).take body.length = body := by
    rw [resize, List.take_append_of_le_length, List.take_take]
    · simp
    · simp
  rw [store, hbody, resize, List.take_append_of_le_length]
  · simp
  · simp

/-! ### The result -/

/-- After a failed call there is no result, else it has the content if that is within the limit. -/
def Outcome (maxBytes : Nat) (content : Bytes) (result value : HttpResult) (s : Response) : Prop :=
  if s.failed = true then value.transportOk = false ∧ value.exceededLimit = false ∧ value.body = []
  else
    value = { result with
      exceededLimit := decide (maxBytes < content.length)
      body := if maxBytes < content.length then [] else content }

theorem stable_response (P : Response → Prop) : httpContract.Stable P := nofun

theorem failed_spec (maxBytes : Nat) (content : Bytes) {result base : HttpResult}
    (hlimit : result.exceededLimit = false) :
    httpContract.Spec (fun s => s.failed = true) (failed result)
      (Outcome maxBytes content base) := by
  refine Contract.Spec.call (stable_response _) (R := fun _ s => s.failed = true)
    (fun _ _ _ h _ => ⟨trivial, h⟩) fun error => ?_
  refine Contract.Spec.ret (stable_response _) fun s _ h => ?_
  rw [Outcome, if_pos h]
  exact ⟨rfl, hlimit, rfl⟩

/-- What is left of the content after a query. -/
theorem queryDataAvailable_spec (body content : Bytes) :
    httpContract.Spec (fun s => s.failed = false ∧ body ++ s.remaining = content)
      (callHttp (.queryDataAvailable body)) fun answer s => match answer with
        | none => s.failed = true
        | some available => s.failed = false ∧ body ++ s.remaining = content ∧
            available ≤ s.remaining.length ∧ (available = 0 → s.remaining = []) := by
  refine Contract.Spec.perform (stable_response _) (fun _ => stable_response _) ?_
  intro s reply _ h hreply
  refine ⟨trivial, ?_⟩
  cases hsucceeds : reply.succeeds with
  | false => simp [httpContract, httpMachine, Response.exec, Response.after, hsucceeds]
  | true =>
    have hdelivers := hreply hsucceeds
    simpa [httpContract, httpMachine, Response.exec, Response.after, hsucceeds, h] using hdelivers

theorem readData_spec (body content buffer : Bytes) (offset toRead : Nat) :
    httpContract.Spec (fun s => s.failed = false ∧ body ++ s.remaining = content ∧
        toRead ≤ s.remaining.length)
      (callHttp (.readData buffer offset toRead)) fun answer s => match answer with
        | none => s.failed = true
        | some chunk => s.failed = false ∧ (body ++ chunk.val) ++ s.remaining = content ∧
            chunk.val ≠ [] := by
  refine Contract.Spec.perform (stable_response _) (fun _ => stable_response _) ?_
  intro s reply _ h hreply
  refine ⟨trivial, ?_⟩
  cases hsucceeds : reply.succeeds with
  | false => simp [httpContract, httpMachine, Response.exec, Response.after, hsucceeds]
  | true =>
    obtain ⟨hone, hasked⟩ := hreply hsucceeds
    obtain ⟨hfailed, hcontent, hleft⟩ := h
    have hread : min reply.size toRead = reply.size := by omega
    have hchunk : s.remaining.take reply.size ≠ [] := by
      rw [← List.length_pos_iff, List.length_take]
      omega
    simp only [httpContract, httpMachine, Response.exec, hsucceeds, if_true, hread]
    refine ⟨hfailed, ?_, hchunk⟩
    rw [List.append_assoc, List.take_append_drop]
    exact hcontent

/-- The loop gets all of the content, or stops where it can no longer be within the limit. -/
theorem readBody_spec (maxBytes : Nat) (content : Bytes) (result : HttpResult)
    (hlimit : result.exceededLimit = false) (hlength : result.body.length ≤ maxBytes) :
    httpContract.Spec (fun s => s.failed = false ∧ result.body ++ s.remaining = content)
      (readBody maxBytes result) (Outcome maxBytes content result) := by
  induction result using readBody.induct maxBytes with
  | case1 result ih =>
    rw [readBody]
    refine (queryDataAvailable_spec result.body content).bind fun answer => ?_
    rcases answer with _ | available
    · exact failed_spec maxBytes content hlimit
    · dsimp only
      split
      · rename_i hend
        refine Contract.Spec.ret (stable_response _) fun s _ h => ?_
        obtain ⟨hfailed, hcontent, -, hnone⟩ := h
        rw [hnone hend, List.append_nil] at hcontent
        subst hcontent
        rw [Outcome, if_neg (by simp [hfailed]), if_neg (by omega), decide_eq_false (by omega),
          ← hlimit]
      · split
        · rename_i hover
          refine Contract.Spec.ret (stable_response _) fun s _ h => ?_
          obtain ⟨hfailed, hcontent, hleft, -⟩ := h
          have hlong : maxBytes < content.length := by
            rw [← hcontent, List.length_append]
            omega
          rw [Outcome, if_neg (by simp [hfailed]), if_pos hlong, decide_eq_true hlong]
        · rename_i hsome hfits
          refine ((readData_spec result.body content _ _ (min available kReadChunk)).pre
            fun s _ h => ⟨h.1, h.2.1, by omega⟩).bind fun answer => ?_
          rcases answer with _ | ⟨chunk, hchunk⟩
          · exact failed_spec maxBytes content hlimit
          · dsimp only
            rw [resize_store]
            split
            · rename_i hnothing
              exact fun s _ h => absurd (List.length_eq_zero_iff.mp hnothing) h.2.2
            · rename_i hread
              have hnext := ih available hfits chunk hchunk hread
              simp only [resize_store] at hnext
              have hlength' : (result.body ++ chunk).length ≤ maxBytes := by
                rw [List.length_append]
                omega
              exact (hnext hlimit hlength').pre fun s _ h => ⟨h.1, h.2.1⟩

/-- No call has failed, and all of the response is still to come. -/
def Ready (statusCode : Nat) (content : Bytes) (s : Response) : Prop :=
  s.failed = false ∧ s.remaining = content ∧ s.statusCode = statusCode

def Answered (statusCode : Nat) (content : Bytes) (ok : Bool) (s : Response) : Prop :=
  if ok then Ready statusCode content s else s.failed = true

theorem Ready.after {statusCode : Nat} {content : Bytes} {s : Response}
    (h : Ready statusCode content s) (reply : HttpReply) :
    Answered statusCode content reply.succeeds (s.after reply) := by
  cases hsucceeds : reply.succeeds with
  | false => simp [Answered, Response.after, hsucceeds]
  | true => simpa [Answered, Ready, Response.after, hsucceeds] using h

section Get

open WinHttpClient

variable (maxBytes statusCode : Nat) (content : Bytes)

theorem orFailed_spec {ok : Bool} {next : HttpProgram HttpResult}
    (hnext : httpContract.Spec (Ready statusCode content) next
      (Outcome maxBytes content (responseHead statusCode))) :
    httpContract.Spec (Answered statusCode content ok) (orFailed ok next)
      (Outcome maxBytes content (responseHead statusCode)) := by
  cases ok with
  | true => exact hnext
  | false => exact failed_spec maxBytes content rfl

theorem readResponse_spec :
    httpContract.Spec (Ready statusCode content) (readResponse maxBytes)
      (Outcome maxBytes content (responseHead statusCode)) := by
  have hquery : httpContract.Spec (Ready statusCode content) (callHttp .queryStatusCode)
      fun answer s => match answer with
        | none => s.failed = true
        | some status => s.failed = false ∧ s.remaining = content ∧ status = statusCode := by
    refine Contract.Spec.perform (stable_response _) (fun _ => stable_response _) ?_
    intro s reply _ h _
    refine ⟨trivial, ?_⟩
    cases hsucceeds : reply.succeeds with
    | false => simp [httpContract, httpMachine, Response.exec, Response.after, hsucceeds]
    | true =>
      simpa [httpContract, httpMachine, Response.exec, Response.after, hsucceeds, Ready] using h
  refine hquery.bind fun answer => ?_
  rcases answer with _ | status
  · exact failed_spec maxBytes content rfl
  · intro s hs h
    obtain ⟨hfailed, hremaining, rfl⟩ := h
    exact readBody_spec maxBytes content (responseHead status) rfl (Nat.zero_le _) s
      hs ⟨hfailed, hremaining⟩

theorem sendAndRead_spec (path query : Wide) :
    httpContract.Spec (Ready statusCode content) (sendAndRead path query maxBytes)
      (Outcome maxBytes content (responseHead statusCode)) := by
  refine Contract.Spec.bind (R := Answered statusCode content) ?_ fun opened =>
    orFailed_spec maxBytes statusCode content ?_
  · exact Contract.Spec.perform (stable_response _) (fun _ => stable_response _)
      fun s reply _ h _ => ⟨trivial, h.after reply⟩
  refine Contract.Spec.bind (R := Answered statusCode content) ?_ fun sent =>
    orFailed_spec maxBytes statusCode content ?_
  · exact Contract.Spec.perform (stable_response _) (fun _ => stable_response _)
      fun s reply _ h _ => ⟨trivial, h.after reply⟩
  refine Contract.Spec.bind (R := Answered statusCode content) ?_ fun received =>
    orFailed_spec maxBytes statusCode content (readResponse_spec maxBytes statusCode content)
  exact Contract.Spec.perform (stable_response _) (fun _ => stable_response _)
    fun s reply _ h _ => ⟨trivial, h.after reply⟩

theorem ensureConnection_spec (client : WinHttpClient) (host : Wide) (port : Nat) :
    httpContract.Spec (Ready statusCode content) (client.ensureConnection host port)
      fun connected => Answered statusCode content connected.1 := by
  unfold WinHttpClient.ensureConnection
  split
  · exact Contract.Spec.ret (stable_response _) fun _ _ h => h
  · refine Contract.Spec.bind (R := Answered statusCode content) ?_ fun connected => ?_
    · exact Contract.Spec.perform (stable_response _) (fun _ => stable_response _)
        fun s reply _ h _ => ⟨trivial, h.after reply⟩
    · cases connected with
      | true => exact Contract.Spec.ret (stable_response _) fun _ _ h => h
      | false => exact Contract.Spec.ret (stable_response _) fun _ _ h => h

theorem get_spec {client : WinHttpClient} (hsession : client.session = true) (host : Wide)
    (port : Nat) (path query : Wide) :
    httpContract.Spec (Ready statusCode content) (client.get host port path query maxBytes)
      fun value => Outcome maxBytes content (responseHead statusCode) value.1 := by
  rw [WinHttpClient.get, if_neg (by simp [hsession])]
  refine (ensureConnection_spec statusCode content client host port).bind fun connected => ?_
  refine Contract.Spec.bind (orFailed_spec maxBytes statusCode content
    (sendAndRead_spec maxBytes statusCode content path query)) fun result => ?_
  exact Contract.Spec.ret (stable_response _) fun _ _ h => h

end Get

/-! ### The whole request -/

section Fits

open WinHttpClient

variable (maxBytes : Nat)

theorem orFailed_fits {next : HttpProgram HttpResult}
    (h : next.Every (HttpOp.Fits maxBytes)) (ok : Bool) :
    (orFailed ok next).Every (HttpOp.Fits maxBytes) := by
  cases ok with
  | true => exact h
  | false => exact failed_fits maxBytes initialResult

theorem readResponse_fits : (readResponse maxBytes).Every (HttpOp.Fits maxBytes) := by
  refine Program.Every.bind ⟨trivial, fun _ => trivial⟩ fun answer => ?_
  rcases answer with _ | statusCode
  · exact failed_fits maxBytes initialResult
  · exact readBody_fits maxBytes (responseHead statusCode) (Nat.zero_le _)

theorem sendAndRead_fits (path query : Wide) :
    (sendAndRead path query maxBytes).Every (HttpOp.Fits maxBytes) := by
  refine Program.Every.bind ⟨trivial, fun _ => trivial⟩ (orFailed_fits maxBytes ?_)
  refine Program.Every.bind ⟨trivial, fun _ => trivial⟩ (orFailed_fits maxBytes ?_)
  exact Program.Every.bind ⟨trivial, fun _ => trivial⟩
    (orFailed_fits maxBytes (readResponse_fits maxBytes))

theorem ensureConnection_fits (client : WinHttpClient) (host : Wide) (port : Nat) :
    (client.ensureConnection host port).Every (HttpOp.Fits maxBytes) := by
  unfold ensureConnection
  split
  · trivial
  · refine Program.Every.bind ⟨trivial, fun _ => trivial⟩ fun connected => ?_
    cases connected with
    | true => trivial
    | false => trivial

theorem get_fits (client : WinHttpClient) (host : Wide) (port : Nat) (path query : Wide) :
    (client.get host port path query maxBytes).Every (HttpOp.Fits maxBytes) := by
  unfold WinHttpClient.get
  split
  · trivial
  · refine Program.Every.bind (ensureConnection_fits maxBytes client host port) fun connected => ?_
    refine Program.Every.bind (orFailed_fits maxBytes (sendAndRead_fits maxBytes path query) _) ?_
    exact fun _ => trivial

end Fits

/-- A request in which WinHTTP delivers the response as it pleases. -/
def Gets (client : WinHttpClient) (host : Wide) (port : Nat) (path query : Wide) (maxBytes : Nat)
    (s : Response) (result : HttpResult) (s' : Response) : Prop :=
  ∃ es client' c', Execution httpRules httpMachine (client.get host port path query maxBytes)
    ⟨s, none⟩ es (result, client') c' ∧ c'.state = s'

theorem Gets.outcome {client : WinHttpClient} (hsession : client.session = true) {host : Wide}
    {port : Nat} {path query : Wide} {maxBytes : Nat} {s s' : Response} {result : HttpResult}
    (hfailed : s.failed = false) (h : Gets client host port path query maxBytes s result s') :
    Outcome maxBytes s.remaining (WinHttpClient.responseHead s.statusCode) result s' := by
  obtain ⟨es, client', c', hexecution, rfl⟩ := h
  have hspec := get_spec maxBytes s.statusCode s.remaining hsession host port path query
  exact (hspec.execution (K := httpContract) hexecution trivial ⟨hfailed, rfl, rfl⟩).2

/-- The client reports a response as too large exactly if it is over the limit. -/
theorem Gets.classify {client : WinHttpClient} (hsession : client.session = true) {host : Wide}
    {port : Nat} {path query : Wide} {maxBytes : Nat} {s s' : Response} {result : HttpResult}
    (hfailed : s.failed = false) (h : Gets client host port path query maxBytes s result s')
    (financial : SteamFinancialClient) :
    (financial.classify result).kind = .tooLarge ↔
      s'.failed = false ∧ maxBytes < s.remaining.length := by
  have houtcome := h.outcome hsession hfailed
  have hkind : (financial.classify result).kind = .tooLarge ↔ result.exceededLimit = true := by
    unfold SteamFinancialClient.classify
    split
    · simp [*]
    · simp only [*]
      split_ifs <;> simp
  rw [hkind]
  cases hs' : s'.failed with
  | true =>
    rw [Outcome, if_pos hs'] at houtcome
    simp [houtcome.2.1]
  | false =>
    rw [Outcome, if_neg (by simp [hs'])] at houtcome
    rw [houtcome]
    simp

/-- However the body is delivered, `Get` returns, and its buffer stays within the limit.  Without a
failure the result has the whole body, or says that it is over the limit, so that two deliveries
give the same result.  With a failure there is no result. -/
theorem get_body_cap {client : WinHttpClient} (hsession : client.session = true) (host : Wide)
    (port : Nat) (path query : Wide) (maxBytes : Nat) {s : Response} (hfailed : s.failed = false) :
    (client.get host port path query maxBytes).Every (HttpOp.Fits maxBytes) ∧
      (∀ answer : HttpOp → Response → HttpReply, (∀ op s, Response.Delivers op (answer op s) s) →
        ∃ result s', Gets client host port path query maxBytes s result s') ∧
      ∀ result s', Gets client host port path query maxBytes s result s' →
        (s'.failed = false → result.transportOk = true ∧
          (result.exceededLimit = true ↔ maxBytes < s.remaining.length) ∧
          result.body = (if maxBytes < s.remaining.length then [] else s.remaining) ∧
          ∀ result' s'', Gets client host port path query maxBytes s result' s'' →
            s''.failed = false → result' = result) ∧
        (s'.failed = true →
          result.transportOk = false ∧ result.exceededLimit = false ∧ result.body = []) := by
  refine ⟨get_fits maxBytes client host port path query, fun answer hanswer => ?_,
    fun result s' h => ⟨fun hs' => ?_, fun hs' => ?_⟩⟩
  · obtain ⟨es, value, c', h⟩ : ∃ es value c', Execution httpRules httpMachine
        (client.get host port path query maxBytes) ⟨s, none⟩ es value c' :=
      Execution.of_answers hanswer trivial
    exact ⟨value.1, c'.state, es, value.2, c', h, rfl⟩
  · have houtcome := h.outcome hsession hfailed
    rw [Outcome, if_neg (by simp [hs'])] at houtcome
    refine ⟨by rw [houtcome]; rfl, by rw [houtcome]; exact decide_eq_true_iff, by rw [houtcome],
      fun result' s'' h' hs'' => ?_⟩
    have houtcome' := h'.outcome hsession hfailed
    rw [Outcome, if_neg (by simp [hs''])] at houtcome'
    rw [houtcome, houtcome']
  · have houtcome := h.outcome hsession hfailed
    rwa [Outcome, if_pos hs'] at houtcome

/-- Three bytes at the limit, delivered in two pieces. -/
theorem get_body_cap_three :
    Gets ⟨true, false, [], 0⟩ (wide "host") 443 (wide "/path") (wide "key=1") 3
        ⟨200, [7, 8, 9], false⟩ ⟨true, 0, 200, false, [7, 8, 9]⟩ ⟨200, [], false⟩ ∧
      ∀ result s', Gets ⟨true, false, [], 0⟩ (wide "host") 443 (wide "/path") (wide "key=1") 3
        ⟨200, [7, 8, 9], false⟩ result s' → s'.failed = false → result.body = [7, 8, 9] := by
  refine ⟨⟨[0, 0, 0, 0, 0, 3, 2, 1, 1, 0].map fun size => .call ⟨true, size, 0⟩,
    ⟨true, true, wide "host", 443⟩, _, ⟨trivial, by decide, by decide +kernel, rfl,
      by decide +kernel⟩, by decide +kernel⟩, fun result s' h hs' => ?_⟩
  have hcap := @get_body_cap ⟨true, false, [], 0⟩ rfl (wide "host") 443 (wide "/path")
    (wide "key=1") 3 ⟨200, [7, 8, 9], false⟩ rfl
  exact ((hcap.2.2 result s' h).1 hs').2.2.1

end SteamSalesTray.Network
