import SteamSalesTray.Network.WinHttpClient

/-! What a server gets from a client, call by call, over any number of requests: `Get` keeps its
connection from one to the next, and each call can fail. -/

namespace SteamSalesTray.Network

open Interaction Steam

/-! ### The server behind WinHTTP -/

/-- A request as it arrives. -/
structure Arrival where
  host : Wide
  port : Nat
  target : Wide
deriving DecidableEq, Repr

/-- The status and the body that answer the last of the requests that have arrived.  No request is
redirected: WinHTTP would follow a redirect, which the client leaves turned on, with a request that
is not one of these. -/
abbrev WireServer := List Arrival → Nat × Bytes

/-- The connection that is open, how many have been opened, the request under way, what has arrived
at the server, the response, as far as it is not read, and how many calls have failed. -/
structure Wire where
  connection : Option (Wide × Nat)
  connects : Nat
  request : Option Arrival
  arrived : List Arrival
  statusCode : Nat
  remaining : Bytes
  failures : Nat
deriving DecidableEq, Repr

/-- A request can arrive although the call that sends it fails. -/
structure WireReply extends HttpReply where
  arrives : Bool
deriving DecidableEq, Repr

namespace Wire

def initial : Wire := ⟨none, 0, none, [], 0, [], 0⟩

def fail (w : Wire) : Wire := { w with failures := w.failures + 1 }

def after (reply : WireReply) (w : Wire) : Wire := if reply.succeeds then w else w.fail

def opened (request : Arrival) (w : Wire) : Wire := { w with request := some request }

def deliver (request : Arrival) (w : Wire) : Wire := { w with arrived := w.arrived ++ [request] }

def answered (server : WireServer) (w : Wire) : Wire :=
  { w with statusCode := (server w.arrived).1, remaining := (server w.arrived).2 }

/-- The response, where a failure after the first `n` counts. -/
def response (n : Nat) (w : Wire) : Response := ⟨w.statusCode, w.remaining, decide (n < w.failures)⟩

def exec (server : WireServer) (op : HttpOp) (reply : WireReply) (w : Wire) : op.Answer × Wire :=
  match op with
  -- `connection_.Reset()` has closed the last connection.
  | .connect host port =>
    if reply.succeeds then
      (true, { w with connection := some (host, port), connects := w.connects + 1 })
    else (false, { w.fail with connection := none })
  | .openRequest target =>
    match w.connection with
    | some (host, port) =>
      if reply.succeeds then (true, w.opened ⟨host, port, target⟩) else (false, w.fail)
    | none => (false, w.fail)
  | .sendRequest _ =>
    match w.request with
    | some request =>
      if reply.succeeds then (true, w.deliver request)
      else (false, (if reply.arrives then w.deliver request else w).fail)
    | none => (false, w.fail)
  | .receiveResponse =>
    if reply.succeeds then (true, w.answered server) else (false, w.fail)
  | .queryStatusCode => (if reply.succeeds then some w.statusCode else none, w.after reply)
  | .queryDataAvailable _ => (if reply.succeeds then some reply.size else none, w.after reply)
  | .readData _ _ toRead =>
    if reply.succeeds then
      (some ⟨w.remaining.take (min reply.size toRead), by rw [List.length_take]; omega⟩,
        { w with remaining := w.remaining.drop (min reply.size toRead) })
    else (none, w.fail)
  | .getLastError => (reply.error, w)

end Wire

def wireMachine (server : WireServer) : Machine HttpOp HttpOp.Answer Wire WireReply Empty :=
  ⟨Wire.exec server, nofun, id⟩

/-- The body is delivered as `Response.Delivers` says. -/
def wireRules : Rules HttpOp Wire WireReply Empty :=
  ⟨fun _ => True, fun op reply w => Response.Delivers op reply.toHttpReply (w.response 0), nofun,
    fun _ => True⟩

instance : DecidablePred wireRules.start := fun _ => .isTrue trivial

instance (op : HttpOp) (reply : WireReply) (w : Wire) : Decidable (wireRules.call op reply w) :=
  inferInstanceAs (Decidable (Response.Delivers op reply.toHttpReply (w.response 0)))

instance (move : Empty) (w : Wire) : Decidable (wireRules.act move w) := move.elim

instance : DecidablePred wireRules.kill := fun _ => .isTrue trivial

def wireContract (server : WireServer) : Contract HttpOp HttpOp.Answer Wire WireReply Empty :=
  ⟨wireMachine server, wireRules, fun _ => True, nofun⟩

/-! ### The body -/

/-- The calls that read a response. -/
def HttpOp.Reads : HttpOp → Prop
  | .queryStatusCode | .queryDataAvailable _ | .readData _ _ _ | .getLastError => True
  | _ => False

theorem readBody_reads (maxBytes : Nat) (result : HttpResult) :
    (readBody maxBytes result).Every HttpOp.Reads := by
  induction result using readBody.induct maxBytes with
  | case1 result ih =>
    rw [readBody]
    refine Program.Every.bind ⟨trivial, fun _ => trivial⟩ fun answer => ?_
    rcases answer with _ | available
    · exact ⟨trivial, fun _ => trivial⟩
    · dsimp only
      split
      · trivial
      · split
        · trivial
        · rename_i hfits
          refine Program.Every.bind ⟨trivial, fun _ => trivial⟩ fun answer => ?_
          rcases answer with _ | ⟨chunk, hchunk⟩
          · exact ⟨trivial, fun _ => trivial⟩
          · dsimp only
            split
            · trivial
            · rename_i hread
              exact ih available hfits chunk hchunk hread

theorem readResponse_reads (maxBytes : Nat) :
    (WinHttpClient.readResponse maxBytes).Every HttpOp.Reads := by
  refine Program.Every.bind ⟨trivial, fun _ => trivial⟩ fun answer => ?_
  rcases answer with _ | statusCode
  · exact ⟨trivial, fun _ => trivial⟩
  · exact readBody_reads maxBytes (WinHttpClient.responseHead statusCode)

/-- What reading a response leaves as it is. -/
structure SameWire (w w' : Wire) : Prop where
  connection : w'.connection = w.connection
  connects : w'.connects = w.connects
  arrived : w'.arrived = w.arrived
  failures : w.failures ≤ w'.failures

theorem SameWire.refl (w : Wire) : SameWire w w := ⟨rfl, rfl, rfl, Nat.le_refl _⟩

theorem SameWire.fail {w w' : Wire} (h : SameWire w w') : SameWire w w'.fail :=
  ⟨h.connection, h.connects, h.arrived, Nat.le_succ_of_le h.failures⟩

theorem SameWire.after {w w' : Wire} (h : SameWire w w') (reply : WireReply) :
    SameWire w (w'.after reply) := by
  unfold Wire.after
  split
  · exact h
  · exact h.fail

theorem Wire.response_fail {n : Nat} {w : Wire} (h : n ≤ w.failures) :
    w.fail.response n = { w.response n with failed := true } :=
  congrArg (Response.mk w.statusCode w.remaining) (decide_eq_true (Nat.lt_succ_of_le h))

theorem Wire.response_after {n : Nat} {w : Wire} (h : n ≤ w.failures) (reply : WireReply) :
    (w.after reply).response n = (w.response n).after reply.toHttpReply := by
  unfold Wire.after Response.after
  cases reply.succeeds with
  | true => simp
  | false => simpa using Wire.response_fail h

theorem wire_covers (server : WireServer) (w : Wire) :
    (wireContract server).Covers httpContract (Wire.response w.failures) WireReply.toHttpReply
      HttpOp.Reads (SameWire w) where
  act := nofun
  rules op reply s hop hreply _ := by
    cases op with
    | queryStatusCode => trivial
    | queryDataAvailable body => exact hreply
    | readData body offset toRead => exact hreply
    | getLastError => trivial
    | _ => exact hop.elim
  exec op reply s hop _ hs := by
    have hafter := Wire.response_after hs.failures reply
    cases op with
    | queryStatusCode => exact ⟨rfl, hafter⟩
    | queryDataAvailable body => exact ⟨rfl, hafter⟩
    | readData body offset toRead =>
      show (Wire.exec server _ reply s).1 = (Response.exec _ reply.toHttpReply _).1 ∧
        Wire.response _ (Wire.exec server _ reply s).2 = (Response.exec _ reply.toHttpReply _).2
      unfold Wire.after at hafter
      unfold Wire.exec Response.exec
      cases hsucceeds : reply.succeeds with
      | true => exact ⟨rfl, rfl⟩
      | false =>
        rw [hsucceeds, if_neg Bool.false_ne_true] at hafter
        exact ⟨rfl, hafter⟩
    | getLastError => exact ⟨rfl, rfl⟩
    | _ => exact hop.elim
  keeps op reply s hop _ hs := by
    refine ⟨trivial, ?_⟩
    cases op with
    | queryStatusCode => exact hs.after reply
    | queryDataAvailable body => exact hs.after reply
    | readData body offset toRead =>
      show SameWire w (Wire.exec server _ reply s).2
      unfold Wire.exec
      cases reply.succeeds with
      | true => exact ⟨hs.connection, hs.connects, hs.arrived, hs.failures⟩
      | false => exact hs.fail
    | getLastError => exact hs
    | _ => exact hop.elim

/-! ### One request -/

/-- What `Get` makes of an answer. -/
def capped (maxBytes : Nat) (answer : Nat × Bytes) : HttpResult :=
  { WinHttpClient.responseHead answer.1 with
    exceededLimit := decide (maxBytes < answer.2.length)
    body := if maxBytes < answer.2.length then [] else answer.2 }

/-- A request has arrived and is answered, or a call has failed. -/
inductive Exchanged (server : WireServer) (maxBytes : Nat) (request : Arrival) (w w' : Wire)
    (result : HttpResult) : Prop where
  | answered (failures : w'.failures = w.failures) (arrived : w'.arrived = w.arrived ++ [request])
      (given : result = capped maxBytes (server w'.arrived))
  | lost (failures : w.failures < w'.failures)
      (arrived : w'.arrived = w.arrived ∨ w'.arrived = w.arrived ++ [request])
      (given : result.transportOk = false ∧ result.exceededLimit = false)

/-- The same over a connection that is kept. -/
structure Sent (server : WireServer) (maxBytes : Nat) (request : Arrival) (w : Wire)
    (result : HttpResult) (w' : Wire) : Prop where
  connection : w'.connection = w.connection
  connects : w'.connects = w.connects
  exchanged : Exchanged server maxBytes request w w' result

/-- A call has failed. -/
structure Failing (request : Arrival) (w w' : Wire) : Prop where
  connection : w'.connection = w.connection
  connects : w'.connects = w.connects
  failures : w.failures < w'.failures
  arrived : w'.arrived = w.arrived ∨ w'.arrived = w.arrived ++ [request]

section Get

open WinHttpClient

variable (server : WireServer) (maxBytes : Nat) (request : Arrival) (w : Wire)

theorem stable_wire (P : Wire → Prop) : (wireContract server).Stable P := nofun

theorem failed_sent : (wireContract server).Spec (Failing request w) (failed initialResult)
    (Sent server maxBytes request w) :=
  Contract.Spec.call (stable_wire server _) (R := fun _ => Failing request w)
    (fun _ _ _ h _ => ⟨trivial, h⟩) fun _ =>
      Contract.Spec.ret (stable_wire server _) fun _ _ h =>
        ⟨h.connection, h.connects, .lost h.failures h.arrived ⟨rfl, rfl⟩⟩

theorem orFailed_sent {ok : Bool} {next : HttpProgram HttpResult} {R : Wire → Prop}
    (hnext : (wireContract server).Spec R next (Sent server maxBytes request w)) :
    (wireContract server).Spec (fun w' => if ok then R w' else Failing request w w')
      (orFailed ok next) (Sent server maxBytes request w) := by
  cases ok with
  | true => exact hnext
  | false => exact failed_sent server maxBytes request w

/-- The request has arrived, and its response is on the way. -/
def Wire.requested : Wire := ((w.opened request).deliver request).answered server

theorem readResponse_sent : (wireContract server).Spec (· = w.requested server request)
    (readResponse maxBytes) (Sent server maxBytes request w) := by
  have hread := (wire_covers server (w.requested server request)).spec
    (readResponse_reads maxBytes) (readResponse_spec maxBytes
      (server (w.arrived ++ [request])).1 (server (w.arrived ++ [request])).2)
  refine hread.mono ?_ ?_
  · rintro _ - rfl
    exact ⟨trivial, ⟨decide_eq_false (lt_irrefl _), rfl, rfl⟩, SameWire.refl _⟩
  · rintro result w' ⟨houtcome, hsame⟩
    refine ⟨hsame.connection, hsame.connects, ?_⟩
    unfold Outcome at houtcome
    split at houtcome
    · rename_i hfailed
      exact .lost (of_decide_eq_true hfailed) (.inr hsame.arrived) ⟨houtcome.1, houtcome.2.1⟩
    · rename_i hfailed
      have hnone : ¬w.failures < w'.failures := fun h => hfailed (decide_eq_true h)
      refine .answered ?_ hsame.arrived ?_
      · have hfailures : w.failures ≤ w'.failures := hsame.failures
        omega
      · rw [hsame.arrived]
        exact houtcome

theorem openRequest_sent {target : Wide} {host : Wide} {port : Nat}
    (hconnection : w.connection = some (host, port)) (hrequest : request = ⟨host, port, target⟩) :
    (wireContract server).Spec (· = w) (callHttp (.openRequest target)) fun opened w' =>
      if opened then w' = w.opened request else Failing request w w' := by
  refine Contract.Spec.perform (stable_wire server _) (fun _ => stable_wire server _) ?_
  intro s reply _ hs _
  have hexec : (wireContract server).machine.exec (.openRequest target) reply w =
      if reply.succeeds then (true, w.opened request) else (false, w.fail) := by
    simp only [wireContract, wireMachine, Wire.exec, hconnection, hrequest]
  rw [hs, hexec]
  cases reply.succeeds with
  | true => exact ⟨trivial, rfl⟩
  | false => exact ⟨trivial, rfl, rfl, Nat.lt_succ_self _, .inl rfl⟩

theorem sendRequest_sent (headers : Wide) :
    (wireContract server).Spec (· = w.opened request) (callHttp (.sendRequest headers))
      fun sent w' =>
        if sent then w' = (w.opened request).deliver request else Failing request w w' := by
  refine Contract.Spec.perform (stable_wire server _) (fun _ => stable_wire server _) ?_
  rintro _ reply - rfl -
  have hexec : (wireContract server).machine.exec (.sendRequest headers) reply (w.opened request) =
      if reply.succeeds then (true, (w.opened request).deliver request)
      else (false, (if reply.arrives then (w.opened request).deliver request
        else w.opened request).fail) := rfl
  rw [hexec]
  cases reply.succeeds with
  | true => exact ⟨trivial, rfl⟩
  | false =>
    cases reply.arrives with
    | true => exact ⟨trivial, rfl, rfl, Nat.lt_succ_self _, .inr rfl⟩
    | false => exact ⟨trivial, rfl, rfl, Nat.lt_succ_self _, .inl rfl⟩

theorem receiveResponse_sent :
    (wireContract server).Spec (· = (w.opened request).deliver request) (callHttp .receiveResponse)
      fun received w' =>
        if received then w' = w.requested server request else Failing request w w' := by
  refine Contract.Spec.perform (stable_wire server _) (fun _ => stable_wire server _) ?_
  rintro _ reply - rfl -
  have hexec : (wireContract server).machine.exec .receiveResponse reply
      ((w.opened request).deliver request) =
      if reply.succeeds then (true, w.requested server request)
      else (false, ((w.opened request).deliver request).fail) := rfl
  rw [hexec]
  cases reply.succeeds with
  | true => exact ⟨trivial, rfl⟩
  | false => exact ⟨trivial, rfl, rfl, Nat.lt_succ_self _, .inr rfl⟩

theorem sendAndRead_sent (path query : Wide) {host : Wide} {port : Nat}
    (hconnection : w.connection = some (host, port))
    (hrequest : request = ⟨host, port, (requestTarget path query).takeWhile (· ≠ 0)⟩) :
    (wireContract server).Spec (· = w) (sendAndRead path query maxBytes)
      (Sent server maxBytes request w) :=
  (openRequest_sent server request w hconnection hrequest).bind fun _ =>
    orFailed_sent server maxBytes request w <|
      (sendRequest_sent server request w kHeaders).bind fun _ =>
        orFailed_sent server maxBytes request w <|
          (receiveResponse_sent server request w).bind fun _ =>
            orFailed_sent server maxBytes request w (readResponse_sent server maxBytes request w)

/-- The client has a connection to the host. -/
def WinHttpClient.Holds (http : WinHttpClient) (host : Wide) (port : Nat) : Prop :=
  http.connection = true ∧ http.connectedHost = host ∧ http.connectedPort = port

/-- The connection that the client remembers is the one that is open. -/
structure Linked (http : WinHttpClient) (w : Wire) : Prop where
  session : http.session = true
  connection : w.connection =
    if http.connection then some (http.connectedHost, http.connectedPort) else none

/-- What a request makes of the connection. -/
structure Reconnected (host : Wide) (port : Nat) (http : WinHttpClient) (w : Wire)
    (http' : WinHttpClient) (w' : Wire) : Prop where
  linked : Linked http' w'
  kept : http.Holds host port → http' = http ∧ w'.connects = w.connects
  opened : ¬http.Holds host port → (http'.connection = true → http'.Holds host port) ∧
    w'.connects = w.connects + if http'.connection then 1 else 0

theorem Reconnected.congr {host : Wide} {port : Nat} {http http' : WinHttpClient} {w w' w'' : Wire}
    (h : Reconnected host port http w http' w') (hconnection : w''.connection = w'.connection)
    (hconnects : w''.connects = w'.connects) : Reconnected host port http w http' w'' where
  linked := ⟨h.linked.session, hconnection.trans h.linked.connection⟩
  kept hholds := ⟨(h.kept hholds).1, hconnects.trans (h.kept hholds).2⟩
  opened hholds := ⟨(h.opened hholds).1, hconnects.trans (h.opened hholds).2⟩

/-- The way to the host is open, or a call has failed. -/
def Open (host : Wide) (port : Nat) (w : Wire) (connected : Bool) (w' : Wire) : Prop :=
  w'.arrived = w.arrived ∧
    if connected then w'.connection = some (host, port) ∧ w'.failures = w.failures
    else w.failures < w'.failures

variable {w} in
theorem ensureConnection_open {http : WinHttpClient} (hlinked : Linked http w) (host : Wide)
    (port : Nat) :
    (wireContract server).Spec (· = w) (http.ensureConnection host port) fun connected w' =>
      Reconnected host port http w connected.2 w' ∧ Open host port w connected.1 w' := by
  unfold WinHttpClient.ensureConnection
  split
  · rename_i hholds
    refine Contract.Spec.ret (stable_wire server _) ?_
    rintro _ - rfl
    have hconnection := hlinked.connection
    rw [if_pos hholds.1, hholds.2.1, hholds.2.2] at hconnection
    exact ⟨⟨hlinked, fun _ => ⟨rfl, rfl⟩, fun hnot => absurd hholds hnot⟩, rfl, hconnection, rfl⟩
  · rename_i hholds
    refine Contract.Spec.bind (R := fun (connected : Bool) w' =>
      w' = if connected then { w with connection := some (host, port), connects := w.connects + 1 }
        else { w.fail with connection := none }) ?_ fun connected => ?_
    · refine Contract.Spec.perform (stable_wire server _) (fun _ => stable_wire server _) ?_
      intro s reply _ hs _
      have hexec : (wireContract server).machine.exec (.connect host port) reply w =
          if reply.succeeds then
            (true, { w with connection := some (host, port), connects := w.connects + 1 })
          else (false, { w.fail with connection := none }) := rfl
      rw [hs, hexec]
      cases reply.succeeds with
      | true => exact ⟨trivial, rfl⟩
      | false => exact ⟨trivial, rfl⟩
    · cases connected with
      | true =>
        refine Contract.Spec.ret (stable_wire server _) ?_
        rintro _ - rfl
        exact ⟨⟨⟨hlinked.session, rfl⟩, fun h => absurd h hholds,
          fun _ => ⟨fun _ => ⟨rfl, rfl, rfl⟩, rfl⟩⟩, rfl, rfl, rfl⟩
      | false =>
        refine Contract.Spec.ret (stable_wire server _) ?_
        rintro _ - rfl
        exact ⟨⟨⟨hlinked.session, rfl⟩, fun h => absurd h hholds, fun _ => ⟨nofun, rfl⟩⟩, rfl,
          Nat.lt_succ_self _⟩

variable {w} in
/-- The request goes to its own host, whatever the client was connected to. -/
theorem get_exchanged {http : WinHttpClient} (hlinked : Linked http w) (host : Wide) (port : Nat)
    (path query : Wide) :
    (wireContract server).Spec (· = w) (http.get host port path query maxBytes) fun got w' =>
      Reconnected host port http w got.2 w' ∧ Exchanged server maxBytes
        ⟨host, port, (requestTarget path query).takeWhile (· ≠ 0)⟩ w w' got.1 := by
  rw [WinHttpClient.get, if_neg (by simp [hlinked.session])]
  refine (ensureConnection_open server hlinked host port).bind fun connected => ?_
  -- The rest starts from the wire that the connection has left.
  rintro s hs ⟨hreconnected, harrived, hopen⟩
  obtain ⟨ok, http'⟩ := connected
  refine Contract.Spec.bind (P := (· = s)) (R := fun result w' =>
      Reconnected host port http w http' w' ∧ Exchanged server maxBytes
        ⟨host, port, (requestTarget path query).takeWhile (· ≠ 0)⟩ w w' result)
    ?_ (fun result => Contract.Spec.ret (stable_wire server _) fun _ _ h => h) s hs rfl
  cases ok with
  | true =>
    obtain ⟨hconnection, hfailures⟩ := hopen
    refine (sendAndRead_sent server maxBytes _ s path query hconnection rfl).post
      fun result w' hsent => ⟨hreconnected.congr hsent.connection hsent.connects, ?_⟩
    cases hsent.exchanged with
    | answered hf ha hg => exact .answered (hf.trans hfailures) (by rw [ha, harrived]) hg
    | lost hf ha hg => exact .lost (by omega) (by rwa [harrived] at ha) hg
  | false =>
    have hfailed : w.failures < s.failures := hopen
    refine Contract.Spec.call (stable_wire server _) (R := fun _ => (· = s))
      (fun _ _ _ h _ => ⟨trivial, h⟩) fun _ => Contract.Spec.ret (stable_wire server _) ?_
    rintro _ - rfl
    exact ⟨hreconnected, .lost hfailed (.inl harrived) ⟨rfl, rfl⟩⟩

end Get

end SteamSalesTray.Network
