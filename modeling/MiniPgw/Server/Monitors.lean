import MiniPgw.Http.HttpServer
import MiniPgw.Server.Running
import MiniPgw.Server.Subscribers
import MiniPgw.Session.Records
import MiniPgw.Tcp.HandlerSafety
import MiniPgw.Tcp.SessionReplies

/-!
# What the operators see

A gateway is watched in four ways: `GET_STATS` and `GET_SESSIONS` over TCP, `/check_subscriber` over
HTTP, and the CDR log. `monitors_agree`: in every state that a run of the server reaches while it is
in its loop, the two commands are answered when the loop reads them from a client that it watches,
and the four say the same about the subscribers.

Once the loop is over (`Over`) nothing is answered over TCP, and when it has stopped the server,
what the HTTP server says is `Not Found`.

## The architecture

* **`listed`**, **`Reports`** — the client's side of a reply: which number or which IMSIs it
  shows.
* **`reports_stats`**, **`reports_sessions`** — what the handler reports, when the document can be
  dumped.
* **`answersOverTcp_of_reports`** — through the TCP server, for a client with nothing in its
  buffer, by `handleClientData_run_request`.
* **`monitorsAgree_of_ledgered`** — the four agree in a manager that has kept its ledger;
  **`monitors_agree`** carries it over the runs of the server.
-/

namespace Pgw

open Protocol TcpSerializer Effects

/-! ## Reading a reply

A monitor is read by the keys of its JSON document. What it lists is compared with the manager as
sets and as numbers. -/

/-- The number under a key. -/
def Json.unsignedUnder (j : Json) (key : Bytes) : Option Nat :=
  match j.find key with
  | some (.numberUnsigned n) => some n
  | _ => none

/-- The elements of the array under a key. -/
def Json.elementsUnder (j : Json) (key : Bytes) : List Json :=
  match j.find key with
  | some (.array elements) => elements
  | _ => []

/-- The subscribers that a reply to `GET_SESSIONS` lists. -/
def listed (sessions : Json) : List Imsi :=
  (sessions.elementsUnder (ascii "sessions")).filterMap fun session =>
    session.stringUnder TcpHandler.imsiKey

theorem listed_sessionsJson (now : Time) (entries : List SessionEntry) :
    listed (TcpHandler.sessionsJson now entries) = entries.map Sigma.fst := by
  have hsession : (fun session : Json => session.stringUnder TcpHandler.imsiKey)
      ∘ TcpHandler.sessionJson now = some ∘ Sigma.fst := rfl
  have helements : (TcpHandler.sessionsJson now entries).elementsUnder (ascii "sessions")
      = entries.map (TcpHandler.sessionJson now) := rfl
  rw [listed, helements, List.filterMap_map, hsession, List.filterMap_eq_map]

/-- A character of ASCII is UTF-8. -/
theorem isUtf8_of_ascii (text : Bytes) (hascii : ∀ c ∈ text, c ≤ 0x7F) : isUtf8 text = true := by
  unfold isUtf8
  induction text with
  | nil => rfl
  | cons c text ih =>
    have hlead : continuation c = some (0, 0x80, 0xBF) := if_pos (hascii c List.mem_cons_self)
    rw [isUtf8From, hlead]
    exact ih fun d hd => hascii d (List.mem_cons_of_mem c hd)

namespace TcpHandler

variable {json : JsonLib} {around : Surroundings} {h : TcpHandler}

/-- Every request with this command is answered with `doc`, and changes nothing. -/
def Reports (json : JsonLib) (around : Surroundings) (h : TcpHandler) (command : Command)
    (doc : Json) : Prop :=
  ∀ request : Message, request.header.command = command →
    ∃ reply, (handle json around request).run h = .ok reply h ∧
      reply.header.command = command ∧ reply.header.status = .OK ∧ json.dump doc = some reply.data

/-- A document that can be dumped is what the handler reports. -/
theorem createJsonMsg_run (hdump : json.DumpsUtf8) {doc : Json} (hutf8 : doc.isUtf8 = true)
    (hdoc : doc ≠ .null) (command : Command) :
    ∃ reply : Message, (createJsonMsg json command .OK doc).run h = .ok reply h ∧
      reply.header.command = command ∧ reply.header.status = .OK ∧
      json.dump doc = some reply.data := by
  obtain ⟨text, htext⟩ := Option.isSome_iff_exists.mp ((hdump doc).trans hutf8)
  refine ⟨jsonMsg command .OK text, ?_, rfl, rfl, htext⟩
  cases doc with
  | null => exact absurd rfl hdoc
  | _ => simp [createJsonMsg, htext]

theorem reports_stats (hdump : json.DumpsUtf8) :
    Reports json around h .GET_STATS (statsJson (h.sessionManager.getStatistics around.now)) := by
  intro request hcommand
  simp only [handle, hcommand, if_true]
  exact createJsonMsg_run hdump (isUtf8_statsJson _) (by simp [statsJson]) .GET_STATS

theorem reports_sessions (hdump : json.DumpsUtf8)
    (hutf8 : ∀ session ∈ h.sessionManager.sessions.entries, isUtf8 session.1 = true) :
    Reports json around h .GET_SESSIONS
      (sessionsJson around.now h.sessionManager.sessions.entries) := by
  intro request hcommand
  simp +decide only [handle, hcommand, if_true, if_false]
  exact createJsonMsg_run hdump ((isUtf8_sessionsJson _ _).mpr hutf8) (by simp [sessionsJson])
    .GET_SESSIONS

end TcpHandler

/-! ## Over TCP

A reply goes through `send`, which may take a part of it only. The statements are about the bytes
that the client has received. -/

namespace Server

variable {json : JsonLib} {around : Nat → Surroundings} {s : Server}

/-- **The command is answered over TCP**: a client that the loop watches, with nothing in its
receive buffer, gets a reply with the document `doc` when the loop reads a request with this command
from it, as far as `::send` takes the reply, and what the command handler knows stays as it is. From
a client that it has stopped watching the loop reads nothing, although the server still has it. -/
def AnswersOverTcp (json : JsonLib) (around : Nat → Surroundings) (s : Server) (command : Command)
    (doc : Json) : Prop :=
  ∀ (fd : Nat) (client : ClientContext) (request : Message) (peekIsZero : Bool)
    (sends : Nat → SendOutcome) (taken : Nat),
    s.tcpServer.clients.lookup fd = some client → fd ∈ s.clientsWatched →
    client.readBuffer = [] → request.WellFormed → request.header.command = command →
    sends 0 = .accepted taken →
    ∃ (reply : Message) (s' : Server) (client' : ClientContext),
      turn json around s (.event (.client fd (.packet (serializer request) peekIsZero) sends))
        = some s' ∧
      s'.tcpHandler = s.tcpHandler ∧ s'.tcpServer.clients.lookup fd = some client' ∧
      client'.socket.wire = client.socket.wire ++ (serializer reply).take taken ∧
      reply.header.command = command ∧ reply.header.status = .OK ∧ json.dump doc = some reply.data

/-- What the command handler reports reaches the clients. -/
theorem answersOverTcp_of_reports {command : Command} {doc : Json}
    (h : TcpHandler.Reports json (around s.tcpServer.handler.handled) s.tcpHandler command doc) :
    AnswersOverTcp json around s command doc := by
  intro fd client request peekIsZero sends taken hlookup _ hempty hwf hcommand hsend
  obtain ⟨reply, hrun, hreply⟩ := h request hcommand
  -- the service hands the request to the handler, and counts it
  have hservice : (Service.handle json around request).run s.tcpServer.handler
      = .ok reply { s.tcpServer.handler with handled := s.tcpServer.handler.handled + 1 } := by
    have hrun' : (TcpHandler.handle json (around s.tcpServer.handler.handled) request).run
        s.tcpServer.handler.handler = .ok reply s.tcpServer.handler.handler := hrun
    simp [Service.handle, hrun']
  -- the connection was idle, so the conversation is this request and its reply
  obtain ⟨t, hserved, hclients, hhandler⟩ : ∃ t, (TcpServer.handleClientData
        (Service.handle json around) fd (.packet (serializer request) peekIsZero) sends).run
          s.tcpServer = .ok true t ∧
      t.clients = s.tcpServer.clients.replace fd { client with
        socket.wire := client.socket.wire ++ (serializer reply).take taken
        readBuffer := [] } ∧
      t.handler.handler = s.tcpServer.handler.handler :=
    ⟨_, TcpServer.handleClientData_run_request hlookup hempty hwf hservice hsend peekIsZero,
      rfl, rfl⟩
  have hturn : turn json around s
      (.event (.client fd (.packet (serializer request) peekIsZero) sends))
        = some { s with tcpServer := t } :=
    turn_eq_some.mpr (by simp [take, processEvent, onTcp, hserved])
  refine ⟨reply, _, { client with
    socket.wire := client.socket.wire ++ (serializer reply).take taken
    readBuffer := [] }, hturn, hhandler, ?_, rfl, hreply⟩
  show t.clients.lookup fd = _
  rw [hclients]
  exact UnorderedMap.lookup_replace_self hlookup

end Server

/-! ## The monitors

Three views of one manager: the HTTP server, the two commands over TCP, and the log of the CDR
writer. -/

/-- What the four monitors say about the subscribers, where `stats` and `sessions` are the replies
to `GET_STATS` and `GET_SESSIONS`. -/
structure MonitorsAgree (fits : Httplib.Verb → Bytes → Httplib.Request → Bool) (s : Server)
    (stats sessions : Json) : Prop where
  listedOnce : (listed sessions).Nodup
  count : sessions.unsignedUnder (ascii "count") = some (listed sessions).length
  active : stats.unsignedUnder (ascii "active_sessions") = some (listed sessions).length
  /-- What the HTTP server answers to a check of a subscriber, whether a shutdown has been requested
  or not. -/
  checked : ∀ shutdownRequest req, fits .Get (ascii "/check_subscriber") req = true →
    req.getParamValue (ascii "imsi") ≠ [] → ∀ answer : HttpServer.Answer,
      answer.IsOf (HttpServer.setRoutes.process fits req
          ⟨s.sessionManager, s.httpRunning, shutdownRequest⟩).response ↔
        answer = ⟨.OK, if req.getParamValue (ascii "imsi") ∈ listed sessions then ascii "active"
          else ascii "not active"⟩
  records : ∀ imsi, s.sessionManager.recordsOf imsi ICdrWriter.SESSION_CREATED
    = s.sessionManager.recordsOf imsi ICdrWriter.SESSION_DELETED
      + if imsi ∈ listed sessions then 1 else 0
  created : stats.unsignedUnder (ascii "created_sessions")
    = some (s.sessionManager.recorded ICdrWriter.SESSION_CREATED)
  ended : ∃ expired terminated, stats.unsignedUnder (ascii "expired_sessions") = some expired ∧
    stats.unsignedUnder (ascii "terminate_sessions") = some terminated ∧
    s.sessionManager.recorded ICdrWriter.SESSION_DELETED = expired + terminated
  rejected : stats.unsignedUnder (ascii "rejected_sessions")
    = some (s.sessionManager.recorded ICdrWriter.SESSION_REJECTED)
  total : stats.unsignedUnder (ascii "total_sessions")
    = some (s.sessionManager.recorded ICdrWriter.SESSION_CREATED
      + s.sessionManager.recorded ICdrWriter.SESSION_REJECTED)

namespace Server

variable {json : JsonLib} {around : Nat → Surroundings} {s : Server}
  {fits : Httplib.Verb → Bytes → Httplib.Request → Bool}

/-- The body of the answer to a check of a subscriber. -/
theorem delivered_check (shutdownRequest : Bool) {req : Httplib.Request}
    (hfits : fits .Get (ascii "/check_subscriber") req = true)
    (himsi : req.getParamValue (ascii "imsi") ≠ []) (m : SessionManager) :
    HttpServer.delivered fits ⟨m, true, shutdownRequest⟩ req
      = ⟨.OK, if m.hasSession (req.getParamValue (ascii "imsi")) = true then ascii "active"
        else ascii "not active"⟩ := by
  cases hactive : m.hasSession (req.getParamValue (ascii "imsi")) <;>
    simp [HttpServer.delivered, HttpServer.answer, HttpServer.subscriberAnswer, hfits, himsi,
      hactive]

/-- A manager that keeps its ledger is seen in the same way by all of them, as long as the HTTP
server is running. -/
theorem monitorsAgree_of_ledgered (h : s.sessionManager.Ledgered) (hhttp : s.httpRunning = true)
    (now now' : Time) :
    MonitorsAgree fits s (TcpHandler.statsJson (s.sessionManager.getStatistics now))
      (TcpHandler.sessionsJson now' s.sessionManager.sessions.entries) := by
  have hlisted : ∀ imsi,
      imsi ∈ listed (TcpHandler.sessionsJson now' s.sessionManager.sessions.entries) ↔
        s.sessionManager.hasSession imsi = true := by
    intro imsi
    rw [listed_sessionsJson, SessionManager.hasSession, decide_eq_true_iff]
    rfl
  -- the laws of the ledger, for the log and for the counters
  obtain ⟨es, l, hes, hkeeps⟩ := h
  have hhistory := SessionManager.historyMatches_of_keeps hkeeps (Ledger.consistent_exec hes)
    (Ledger.balanced_exec hes)
  have haccounting := SessionManager.accounting_of_keeps hkeeps (Ledger.balanced_exec hes)
  have hcreated : s.sessionManager.recorded ICdrWriter.SESSION_CREATED
      = s.sessionManager.stats.createdSessions := hhistory.createdRecords now
  have hrejected : s.sessionManager.recorded ICdrWriter.SESSION_REJECTED
      = s.sessionManager.stats.rejectedSessions := hhistory.rejectedRecords now
  -- the list of subscribers, the answers over HTTP, the log of each subscriber, and the counters
  refine ⟨?_, ?_, ?_, fun shutdownRequest req hfits himsi answer => ?_, fun imsi => ?_, ?_,
    ⟨_, _, rfl, rfl, hhistory.deletedRecords now⟩, ?_, ?_⟩
  · rw [listed_sessionsJson]
    exact s.sessionManager.sessions.nodupKeys
  · rw [listed_sessionsJson, List.length_map]
    rfl
  · rw [listed_sessionsJson, List.length_map]
    rfl
  · rw [hhttp, HttpServer.isOf_process_iff, delivered_check shutdownRequest hfits himsi]
    simp only [hlisted]
  · simp only [hlisted]
    exact SessionManager.records_balance ⟨es, l, hes, hkeeps⟩ imsi
  · rw [hcreated]
    rfl
  · rw [hrejected]
    rfl
  · rw [hcreated, hrejected, ← haccounting.total]
    rfl

/-- **The monitors agree.** For a session manager that has just been constructed, a rate that the
configuration accepts and a CDR writer that does not throw: in every state that a run of the loop
reaches before it is over, `GET_STATS` and `GET_SESSIONS` are answered over TCP when the loop reads
them from a client that it watches, with replies that agree with each other, with what the HTTP
server answers about every subscriber, and with the CDR log. What the handler finds around it, its
clock above all, may differ between the two requests. -/
theorem monitors_agree (hdump : json.DumpsUtf8) {w : CdrWriter} (hw : w.Reliable)
    (hnew : w.entries = []) {blacklist : Blacklist} {timeout rate : Int}
    (hvalid : Validation.isValidGracefulShutdownRate rate = true) {start now : Time}
    {service : Service} {socket : Nat}
    (hservice : service.handler.sessionManager = .constructed w blacklist timeout rate start)
    {turns : List Turn}
    (hrun : Run.exec (turn json around) (started service socket now) turns = some s)
    (hin : ¬ s.Over) (before after : Nat → Surroundings)
    (fits : Httplib.Verb → Bytes → Httplib.Request → Bool) :
    ∃ stats sessions, AnswersOverTcp json before s .GET_STATS stats ∧
      AnswersOverTcp json after s .GET_SESSIONS sessions ∧ MonitorsAgree fits s stats sessions := by
  have hmanager : (started service socket now).sessionManager
      = .constructed w blacklist timeout rate start := hservice
  have hstart : (started service socket now).sessionManager.Ledgered := by
    rw [hmanager]
    exact SessionManager.ledgered_constructed hw hnew blacklist timeout hvalid start
  have hledgered : s.sessionManager.Ledgered := by
    have hstep : ∀ u t v, u.sessionManager.Ledgered → turn json around u t = some v →
        v.sessionManager.Ledgered :=
      fun _ _ _ h hturn => turn_keeps SessionManager.ledgered_kept h hturn
    exact Run.exec_invariant hstep hstart hrun
  have hpermitted : SessionManager.Permitted (started service socket now).sessionManager
      s.sessionManager :=
    Run.exec_invariant (fun _ _ _ h hturn => turn_keeps (SessionManager.permitted_kept _) h hturn)
      (SessionManager.Permitted.refl _) hrun
  have hhttp : s.httpRunning = true := by
    have hservers := serversRun_exec hrun
    have hstate : s.state ≠ .STOPPED := fun hstopped => hin (.inr hstopped)
    rw [if_neg hstate, Prod.mk.injEq, Prod.mk.injEq] at hservers
    exact hservers.2.1
  refine ⟨_, _, answersOverTcp_of_reports (TcpHandler.reports_stats hdump),
    answersOverTcp_of_reports (TcpHandler.reports_sessions hdump ?_),
    monitorsAgree_of_ledgered hledgered hhttp _ _⟩
  -- the strings of the reply are IMSIs that have been validated
  intro session hsession
  have hactive := hpermitted.active session.1
    (UnorderedMap.mem_keySet.mpr (UnorderedMap.mem_of_mem_entries hsession))
  rw [hmanager] at hactive
  rcases hactive with hnone | ⟨himsi, -⟩
  · cases hnone
  · obtain ⟨-, hdigits⟩ := (isValidImsi_iff session.1).mp himsi
    exact isUtf8_of_ascii session.1 fun c hc => UInt8.le_trans (hdigits c hc).2 (by decide)

/-! ## A library that prints the replies

As much of a library as the replies need, so that the results can be run. -/

mutual

/-- The text of a value, for integers and strings without special characters. -/
def printed : Json → Bytes
  | .string s => ascii "\"" ++ s ++ ascii "\""
  | .numberInteger n => ascii (toString n)
  | .numberUnsigned n => ascii (toString n)
  | .array elements => ascii "[" ++ printedElements elements ++ ascii "]"
  | .object fields => ascii "\x7b" ++ printedFields fields ++ ascii "\x7d"
  | _ => []

def printedElements : List Json → Bytes
  | [] => []
  | [j] => printed j
  | j :: elements => printed j ++ ascii "," ++ printedElements elements

def printedFields : List (Bytes × Json) → Bytes
  | [] => []
  | [(key, j)] => ascii "\"" ++ key ++ ascii "\":" ++ printed j
  | (key, j) :: fields =>
    ascii "\"" ++ key ++ ascii "\":" ++ printed j ++ ascii "," ++ printedFields fields

end

def printingJson : JsonLib where
  parse := TcpHandler.sampleJson.parse
  dump reply := if reply.isUtf8 then some (printed reply) else none

theorem dumpsUtf8_printingJson : printingJson.DumpsUtf8 := by
  intro reply
  cases h : reply.isUtf8 <;> simp [printingJson, h]

/-- A command client connects, one subscriber attaches, and the session of another one has
expired. -/
def watchedRun : List Turn :=
  [.event (.tcp (.connected 5 6)), .event (.udp [.packet (ascii "001010000000001") 7 0 false]),
    .cleanup (seconds 30) (seconds 30),
    .event (.udp [.packet (ascii "001010000000002") 7 (seconds 30) false])]

/-- A request without a payload. -/
def statsRequest : Message :=
  ⟨⟨PROTOCOL_VERSION, .GET_STATS, .OK, 0⟩, []⟩

theorem monitors_agree_watchedRun : ∃ s s' stats sessions client reply,
    Run.exec (turn printingJson sampleAround) (started newService 3 0) watchedRun = some s ∧
      turn printingJson sampleAround s (.event (.client 5 (.packet (serializer statsRequest) false)
        fun _ => .accepted 400)) = some s' ∧
      s'.tcpServer.clients.lookup 5 = some client ∧
      client.socket.wire = (serializer reply).take 400 ∧ printingJson.dump stats = some reply.data ∧
      stats.unsignedUnder (ascii "created_sessions") = some 2 ∧
      ascii "001010000000002" ∈ listed sessions ∧ ascii "001010000000001" ∉ listed sessions := by
  -- what the run leads to is evaluated once
  have hreached : (Run.exec (turn printingJson sampleAround) (started newService 3 0)
      watchedRun).map
      (fun s : Server => (s.state, s.left, s.clientsWatched, s.tcpServer.clients.lookup 5,
        [s.sessionManager.recorded ICdrWriter.SESSION_CREATED,
          s.sessionManager.recordsOf (ascii "001010000000001") ICdrWriter.SESSION_CREATED,
          s.sessionManager.recordsOf (ascii "001010000000001") ICdrWriter.SESSION_DELETED,
          s.sessionManager.recordsOf (ascii "001010000000002") ICdrWriter.SESSION_CREATED,
          s.sessionManager.recordsOf (ascii "001010000000002") ICdrWriter.SESSION_DELETED]))
      = some (.RUNNING, false, {5}, some ⟨⟨5, []⟩, [], [], false⟩, [2, 1, 1, 1, 0]) := by
    decide +kernel
  obtain ⟨s, hrun, hs⟩ := Option.map_eq_some_iff.mp hreached
  simp only [Prod.mk.injEq, List.cons.injEq] at hs
  obtain ⟨hstate, hleft, hwatched, hclient, hcreated, hfirst, hfirst', hsecond, hsecond', -⟩ := hs
  have hruns : ¬ s.Over := by
    rw [Over, hstate, hleft]
    decide
  -- the reply to the request of the statistics, cut at 400 bytes
  obtain ⟨stats, sessions, hstats, -, hagree⟩ := monitors_agree dumpsUtf8_printingJson
    (fun _ => rfl) rfl (by decide) rfl hrun hruns sampleAround sampleAround HttpServer.fitsExactly
  obtain ⟨reply, s', client, hturn, -, hlookup, hwire, -, -, hdump⟩ :=
    hstats 5 ⟨⟨5, []⟩, [], [], false⟩ statsRequest false (fun _ => .accepted 400) 400 hclient
      (by simp [hwatched]) rfl ⟨rfl, rfl⟩ rfl rfl
  have hcount := hagree.created
  rw [hcreated] at hcount
  refine ⟨s, s', stats, sessions, client, reply, hrun, hturn, hlookup, hwire, hdump, hcount, ?_, ?_⟩
  · -- two records each: created and deleted again, or created and still listed
    by_contra hnot
    have hrecords := hagree.records (ascii "001010000000002")
    rw [hsecond, hsecond', if_neg hnot] at hrecords
    cases hrecords
  · intro hin
    have hrecords := hagree.records (ascii "001010000000001")
    rw [hfirst, hfirst', if_pos hin] at hrecords
    cases hrecords

end Server
end Pgw
