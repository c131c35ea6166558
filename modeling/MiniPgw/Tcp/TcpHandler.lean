import MiniPgw.Json
import MiniPgw.Session.SessionManager
import MiniPgw.Tcp.Protocol

/-!
# TcpHandler — the commands of a TCP client

`pgw/server/TcpHandler.cpp`, and `createJsonMsg` and `getJsonData` of `TcpSerializer`. `handle` is a
computation on the handler, with the JSON library as a parameter; what else a call finds around it
are its `Surroundings`.
-/

namespace Pgw

open Protocol

/-- What the handler refers to: the session manager, the CDR writer, and the flag that asks the
server to shut down. -/
structure TcpHandler where
  sessionManager : SessionManager
  /-- `m_cdrWriter` is not null. -/
  hasCdrWriter : Bool
  shutdownRequest : Bool

/-- What a call of `handle` finds. -/
structure Surroundings where
  /-- The reading of `steady_clock`. -/
  now : Time
  /-- `m_cdrWriter->getRecentRecords` -/
  getRecentRecords : Nat → Except Fault (List CdrRecord)
  /-- What an uninitialised header field happens to hold. -/
  uninitialised : UInt8

/-- A method of the handler. -/
abbrev TcpHandler.Method := EStateM Fault TcpHandler

namespace TcpSerializer

section
variable (json : JsonLib)

/-- The message that `createJsonMsg` has built when `dump` has returned. -/
def jsonMsg (command : Command) (status : Status) (data : Bytes) : Message where
  header := ⟨PROTOCOL_VERSION, command, status, UInt32.ofNat data.length⟩
  data := data

/-- `createJsonMsg`: `null` makes a message without data, anything else is dumped, which can throw.
-/
def createJsonMsg (command : Command) (status : Status) (jsonData : Json) :
    TcpHandler.Method Message :=
  match jsonData with
  | .null => pure (jsonMsg command status [])
  | _ =>
    match json.dump jsonData with
    | some jsonStr => pure (jsonMsg command status jsonStr)
    | none => throw .exception

/-- `getJsonData`: without data, or with data that is not JSON, there are no parameters. -/
def getJsonData (msg : Message) : Json :=
  if msg.data = [] then .object []
  else (json.parse msg.data).getD (.object [])

end

end TcpSerializer

namespace TcpHandler

open TcpSerializer

/-- A call of the session manager. -/
def onManager {α : Type} (call : SessionManager.Method α) : Method α :=
  Effects.zoom sessionManager (fun m h => { h with sessionManager := m }) call

/-! ## Parameters of a request

`contains || is_string` is what stands in the source. For an object with the key it is true, and for
anything else it is `is_string`. -/

/-- The key `"imsi"`. -/
def imsiKey : Bytes := ascii "imsi"

/-- The key `"limit"`. -/
def limitKey : Bytes := ascii "limit"

/-- How `handleStartSession` and `handleStopSession` read the IMSI. -/
def readImsi (params : Json) : Method Imsi := do
  -- `contains("imsi") || params["imsi"].is_string()`
  let read ←
    if params.contains imsiKey then pure true
    else do
      let value ← params.index imsiKey
      pure value.isString
  if read then do
    let value ← params.index imsiKey
    value.getString
  else pure []

/-- How `handleGetCdr` reads the limit. -/
def readLimit (params : Json) : Method Nat := do
  -- `contains("limit") && params["limit"].is_number()`
  let read ←
    if params.contains limitKey then do
      let value ← params.index limitKey
      pure value.isNumber
    else pure false
  if read then do
    let value ← params.index limitKey
    value.getSize
  else pure ICdrWriter.READ_CDR_LIMIT

/-! ## Replies

Each reply is one JSON document. Its keys and numbers are those of the source. -/

/-- The reply to `GET_STATS`, its keys in the order of a `std::map`. -/
def statsJson (stats : Statistics) : Json :=
  .object [
    (ascii "active_sessions", .numberUnsigned stats.activeSessions),
    (ascii "created_sessions", .numberUnsigned stats.createdSessions),
    (ascii "expired_sessions", .numberUnsigned stats.expiredSessions),
    (ascii "rejected_sessions", .numberUnsigned stats.rejectedSessions),
    (ascii "terminate_sessions", .numberUnsigned stats.terminateSessions),
    (ascii "total_sessions", .numberUnsigned stats.totalSessions),
    (ascii "uptime_seconds", .numberUnsigned stats.uptimeSeconds)]

/-- One session of the next reply: its age in whole seconds and its IMSI. -/
def sessionJson (now : Time) (session : SessionEntry) : Json :=
  .object [
    (ascii "age", .numberInteger ((now - session.2.createdTime).tdiv (seconds 1))),
    (imsiKey, .string session.1)]

/-- The reply to `GET_SESSIONS`. -/
def sessionsJson (now : Time) (activeSessions : List SessionEntry) : Json :=
  .object [
    (ascii "count", .numberUnsigned activeSessions.length),
    (ascii "sessions", .array (activeSessions.map (sessionJson now)))]

/-- One record of the next reply. -/
def recordJson (record : CdrRecord) : Json :=
  .object [
    (ascii "action", .string record.action),
    (imsiKey, .string record.imsi),
    (ascii "timestamp", .string record.timestamp)]

/-- The reply to `GET_CDR`, with the limit that was read. -/
def recordsJson (limit : Nat) (records : List CdrRecord) : Json :=
  .object [
    (ascii "count", .numberUnsigned records.length),
    (limitKey, .numberUnsigned limit),
    (ascii "records", .array (records.map recordJson))]

/-- The reply of the two session commands. -/
def resultJson (result status : Bytes) : Json :=
  .object [(ascii "result", .string result), (ascii "status", .string status)]

/-- The reply to `START_SESSION`, for each result of `createSession`. -/
def startResultJson : CreateResult → Json
  | .CREATED => resultJson (ascii "created") (ascii "success")
  | .REJECTED_BLACKLIST => resultJson (ascii "rejected") (ascii "failed")
  | .ALREADY_EXISTS => resultJson (ascii "exists") (ascii "failed")
  | .SERVICE_UNAVAILABLE | .ERROR => resultJson (ascii "error") (ascii "failed")

/-- The reply to `STOP_SESSION`: whether there was a session to remove. -/
def stopResultJson (removed : Bool) : Json :=
  if removed then resultJson (ascii "deleted") (ascii "success")
  else resultJson (ascii "not_found") (ascii "failed")

/-- The reply to `SHUTDOWN`. -/
def shutdownJson : Json :=
  .object [(ascii "message", .string (ascii "Shutdown request was install"))]

/-! ## Commands

One method for each command, and the `switch` over them. An unknown command is answered with a
header whose version nobody has set. -/

section
variable (json : JsonLib) (around : Surroundings)

/-- `GET_STATS` reads the counters. -/
def handleGetStats : Method Message := do
  let h ← get
  createJsonMsg json .GET_STATS .OK (statsJson (h.sessionManager.getStatistics around.now))

/-- `GET_SESSIONS` reads the table of sessions. -/
def handleGetSessions : Method Message := do
  let h ← get
  createJsonMsg json .GET_SESSIONS .OK (sessionsJson around.now h.sessionManager.sessions.entries)

/-- `GET_CDR` asks the CDR writer, if there is one; it need not be told a limit. -/
def handleGetCdr (params : Json) : Method Message := do
  let h ← get
  if !h.hasCdrWriter then createJsonMsg json .GET_CDR .ERROR .null
  else do
    let limit ← readLimit params
    match around.getRecentRecords limit with
    | .error e => throw e
    | .ok records => createJsonMsg json .GET_CDR .OK (recordsJson limit records)

/-- `START_SESSION`: an IMSI that is not valid is answered without the session manager. -/
def handleStartSession (params : Json) : Method Message := do
  let imsi ← readImsi params
  if imsi = [] ∨ Validation.isValidImsi imsi = false then
    createJsonMsg json .START_SESSION .INVALID_PARAMS .null
  else do
    let result ← onManager (SessionManager.createSession imsi around.now)
    createJsonMsg json .START_SESSION .OK (startResultJson result)

/-- `STOP_SESSION` checks its IMSI in the same way. -/
def handleStopSession (params : Json) : Method Message := do
  let imsi ← readImsi params
  if imsi = [] ∨ Validation.isValidImsi imsi = false then
    createJsonMsg json .STOP_SESSION .INVALID_PARAMS .null
  else do
    let removed ← onManager (SessionManager.terminateSession imsi)
    createJsonMsg json .STOP_SESSION .OK (stopResultJson removed)

/-- `SHUTDOWN` only sets the flag; the event loop looks at it. -/
def handleShutdown : Method Message := do
  modify fun h => { h with shutdownRequest := true }
  createJsonMsg json .SHUTDOWN .OK shutdownJson

/-- `TcpHandler::handle`: the command decides. -/
def handle (request : Message) : Method Message :=
  let command := request.header.command
  if command = .GET_STATS then handleGetStats json around
  else if command = .GET_SESSIONS then handleGetSessions json around
  else if command = .GET_CDR then handleGetCdr json around (getJsonData json request)
  else if command = .START_SESSION then handleStartSession json around (getJsonData json request)
  else if command = .STOP_SESSION then handleStopSession json (getJsonData json request)
  else if command = .SHUTDOWN then handleShutdown json
  -- the `default` branch sets no version
  else pure ⟨⟨around.uninitialised, command, .INVALID_COMMAND, 0⟩, []⟩

end

end TcpHandler
end Pgw
