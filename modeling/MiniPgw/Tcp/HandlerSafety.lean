import MiniPgw.Tcp.TcpHandler

/-!
# The requests that the command handler survives

A session command whose payload has no `"imsi"`, or one that is not a string, gets past the test
`contains("imsi") || params["imsi"].is_string()` into an accessor that throws or is undefined
(`readImsi_returns`); the test of `handleGetCdr` on `"limit"` has `&&` there (`readLimit_returns`).
`handlesSafely_iff` is the exact set of requests that are answered, with what does not depend on the
client: a CDR writer that fails, and strings that `dump` does not accept.

## The architecture

* **`readImsi_returns`**, **`readLimit_returns`** — the two tests on the payload, each with
  exactly the parameters that get past it without a fault.
* **`createJsonMsg_returns`** — a reply is built if its JSON can be dumped; the `isUtf8_` lemmas
  say of each kind of reply when that is.
* **`createSession_returns`**, **`terminateSession_returns`** — the writes that can fail on the
  way.
* **`readImsi_preserves`** and the like — up to the call of the manager nothing changes.
* **`sessionCommand_returns`**, **`handleGetCdr_returns`** — the commands, from these.
* **`handlesSafely_iff`** — `Answerable` is what is left, by a case for each command.
-/

namespace Pgw

open Protocol TcpSerializer Effects

/-! ## Calls of the session manager

What the two session commands call, and when these calls return. -/

namespace SessionManager

variable {m : SessionManager}

/-- `createSession` catches what `writeAction` throws, except for a blacklisted IMSI. -/
theorem createSession_returns (imsi : Imsi) (now : Time) :
    Returns (createSession imsi now) m (fun _ _ => True) ↔
      (m.draining = false → imsi ∈ m.blacklist → m.Writes) := by
  unfold Writes
  by_cases hdraining : m.draining = true
  · simp [createSession, hdraining]
  by_cases hblack : imsi ∈ m.blacklist
  · by_cases hthrows : m.cdrWriter.throwsAt m.cdrWriter.calls = true <;>
      simp [createSession, writeAction, hdraining, hblack, hthrows]
  · by_cases hthrows : m.cdrWriter.throwsAt m.cdrWriter.calls = true <;>
      simp [createSession, hasSession, writeAction, UnorderedMap.tryEmplace, hdraining,
        hblack, hthrows]

/-- `terminateSession` writes a record if there is such a session, so it returns if that write does.
-/
theorem terminateSession_returns (imsi : Imsi) :
    Returns (terminateSession imsi) m (fun _ _ => True) ↔ (imsi ∈ m.sessions → m.Writes) := by
  unfold Writes
  by_cases himsi : imsi ∈ m.sessions
  · obtain ⟨data, hdata⟩ := Option.isSome_iff_exists.mp (AList.lookup_isSome.mpr himsi)
    by_cases hthrows : m.cdrWriter.throwsAt m.cdrWriter.calls = true <;>
      simp [terminateSession, deleteSession, writeAction, countTerminated, himsi, hdata, hthrows]
  · simp [terminateSession, himsi, AList.lookup_eq_none.mpr himsi]

end SessionManager

namespace TcpHandler

variable {json : JsonLib} {around : Surroundings} {h : TcpHandler}

/-! ## Reading the parameters

`operator[] const` on a key that is missing is undefined behaviour, and `get` on a value of another
type throws. The check in front of them lets both through. -/

/-- **The IMSI is read exactly when there is a string under `"imsi"`.** -/
theorem readImsi_returns (params : Json) {Q : Imsi → TcpHandler → Prop} :
    Returns (readImsi params) h Q ↔ ∃ imsi, params.find imsiKey = some (.string imsi) ∧
      Q imsi h := by
  cases hfind : params.find imsiKey with
  | none => simp [readImsi, Json.contains, Json.index, hfind]
  | some value =>
    cases value <;> simp [readImsi, Json.contains, Json.index, Json.getString, hfind]

/-- What a request asks for as its limit, with the default; no value for a floating-point number
that is no `size_t`. -/
def limitOf (params : Json) : Option Nat :=
  match params.find limitKey with
  | some (.numberInteger n) => some (n % 2 ^ 64).toNat
  | some (.numberUnsigned n) => some n
  | some (.numberFloat x) => if -1 < x ∧ x < 2 ^ 64 then some ⌊x⌋.toNat else none
  | _ => some ICdrWriter.READ_CDR_LIMIT

/-- The limit is read from any parameters. -/
theorem readLimit_returns (params : Json) {Q : Nat → TcpHandler → Prop} :
    Returns (readLimit params) h Q ↔ ∃ limit, limitOf params = some limit ∧ Q limit h := by
  cases hfind : params.find limitKey with
  | none => simp [readLimit, limitOf, Json.contains, hfind]
  | some value =>
    cases value with
    | numberFloat x =>
      by_cases hrange : -1 < x ∧ x < 2 ^ 64 <;>
        simp [readLimit, limitOf, Json.contains, Json.index, Json.isNumber, Json.getSize, hfind,
          hrange]
    | _ =>
      simp [readLimit, limitOf, Json.contains, Json.index, Json.isNumber, Json.getSize, hfind]

/-! ## Building the reply

`dump` throws on a string that is not UTF-8. Only the IMSIs and the records come from outside. -/

/-- A reply is built exactly when its JSON can be dumped. -/
theorem createJsonMsg_returns (hdump : json.DumpsUtf8) (command : Command) (status : Status)
    (reply : Json) {P : Status → TcpHandler → Prop} :
    Returns (createJsonMsg json command status reply) h (fun r h' => P r.header.status h') ↔
      reply.isUtf8 = true ∧ P status h := by
  unfold createJsonMsg
  split
  · simp [jsonMsg]
  · rw [← hdump reply]
    cases json.dump reply <;> simp [jsonMsg]

/-- The counters can always be dumped, -/
theorem isUtf8_statsJson (stats : Statistics) : (statsJson stats).isUtf8 = true := by
  simp [statsJson]
  decide

/-- the sessions if their IMSIs are UTF-8, -/
theorem isUtf8_sessionsJson (now : Time) (sessions : List SessionEntry) :
    (sessionsJson now sessions).isUtf8 = true ↔ ∀ session ∈ sessions, isUtf8 session.1 = true := by
  have hcount : isUtf8 (ascii "count") = true := by decide
  have hsessions : isUtf8 (ascii "sessions") = true := by decide
  have hage : isUtf8 (ascii "age") = true := by decide
  have himsi : isUtf8 imsiKey = true := by decide
  simp [sessionsJson, sessionJson, hcount, hsessions, hage, himsi]

/-- A record that can be dumped. -/
def RecordUtf8 (record : CdrRecord) : Prop :=
  isUtf8 record.action = true ∧ isUtf8 record.imsi = true ∧ isUtf8 record.timestamp = true

/-- the records if all their fields are, -/
theorem isUtf8_recordsJson (limit : Nat) (records : List CdrRecord) :
    (recordsJson limit records).isUtf8 = true ↔ ∀ record ∈ records, RecordUtf8 record := by
  have hcount : isUtf8 (ascii "count") = true := by decide
  have hrecords : isUtf8 (ascii "records") = true := by decide
  have hlimit : isUtf8 limitKey = true := by decide
  have haction : isUtf8 (ascii "action") = true := by decide
  have himsi : isUtf8 imsiKey = true := by decide
  have htimestamp : isUtf8 (ascii "timestamp") = true := by decide
  simp [recordsJson, recordJson, RecordUtf8, hcount, hrecords, hlimit, haction, himsi, htimestamp]

/-- and the replies of the session commands always, -/
theorem isUtf8_startResultJson (result : CreateResult) :
    (startResultJson result).isUtf8 = true := by
  cases result <;> simp [startResultJson, resultJson] <;> decide

/-- both of them. -/
theorem isUtf8_stopResultJson (removed : Bool) : (stopResultJson removed).isUtf8 = true := by
  cases removed <;> simp [stopResultJson, resultJson] <;> decide

/-! ## What reading and replying leaves as it is

Neither the parameters nor the reply touch the session manager. -/

/-- To build a reply changes nothing in the handler. -/
theorem createJsonMsg_preserves {J : TcpHandler → Prop} (command : Command) (status : Status)
    (reply : Json) : Preserves J (createJsonMsg json command status reply) := by
  unfold createJsonMsg
  split
  · exact preserves_pure _
  · split
    · exact preserves_pure _
    · exact preserves_throw _

/-- `operator[]` on the parameters changes nothing, whether the key is there or not. -/
theorem index_preserves {J : TcpHandler → Prop} (params : Json) (key : Bytes) :
    Preserves J (params.index key : Method Json) := by
  unfold Json.index
  split
  · exact preserves_pure _
  · exact preserves_throw _

/-- Neither does reading the IMSI, -/
theorem readImsi_preserves {J : TcpHandler → Prop} (params : Json) :
    Preserves J (readImsi params) := by
  have hget : ∀ value : Json, Preserves J (value.getString : Method Bytes) := by
    intro value
    cases value with
    | string s => exact preserves_pure s
    | _ => exact preserves_throw _
  have hread : ∀ read : Bool, Preserves J (if read = true then do
        let value ← params.index imsiKey
        value.getString
      else pure [] : Method Imsi) :=
    fun read => Preserves.ite ((index_preserves params imsiKey).bind hget) (preserves_pure [])
  refine Preserves.ite ((preserves_pure true).bind hread) ?_
  exact (index_preserves params imsiKey).bind fun value =>
    (preserves_pure value.isString).bind hread

/-- nor reading the limit. -/
theorem readLimit_preserves {J : TcpHandler → Prop} (params : Json) :
    Preserves J (readLimit params) := by
  have hget : ∀ value : Json, Preserves J (value.getSize : Method Nat) := by
    intro value
    cases value with
    | numberInteger n => exact preserves_pure _
    | numberUnsigned n => exact preserves_pure _
    | numberFloat x => exact Preserves.ite (preserves_pure _) (preserves_throw _)
    | _ => exact preserves_throw _
  have hread : ∀ read : Bool, Preserves J (if read = true then do
        let value ← params.index limitKey
        value.getSize
      else pure ICdrWriter.READ_CDR_LIMIT : Method Nat) :=
    fun read => Preserves.ite ((index_preserves params limitKey).bind hget) (preserves_pure _)
  refine Preserves.ite ?_ ((preserves_pure false).bind hread)
  exact (index_preserves params limitKey).bind fun value =>
    (preserves_pure value.isNumber).bind hread

/-! ## Requests

Command by command: what the request and the state need to satisfy for a reply to come back. -/

/-- The payload carries a string `"imsi"` of exactly 15 decimal digits. -/
def CarriesImsi (json : JsonLib) (request : Message) : Prop :=
  ∃ imsi, (getJsonData json request).find imsiKey = some (.string imsi) ∧
    Validation.isValidImsi imsi = true

/-- A session command without a proper IMSI is refused, and nothing changes. -/
def RefusesBadImsi (json : JsonLib) (h : TcpHandler) (request : Message) (status : Status)
    (h' : TcpHandler) : Prop :=
  request.header.command = .START_SESSION ∨ request.header.command = .STOP_SESSION →
    ¬ CarriesImsi json request →
      status = .INVALID_PARAMS ∧
      h'.sessionManager.sessions = h.sessionManager.sessions ∧
      h'.sessionManager.stats = h.sessionManager.stats ∧
      h'.sessionManager.cdrWriter.entries = h.sessionManager.cdrWriter.entries ∧
      h'.shutdownRequest = h.shutdownRequest

/-- The request is answered, and refused if it is a session command without a proper IMSI. -/
def HandlesSafely (json : JsonLib) (around : Surroundings) (h : TcpHandler) (request : Message) :
    Prop :=
  ∃ response h', (handle json around request).run h = .ok response h' ∧
    RefusesBadImsi json h request response.header.status h'

/-- What a request needs to be answered in this state of the handler. -/
def Answerable (json : JsonLib) (around : Surroundings) (h : TcpHandler) (request : Message) :
    Prop :=
  let command := request.header.command
  let params := getJsonData json request
  let m := h.sessionManager
  if command = .GET_SESSIONS then ∀ session ∈ m.sessions.entries, isUtf8 session.1 = true
  else if command = .GET_CDR then
    h.hasCdrWriter = true →
      ∃ limit records, limitOf params = some limit ∧ around.getRecentRecords limit = .ok records ∧
        ∀ record ∈ records, RecordUtf8 record
  else if command = .START_SESSION then
    ∃ imsi, params.find imsiKey = some (.string imsi) ∧
      (Validation.isValidImsi imsi = true → m.draining = false → imsi ∈ m.blacklist → m.Writes)
  else if command = .STOP_SESSION then
    ∃ imsi, params.find imsiKey = some (.string imsi) ∧
      (Validation.isValidImsi imsi = true → imsi ∈ m.sessions → m.Writes)
  else True

/-- `GET_CDR` is answered if the limit can be converted, the back-end returns its records, and all
of them are UTF-8. -/
theorem handleGetCdr_returns (hdump : json.DumpsUtf8) (params : Json) :
    Returns (handleGetCdr json around params) h (fun _ _ => True) ↔
      (h.hasCdrWriter = true →
        ∃ limit records, limitOf params = some limit ∧ around.getRecentRecords limit = .ok records ∧
          ∀ record ∈ records, RecordUtf8 record) := by
  have hmsg := fun command status reply =>
    createJsonMsg_returns (h := h) hdump command status reply (P := fun _ _ => True)
  cases hwriter : h.hasCdrWriter with
  | false => simp [handleGetCdr, hwriter, hmsg]
  | true =>
    simp only [handleGetCdr, hwriter, ensures_bind, ensures_get, Bool.not_true, Bool.false_eq_true,
      if_false, readLimit_returns, true_implies]
    refine exists_congr fun limit => ?_
    cases hrecords : around.getRecentRecords limit with
    | error e => simp
    | ok records => simp [hmsg, isUtf8_recordsJson]

/-- The part that the two session commands share: after the IMSI has been read, a bad one is
refused, and a proper one goes to `accept`. -/
theorem sessionCommand_returns (hdump : json.DumpsUtf8) (command : Command) (params : Json)
    (accept : Imsi → Method Message) {P : Status → TcpHandler → Prop}
    (hrefuse : (¬ ∃ imsi, params.find imsiKey = some (.string imsi) ∧
      Validation.isValidImsi imsi = true) → P .INVALID_PARAMS h)
    (haccept : (∃ imsi, params.find imsiKey = some (.string imsi) ∧
      Validation.isValidImsi imsi = true) → ∀ status h', P status h') :
    Returns
      (do
        let imsi ← readImsi params
        if imsi = [] ∨ Validation.isValidImsi imsi = false then
          createJsonMsg json command .INVALID_PARAMS .null
        else accept imsi)
      h (fun r h' => P r.header.status h') ↔
      ∃ imsi, params.find imsiKey = some (.string imsi) ∧
        (Validation.isValidImsi imsi = true → Returns (accept imsi) h fun _ _ => True) := by
  simp only [ensures_bind, readImsi_returns]
  refine exists_congr fun imsi => and_congr_right fun hfind => ?_
  cases hvalid : Validation.isValidImsi imsi with
  | false =>
    -- the IMSI is refused before the command is carried out
    have hP : P .INVALID_PARAMS h := hrefuse <| by
      rintro ⟨imsi', hfind', hvalid'⟩
      rw [hfind] at hfind'
      cases hfind'
      exact absurd hvalid' (by simp [hvalid])
    simp [createJsonMsg_returns hdump, hP]
  | true =>
    have hne : imsi ≠ [] := by
      rintro rfl
      exact absurd hvalid (by decide)
    simp [hne, haccept ⟨imsi, hfind, hvalid⟩]

/-- **Which requests are answered.** Every request returns a reply, and a session command without a
proper IMSI is refused without effect, if and only if the payload of a session command is an object
with a string under `"imsi"` and nothing fails that the client has no part in. -/
theorem handlesSafely_iff (hdump : json.DumpsUtf8) (around : Surroundings) (h : TcpHandler)
    (request : Message) :
    HandlesSafely json around h request ↔ Answerable json around h request := by
  have hmsg := fun h command status reply =>
    createJsonMsg_returns (h := h) hdump command status reply (P := fun _ _ => True)
  have hrefuse : ¬ CarriesImsi json request → RefusesBadImsi json h request .INVALID_PARAMS h :=
    fun _ _ _ => ⟨rfl, rfl, rfl, rfl, rfl⟩
  have haccept : CarriesImsi json request → ∀ status h', RefusesBadImsi json h request status h' :=
    fun hcarries _ _ _ hnot => absurd hcarries hnot
  unfold HandlesSafely
  rw [← returns_iff]
  by_cases hstart : request.header.command = .START_SESSION
  · simp +decide only [handle, Answerable, hstart, if_true, if_false]
    refine (sessionCommand_returns hdump .START_SESSION _ _ hrefuse haccept).trans ?_
    simp [onManager, hmsg, isUtf8_startResultJson, SessionManager.createSession_returns]
  by_cases hstop : request.header.command = .STOP_SESSION
  · simp +decide only [handle, Answerable, hstop, if_true, if_false]
    refine (sessionCommand_returns hdump .STOP_SESSION _ _ hrefuse haccept).trans ?_
    simp [onManager, hmsg, isUtf8_stopResultJson, SessionManager.terminateSession_returns]
  -- no other command carries an IMSI
  have hpost : (fun response : Message => RefusesBadImsi json h request response.header.status)
      = fun _ _ => True := by
    funext response h'
    exact eq_true fun hcommand => absurd hcommand (not_or.mpr ⟨hstart, hstop⟩)
  rw [hpost]
  by_cases hstats : request.header.command = .GET_STATS
  · simp +decide [handle, Answerable, hstats, handleGetStats, hmsg, isUtf8_statsJson]
  by_cases hsessions : request.header.command = .GET_SESSIONS
  · simp +decide [handle, Answerable, hsessions, handleGetSessions, hmsg, isUtf8_sessionsJson]
  by_cases hcdr : request.header.command = .GET_CDR
  · simp +decide only [handle, Answerable, hcdr, if_true, if_false]
    exact handleGetCdr_returns hdump _
  by_cases hshutdown : request.header.command = .SHUTDOWN
  · simp +decide [handle, Answerable, hshutdown, handleShutdown, hmsg]
  · simp [handle, Answerable, *]

/-- The handler of a server that has just started. -/
def newHandler : TcpHandler where
  sessionManager := .constructed ⟨[], 0, fun _ => false⟩ ∅ 30 10 0
  hasCdrWriter := true
  shutdownRequest := false

/-- The time is 0, and there are no records. -/
def sampleSurroundings : Surroundings :=
  ⟨0, fun _ => .ok [], 0⟩

/-- The payload of a session command. -/
def samplePayload : Bytes := ascii "\x7b\"imsi\":\"001010000000001\"\x7d"

/-- The text of the reply of a session command. -/
def resultText : Json → Bytes
  | .object [(_, .string result), (_, .string status)] =>
    ascii "\x7b\"result\":\"" ++ result ++ ascii "\",\"status\":\"" ++ status ++ ascii "\"\x7d"
  | _ => []

/-- A JSON library for the requests below. -/
def sampleJson : JsonLib where
  parse payload :=
    if payload = samplePayload then some (.object [(imsiKey, .string (ascii "001010000000001"))])
    else none
  dump reply := if reply.isUtf8 then some (resultText reply) else none

/-- It dumps exactly the replies that are UTF-8, as the library does. -/
theorem dumpsUtf8_sampleJson : sampleJson.DumpsUtf8 := by
  intro reply
  cases h : reply.isUtf8 <;> simp [sampleJson, h]

/-- `START_SESSION` with this payload. -/
def startRequest (payload : Bytes) : Message :=
  jsonMsg .START_SESSION .OK payload

/-- A request with a valid IMSI is answered, and the session is there. -/
theorem handlesSafely_startRequest :
    HandlesSafely sampleJson sampleSurroundings newHandler (startRequest samplePayload) := by
  refine (handlesSafely_iff dumpsUtf8_sampleJson sampleSurroundings newHandler
    (startRequest samplePayload)).mpr ?_
  exact ⟨ascii "001010000000001", rfl, fun _ _ _ => rfl⟩

/-- `START_SESSION` without a payload: `operator[]` is called with a key that the object does not
have. -/
theorem not_handlesSafely_startRequest :
    sampleJson.DumpsUtf8 ∧ ¬ HandlesSafely sampleJson sampleSurroundings newHandler
      (startRequest []) := by
  refine ⟨dumpsUtf8_sampleJson, ?_⟩
  rintro ⟨response, h', hrun, -⟩
  have hundefined : (handle sampleJson sampleSurroundings (startRequest [])).run newHandler
      = .error .undefined newHandler := rfl
  rw [hundefined] at hrun
  cases hrun

end TcpHandler
end Pgw
