import MiniPgw.Session.Refinement
import MiniPgw.Tcp.HandlerSafety

/-!
# What the replies say about the sessions

A reply carries a `"result"` only when it answers a session command with a valid IMSI, and then the
result says what the session manager has done (`truthful_of_handle`). The peer reads the result
with the JSON parser, so the printer and the parser must agree on the strings of an object
(`JsonLib.KeepsStrings`).

## The architecture

* **`resultOf`**, **`resultOf_jsonMsg`** — the peer's side: printing and parsing lose no result.
* **`Truthful`**, **`truthful_of_unrelated`** — a reply without a result says nothing, so it is
  truthful as soon as the sessions are as they were.
* **`truthful_start`**, **`truthful_stop`** — the two commands, over the ways in which
  `createSession` and `terminateSession` end.
* **`sessionCommand_truthful`** — what they share: the IMSI is read first.
* **`truthful_of_handle`** — every command, by a case for each.
-/

namespace Pgw

open Protocol TcpSerializer Effects

/-- The string under a key. -/
def Json.stringUnder (j : Json) (key : Bytes) : Option Bytes :=
  match j.find key with
  | some (.string s) => some s
  | _ => none

/-- The parser finds in a printed object the strings that are there, under the same keys. -/
def JsonLib.KeepsStrings (json : JsonLib) : Prop :=
  ∀ fields text, (fields.map Prod.fst).Nodup → json.dump (.object fields) = some text →
    text ≠ [] ∧ ∃ j, json.parse text = some j ∧
      ∀ key, j.stringUnder key = (Json.object fields).stringUnder key

namespace TcpHandler

variable {json : JsonLib} {around : Surroundings} {h h' : TcpHandler} {request response : Message}

/-- The IMSIs with a session. -/
def active (h : TcpHandler) : Finset Imsi :=
  h.sessionManager.sessions.keySet

/-- What the peer finds under `"result"`. -/
def resultOf (json : JsonLib) (response : Message) : Option Bytes :=
  (getJsonData json response).stringUnder (ascii "result")

/-- The payload carries the valid IMSI `imsi`. -/
def Names (json : JsonLib) (request : Message) (imsi : Imsi) : Prop :=
  (getJsonData json request).find imsiKey = some (.string imsi) ∧
    Validation.isValidImsi imsi = true

/-- The request is this command, with a valid IMSI that satisfies `P`. -/
def Asks (json : JsonLib) (request : Message) (command : Command) (P : Imsi → Prop) : Prop :=
  request.header.command = command ∧ ∃ imsi, Names json request imsi ∧ P imsi

/-- The reply to `request` tells what has become of the sessions. -/
structure Truthful (json : JsonLib) (h : TcpHandler) (request response : Message)
    (h' : TcpHandler) : Prop where
  changes : h'.active ≠ h.active ↔
    resultOf json response = some (ascii "created") ∨
      resultOf json response = some (ascii "deleted")
  adds : resultOf json response = some (ascii "created") →
    ∃ imsi, Names json request imsi ∧ h'.active = insert imsi h.active
  removes : resultOf json response = some (ascii "deleted") →
    ∃ imsi, Names json request imsi ∧ h'.active = h.active.erase imsi
  created : resultOf json response = some (ascii "created") ↔
    Asks json request .START_SESSION fun imsi => imsi ∉ h.active ∧
      imsi ∉ h.sessionManager.blacklist ∧ h.sessionManager.draining = false
  deleted : resultOf json response = some (ascii "deleted") ↔
    Asks json request .STOP_SESSION fun imsi => imsi ∈ h.active
  existing : resultOf json response = some (ascii "exists") ↔
    Asks json request .START_SESSION fun imsi => imsi ∈ h.active ∧
      imsi ∉ h.sessionManager.blacklist ∧ h.sessionManager.draining = false
  rejected : resultOf json response = some (ascii "rejected") ↔
    Asks json request .START_SESSION fun imsi =>
      imsi ∈ h.sessionManager.blacklist ∧ h.sessionManager.draining = false
  error : resultOf json response = some (ascii "error") ↔
    Asks json request .START_SESSION fun _ => h.sessionManager.draining = true
  not_found : resultOf json response = some (ascii "not_found") ↔
    Asks json request .STOP_SESSION fun imsi => imsi ∉ h.active
  blacklist : h'.sessionManager.blacklist = h.sessionManager.blacklist
  shutdown : h.shutdownRequest = false → h'.shutdownRequest = true →
    request.header.command = .SHUTDOWN

/-! ## Reading a result

The peer parses the JSON of a reply and looks under `"result"`. -/

/-- What the client reads under `"result"` is what the handler has put there. -/
theorem resultOf_jsonMsg (hjson : json.KeepsStrings) {fields : List (Bytes × Json)} {text : Bytes}
    (hkeys : (fields.map Prod.fst).Nodup) (hdump : json.dump (.object fields) = some text)
    (command : Command) (status : Status) :
    resultOf json (jsonMsg command status text)
      = (Json.object fields).stringUnder (ascii "result") := by
  obtain ⟨hne, j, hparse, hstrings⟩ := hjson fields text hkeys hdump
  have hdata : getJsonData json (jsonMsg command status text) = j := by
    rw [getJsonData, jsonMsg, if_neg hne, hparse]
    rfl
  rw [resultOf, hdata, hstrings]

/-- A reply with a JSON object carries the result of that object. -/
theorem createJsonMsg_result (hjson : json.KeepsStrings) {fields : List (Bytes × Json)}
    (hkeys : (fields.map Prod.fst).Nodup) (command : Command) (status : Status) :
    Ensures (createJsonMsg json command status (.object fields)) h
      (fun response h' =>
        resultOf json response = (Json.object fields).stringUnder (ascii "result") ∧ h' = h)
      fun _ _ => True := by
  unfold createJsonMsg
  cases hdump : json.dump (.object fields) with
  | none => trivial
  | some text => exact ⟨resultOf_jsonMsg hjson hkeys hdump command status, rfl⟩

/-! ## Replies without a result

The requests that are not about a session: they leave the table alone, and their replies say nothing
about it. -/

/-- The request is no session command, or one that carries no valid IMSI. -/
def Unrelated (json : JsonLib) (request : Message) : Prop :=
  ∀ command P, command = .START_SESSION ∨ command = .STOP_SESSION → ¬ Asks json request command P

/-- An unrelated request that leaves the manager alone and is answered without a result. -/
theorem truthful_of_unrelated (hunrelated : Unrelated json request)
    (hresult : resultOf json response = none) (hmanager : h'.sessionManager = h.sessionManager)
    (hshutdown : h'.shutdownRequest = h.shutdownRequest ∨ request.header.command = .SHUTDOWN) :
    Truthful json h request response h' where
  changes := by simp [hresult, active, hmanager]
  adds := by simp [hresult]
  removes := by simp [hresult]
  created := by simp [hresult, hunrelated .START_SESSION _ (.inl rfl)]
  deleted := by simp [hresult, hunrelated .STOP_SESSION _ (.inr rfl)]
  existing := by simp [hresult, hunrelated .START_SESSION _ (.inl rfl)]
  rejected := by simp [hresult, hunrelated .START_SESSION _ (.inl rfl)]
  error := by simp [hresult, hunrelated .START_SESSION _ (.inl rfl)]
  not_found := by simp [hresult, hunrelated .STOP_SESSION _ (.inr rfl)]
  blacklist := by rw [hmanager]
  shutdown := by
    intro hfalse htrue
    rcases hshutdown with hsame | hcommand
    · simp [hsame, hfalse] at htrue
    · exact hcommand

/-- What is ensured by building a reply without a result. -/
theorem unrelated_reply (hjson : json.KeepsStrings) (hunrelated : Unrelated json request)
    {fields : List (Bytes × Json)} (hkeys : (fields.map Prod.fst).Nodup)
    (hnone : (Json.object fields).stringUnder (ascii "result") = none) (command : Command)
    (status : Status) (hmanager : h'.sessionManager = h.sessionManager)
    (hshutdown : h'.shutdownRequest = h.shutdownRequest ∨ request.header.command = .SHUTDOWN) :
    Ensures (createJsonMsg json command status (.object fields)) h' (Truthful json h request)
      fun _ _ => True := by
  refine (createJsonMsg_result hjson hkeys command status).mono ?_ fun _ _ _ => trivial
  rintro response _ ⟨hresult, rfl⟩
  exact truthful_of_unrelated hunrelated (hresult.trans hnone) hmanager hshutdown

/-! ## The two session commands

What `createSession` and `terminateSession` return goes into the reply word for word. -/

/-- A request names one IMSI at most, -/
theorem Names.unique {imsi imsi' : Imsi} (h₁ : Names json request imsi)
    (h₂ : Names json request imsi') : imsi' = imsi := by
  have heq := h₁.1.symm.trans h₂.1
  simpa using heq.symm

/-- so that a question about the IMSI of a request is one about this IMSI, -/
theorem Names.asks_iff {imsi : Imsi} (hnames : Names json request imsi) (command : Command)
    (P : Imsi → Prop) :
    Asks json request command P ↔ request.header.command = command ∧ P imsi := by
  refine and_congr_right fun _ => ⟨?_, fun hP => ⟨imsi, hnames, hP⟩⟩
  rintro ⟨imsi', hnames', hP⟩
  rwa [hnames.unique hnames'] at hP

/-- with or without the command. -/
theorem Names.exists_iff {imsi : Imsi} (hnames : Names json request imsi) (P : Imsi → Prop) :
    (∃ imsi', Names json request imsi' ∧ P imsi') ↔ P imsi := by
  refine ⟨?_, fun hP => ⟨imsi, hnames, hP⟩⟩
  rintro ⟨imsi', hnames', hP⟩
  rwa [hnames.unique hnames'] at hP

/-- The text under `"result"` for each way `createSession` ends. -/
def startResult : CreateResult → Bytes
  | .CREATED => ascii "created"
  | .REJECTED_BLACKLIST => ascii "rejected"
  | .ALREADY_EXISTS => ascii "exists"
  | .SERVICE_UNAVAILABLE | .ERROR => ascii "error"

/-- The replies of both commands have the same two keys: -/
theorem startResultJson_eq (result : CreateResult) :
    ∃ status, startResultJson result = resultJson (startResult result) status := by
  cases result <;> exact ⟨_, rfl⟩

/-- a result and a status. -/
theorem stopResultJson_eq (removed : Bool) :
    ∃ status, stopResultJson removed
      = resultJson (if removed then ascii "deleted" else ascii "not_found") status := by
  cases removed <;> exact ⟨_, rfl⟩

/-- **START_SESSION.** Each of the four ways `createSession` can end has its own result. -/
theorem truthful_start (hw : h.sessionManager.cdrWriter.Reliable) {imsi : Imsi} {now : Time}
    (hcommand : request.header.command = .START_SESSION) (hnames : Names json request imsi)
    {result : CreateResult} {m : SessionManager}
    (hrun : (SessionManager.createSession imsi now).run h.sessionManager = .ok result m)
    (hresult : resultOf json response = some (startResult result)) :
    Truthful json h request response { h with sessionManager := m } := by
  rw [SessionManager.createSession_run (hw _)] at hrun
  by_cases hdraining : h.sessionManager.draining = true
  · rw [if_pos hdraining] at hrun
    cases hrun
    constructor <;>
      simp +decide [hresult, startResult, hnames.asks_iff, hcommand, hdraining, active]
  rw [if_neg hdraining] at hrun
  by_cases hblack : imsi ∈ h.sessionManager.blacklist
  · rw [if_pos hblack] at hrun
    cases hrun
    constructor <;>
      simp +decide [hresult, startResult, hnames.asks_iff, hcommand, hdraining, hblack, active,
        SessionManager.rejected, SessionManager.wrote]
  rw [if_neg hblack] at hrun
  by_cases himsi : imsi ∈ h.sessionManager.sessions
  · rw [if_pos himsi] at hrun
    cases hrun
    constructor <;>
      simp +decide [hresult, startResult, hnames.asks_iff, hcommand, hdraining, hblack, himsi,
        active]
  · rw [if_neg himsi] at hrun
    cases hrun
    -- the session is created: this IMSI becomes active, and no other
    have hinsert : active { h with sessionManager := h.sessionManager.created imsi now }
        = insert imsi h.active := UnorderedMap.keySet_insert _ _ _
    have hnotin : imsi ∉ h.active := by rwa [active, UnorderedMap.mem_keySet]
    have hblacklist : (h.sessionManager.created imsi now).blacklist = h.sessionManager.blacklist :=
      rfl
    constructor <;>
      simp +decide [hresult, startResult, hnames.asks_iff, hnames.exists_iff, hcommand, hdraining,
        hblack, hnotin, hinsert, hblacklist]

/-- **STOP_SESSION.** -/
theorem truthful_stop (hw : h.sessionManager.cdrWriter.Reliable) {imsi : Imsi}
    (hcommand : request.header.command = .STOP_SESSION) (hnames : Names json request imsi)
    {removed : Bool} {m : SessionManager}
    (hrun : (SessionManager.terminateSession imsi).run h.sessionManager = .ok removed m)
    (hresult : resultOf json response
      = some (if removed then ascii "deleted" else ascii "not_found")) :
    Truthful json h request response { h with sessionManager := m } := by
  by_cases himsi : imsi ∈ h.sessionManager.sessions
  · rw [SessionManager.terminateSession_run (hw _) himsi] at hrun
    cases hrun
    have herase : active { h with sessionManager := h.sessionManager.terminated imsi }
        = h.active.erase imsi := UnorderedMap.keySet_erase _ _
    have hin : imsi ∈ h.active := by rwa [active, UnorderedMap.mem_keySet]
    have hblacklist : (h.sessionManager.terminated imsi).blacklist = h.sessionManager.blacklist :=
      rfl
    constructor <;>
      simp +decide [hresult, hnames.asks_iff, hnames.exists_iff, hcommand, hin, herase, hblacklist]
  · rw [SessionManager.terminateSession_run_none himsi] at hrun
    cases hrun
    constructor <;>
      simp +decide [hresult, hnames.asks_iff, hcommand, himsi, active]

/-- If the IMSI is read, the parameters had it as a string, and nothing has changed. -/
theorem readImsi_ensures (params : Json) :
    Ensures (readImsi params) h
      (fun imsi h' => params.find imsiKey = some (.string imsi) ∧ h' = h) fun _ _ => True := by
  cases hfind : params.find imsiKey with
  | none => simp [readImsi, Json.contains, Json.index, hfind]
  | some value =>
    cases value <;> simp [readImsi, Json.contains, Json.index, Json.getString, hfind]

/-- The part that the two session commands share: a request without a valid IMSI is unrelated, and
one with an IMSI goes to `accept`. -/
theorem sessionCommand_truthful {command : Command} (accept : Imsi → Method Message)
    (haccept : ∀ imsi, Names json request imsi →
      Ensures (accept imsi) h (Truthful json h request) fun _ _ => True) :
    Ensures
      (do
        let imsi ← readImsi (getJsonData json request)
        if imsi = [] ∨ Validation.isValidImsi imsi = false then
          createJsonMsg json command .INVALID_PARAMS .null
        else accept imsi)
      h (Truthful json h request) fun _ _ => True := by
  rw [ensures_bind]
  refine (readImsi_ensures (getJsonData json request)).mono ?_ fun _ _ _ => trivial
  rintro imsi _ ⟨hfind, rfl⟩
  rw [ensures_ite]
  split
  · next hbad =>
    have hinvalid : Validation.isValidImsi imsi ≠ true := by
      rcases hbad with rfl | hfalse
      · decide
      · simp [hfalse]
    -- the handler refuses, and such a request names no valid IMSI
    refine truthful_of_unrelated ?_ rfl rfl (.inl rfl)
    rintro _ _ _ ⟨-, imsi', hnames, -⟩
    have heq : imsi' = imsi := by simpa [hfind] using hnames.1.symm
    exact hinvalid (heq ▸ hnames.2)
  · next hgood =>
    have hvalid : Validation.isValidImsi imsi = true := by
      simpa using (not_or.mp hgood).2
    -- the IMSI is one that the request names
    exact haccept imsi ⟨hfind, hvalid⟩

/-- The reply of a session command carries its result. -/
theorem createJsonMsg_resultJson (hjson : json.KeepsStrings) (command : Command)
    (result status : Bytes) :
    Ensures (createJsonMsg json command .OK (resultJson result status)) h
      (fun response h' => resultOf json response = some result ∧ h' = h) fun _ _ => True := by
  refine createJsonMsg_result hjson ?_ command .OK
  simp +decide

/-- The result of `START_SESSION` says what `createSession` has done, -/
theorem handleStartSession_truthful (hjson : json.KeepsStrings)
    (hw : h.sessionManager.cdrWriter.Reliable)
    (hcommand : request.header.command = .START_SESSION) :
    Ensures (handleStartSession json around (getJsonData json request)) h
      (Truthful json h request) fun _ _ => True := by
  refine sessionCommand_truthful _ fun imsi hnames => ?_
  rw [onManager, ensures_bind, ensures_zoom]
  unfold Ensures
  split
  · next result m hrun =>
    obtain ⟨status, hresult⟩ := startResultJson_eq result
    rw [hresult]
    refine (createJsonMsg_resultJson hjson _ _ _).mono ?_ fun _ _ _ => trivial
    rintro response _ ⟨hresponse, rfl⟩
    exact truthful_start hw hcommand hnames hrun hresponse
  · trivial

/-- that of `STOP_SESSION` what `terminateSession` has done, -/
theorem handleStopSession_truthful (hjson : json.KeepsStrings)
    (hw : h.sessionManager.cdrWriter.Reliable)
    (hcommand : request.header.command = .STOP_SESSION) :
    Ensures (handleStopSession json (getJsonData json request)) h
      (Truthful json h request) fun _ _ => True := by
  refine sessionCommand_truthful _ fun imsi hnames => ?_
  rw [onManager, ensures_bind, ensures_zoom]
  unfold Ensures
  split
  · next removed m hrun =>
    obtain ⟨status, hresult⟩ := stopResultJson_eq removed
    rw [hresult]
    refine (createJsonMsg_resultJson hjson _ _ _).mono ?_ fun _ _ _ => trivial
    rintro response _ ⟨hresponse, rfl⟩
    exact truthful_stop hw hcommand hnames hrun hresponse
  · trivial

/-! ## All requests

The cases of above, one for each branch of the `switch`. -/

/-- and `GET_CDR`, which can also return without records, changes nothing. -/
theorem handleGetCdr_truthful (hjson : json.KeepsStrings) (hunrelated : Unrelated json request)
    (params : Json) :
    Ensures (handleGetCdr json around params) h (Truthful json h request) fun _ _ => True := by
  rw [handleGetCdr, ensures_bind, ensures_get, ensures_ite]
  split
  · exact truthful_of_unrelated hunrelated rfl rfl (.inl rfl)
  · rw [ensures_bind]
    refine (readLimit_preserves (J := (· = h)) params h rfl).mono ?_ fun _ _ _ => trivial
    rintro limit _ rfl
    cases around.getRecentRecords limit with
    | error e => trivial
    | ok records =>
      refine unrelated_reply hjson hunrelated ?_ rfl .GET_CDR .OK rfl (.inl rfl)
      simp +decide

/-- Any request but the two session commands. -/
theorem handle_truthful_of_unrelated (hjson : json.KeepsStrings)
    (hstart : request.header.command ≠ .START_SESSION)
    (hstop : request.header.command ≠ .STOP_SESSION) :
    Ensures (handle json around request) h (Truthful json h request) fun _ _ => True := by
  -- neither of the two session commands, so nothing is promised about a session
  have hunrelated : Unrelated json request := by
    rintro command _ (rfl | rfl) hasks
    · exact hstart hasks.1
    · exact hstop hasks.1
  by_cases hstats : request.header.command = .GET_STATS
  · simp only [handle, hstats, if_true]
    refine unrelated_reply hjson hunrelated ?_ rfl .GET_STATS .OK rfl (.inl rfl)
    simp +decide
  by_cases hsessions : request.header.command = .GET_SESSIONS
  · simp +decide only [handle, hsessions, if_true, if_false]
    refine unrelated_reply hjson hunrelated ?_ rfl .GET_SESSIONS .OK rfl (.inl rfl)
    simp +decide
  by_cases hcdr : request.header.command = .GET_CDR
  · simp +decide only [handle, hcdr, if_true, if_false]
    exact handleGetCdr_truthful hjson hunrelated _
  by_cases hshutdown : request.header.command = .SHUTDOWN
  · simp +decide only [handle, hshutdown, if_true, if_false]
    refine unrelated_reply hjson hunrelated ?_ rfl .SHUTDOWN .OK rfl (.inr hshutdown)
    decide
  · simp only [handle, hstats, hsessions, hcdr, hstart, hstop, hshutdown, if_false]
    exact truthful_of_unrelated hunrelated rfl rfl (.inl rfl)

/-- **Replies tell the truth about the session state.** For every state of the handler whose CDR
writer does not throw, and every request that is answered: the active set changes exactly when the
result of the reply is `created` or `deleted`, every result is given exactly where it is true, the
blacklist stays, and only SHUTDOWN raises the flag. -/
theorem truthful_of_handle (hjson : json.KeepsStrings) (hw : h.sessionManager.cdrWriter.Reliable)
    (hrun : (handle json around request).run h = .ok response h') :
    Truthful json h request response h' := by
  have hensures : Ensures (handle json around request) h (Truthful json h request)
      fun _ _ => True := by
    by_cases hstart : request.header.command = .START_SESSION
    · have heq : handle json around request
          = handleStartSession json around (getJsonData json request) := by
        simp +decide [handle, hstart]
      rw [heq]
      exact handleStartSession_truthful hjson hw hstart
    by_cases hstop : request.header.command = .STOP_SESSION
    · have heq : handle json around request
          = handleStopSession json (getJsonData json request) := by
        simp +decide [handle, hstop]
      rw [heq]
      exact handleStopSession_truthful hjson hw hstop
    · exact handle_truthful_of_unrelated hjson hstart hstop
  exact hensures.of_run_ok hrun

/-- The reply to a request that has created a session. -/
def createdFields : List (Bytes × Json) :=
  [(ascii "result", .string (ascii "created")), (ascii "status", .string (ascii "success"))]

/-- A JSON library for one request and its reply. -/
def createdJson : JsonLib where
  parse payload :=
    if payload = resultText (.object createdFields) then some (.object createdFields)
    else sampleJson.parse payload
  dump
    | .object [(key, .string result), (key', .string status)] =>
      if key = ascii "result" ∧ key' = ascii "status" ∧ result = ascii "created" ∧
          status = ascii "success" then
        some (resultText (.object createdFields))
      else none
    | _ => none

/-- It reads back what it has dumped. -/
theorem keepsStrings_createdJson : createdJson.KeepsStrings := by
  intro fields text _ hdump
  simp only [createdJson] at hdump
  split at hdump
  · next hfields =>
    split at hdump
    · next hcreated =>
      obtain ⟨rfl, rfl, rfl, rfl⟩ := hcreated
      cases hfields
      cases hdump
      have hparse : createdJson.parse (resultText (.object createdFields))
          = some (.object createdFields) := by
        simp [createdJson]
      exact ⟨by decide, .object createdFields, hparse, fun _ => rfl⟩
    · cases hdump
  · cases hdump

/-- A first request is answered with `"created"`, and there is a session then. -/
theorem truthful_startRequest : ∃ response h',
    (handle createdJson sampleSurroundings (startRequest samplePayload)).run newHandler
        = .ok response h' ∧
      resultOf createdJson response = some (ascii "created") ∧
      Truthful createdJson newHandler (startRequest samplePayload) response h' := by
  have hrun : (handle createdJson sampleSurroundings (startRequest samplePayload)).run newHandler
      = .ok _ _ := rfl
  exact ⟨_, _, hrun, rfl, truthful_of_handle keepsStrings_createdJson (fun _ => rfl) hrun⟩

end TcpHandler
end Pgw
