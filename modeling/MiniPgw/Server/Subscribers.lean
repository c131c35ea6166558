import MiniPgw.Server.Config
import MiniPgw.Server.Shutdown
import MiniPgw.Session.Permitted

/-!
# Only permitted subscribers get a session

The UDP server and the TCP handler check the form of an IMSI before they call `createSession`,
`addToBlacklist` checks it itself, and the configuration has been checked when the server starts. So
whatever happens to the server, its session manager is within `Permitted` of the state it was built
in, and of every state on the way (`onlyPermitted_run`).

## The architecture

* **`permitted_kept`** — each call of the manager, with the IMSI checked by its caller.
* **`Activity`**, **`act_permitted`** — the turns of the loop, and any calls of the manager in
  between.
* **`exec_permitted`**, **`onlyPermitted_run`** — the run, from the manager that the configuration
  builds.
-/

namespace Pgw

namespace SessionManager

theorem permitted_kept (m₀ : SessionManager) : KeptByCalls (Permitted m₀) where
  createSession := fun _ now hvalid => createSession_permitted hvalid now
  terminateSession := terminateSession_permitted
  shutdownSession := shutdownSession_permitted
  cleanTimeoutSessions := cleanTimeoutSessions_permitted
  startDraining := startDraining_permitted

end SessionManager

/-- The service that the server builds from its configuration. -/
def Service.configured (config : Config) (cdrWriter : CdrWriter) (now : Time) : Service where
  handler :=
    { sessionManager := .constructed cdrWriter config.blackList config.sessionTimeoutSec
        config.gracefulShutdownRate now
      hasCdrWriter := true
      shutdownRequest := false }
  handled := 0

/-- What can happen to a running server. -/
inductive Activity where
  /-- A turn of the event loop. -/
  | turn (t : Turn)
  /-- A call of the session manager by somebody else. -/
  | call (c : SessionManager.SessionCall)

namespace Server

variable (json : JsonLib) (around : Nat → Surroundings)

/-- Sessions are created through the event loop only. -/
def act (s : Server) : Activity → Option Server
  | .turn t => turn json around s t
  | .call (.createSession _ _) => none
  | .call c => (SessionManager.step s.sessionManager c).map fun m => s.setSessionManager m

section
variable {json around} {s s' : Server} {m₀ : SessionManager}

theorem act_permitted (h : SessionManager.Permitted m₀ s.sessionManager) {a : Activity}
    (hact : act json around s a = some s') : SessionManager.Permitted m₀ s'.sessionManager := by
  cases a with
  | turn t => exact turn_keeps (SessionManager.permitted_kept m₀) h hact
  | call c =>
    have hcall : (∀ imsi now, c ≠ .createSession imsi now) ∧
        (SessionManager.step s.sessionManager c).map (fun m => s.setSessionManager m)
          = some s' := by
      cases c with
      | createSession imsi now => cases hact
      | _ => exact ⟨fun _ _ => SessionManager.SessionCall.noConfusion, hact⟩
    obtain ⟨hc, hstep⟩ := hcall
    obtain ⟨m, hm, rfl⟩ := Option.map_eq_some_iff.mp hstep
    exact SessionManager.step_permitted hc h hm

/-- What has happened between two states of a run. -/
theorem exec_permitted {activities : List Activity}
    (hrun : Run.exec (act json around) s activities = some s') :
    SessionManager.Permitted s.sessionManager s'.sessionManager :=
  Run.exec_invariant (fun _ _ _ h hact => act_permitted h hact)
    (SessionManager.Permitted.refl s.sessionManager) hrun

end

/-! ## Whole runs

`Permitted` compares two states of a run. A new server has no sessions, so from there it bounds all
that the server ever has. -/

/-- Exactly 15 ASCII digits. -/
def FifteenDigits (imsi : Bytes) : Prop :=
  imsi.length = 15 ∧ ∀ c ∈ imsi, 48 ≤ c ∧ c ≤ 57

theorem isValidImsi_iff (imsi : Imsi) :
    Validation.isValidImsi imsi = true ↔ FifteenDigits imsi := by
  unfold Validation.isValidImsi FifteenDigits Validation.IMSI_LENGTH
  by_cases hlength : imsi.length = 15
  · simp [hlength, Validation.isdigit]
  · simp [hlength]

/-- What is true of every state of the server. -/
structure OnlyPermitted (s : Server) : Prop where
  sessions : ∀ imsi ∈ s.sessionManager.sessions.keySet, FifteenDigits imsi
  log : ∀ entry ∈ s.sessionManager.cdrWriter.entries, FifteenDigits entry.imsi
  blacklist : ∀ imsi ∈ s.sessionManager.blacklist, FifteenDigits imsi
  /-- Whatever happens next, nothing leaves the blacklist, no `CREATED` is written for what is on
  it, and what is on it and has no session has none. -/
  since : ∀ activities s', Run.exec (act json around) s activities = some s' →
    s.sessionManager.blacklist ⊆ s'.sessionManager.blacklist ∧
    ∃ written, s'.sessionManager.cdrWriter.entries = s.sessionManager.cdrWriter.entries ++ written ∧
      ∀ imsi ∈ s.sessionManager.blacklist, ⟨imsi, ICdrWriter.SESSION_CREATED⟩ ∉ written ∧
        (imsi ∉ s.sessionManager.sessions.keySet → imsi ∉ s'.sessionManager.sessions.keySet)

/-- **Only well-formed and permitted subscribers get a session.** In every state of every run from
a configuration that has been accepted, also when the CDR writer throws. The log may go on from
earlier runs. -/
theorem onlyPermitted_run {what configPath : Bytes} {file : Option Bytes} {config : Config}
    (hconfig : Config.constructed json what configPath file = some config)
    (haccepted : config.isValid = true) {w : CdrWriter}
    (hlog : ∀ entry ∈ w.entries, FifteenDigits entry.imsi) {start now : Time} {socket : Nat}
    {activities : List Activity} {s : Server}
    (hrun : Run.exec (act json around) (started (.configured config w start) socket now) activities
      = some s) :
    OnlyPermitted json around s := by
  have hchecked : ∀ imsi ∈ config.blackList, Validation.isValidImsi imsi = true :=
    of_decide_eq_true (Config.checked_of_isValid hconfig haccepted).blacklist
  -- what the whole run has done to the manager of the configuration
  have h : SessionManager.Permitted
      (.constructed w config.blackList config.sessionTimeoutSec config.gracefulShutdownRate start)
      s.sessionManager := exec_permitted hrun
  refine ⟨fun imsi himsi => ?_, fun entry hentry => ?_, fun imsi himsi => ?_, ?_⟩
  · rw [← isValidImsi_iff]
    rcases h.active imsi himsi with hnone | hvalid
    · cases hnone
    · exact hvalid.1
  · obtain ⟨written, hwritten, hentries⟩ := h.written
    have hin : entry ∈ w.entries ++ written := hwritten ▸ hentry
    rcases List.mem_append.mp hin with hold | hnew
    · exact hlog entry hold
    · rw [← isValidImsi_iff]
      rcases (hentries entry hnew).1 with hnone | hvalid
      · cases hnone
      · exact hvalid
  · rw [← isValidImsi_iff]
    rcases h.listed imsi himsi with hlisted | hvalid
    · exact hchecked imsi hlisted
    · exact hvalid
  · intro activities' s' hrun'
    have hsince := exec_permitted hrun'
    obtain ⟨written, hwritten, hentries⟩ := hsince.written
    refine ⟨hsince.kept, written, hwritten, fun imsi himsi => ⟨fun hin => ?_, fun hnone hin => ?_⟩⟩
    · exact (hentries _ hin).2 rfl himsi
    · rcases hsince.active imsi hin with hold | hallowed
      · exact hnone hold
      · exact hallowed.2 himsi

/-- The file `\x7b\x7d`: all values are the defaults. -/
def emptyObject : Bytes := ascii "\x7b\x7d"

def emptyObjectJson : JsonLib where
  parse text := if text = emptyObject then some (.object []) else none
  dump _ := none

/-- A session is created and put on the blacklist, ends, and is asked for again. -/
def blacklistedSubscriber : List Activity :=
  let request : Turn := .event (.udp [.packet (ascii "001010000000001") 1 0 false])
  [.turn request, .call (.addToBlacklist (ascii "001010000000001")),
    .call (.addToBlacklist (ascii "00101")), .call (.terminateSession (ascii "001010000000001")),
    .turn request, .turn (.event (.udp [.packet (ascii "00101") 1 0 false]))]

theorem parse_emptyObject : emptyObjectJson.parse emptyObject = some (.object []) := by
  simp [emptyObjectJson]

/-- The service of a server that starts with the default configuration. -/
theorem configured_emptyObject : ∃ config,
    Config.constructed emptyObjectJson [] (ascii "pgw.json") (some emptyObject) = some config ∧
      config.isValid = true ∧ Service.configured config ⟨[], 0, fun _ => false⟩ 0 = newService := by
  have hempty : Config.WellTyped (.object []) :=
    ⟨rfl, fun _ _ h => (by cases h), fun _ _ _ h => (by cases h), fun _ h => (by cases h)⟩
  obtain ⟨config, hconfig, hvalid, hread⟩ := Config.constructed_wellTyped emptyObjectJson []
    (ascii "pgw.json") emptyObject parse_emptyObject hempty
  have hok : config.isValid = true := hvalid.mpr fun f n hn => (by cases hn)
  obtain ⟨hget, hlisted⟩ := hread hok
  refine ⟨config, hconfig, hok, ?_⟩
  have hblacklist : config.blackList = ∅ :=
    Finset.eq_empty_of_forall_notMem fun imsi himsi =>
      absurd ((hlisted imsi).mp himsi) List.not_mem_nil
  have htimeout : config.sessionTimeoutSec = 30 := hget .session_timeout_sec
  have hrate : config.gracefulShutdownRate = 10 := hget .graceful_shutdown_rate
  rw [Service.configured, hblacklist, htimeout, hrate]
  rfl

theorem onlyPermitted_blacklistedSubscriber : ∃ config s,
    Config.constructed emptyObjectJson [] (ascii "pgw.json") (some emptyObject) = some config ∧
      Run.exec (act emptyObjectJson sampleAround)
        (started (.configured config ⟨[], 0, fun _ => false⟩ 0) 3 0) blacklistedSubscriber
          = some s ∧
      s.sessionManager.cdrWriter.entries.map CdrEntry.action
        = [ICdrWriter.SESSION_CREATED, ICdrWriter.SESSION_DELETED, ICdrWriter.SESSION_REJECTED] ∧
      OnlyPermitted emptyObjectJson sampleAround s := by
  obtain ⟨config, hconfig, haccepted, hservice⟩ := configured_emptyObject
  have hactions : (Run.exec (act emptyObjectJson sampleAround) (started newService 3 0)
      blacklistedSubscriber).map (fun s => s.sessionManager.cdrWriter.entries.map CdrEntry.action)
        = some [ICdrWriter.SESSION_CREATED, ICdrWriter.SESSION_DELETED,
          ICdrWriter.SESSION_REJECTED] := by
    decide +kernel
  obtain ⟨s, hrun, hentries⟩ := Option.map_eq_some_iff.mp hactions
  rw [← hservice] at hrun
  exact ⟨config, s, hconfig, hrun, hentries, onlyPermitted_run _ _ hconfig haccepted
    (fun _ h => absurd h List.not_mem_nil) hrun⟩

end Server
end Pgw
