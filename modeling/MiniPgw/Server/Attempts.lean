import MiniPgw.Server.Calls
import MiniPgw.Server.Containment
import MiniPgw.Server.Subscribers
import MiniPgw.Session.Attempts

/-!
# The server with a CDR writer that throws

Whatever calls of `writeAction` throw while the event loop runs, `onlyWritesLost_run`: the log is
what it would be had none thrown, without the records that those calls were given, and so it stays.

The exception of a deletion leaves the loop, from the clean-up or from the drain timer. What it
leaves of the manager is that of the calls up to it (`thrown_calls`).

## The architecture

* **`thrown_calls`** — the turn that an exception ends, up to the call that threw; the turns
  before it are `turn_calls` of `Calls`.
* **`attempted_act`**, **`attempted_run`** — so every step of the server is a run of attempted
  calls.
* **`onlyWritesLost_run`** — the law of `Session.Attempts` on these calls.
-/

namespace Pgw

open Effects

/-- An `accept` that throws has not reached the command handler. -/
theorem TcpServer.handler_of_acceptThrown {η : Type} {s s' : TcpServer η} {outcome : AcceptOutcome}
    (hrun : (acceptNewClient outcome).run s = .error .exception s') : s'.handler = s.handler :=
  ((acceptNewClient_ensures outcome).of_run_error hrun rfl).handler

namespace Server

open SessionManager

variable {json : JsonLib} {around : Nat → Surroundings} {s s' : Server} {l : Ledger Imsi}

/-! ## The exception that ends the loop

Most turns catch what they throw. The ones that do not are the timer, the clean-up and an `accept`
while the server drains; what they did before they threw is kept. -/

/-- No exception leaves the part before `epoll_wait`. -/
theorem beginIteration_contained (s : Server) : Contained beginIteration s := by
  cases hstate : s.state with
  | RUNNING =>
    by_cases hflag : s.tcpHandler.shutdownRequest = true
    · exact contained_of_run_ok (beginIteration_run_requested hstate hflag)
    · have hidle : beginIteration.run s = .ok () s := by
        simp [beginIteration, startShutdown, stopServers, hstate, hflag]
      exact contained_of_run_ok hidle
  | DRAINING => exact contained_of_run_ok (beginIteration_run_draining hstate)
  | STOPPING =>
    obtain ⟨_, t, hrun, -⟩ := (returns_iff _).mp (beginIteration_returns_stopping hstate)
    exact contained_of_run_ok hrun
  | STOPPED =>
    have hidle : beginIteration.run s = .ok () s := by
      simp [beginIteration, startShutdown, stopServers, hstate]
    exact contained_of_run_ok hidle

/-- **A turn that an exception ends** has made calls of the manager up to it. -/
theorem thrown_calls {t : Turn} (hthrown : (take json around t).run s = .error .exception s') :
    MadeFrom (fun _ => True) s.sessionManager s'.sessionManager := by
  -- before its first call the manager is as it was
  have hnone : MadeFrom (fun _ => True) s.sessionManager s.sessionManager :=
    ⟨[], fun _ h => absurd h List.not_mem_nil, rfl⟩
  cases t with
  -- `beginIteration` and the UDP server catch what they throw, so these turns cannot end so
  | beginIteration => exact absurd hthrown (beginIteration_contained s s')
  | event event =>
    cases event with
    | timer expirations =>
      have hperform : Preserves (MadeFrom (fun _ => True) s.sessionManager)
          (perform .shutdownSession) :=
        madeFrom_preserves trivial
          (neverUndefined_shutdownSession.bind fun _ => neverUndefined_pure ())
      have hshutdown : Preserves (MadeFrom (fun _ => True) s.sessionManager) shutdownSession :=
        preserves_of_perform rfl hperform
      by_cases hstate : s.state = .DRAINING
      · -- the calls before the one that threw are kept
        rw [take_timer_run_draining hstate] at hthrown
        exact (expire_preserves hshutdown expirations s hnone).of_run_error hthrown
      · rw [take_timer_run_ignored hstate] at hthrown
        cases hthrown
    | udp receives =>
      exact absurd hthrown
        (contained_zoom_iff.mpr (UdpServer.processEvent_contained receives s.udpServer) s')
    | tcp outcome =>
      cases hrun : (TcpServer.acceptNewClient outcome).run s.tcpServer with
      | ok clientFd t =>
        have hcontained : Contained (processEvent json around (.tcp outcome)) s := by
          refine Contained.bind (contained_zoom_iff.mpr (contained_of_run_ok hrun)) fun _ t' _ => ?_
          split
          · exact contained_of_run_ok rfl
          · exact contained_pure ()
        exact absurd hthrown (hcontained s')
      | error e t =>
        -- `accept` outside its `try`: the manager has not been called yet
        simp [take, processEvent, onTcp, hrun] at hthrown
        obtain ⟨rfl, rfl⟩ := hthrown
        have hmanager : t.handler = s.tcpServer.handler := TcpServer.handler_of_acceptThrown hrun
        show MadeFrom (fun _ => True) s.sessionManager t.handler.handler.sessionManager
        rw [hmanager]
        exact hnone
    | client fd received sends =>
      have hcontained : Contained (processEvent json around (.client fd received sends)) s := by
        refine Contained.bind (contained_zoom_iff.mpr
          (TcpServer.handleClientData_contained fd received sends _)) fun connected t _ => ?_
        split
        · exact contained_pure ()
        · exact contained_of_run_ok rfl
      exact absurd hthrown (hcontained s')
  | cleanup now cleanupNow =>
    have hclean : Preserves (MadeFrom (fun _ => True) s.sessionManager)
        (cleanTimeoutSessions cleanupNow) :=
      madeFrom_preserves (c := .cleanTimeoutSessions cleanupNow) trivial
        (neverUndefined_cleanTimeoutSessions cleanupNow)
    -- the clean-up runs under the interval check, which calls nothing
    have hturn : Preserves (fun u => MadeFrom (fun _ => True) s.sessionManager u.sessionManager)
        (take json around (.cleanup now cleanupNow)) := by
      refine preserves_get.bind fun u => Preserves.ite ?_ (preserves_pure ())
      exact (hclean.zoom fun _ _ => rfl).bind fun _ => preserves_modify fun _ h => h
    exact (hturn s hnone).of_run_error hthrown
  | failed => cases hthrown
  | shutdownRequest => cases hthrown

/-! ## Runs

A run of turns, and at its end one that throws: all of them are calls of the manager, each with a
number, and the log has those that returned. -/

theorem attempted_act (h : s.sessionManager.Attempted l) {a : Activity}
    (hact : act json around s a = some s') : Continued l s'.sessionManager := by
  cases a with
  | turn t =>
    obtain ⟨calls, -, hcalls⟩ := turn_calls hact
    exact attempted_exec h hcalls
  | call c =>
    have hcall : (SessionManager.step s.sessionManager c).map (fun m => s.setSessionManager m)
        = some s' := by
      cases c with
      | createSession imsi now => cases hact
      | _ => exact hact
    obtain ⟨m, hm, rfl⟩ := Option.map_eq_some_iff.mp hcall
    exact attempted_step h hm

theorem attempted_run (h : s.sessionManager.Attempted l) {activities : List Activity}
    (hrun : Run.exec (act json around) s activities = some s') : Continued l s'.sessionManager :=
  Run.exec_simulation (R := fun (s : Server) l => s.sessionManager.Attempted l)
    (fun _ _ _ _ h hact => attempted_act h hact) h hrun

/-- **Only what a throwing call was given is missing from the log.** In every state of every run of
a server whose manager is new, whichever calls of `writeAction` throw. What has been written or lost
by then stays so in all later states, and in the one that an exception leaves behind the loop. -/
theorem onlyWritesLost_run {w : CdrWriter} (hnew : w.entries = []) (hcalls : w.calls = 0)
    {blacklist : Blacklist} {timeout rate : Int} {start now : Time} {service : Service}
    (hservice : service.handler.sessionManager = .constructed w blacklist timeout rate start)
    {socket : Nat} {activities : List Activity}
    (hrun : Run.exec (act json around) (started service socket now) activities = some s) :
    ∃ attempted, s.sessionManager.OnlyWritesLost attempted ∧
      (∀ activities' s', Run.exec (act json around) s activities' = some s' →
        ∃ more, s'.sessionManager.OnlyWritesLost (attempted ++ more)) ∧
      ∀ t s', (take json around t).run s = .error .exception s' →
        ∃ more, s'.sessionManager.OnlyWritesLost (attempted ++ more) := by
  have hstart : (started service socket now).sessionManager.Attempted .empty := by
    have hmanager : (started service socket now).sessionManager
        = .constructed w blacklist timeout rate start := hservice
    rw [hmanager]
    exact attempted_constructed hnew hcalls blacklist timeout rate start
  obtain ⟨es, l, hes, h⟩ := attempted_run hstart hrun
  refine ⟨_, h.onlyWritesLost hes, fun activities' s' hrun' => ?_, fun t s' hthrown => ?_⟩
  · exact onlyWritesLost_of_continued hes (attempted_run h hrun')
  · obtain ⟨calls, -, hcalls'⟩ := thrown_calls hthrown
    exact onlyWritesLost_of_continued hes (attempted_exec h hcalls')

/-- A service whose first record cannot be written. -/
def failingService : Service where
  handler :=
    { sessionManager := .constructed failsOnce ∅ 30 10 0
      hasCdrWriter := true
      shutdownRequest := false }
  handled := 0

/-- Two subscribers attach, and the first one is detached. -/
def attachedUnrecorded : List Activity :=
  [.turn (.event (.udp [.packet (ascii "001010000000001") 1 0 false])),
    .turn (.event (.udp [.packet (ascii "001010000000002") 1 0 false])),
    .call (.terminateSession (ascii "001010000000001"))]

theorem onlyWritesLost_attachedUnrecorded : ∃ s : Server,
    Run.exec (act TcpHandler.sampleJson sampleAround)
      (started failingService 3 0) attachedUnrecorded
        = some s ∧
      s.sessionManager.cdrWriter.entries
        = [⟨ascii "001010000000002", ICdrWriter.SESSION_CREATED⟩,
          ⟨ascii "001010000000001", ICdrWriter.SESSION_DELETED⟩] ∧
      ∃ attempted, s.sessionManager.OnlyWritesLost attempted := by
  have hentries : (Run.exec (act TcpHandler.sampleJson sampleAround) (started failingService 3 0)
      attachedUnrecorded).map (fun s => s.sessionManager.cdrWriter.entries)
        = some [⟨ascii "001010000000002", ICdrWriter.SESSION_CREATED⟩,
          ⟨ascii "001010000000001", ICdrWriter.SESSION_DELETED⟩] := by
    decide +kernel
  obtain ⟨s, hrun, hlog⟩ := Option.map_eq_some_iff.mp hentries
  obtain ⟨attempted, hattempted, -⟩ := onlyWritesLost_run rfl rfl rfl hrun
  exact ⟨s, hrun, hlog, attempted, hattempted⟩

end Server
end Pgw
