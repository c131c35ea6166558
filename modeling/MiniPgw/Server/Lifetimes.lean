import Mathlib.Tactic.Linarith
import MiniPgw.Server.Calls
import MiniPgw.Session.Lifetime

/-!
# How long a session lasts

The event loop looks at its clock at the end of an iteration, and cleans up when more than 3 s have
passed since it did so last. So a session may be older than the timeout, by a bounded amount, and it
never expires before it. `lifetimes` has both sides: whenever an iteration gets to its clean-up, no
session is older than the timeout and 3 s after it (`Recent`), and a session ends only by a command,
by the drain timer, or as old as the timeout. An iteration in which a signal interrupts `epoll_wait`
does not get there, and signals that keep coming keep old sessions alive.

What is needed of `steady_clock` is `Steady`: a reading is not before that of the last clean-up.

## The architecture

* **`lastCleanup_of_turn`** — only a clean-up moves `lastCleanup`.
* **`Recent`**, **`cleanup_recent`**, **`recent_turn`** — no session was as old as the timeout
  when the last clean-up took place, and what is created later is younger.
* **`EndedBy`**, **`endedBy_of_turn`** — a case for each way in which a turn can end a session.
* **`lifetimes`** — the invariant along the run, and the cases at its last turn.
-/

namespace Pgw

open Effects

namespace Server

open SessionManager (SessionCall)

variable {json : JsonLib} {around : Nat → Surroundings} {s s' : Server}

/-- The readings of the clock in this turn are not before earlier ones. -/
def Steady (around : Nat → Surroundings) (s : Server) : Turn → Prop
  | .event event => ∀ imsi now, CreatesAt around s event imsi now → s.lastCleanup ≤ now
  | .cleanup now cleanupNow => now ≤ cleanupNow
  | _ => True

/-- When the last clean-up took place, no session was as old as the timeout. -/
structure Recent (s : Server) : Prop where
  timeout : 0 < s.sessionManager.sessionTimeoutSec
  recent : ∀ imsi data, s.sessionManager.sessions.lookup imsi = some data →
    s.lastCleanup - data.createdTime < seconds s.sessionManager.sessionTimeoutSec

/-! ## One turn

Sessions are ended in three ways. What limits their age is the clean-up, which looks at all of them
in each period. -/

theorem expire_lastCleanup (time : Time) (expirations : Nat) :
    Preserves (fun u => u.lastCleanup = time) (expire expirations) := by
  induction expirations with
  | zero => exact preserves_pure ()
  | succ expirations ih =>
    have hcall : Preserves (fun u : Server => u.lastCleanup = time)
        (onManager SessionManager.shutdownSession) := preserves_zoom_of_put _ fun _ _ h => h
    exact hcall.bind fun _ => Preserves.ite ih (preserves_modify fun _ h => h)

theorem beginIteration_lastCleanup (time : Time) :
    Preserves (fun u => u.lastCleanup = time) beginIteration := by
  refine Preserves.bind (preserves_get.bind fun u => Preserves.ite ?_ (preserves_pure ())) fun _ =>
    preserves_get.bind fun u => Preserves.ite ?_ (preserves_pure ())
  · have hdraining : Preserves (fun u : Server => u.lastCleanup = time)
        (onManager SessionManager.startDraining) := preserves_zoom_of_put _ fun _ _ h => h
    have haccepting : Preserves (fun u : Server => u.lastCleanup = time)
        (onTcp TcpServer.setStopAccepting) := preserves_zoom_of_put _ fun _ _ h => h
    exact hdraining.bind fun _ => haccepting.bind fun _ => preserves_modify fun _ h => h
  · have hudp : Preserves (fun u : Server => u.lastCleanup = time) (onUdp UdpServer.stop) :=
      preserves_zoom_of_put _ fun _ _ h => h
    have htcp : Preserves (fun u : Server => u.lastCleanup = time) (onTcp TcpServer.stop) :=
      preserves_zoom_of_put _ fun _ _ h => h
    exact hudp.bind fun _ => htcp.bind fun _ => preserves_modify fun _ h => h

/-- Only the clean-up moves the time of the last one. -/
theorem lastCleanup_of_turn {t : Turn} (ht : ∀ now cleanupNow, t ≠ .cleanup now cleanupNow)
    (hturn : turn json around s t = some s') : s'.lastCleanup = s.lastCleanup := by
  have hkept : Preserves (fun u => u.lastCleanup = s.lastCleanup) (take json around t) := by
    cases t with
    | beginIteration => exact beginIteration_lastCleanup s.lastCleanup
    | event event =>
      cases event with
      -- the timer may move the state of the loop, but not this time
      | timer expirations =>
        intro u hu
        simp only [take, processEvent, ensures_bind, ensures_get, ensures_ite]
        split
        · exact expire_lastCleanup s.lastCleanup expirations u hu
        · exact hu
      | udp receives => exact preserves_zoom_of_put _ fun _ _ h => h
      | tcp outcome =>
        refine Preserves.bind (preserves_zoom_of_put _ fun _ _ h => h) fun _ => ?_
        exact Preserves.ite (preserves_modify fun _ h => h) (preserves_pure ())
      | client fd received sends =>
        refine Preserves.bind (preserves_zoom_of_put _ fun _ _ h => h) fun _ => ?_
        exact Preserves.ite (preserves_pure ()) (preserves_modify fun _ h => h)
    | cleanup now cleanupNow => exact absurd rfl (ht now cleanupNow)
    | failed => exact preserves_modify fun _ h => h
    | shutdownRequest => exact preserves_modify fun _ h => h
  exact (hkept s rfl).of_run_ok (turn_eq_some.mp hturn)

/-- What the clean-up of an iteration leaves. -/
theorem cleanup_recent (h : s.Recent) {now cleanupNow : Time} (hsteady : now ≤ cleanupNow)
    (hturn : turn json around s (.cleanup now cleanupNow) = some s') :
    s'.Recent ∧ now - s'.lastCleanup ≤ seconds (SESSION_CLEANUP_INTERVAL_S / 3) := by
  have htimeout : s'.sessionManager.sessionTimeoutSec = s.sessionManager.sessionTimeoutSec := by
    obtain ⟨calls, -, hcalls⟩ := turn_calls hturn
    exact (SessionManager.begins_of_exec hcalls).1
  -- the clean-up runs when more than 3 s have passed since the last one
  by_cases hdue : now - s.lastCleanup > seconds (SESSION_CLEANUP_INTERVAL_S / 3)
  · have hclean : Ensures (take json around (.cleanup now cleanupNow)) s
        (fun _ t => t.lastCleanup = now ∧ ∀ imsi data,
          t.sessionManager.sessions.lookup imsi = some data →
            cleanupNow - data.createdTime < seconds s.sessionManager.sessionTimeoutSec)
        fun _ _ => True := by
      simp only [take, cleanup, ensures_bind, ensures_get, if_pos hdue, onManager, ensures_zoom]
      exact (SessionManager.cleanTimeoutSessions_young cleanupNow).mono
        (fun _ _ hyoung => ⟨rfl, hyoung⟩) fun _ _ _ => trivial
    obtain ⟨hlast, hyoung⟩ := of_turn hturn hclean
    refine ⟨⟨htimeout ▸ h.timeout, fun imsi data hlookup => ?_⟩, ?_⟩
    · have hage := hyoung imsi data hlookup
      -- the clock of the clean-up is read after that of the iteration
      rw [htimeout, hlast]
      linarith
    · rw [hlast, sub_self]
      decide
  · have hidle : (take json around (.cleanup now cleanupNow)).run s = .ok () s := by
      simp [take, cleanup, hdue]
    have hrun := turn_eq_some.mp hturn
    rw [hidle] at hrun
    cases hrun
    exact ⟨h, not_lt.mp hdue⟩

theorem recent_turn (h : s.Recent) {t : Turn} (hsteady : Steady around s t)
    (hturn : turn json around s t = some s') : s'.Recent := by
  by_cases hcleanup : ∃ now cleanupNow, t = .cleanup now cleanupNow
  · obtain ⟨now, cleanupNow, rfl⟩ := hcleanup
    exact (cleanup_recent h hsteady hturn).1
  · have hlast := lastCleanup_of_turn
      (fun now cleanupNow ht => hcleanup ⟨now, cleanupNow, ht⟩) hturn
    obtain ⟨calls, hmakes, hcalls⟩ := turn_calls hturn
    obtain ⟨htimeout, hbegins⟩ := SessionManager.begins_of_exec hcalls
    refine ⟨htimeout ▸ h.timeout, fun imsi data hlookup => ?_⟩
    rw [hlast, htimeout]
    rcases hbegins imsi data hlookup with hold | hnew
    · exact h.recent imsi data hold
    · -- a session of this turn was created after the last clean-up
      have hlater : s.lastCleanup ≤ data.createdTime := by
        cases hmakes _ hnew with
        | createSession event _ _ _ hat => exact hsteady imsi data.createdTime hat
      have hpositive := h.timeout
      unfold seconds
      linarith

/-- How a turn can end a session. -/
inductive EndedBy (s : Server) (data : SessionData) : Turn → Prop where
  | command (fd : Nat) (received : ReceiveOutcome) (sends : Nat → SendOutcome) :
      EndedBy s data (.event (.client fd received sends))
  | drained (expirations : Nat) (hstate : s.state = .DRAINING) :
      EndedBy s data (.event (.timer expirations))
  | expired (now cleanupNow : Time)
      (hage : seconds s.sessionManager.sessionTimeoutSec ≤ cleanupNow - data.createdTime) :
      EndedBy s data (.cleanup now cleanupNow)

theorem endedBy_of_turn {t : Turn} {imsi : Imsi} {data : SessionData}
    (hlookup : s.sessionManager.sessions.lookup imsi = some data)
    (hgone : s'.sessionManager.sessions.lookup imsi ≠ some data)
    (hturn : turn json around s t = some s') : EndedBy s data t := by
  obtain ⟨calls, hmakes, hcalls⟩ := turn_calls hturn
  obtain ⟨c, hc, m, htimeout, hends⟩ := SessionManager.ends_of_exec hcalls hlookup hgone
  cases hmakes c hc with
  | startDraining hstate hflag => cases hends
  | shutdownSession expirations hstate => exact .drained expirations hstate
  | createSession event imsi' now hvalid hat => cases hends
  | terminateSession fd received sends imsi' => exact .command fd received sends
  | cleanTimeoutSessions now cleanupNow hdue =>
    cases hends with
    | expired _ hage =>
      rw [htimeout] at hage
      exact .expired now cleanupNow hage

/-! ## Whole runs

`Recent` holds from the start, since there are no sessions then, and every turn keeps it on a clock
that does not go back. -/

theorem recent_started {service : Service} (socket : Nat) (now : Time)
    (htimeout : 0 < service.handler.sessionManager.sessionTimeoutSec)
    (hnew : service.handler.sessionManager.sessions = ∅) : (started service socket now).Recent where
  timeout := htimeout
  recent := fun imsi data hlookup => by
    have hlookup' : service.handler.sessionManager.sessions.lookup imsi = some data := hlookup
    simp [hnew] at hlookup'

/-- **How long a session lasts.** For every run of the event loop of a server without sessions and
with a positive timeout, on a clock that does not go back: whenever an iteration gets through its
clean-up, each session is younger than the timeout and 3 s after it; and a session that is ended by
a turn that no exception leaves is ended by a command client, by the drain timer of a shutdown, or
by a clean-up that finds it as old as the timeout. -/
theorem lifetimes {service : Service} {socket : Nat} {start : Time} {turns : List Turn}
    (htimeout : 0 < service.handler.sessionManager.sessionTimeoutSec)
    (hnew : service.handler.sessionManager.sessions = ∅)
    (hsteady : Run.Along (turn json around) (Steady around) (started service socket start) turns)
    (hrun : Run.exec (turn json around) (started service socket start) turns = some s) :
    (∀ now cleanupNow s', now ≤ cleanupNow →
      turn json around s (.cleanup now cleanupNow) = some s' →
      ∀ imsi data, s'.sessionManager.sessions.lookup imsi = some data →
        now - data.createdTime
          < seconds (service.handler.sessionManager.sessionTimeoutSec + 3)) ∧
    ∀ t s' imsi data, turn json around s t = some s' →
      s.sessionManager.sessions.lookup imsi = some data →
      s'.sessionManager.sessions.lookup imsi ≠ some data → EndedBy s data t := by
  -- `Recent` and the timeout go along every steady turn
  have hkeep : ∀ u t v, u.Recent ∧
      u.sessionManager.sessionTimeoutSec = service.handler.sessionManager.sessionTimeoutSec →
      Steady around u t → turn json around u t = some v → v.Recent ∧
      v.sessionManager.sessionTimeoutSec = service.handler.sessionManager.sessionTimeoutSec := by
    intro u t v hu hsteady hturn
    obtain ⟨calls, -, hcalls⟩ := turn_calls hturn
    exact ⟨recent_turn hu.1 hsteady hturn, (SessionManager.begins_of_exec hcalls).1.trans hu.2⟩
  have hstart := recent_started socket start htimeout hnew
  obtain ⟨hrecent, hsame⟩ := Run.exec_invariant_along hkeep ⟨hstart, rfl⟩ hsteady hrun
  refine ⟨fun now cleanupNow s' hclock hturn imsi data hlookup => ?_, ?_⟩
  · -- the clean-up is at most 3 s late, and what it leaves is younger than the timeout
    obtain ⟨hafter, hlate⟩ := cleanup_recent hrecent hclock hturn
    obtain ⟨calls, -, hcalls⟩ := turn_calls hturn
    have hsame' := (SessionManager.begins_of_exec hcalls).1
    have hage := hafter.recent imsi data hlookup
    have hinterval : seconds (SESSION_CLEANUP_INTERVAL_S / 3) = seconds 3 := rfl
    rw [hsame', hsame] at hage
    rw [hinterval] at hlate
    unfold seconds at hage hlate ⊢
    linarith
  · -- whichever turn it is, a session that is gone was ended by one of the three
    intro t s' imsi data hturn hlookup hgone
    exact endedBy_of_turn hlookup hgone hturn

/-- A subscriber attaches after a second, and is a second too young for the clean-up after 30 s. -/
def attachedSubscriber : List Turn :=
  [.event (.udp [.packet (ascii "001010000000001") 7 (seconds 1) false]),
    .cleanup (seconds 30) (seconds 30)]

/-- Two seconds later the session is older than the timeout, and no clean-up is due. -/
theorem lifetimes_attachedSubscriber : ∃ s s',
    Run.exec (turn TcpHandler.sampleJson sampleAround) (started newService 3 0) attachedSubscriber
        = some s ∧
      turn TcpHandler.sampleJson sampleAround s (.cleanup (seconds 32) (seconds 32)) = some s' ∧
      s'.sessionManager.sessions.lookup (ascii "001010000000001") = some ⟨seconds 1⟩ ∧
      seconds 30 < seconds 32 - seconds 1 ∧ seconds 32 - seconds 1 < seconds (30 + 3) := by
  have hsteady : Run.Along (turn TcpHandler.sampleJson sampleAround) (Steady sampleAround)
      (started newService 3 0) attachedSubscriber := by
    refine ⟨?_, fun _ _ => ⟨le_refl (seconds 30), fun _ _ => trivial⟩⟩
    rintro imsi now ⟨sender, sendThrows, hin⟩
    simp only [List.mem_singleton, UdpReceive.packet.injEq] at hin
    rw [hin.2.2.1]
    decide
  have hlives : ∀ {s s'}, Run.exec (turn TcpHandler.sampleJson sampleAround)
      (started newService 3 0) attachedSubscriber = some s →
      turn TcpHandler.sampleJson sampleAround s (.cleanup (seconds 32) (seconds 32)) = some s' →
      s'.sessionManager.sessions.lookup (ascii "001010000000001") = some ⟨seconds 1⟩ →
      seconds 32 - seconds 1 < seconds (30 + 3) :=
    fun hrun hturn hlookup => (lifetimes (by decide) rfl hsteady hrun).1 _ _ _
      (le_refl (seconds 32))
      hturn _ _ hlookup
  exact ⟨_, _, rfl, rfl, rfl, by decide, hlives rfl rfl rfl⟩

end Server
end Pgw
