import MiniPgw.Server.Shutdown
import MiniPgw.Session.Pacing

/-!
# The two shutdowns

The session manager can end all sessions by itself, in the loop of `gracefulShutdown`, which sleeps
between two deletions; the event loop does not call it, but ends a session for every expiration of
the drain timer, and serves its sockets in between. Both take the sessions in the order of the
table: `drained`.

**`shutdowns_agree`** — whatever numbers of expirations are read, and whatever the clock shows to
`gracefulShutdown`: the timer takes the manager towards the state in which `gracefulShutdown` would
leave it, and the loop goes on to `STOPPING` with the first expiration after it has got there.

## The architecture

* **`drained`** — the manager after `n` deletions, in the order of the table; `drained_add` and
  `size_drained` count them.
* **`shutdownLoop_run_drained`** — `gracefulShutdown` runs through these states, however it
  sleeps.
* **`expire_run`**, **`timers_run`** — and so do the reads of the drain timer.
* **`shutdowns_agree`** — both ends are the same `drained` state.
-/

namespace Pgw

open Effects

namespace SessionManager

variable {m : SessionManager}

/-- The manager after `n` calls of `shutdownSession`. -/
def drained : Nat → SessionManager → SessionManager
  | 0, m => m
  | n + 1, m =>
    match m.sessions.entries with
    | [] => m
    | it :: _ => drained n (m.terminated it.1)

theorem drained_empty (hempty : m.sessions.entries = []) (n : Nat) : m.drained n = m := by
  cases n with
  | zero => rfl
  | succ n => simp [drained, hempty]

theorem drained_cons {it : SessionEntry} {rest : List SessionEntry}
    (hentries : m.sessions.entries = it :: rest) (n : Nat) :
    m.drained (n + 1) = (m.terminated it.1).drained n := by
  simp [drained, hentries]

/-- A session less. -/
theorem size_terminated {it : SessionEntry} {rest : List SessionEntry}
    (hentries : m.sessions.entries = it :: rest) :
    (m.terminated it.1).sessions.size + 1 = m.sessions.size :=
  UnorderedMap.size_erase (UnorderedMap.mem_of_entries_eq_cons hentries)

theorem size_drained (n : Nat) : ∀ m : SessionManager,
    (m.drained n).sessions.size = m.sessions.size - n := by
  induction n with
  | zero => exact fun m => rfl
  | succ n ih =>
    intro m
    cases hentries : m.sessions.entries with
    | nil =>
      rw [drained_empty hentries, UnorderedMap.size, hentries, List.length_nil]
      omega
    | cons it rest =>
      have hsize := size_terminated hentries
      rw [drained_cons hentries, ih]
      omega

/-- First `k` sessions and then `n`. -/
theorem drained_add (k n : Nat) :
    ∀ m : SessionManager, (m.drained k).drained n = m.drained (k + n) := by
  induction k with
  | zero =>
    intro m
    rw [Nat.zero_add]
    rfl
  | succ k ih =>
    intro m
    rw [Nat.succ_add]
    cases hentries : m.sessions.entries with
    | nil => rw [drained_empty hentries, drained_empty hentries, drained_empty hentries]
    | cons it rest => rw [drained_cons hentries, drained_cons hentries, ih]

/-- Nothing is left when there have been as many calls as sessions. -/
theorem entries_drained {n : Nat} (hn : m.sessions.size ≤ n) :
    (m.drained n).sessions.entries = [] := by
  apply List.length_eq_zero_iff.mp
  show (m.drained n).sessions.size = 0
  rw [size_drained]
  omega

theorem drained_of_le {n : Nat} (hn : m.sessions.size ≤ n) :
    m.drained n = m.drained m.sessions.size := by
  obtain ⟨more, rfl⟩ := Nat.exists_eq_add_of_le hn
  rw [← drained_add, drained_empty (entries_drained le_rfl)]

/-- What `shutdownSession` leaves as it is. -/
structure SameButDrained (m m' : SessionManager) : Prop where
  draining : m'.draining = m.draining
  rate : m'.shutdownRate = m.shutdownRate
  throwsAt : m'.cdrWriter.throwsAt = m.cdrWriter.throwsAt
  cached : m.stats.activeSessions = m.sessions.size → m'.stats.activeSessions = m'.sessions.size

theorem sameButDrained (n : Nat) : ∀ m : SessionManager, m.SameButDrained (m.drained n) := by
  induction n with
  | zero => exact fun m => ⟨rfl, rfl, rfl, id⟩
  | succ n ih =>
    intro m
    cases hentries : m.sessions.entries with
    | nil =>
      rw [drained_empty hentries]
      exact ⟨rfl, rfl, rfl, id⟩
    | cons it rest =>
      rw [drained_cons hentries]
      have hrest := ih (m.terminated it.1)
      exact ⟨hrest.draining, hrest.rate, hrest.throwsAt, fun _ => hrest.cached rfl⟩

/-! ## gracefulShutdown

The blocking shutdown ends the sessions one by one and sleeps in between. When it returns, the table
is empty and each session has its record. -/

/-- The loop of `gracefulShutdown` takes a session in every iteration, however it sleeps. -/
theorem shutdownLoop_run_drained (pacing : Pacing → Pacing) (fuel : Nat) :
    ∀ (p : Pacing) (m : SessionManager), m.cdrWriter.Reliable →
      (shutdownLoop pacing fuel p).run m = .ok () (m.drained fuel) := by
  induction fuel with
  | zero => exact fun p m _ => rfl
  | succ fuel ih =>
    intro p m hreliable
    cases hentries : m.sessions.entries with
    | nil => rw [shutdownLoop_succ_run, shutdownSession_run_empty hentries, drained_empty hentries]
    | cons it rest =>
      rw [shutdownLoop_succ_run, shutdownSession_run (hreliable _) hentries, drained_cons hentries]
      exact ih (pacing p) (m.terminated it.1) hreliable

theorem gracefulShutdown_run_drained (hreliable : m.cdrWriter.Reliable) (hrate : m.shutdownRate ≠ 0)
    (hdraining : m.draining = true) (hcached : m.stats.activeSessions = m.sessions.size)
    (clock : Nat → Time) :
    (gracefulShutdown clock).run m = .ok () (m.drained m.sessions.size) := by
  have hsame : { m with draining := true } = m := by
    rw [← hdraining]
  rw [gracefulShutdown_run hrate, pacedLoop, hsame, shutdownLoop_run_drained _ _ _ _ hreliable,
    drained_of_le (Nat.le_succ _)]
  have hempty : (m.drained m.sessions.size).sessions.entries = [] := entries_drained le_rfl
  -- the counter is right already
  have hzero : (m.drained m.sessions.size).stats.activeSessions = 0 := by
    rw [(sameButDrained _ m).cached hcached, UnorderedMap.size, hempty, List.length_nil]
  simp only [hempty, if_true]
  rw [← hzero]

end SessionManager

namespace Server

variable {json : JsonLib} {around : Nat → Surroundings} {s s' : Server}

/-! ## The drain timer

The same calls, spread over the reads of the timer. -/

/-- The server after a read of the timer while the loop drains. -/
def drainedBy (s : Server) (expirations : Nat) : Server :=
  { s.setSessionManager (s.sessionManager.drained expirations) with
    state := if s.sessionManager.sessions.size < expirations then .STOPPING else s.state }

/-- One read of the timer. Induction on the expirations. -/
theorem expire_run (expirations : Nat) : ∀ s : Server, s.sessionManager.cdrWriter.Reliable →
    (expire expirations).run s = .ok () (s.drainedBy expirations) := by
  induction expirations with
  | zero => exact fun _ _ => rfl
  | succ expirations ih =>
    intro s hreliable
    cases hentries : s.sessionManager.sessions.entries with
    -- no session is left: the timer has expired once too often, and the drain is over
    | nil =>
      have hsize : s.sessionManager.sessions.size = 0 := by
        rw [UnorderedMap.size, hentries, List.length_nil]
      have hrun : (onManager SessionManager.shutdownSession).run s = .ok false s := by
        simp only [onManager, run_zoom, SessionManager.shutdownSession_run_empty hentries]
        rfl
      rw [expire, EStateM.run_bind, hrun, drainedBy, SessionManager.drained_empty hentries, hsize,
        if_pos (Nat.succ_pos expirations)]
      rfl
    -- the first session of the table is ended, the others wait for the next expiration
    | cons it rest =>
      have hless := SessionManager.size_terminated hentries
      have hrun : (onManager SessionManager.shutdownSession).run s
          = .ok true (s.setSessionManager (s.sessionManager.terminated it.1)) := by
        simp only [onManager, run_zoom, SessionManager.shutdownSession_run (hreliable _) hentries]
      have hcount : (s.sessionManager.terminated it.1).sessions.size < expirations
          ↔ s.sessionManager.sessions.size < expirations + 1 := by omega
      -- one expiration fewer on one session fewer
      have hrest : (s.setSessionManager (s.sessionManager.terminated it.1)).drainedBy expirations
          = s.drainedBy (expirations + 1) := by
        unfold drainedBy
        rw [SessionManager.drained_cons hentries]
        simp only [← hcount]
        rfl
      rw [expire, EStateM.run_bind, hrun, ← hrest]
      exact ih _ hreliable

/-- The loop drains, or it has found that no session is left. -/
def DrainsOrStops (s : Server) : Prop :=
  s.state = .DRAINING ∨ s.state = .STOPPING ∧ s.sessionManager.sessions.entries = []

/-- **The reads of the timer**, one after the other. -/
theorem timers_run (es : List Nat) : ∀ {s : Server}, s.sessionManager.cdrWriter.Reliable →
    s.DrainsOrStops → ∃ s',
      Run.exec (turn json around) s (es.map fun e => .event (.timer e)) = some s' ∧
        s'.sessionManager = s.sessionManager.drained es.sum ∧
        (s'.state = .STOPPING ↔ s.state = .STOPPING ∨ s.sessionManager.sessions.size < es.sum) := by
  induction es with
  | nil => exact fun _ _ => ⟨_, rfl, rfl, by simp⟩
  | cons e es ih =>
    intro s hreliable hdrains
    -- `DRAINING` so far, or stopped with nothing left to shut down
    rcases hdrains with hstate | ⟨hstate, hempty⟩
    · have hfirst : turn json around s (.event (.timer e)) = some (s.drainedBy e) := by
        rw [turn_eq_some, take_timer_run_draining hstate, expire_run e s hreliable]
      have hsize := SessionManager.size_drained e s.sessionManager
      have hstate' : (s.drainedBy e).state
          = if s.sessionManager.sessions.size < e then .STOPPING else s.state := rfl
      -- a read of more expirations than sessions stops the server and empties the table
      have hdrains : (s.drainedBy e).DrainsOrStops := by
        unfold DrainsOrStops
        rw [hstate', hstate]
        split
        · next hless => exact .inr ⟨rfl, SessionManager.entries_drained (Nat.le_of_lt hless)⟩
        · exact .inl rfl
      have hreliable' : (s.drainedBy e).sessionManager.cdrWriter.Reliable := by
        intro n
        show (s.sessionManager.drained e).cdrWriter.throwsAt n = false
        rw [(SessionManager.sameButDrained e s.sessionManager).throwsAt]
        exact hreliable n
      obtain ⟨s', hrun, hmanager, hstops⟩ := ih (s := s.drainedBy e) hreliable' hdrains
      refine ⟨s', Run.exec_cons_eq_some.mpr ⟨_, hfirst, hrun⟩, ?_, ?_⟩
      · rw [hmanager, List.sum_cons]
        exact SessionManager.drained_add e es.sum s.sessionManager
      · have hleft : (s.drainedBy e).sessionManager.sessions.size
            = s.sessionManager.sessions.size - e := hsize
        -- the two sums of expirations against the number of sessions
        rw [hstops, hstate', hstate, hleft, List.sum_cons]
        split <;> simp <;> omega
    · -- once stopped, the timer is only taken out of the set
      have hfirst : turn json around s (.event (.timer e))
          = some { s with timerWatched := false } := by
        rw [turn_eq_some, take_timer_run_ignored (by rw [hstate]; decide)]
      obtain ⟨s', hrun, hmanager, hstops⟩ := ih (s := { s with timerWatched := false }) hreliable
        (.inr ⟨hstate, hempty⟩)
      refine ⟨s', Run.exec_cons_eq_some.mpr ⟨_, hfirst, hrun⟩, ?_, ?_⟩
      · rw [hmanager]
        show s.sessionManager.drained _ = s.sessionManager.drained _
        rw [SessionManager.drained_empty hempty, SessionManager.drained_empty hempty]
      · simp [hstops, hstate]

/-! ## Both

Both come down to `drained`, with as many calls as there were sessions. -/

/-- The shutdowns end in one manager `m`, which the reads of the timer reach with as many
expirations as there are sessions. -/
def ShutdownsAgree (json : JsonLib) (around : Nat → Surroundings) (s : Server) : Prop :=
  ∃ m, (∀ clock, (SessionManager.gracefulShutdown clock).run s.sessionManager = .ok () m) ∧
    ∀ es : List Nat, ∃ s',
      Run.exec (turn json around) s (es.map fun e => .event (.timer e)) = some s' ∧
        (∀ clock, (SessionManager.gracefulShutdown clock).run s'.sessionManager = .ok () m) ∧
        (s'.sessionManager = m ↔ s.sessionManager.sessions.size ≤ es.sum) ∧
        (s'.state = .STOPPING ↔ s.sessionManager.sessions.size < es.sum)

theorem shutdownsAgree_of_draining (hledgered : s.sessionManager.Ledgered)
    (hdraining : s.sessionManager.draining = true) (hstate : s.state = .DRAINING) :
    ShutdownsAgree json around s := by
  obtain ⟨_, l, -, hkeeps⟩ := hledgered
  have hrate : s.sessionManager.shutdownRate ≠ 0 := hkeeps.rate.ne'
  -- the timer stops the server exactly when it expires once more than there are sessions
  refine ⟨s.sessionManager.drained s.sessionManager.sessions.size,
    SessionManager.gracefulShutdown_run_drained hkeeps.reliable hrate hdraining hkeeps.cached,
    fun es => ?_⟩
  obtain ⟨s', hrun, hmanager, hstops⟩ := timers_run es hkeeps.reliable (.inl hstate)
  have hsame := SessionManager.sameButDrained es.sum s.sessionManager
  have hsize := SessionManager.size_drained es.sum s.sessionManager
  rw [← hmanager] at hsame hsize
  have hreliable : s'.sessionManager.cdrWriter.Reliable := by
    intro n
    rw [hsame.throwsAt]
    exact hkeeps.reliable n
  refine ⟨s', hrun, fun clock => ?_, ⟨fun hequal => ?_, fun hle => ?_⟩, ?_⟩
  · -- the sessions that the timer has taken, and then the other ones
    have hrest := SessionManager.gracefulShutdown_run_drained hreliable (hsame.rate ▸ hrate)
      (hsame.draining.trans hdraining) (hsame.cached hkeeps.cached) clock
    -- the two ways end in the same table and the same log
    have hdrained (n : Nat) :
        s'.sessionManager.drained n = s.sessionManager.drained (es.sum + n) := by
      rw [hmanager, SessionManager.drained_add]
    have htotal : s.sessionManager.sessions.size ≤ es.sum + s'.sessionManager.sessions.size := by
      omega
    rw [hrest, hdrained, SessionManager.drained_of_le htotal]
  · have hempty : s'.sessionManager.sessions.size = 0 := by
      rw [hequal, SessionManager.size_drained, Nat.sub_self]
    omega
  · rw [hmanager, SessionManager.drained_of_le hle]
  · rw [hstops, hstate]
    simp

/-- **The event loop shuts down as `gracefulShutdown` does.** In every state that a run of the loop
reaches while it drains, for every way in which the expirations of the timer are read, and whatever
the clock shows to `gracefulShutdown`. -/
theorem shutdowns_agree {w : CdrWriter} (hw : w.Reliable) (hnew : w.entries = [])
    {blacklist : Blacklist} {timeout rate : Int}
    (hvalid : Validation.isValidGracefulShutdownRate rate = true) {start now : Time}
    {service : Service} {socket : Nat}
    (hservice : service.handler.sessionManager = .constructed w blacklist timeout rate start)
    {turns : List Turn}
    (hrun : Run.exec (turn json around) (started service socket now) turns = some s)
    (hstate : s.state = .DRAINING) : ShutdownsAgree json around s := by
  have hledgered : service.handler.sessionManager.Ledgered := by
    rw [hservice]
    exact SessionManager.ledgered_constructed hw hnew blacklist timeout hvalid start
  have h : s.ShutsDown := shutsDown_run hledgered hrun
  exact shutdownsAgree_of_draining h.ledgered (h.draining (by rw [hstate]; decide)) hstate

/-- Two sessions are created before the shutdown is requested. -/
def twoLeft : List Turn :=
  [.beginIteration, .event (.udp [.packet (ascii "001010000000001") 1 0 false,
    .packet (ascii "001010000000002") 1 0 false]), .shutdownRequest, .beginIteration]

theorem shutdowns_agree_twoLeft : ∃ s,
    Run.exec (turn TcpHandler.sampleJson sampleAround) (started newService 3 0) twoLeft = some s ∧
      s.state = .DRAINING ∧ s.sessionManager.sessions.size = 2 ∧
      ShutdownsAgree TcpHandler.sampleJson sampleAround s := by
  have hrun : Run.exec (turn TcpHandler.sampleJson sampleAround) (started newService 3 0) twoLeft
      = some _ := rfl
  exact ⟨_, hrun, rfl, rfl, shutdowns_agree (fun _ => rfl) rfl (by decide) rfl hrun rfl⟩

end Server
end Pgw
