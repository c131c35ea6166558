import MiniPgw.Server.Frame
import MiniPgw.Session.Draining

/-!
# Graceful shutdown makes progress

While the loop drains, the sockets and the clean-up only take sessions away, and every expiration of
the drain timer takes one (`processEvent_emptying`). So the expirations read so far and the sessions
left never exceed the sessions at the start (`UnderWay`), and one expiration more ends the loop.

The timer is armed for the rates from 2 to 1000 only: at 1 per second the kernel rejects its period
of 10⁹ ns, and above 1000 the period is 0, which disarms it. Then the loop never stops
(`never_stops`).

## The architecture

* **`shutdownTimerSpec_arms_iff`** — for which rates `timerfd_settime` arms the timer; everything
  else follows from what the loop does with an armed or a disarmed one.
* **`Undisturbed`** — what the events other than the timer leave as it is, one lemma for each
  kind.
* **`Emptying`**, **`expire_emptying`**, **`processEvents_emptying`** — a batch of events takes as
  many sessions as it has expirations.
* **`UnderWay`**, **`step_underWay`**, **`run_underWay`** — the count over a run: expirations read
  and sessions left.
* **`drainsAt_iff`**, **`never_stops`** — the rates at which this ends the loop, and the others.
-/

namespace Pgw

open Effects

/-! ## The timer

The period is computed in whole milliseconds, and the number of nanoseconds in it is checked by the
kernel. This decides which rates arm the timer at all. -/

/-- A valid specification arms the timer whatever it did before, -/
theorem TimerFd.settime_of_arms {spec : ITimerSpec} (h : spec.Arms) (timer : TimerFd) :
    timer.settime spec = .armed spec := by
  rw [settime, if_pos h.1, if_neg h.2]

/-- and one that is rejected or all zero leaves a new timer without a period. -/
theorem TimerFd.settime_of_not_arms {spec : ITimerSpec} (h : ¬ spec.Arms) :
    TimerFd.disarmed.settime spec = .disarmed := by
  unfold settime
  split
  · next hvalid =>
    exact if_pos (not_not.mp fun hzero => h ⟨hvalid, hzero⟩)
  · rfl

/-- The period in milliseconds: 1000 divided by the rate and rounded down. -/
theorem shutdownInterval_eq (rate : Int) : shutdownInterval rate = 1000 / rate :=
  Int.tdiv_eq_ediv_of_nonneg (by decide)

/-- **The rates at which the drain timer is armed.** -/
theorem shutdownTimerSpec_arms_iff {rate : Int} (hrate : 0 < rate) :
    (shutdownTimerSpec rate).Arms ↔ 2 ≤ rate ∧ rate ≤ 1000 := by
  have hone : 1 ≤ 1000 / rate ↔ rate ≤ 1000 := by
    rw [Int.le_ediv_iff_mul_le hrate, one_mul]
  have hthousand : 1000 ≤ 1000 / rate ↔ rate ≤ 1 := by
    rw [Int.le_ediv_iff_mul_le hrate]
    omega
  have hnonneg : 0 ≤ 1000 / rate := Int.ediv_nonneg (by decide) hrate.le
  simp only [ITimerSpec.Arms, TimeSpec.Valid, shutdownTimerSpec, shutdownInterval_eq, ne_eq,
    TimeSpec.mk.injEq, true_and]
  generalize 1000 / rate = interval at *
  omega

namespace Server

variable {json : JsonLib} {around : Nat → Surroundings} {s s' : Server} {spec : ITimerSpec}
  {n e : Nat}

/-! ## The events of one iteration

An iteration handles all the events that `epoll_wait` has reported. Those besides the timer may fill
buffers and remove sessions, but not stop the drain. -/

/-- The loop is draining, with the timer armed; or it has found no session left. -/
inductive Emptying (spec : ITimerSpec) (n e : Nat) (s : Server) : Prop where
  | draining (hstate : s.state = .DRAINING) (hleft : s.left = false)
      (htimer : s.timerFd = .armed spec) (hwatched : s.timerWatched = true)
      (hdraining : s.sessionManager.draining = true)
      (hcount : s.sessionManager.sessions.size + e ≤ n)
  | stopping (hstate : s.state = .STOPPING) (hleft : s.left = false)
      (hdrained : s.sessionManager.Drains 0)

/-- What events other than the timer leave as it is. -/
structure Undisturbed (s s' : Server) : Prop where
  state : s'.state = s.state
  left : s'.left = s.left
  timerFd : s'.timerFd = s.timerFd
  timerWatched : s'.timerWatched = s.timerWatched
  drains : s'.sessionManager.Drains s.sessionManager.sessions.size

/-- While the table is being emptied no session can be created. -/
theorem Emptying.isDraining (h : Emptying spec n e s) : s.sessionManager.draining = true := by
  cases h with
  | draining _ _ _ _ hdraining _ => exact hdraining
  | stopping _ _ hdrained => exact hdrained.1

/-- What does not concern the timer and the table does not disturb it. -/
theorem Emptying.undisturbed (h : Emptying spec n e s) (hs : Undisturbed s s') :
    Emptying spec n e s' := by
  cases h with
  | draining hstate hleft htimer hwatched hdraining hcount =>
    refine .draining (hs.state.trans hstate) (hs.left.trans hleft) (hs.timerFd.trans htimer)
      (hs.timerWatched.trans hwatched) hs.drains.1 ?_
    have hsize := hs.drains.2
    omega
  | stopping hstate hleft hdrained =>
    refine .stopping (hs.state.trans hstate) (hs.left.trans hleft) ⟨hs.drains.1, ?_⟩
    exact hs.drains.2.trans hdrained.2

/-- A turn that keeps the loop and only removes sessions is no disturbance. -/
theorem SameLoop.undisturbed (h : SameLoop s s')
    (hdrains : s'.sessionManager.DrainsWithin s.sessionManager.sessions.keySet) :
    Undisturbed s s' :=
  ⟨h.state, h.left, h.timerFd, h.timerWatched, hdrains.drains⟩

/-- The sockets do not disturb the shutdown. -/
theorem socketEvent_undisturbed (hdraining : s.sessionManager.draining = true) {event : Ready}
    (hevent : event.isTimer = false) :
    Ensures (processEvent json around event) s (fun _ s' => Undisturbed s s') (fun _ _ => True) :=
  (socketEvent_keeps (fun imsi now _ => SessionManager.createSession_preserves imsi now)
    SessionManager.terminateSession_preserves ⟨hdraining, subset_rfl⟩ hevent).mono
    (fun _ _ h => h.1.undisturbed h.2) fun _ _ _ => trivial

/-- The clean-up of the loop only removes sessions. -/
theorem cleanup_undisturbed (hdraining : s.sessionManager.draining = true) (now cleanupNow : Time) :
    Ensures (cleanup now cleanupNow) s (fun _ s' => Undisturbed s s') (fun _ _ => True) :=
  (cleanup_keeps SessionManager.cleanTimeoutSessions_preserves ⟨hdraining, subset_rfl⟩ now
    cleanupNow).mono (fun _ _ h => h.1.undisturbed h.2) fun _ _ _ => trivial

/-- Every expiration takes a session, until there is none. Induction on the expirations. -/
theorem expire_emptying (expirations : Nat) :
    ∀ {s : Server} {e : Nat}, s.state = .DRAINING → s.left = false → s.timerFd = .armed spec →
      s.timerWatched = true → s.sessionManager.draining = true →
      s.sessionManager.sessions.size + e ≤ n →
      Ensures (expire expirations) s (fun _ s' => Emptying spec n (e + expirations) s')
        (fun _ _ => True) := by
  induction expirations with
  | zero =>
    intro s e hstate hleft htimer hwatched hdraining hcount
    exact .draining hstate hleft htimer hwatched hdraining hcount
  | succ expirations ih =>
    intro s e hstate hleft htimer hwatched hdraining hcount
    simp only [expire, ensures_bind, onManager, ensures_zoom]
    refine SessionManager.shutdownSession_ensures.mono (fun sessionsAvailable m hm => ?_)
      fun _ _ _ => trivial
    obtain ⟨hkept, hsize⟩ := hm
    cases sessionsAvailable with
    | true =>
      rw [if_pos rfl] at hsize
      -- one session less and one expiration more
      have hrest := ih (s := s.setSessionManager m) (e := e + 1) hstate hleft htimer hwatched
        (hkept.trans hdraining) (show m.sessions.size + (e + 1) ≤ n by omega)
      rwa [Nat.add_assoc, Nat.add_comm 1] at hrest
    | false =>
      rw [if_neg Bool.false_ne_true] at hsize
      refine .stopping rfl hleft ⟨hkept.trans hdraining, ?_⟩
      show UnorderedMap.size m.sessions ≤ 0
      rw [hsize.1, hsize.2]

/-- One event: the timer takes as many sessions as it has expired, the others do not disturb. -/
theorem processEvent_emptying (h : Emptying spec n e s) (event : Ready) :
    Ensures (processEvent json around event) s
      (fun _ s' => Emptying spec n (e + event.expirations) s') (fun _ _ => True) := by
  cases hevent : event.isTimer with
  | false =>
    have hnone : event.expirations = 0 := by
      cases event with
      | timer expirations => cases hevent
      | _ => rfl
    rw [hnone]
    exact (socketEvent_undisturbed h.isDraining hevent).mono (fun _ _ hs => h.undisturbed hs)
      fun _ _ _ => trivial
  | true =>
    cases event with
    | timer expirations =>
      simp only [processEvent, ensures_bind, ensures_get]
      -- a timer event counts while draining, and is ignored afterwards
      cases h with
      | draining hstate hleft htimer hwatched hdraining hcount =>
        rw [if_pos hstate]
        exact expire_emptying expirations hstate hleft htimer hwatched hdraining hcount
      | stopping hstate hleft hdrained =>
        rw [if_neg (by rw [hstate]; decide)]
        exact .stopping hstate hleft hdrained
    | _ => cases hevent

/-- So do the events of one `epoll_wait`, whose expirations add up. -/
theorem processEvents_emptying (ready : List Ready) :
    ∀ {s : Server} {e : Nat}, Emptying spec n e s →
      Ensures (processEvents json around ready) s
        (fun _ s' => Emptying spec n (e + (ready.map Ready.expirations).sum) s')
        (fun _ _ => True) := by
  induction ready with
  | nil => exact fun h => h
  | cons event ready ih =>
    intro s e h
    simp only [processEvents, ensures_bind, List.map_cons, List.sum_cons, ← Nat.add_assoc]
    exact (processEvent_emptying h event).mono (fun _ _ hs => ih hs) fun _ _ _ => trivial

/-! ## Iterations

Each iteration with an expiration takes a session or finds that there is none, which ends the
drain. -/

/-- `e` expirations have been read since `n` sessions were there. -/
inductive UnderWay (spec : ITimerSpec) (n e : Nat) (s : Server) : Prop where
  | requested (hstate : s.state = .RUNNING) (hflag : s.tcpHandler.shutdownRequest = true)
      (hspec : s.timerSpec = spec) (hcount : s.sessionManager.sessions.size + e ≤ n)
  | emptying (h : Emptying spec n e s)
  /-- `epoll_wait` has failed. -/
  | failed (hstate : s.state = .DRAINING) (hleft : s.left = true)
      (hcount : s.sessionManager.sessions.size + e ≤ n)
  | stopped (hstate : s.state = .STOPPED) (hdrained : s.sessionManager.Drains 0)

/-- One iteration of a draining loop keeps it under way. -/
theorem wakeUp_underWay (h : Emptying spec n e s) (hstate : s.state = .DRAINING)
    (wait : EpollWait) :
    Ensures (wakeUp json around wait) s
      (fun _ s' => UnderWay spec n (e + (ServerInput.iteration wait).expirations) s')
      (fun _ _ => True) := by
  cases wait with
  | interrupted => exact .emptying h
  | failed =>
    cases h with
    | draining _ _ _ _ _ hcount => exact .failed hstate rfl hcount
    | stopping hstopping _ _ => exact absurd (hstate.symm.trans hstopping) (by decide)
  | events ready now cleanupNow =>
    simp only [wakeUp, ensures_bind]
    refine (processEvents_emptying ready h).mono (fun _ s' hs' => ?_) fun _ _ _ => trivial
    exact (cleanup_undisturbed hs'.isDraining now cleanupNow).mono
      (fun _ _ hs => .emptying (hs'.undisturbed hs)) fun _ _ _ => trivial

/-- The server after the shutdown has been started. -/
def shutdownStarted (s : Server) : Server :=
  { s.setSessionManager { s.sessionManager with draining := true } with
    state := .DRAINING
    timerFd := s.timerFd.settime s.timerSpec
    timerWatched := true
    tcpServer.stopAccepting := some true }

/-- The first iteration after the request starts to drain, -/
theorem beginIteration_run_requested (hstate : s.state = .RUNNING)
    (hflag : s.tcpHandler.shutdownRequest = true) :
    beginIteration.run s = .ok () s.shutdownStarted := by
  simp [beginIteration, startShutdown, stopServers, hstate, hflag, onManager, onTcp,
    SessionManager.startDraining, TcpServer.setStopAccepting, shutdownStarted, setSessionManager,
    setTcpHandler]

/-- and the next ones have nothing to start. -/
theorem beginIteration_run_draining (hstate : s.state = .DRAINING) :
    beginIteration.run s = .ok () s := by
  simp [beginIteration, startShutdown, stopServers, hstate]

/-- Stopping the servers always succeeds. -/
theorem beginIteration_returns_stopping (hstate : s.state = .STOPPING) :
    Returns beginIteration s fun _ s' =>
      s'.state = .STOPPED ∧ s'.sessionManager = s.sessionManager := by
  have hstart : Returns startShutdown s fun _ s' => s' = s := by
    simp [startShutdown, hstate]
  rw [beginIteration, Returns, ensures_bind]
  refine hstart.mono (fun _ s' hs' => ?_) fun _ _ he => he
  subst hs'
  simp only [stopServers, onUdp, onTcp, ensures_bind, ensures_get, hstate, if_true, ensures_zoom,
    ensures_modify]
  refine (UdpServer.stop_returns s'.udpServer).mono (fun _ u hu => ?_) fun _ _ he => he
  refine (TcpServer.stop_returns _).mono (fun _ t ht => ⟨trivial, ?_⟩) fun _ _ he => he
  show t.handler.handler.sessionManager = s'.sessionManager
  rw [ht]
  exact hu

/-- One step reads the expirations of its input. -/
theorem step_underWay (harms : spec.Arms) (h : UnderWay spec n e s) {input : ServerInput}
    (hstep : step json around s input = some s') :
    UnderWay spec n (e + input.expirations) s' := by
  cases input with
  | shutdownRequest =>
    cases hstep
    cases h with
    | requested hstate hflag hspec hcount => exact .requested hstate rfl hspec hcount
    | emptying h =>
      cases h with
      | draining hstate hleft htimer hwatched hdraining hcount =>
        exact .emptying (.draining hstate hleft htimer hwatched hdraining hcount)
      | stopping hstate hleft hdrained => exact .emptying (.stopping hstate hleft hdrained)
    | failed hstate hleft hcount => exact .failed hstate hleft hcount
    | stopped hstate hdrained => exact .stopped hstate hdrained
  | iteration wait =>
    obtain ⟨⟨hin, hgoing⟩, s₁, hbegin, hrest⟩ := (step_iteration_iff json around).mp hstep
    have hdrain : Emptying spec n e s₁ → s₁.state = .DRAINING →
        UnderWay spec n (e + (ServerInput.iteration wait).expirations) s' := by
      intro h₁ hstate₁
      rcases hrest with ⟨hstopped, -⟩ | ⟨-, -, hwake⟩
      · exact absurd (hstate₁.symm.trans hstopped) (by decide)
      · exact (wakeUp_underWay h₁ hstate₁ wait).of_run_ok hwake
    cases h with
    | requested hstate hflag hspec hcount =>
      rw [beginIteration_run_requested hstate hflag] at hbegin
      cases hbegin
      -- the timer is armed in the iteration that finds the request
      refine hdrain (.draining rfl hin ?_ rfl rfl hcount) rfl
      show s.timerFd.settime s.timerSpec = .armed spec
      rw [hspec, TimerFd.settime_of_arms harms]
    | emptying h =>
      cases h with
      | draining hstate hleft htimer hwatched hdraining hcount =>
        rw [beginIteration_run_draining hstate] at hbegin
        cases hbegin
        exact hdrain (.draining hstate hleft htimer hwatched hdraining hcount) hstate
      | stopping hstate hleft hdrained =>
        obtain ⟨hstopped, hmanager⟩ :=
          (beginIteration_returns_stopping hstate).of_run_ok hbegin
        rcases hrest with ⟨-, rfl⟩ | ⟨hnot, -⟩
        · exact .stopped hstopped (hmanager ▸ hdrained)
        · exact absurd hstopped hnot
    -- there are no iterations after `break` and after `STOPPED`
    | failed hstate hleft hcount => exact absurd (hleft.symm.trans hin) (by decide)
    | stopped hstate hdrained => exact absurd hstate hgoing

/-! ## Whole shutdowns

With an armed timer the sessions are a bound for the expirations that are needed. -/

/-- The loop is running with the drain timer of this rate, and a shutdown has been requested. -/
structure Requested (rate : Int) (s : Server) : Prop where
  state : s.state = .RUNNING
  shutdownRequest : s.tcpHandler.shutdownRequest = true
  timerSpec : s.timerSpec = shutdownTimerSpec rate

/-- The request itself is under way with no expirations. -/
theorem Requested.underWay {rate : Int} (h : Requested rate s) :
    UnderWay (shutdownTimerSpec rate) s.sessionManager.countActiveSession 0 s :=
  .requested h.state h.shutdownRequest h.timerSpec le_rfl

/-- The number of expirations read in a run. -/
def expirations (inputs : List ServerInput) : Nat :=
  (inputs.map ServerInput.expirations).sum

/-- No session is left, and the loop has stopped or does so in its next iteration. -/
def Finished (json : JsonLib) (around : Nat → Surroundings) (s : Server) : Prop :=
  s.sessionManager.countActiveSession = 0 ∧
    (s.state = .STOPPED ∨ s.state = .STOPPING ∧ ∀ wait, ∃ s',
      step json around s (.iteration wait) = some s' ∧ s'.state = .STOPPED ∧
        s'.sessionManager.countActiveSession = 0)

/-- Graceful shutdown makes progress at this rate. -/
structure DrainsAt (rate : Int) : Prop where
  /-- The drain timer is valid, and armed by it. -/
  armed : (shutdownTimerSpec rate).Arms
  /-- While the loop drains, the timer can be read with any number of expirations. -/
  reads : ∀ json around s₀ inputs s, Requested rate s₀ →
    Run.exec (step json around) s₀ inputs = some s → s.state = .DRAINING → s.left = false →
      s.sessionManager.cdrWriter.Reliable → ∀ expirations now cleanupNow, ∃ s',
        step json around s (.iteration (.events [.timer expirations] now cleanupNow)) = some s'
  /-- One expiration more than there were sessions ends the loop, whatever else happens. -/
  finishes : ∀ json around s₀ inputs s, Requested rate s₀ →
    Run.exec (step json around) s₀ inputs = some s →
      s₀.sessionManager.countActiveSession + 1 ≤ expirations inputs → Finished json around s

/-- **A run from the request on** has taken one session for each expiration, or is past the end of
the table. -/
theorem run_underWay {rate : Int} (harms : (shutdownTimerSpec rate).Arms) {s₀ : Server}
    (h : Requested rate s₀) {inputs : List ServerInput}
    (hrun : Run.exec (step json around) s₀ inputs = some s) :
    UnderWay (shutdownTimerSpec rate) s₀.sessionManager.countActiveSession
      (expirations inputs) s := by
  have hsteps : ∀ e s input s', UnderWay (shutdownTimerSpec rate)
      s₀.sessionManager.countActiveSession e s → step json around s input = some s' →
        UnderWay (shutdownTimerSpec rate) s₀.sessionManager.countActiveSession
          (e + input.expirations) s' :=
    fun _ _ _ _ h hstep => step_underWay harms h hstep
  have hsum := Run.exec_invariant_sum hsteps h.underWay hrun
  rwa [Nat.zero_add] at hsum

/-- With a CDR writer that does not throw, a read of the timer does not end the loop early. -/
theorem expire_returns (expirations : Nat) :
    ∀ {s : Server}, s.sessionManager.cdrWriter.Reliable →
      Returns (expire expirations) s fun _ s' => s'.sessionManager.cdrWriter.Reliable := by
  induction expirations with
  | zero => exact fun h => h
  | succ expirations ih =>
    intro s h
    simp only [expire, ensures_bind, onManager, ensures_zoom]
    refine (SessionManager.shutdownSession_returns h).mono (fun more m hm => ?_) fun _ _ he => he
    cases more with
    | true => exact ih (s := s.setSessionManager m) hm
    | false => exact hm

/-- The clean-up returns if the writer does. -/
theorem cleanup_returns (h : s.sessionManager.cdrWriter.Reliable) (now cleanupNow : Time) :
    Returns (cleanup now cleanupNow) s fun _ _ => True := by
  simp only [cleanup, ensures_bind, ensures_get]
  split
  · simp only [ensures_bind, onManager, ensures_zoom]
    exact (SessionManager.cleanTimeoutSessions_returns h cleanupNow).mono (fun _ _ _ => trivial)
      fun _ _ he => he
  · trivial

/-- A draining loop can be given the next expirations. -/
theorem reads_of_emptying (h : Emptying spec n e s) (hstate : s.state = .DRAINING)
    (hreliable : s.sessionManager.cdrWriter.Reliable) (expirations : Nat) (now cleanupNow : Time) :
    ∃ s', step json around s (.iteration (.events [.timer expirations] now cleanupNow))
      = some s' := by
  cases h with
  | stopping hstopping _ _ => exact absurd (hstate.symm.trans hstopping) (by decide)
  | draining _ hleft htimer hwatched _ _ =>
    -- the iteration with this one timer event returns
    have hwake : Returns (wakeUp json around (.events [.timer expirations] now cleanupNow)) s
        fun _ _ => True := by
      simp only [wakeUp, processEvents, processEvent, ensures_bind, ensures_get, hstate, if_true,
        ensures_pure]
      exact (expire_returns expirations hreliable).mono
        (fun _ _ hs => cleanup_returns hs now cleanupNow) fun _ _ he => he
    obtain ⟨_, s', hrun, -⟩ := (returns_iff _).mp hwake
    refine ⟨s', (step_iteration_iff json around).mpr ⟨⟨hleft, by rw [hstate]; decide⟩, s,
      beginIteration_run_draining hstate, .inr ⟨by rw [hstate]; decide, ?_, hrun⟩⟩⟩
    have hfits : 1 ≤ MAX_FDS := by decide
    have harmed : s.timerFd ≠ .disarmed := by
      rw [htimer]
      intro h
      cases h
    exact ⟨hfits, fun _ => ⟨harmed, hwatched⟩⟩

/-- With one expiration more than there were sessions the loop is finished. -/
theorem finished_of_underWay (h : UnderWay spec n e s) (he : n + 1 ≤ e) :
    Finished json around s := by
  have hempty : ∀ {m : SessionManager}, m.Drains 0 → m.countActiveSession = 0 :=
    fun hm => Nat.le_zero.mp hm.2
  cases h with
  | requested _ _ _ hcount => omega
  | failed _ _ hcount => omega
  | stopped hstate hdrained => exact ⟨hempty hdrained, .inl hstate⟩
  | emptying h =>
    cases h with
    | draining _ _ _ _ _ hcount => omega
    | stopping hstate hleft hdrained =>
      refine ⟨hempty hdrained, .inr ⟨hstate, fun wait => ?_⟩⟩
      obtain ⟨_, s₁, hbegin, hstopped, hmanager⟩ :=
        (returns_iff _).mp (beginIteration_returns_stopping hstate)
      refine ⟨s₁, (step_iteration_iff json around).mpr ⟨⟨hleft, by rw [hstate]; decide⟩, s₁,
        hbegin, .inl ⟨hstopped, rfl⟩⟩, hstopped, ?_⟩
      rw [hmanager]
      exact hempty hdrained

/-- **At which rates graceful shutdown makes progress.** Of the rates that the configuration
accepts, these are the rates from 2 to 1000 sessions per second. -/
theorem drainsAt_iff {rate : Int} (hvalid : Validation.isValidGracefulShutdownRate rate = true) :
    DrainsAt rate ↔ 2 ≤ rate ∧ rate ≤ 1000 := by
  have hrate : 0 < rate := of_decide_eq_true hvalid
  refine ⟨fun h => (shutdownTimerSpec_arms_iff hrate).mp h.armed, fun h => ?_⟩
  have harms := (shutdownTimerSpec_arms_iff hrate).mpr h
  refine ⟨harms, ?_, ?_⟩
  · intro json around s₀ inputs s hrequested hrun hstate hleft hreliable expirations now cleanupNow
    cases run_underWay harms hrequested hrun with
    | emptying h => exact reads_of_emptying h hstate hreliable expirations now cleanupNow
    | requested hrunning _ _ _ => exact absurd (hstate.symm.trans hrunning) (by decide)
    | failed _ hfailed _ => exact absurd (hleft.symm.trans hfailed) (by decide)
    | stopped hstopped _ => exact absurd (hstate.symm.trans hstopped) (by decide)
  · intro json around s₀ inputs s hrequested hrun hexpirations
    exact finished_of_underWay (run_underWay harms hrequested hrun) hexpirations

/-- The server with a session that has just been told to shut down. -/
def toldToShutDown : Server :=
  let m := SessionManager.constructed ⟨[], 0, fun _ => false⟩ ∅ 30 10 0
  let tcpHandler : TcpHandler := ⟨m.created (ascii "001010000000001") 0, true, true⟩
  .entered (.constructed ⟨tcpHandler, 0⟩ 3) 0

/-- A JSON library and surroundings that this run does not use. -/
def noJson : JsonLib := ⟨fun _ => none, fun _ => none⟩

/-- The surroundings of a handler without records. -/
def noRecords (_ : Nat) : Surroundings := ⟨0, fun _ => .ok [], 0⟩

/-- The timer is read once, with two expirations. -/
def twoExpirations : List ServerInput :=
  [.iteration (.events [.timer 2] 0 0)]

/-- A server with one session drains it in two expirations. -/
theorem finished_toldToShutDown : DrainsAt 10 ∧ ∃ s,
    Run.exec (step noJson noRecords) toldToShutDown twoExpirations = some s ∧
      Finished noJson noRecords s := by
  have hdrains : DrainsAt 10 := (drainsAt_iff (by decide)).mpr (by decide)
  have hruns : (Run.exec (step noJson noRecords) toldToShutDown twoExpirations).isSome = true := rfl
  obtain ⟨s, hs⟩ := Option.isSome_iff_exists.mp hruns
  exact ⟨hdrains, s, hs, hdrains.finishes _ _ _ _ _ ⟨rfl, rfl, rfl⟩ hs (by decide)⟩

/-- The two ends of the accepted range: a period of 10⁹ ns, and one of 0. -/
theorem not_drainsAt :
    (Validation.isValidGracefulShutdownRate 1 = true ∧ ¬ DrainsAt 1) ∧
      Validation.isValidGracefulShutdownRate 1001 = true ∧ ¬ DrainsAt 1001 := by
  refine ⟨⟨by decide, fun h => ?_⟩, by decide, fun h => ?_⟩
  · exact absurd h.armed (by decide)
  · exact absurd h.armed (by decide)

/-! ## The other rates

A timer that is not armed never expires. The loop then waits in `DRAINING` for ever, whatever else
it is told. -/

/-- Two parts of an iteration that do not disturb. -/
theorem Undisturbed.trans {s'' : Server} (h : Undisturbed s s') (h' : Undisturbed s' s'') :
    Undisturbed s s'' where
  state := h'.state.trans h.state
  left := h'.left.trans h.left
  timerFd := h'.timerFd.trans h.timerFd
  timerWatched := h'.timerWatched.trans h.timerWatched
  drains := ⟨h'.drains.1, h'.drains.2.trans h.drains.2⟩

/-- Without an expiration no event disturbs a draining manager. -/
theorem processEvents_undisturbed {ready : List Ready} (hready : ready.any Ready.isTimer = false) :
    ∀ {s : Server}, s.sessionManager.draining = true →
      Ensures (processEvents json around ready) s (fun _ s' => Undisturbed s s')
        (fun _ _ => True) := by
  induction ready with
  | nil => exact fun hdraining => ⟨rfl, rfl, rfl, rfl, hdraining, le_rfl⟩
  | cons event ready ih =>
    intro s hdraining
    rw [List.any_cons, Bool.or_eq_false_iff] at hready
    simp only [processEvents, ensures_bind]
    refine (socketEvent_undisturbed hdraining hready.1).mono (fun _ s' hs => ?_)
      fun _ _ _ => trivial
    exact (ih hready.2 hs.drains.1).mono (fun _ _ hs' => hs.trans hs') fun _ _ _ => trivial

/-- The loop is waiting for a timer that is disarmed. -/
inductive Waiting (spec : ITimerSpec) (s : Server) : Prop where
  | requested (hstate : s.state = .RUNNING) (hflag : s.tcpHandler.shutdownRequest = true)
      (hspec : s.timerSpec = spec) (htimer : s.timerFd = .disarmed)
  | draining (hstate : s.state = .DRAINING) (htimer : s.timerFd = .disarmed)
      (hdraining : s.sessionManager.draining = true)

/-- A draining loop without a timer waits on, -/
theorem wakeUp_waiting (hstate : s.state = .DRAINING) (htimer : s.timerFd = .disarmed)
    (hdraining : s.sessionManager.draining = true) {wait : EpollWait} (hreports : s.Reports wait) :
    Ensures (wakeUp json around wait) s (fun _ s' => Waiting spec s') (fun _ _ => True) := by
  cases wait with
  | interrupted => exact .draining hstate htimer hdraining
  | failed => exact .draining hstate htimer hdraining
  | events ready now cleanupNow =>
    -- a disarmed timer is never reported
    have hready : ready.any Ready.isTimer = false :=
      Bool.eq_false_iff.mpr fun htimer' => (hreports.2 htimer').1 htimer
    simp only [wakeUp, ensures_bind]
    refine (processEvents_undisturbed hready hdraining).mono (fun _ s' hs => ?_)
      fun _ _ _ => trivial
    refine (cleanup_undisturbed hs.drains.1 now cleanupNow).mono (fun _ s'' hs' => ?_)
      fun _ _ _ => trivial
    have hboth := hs.trans hs'
    exact .draining (hboth.state.trans hstate) (hboth.timerFd.trans htimer) hboth.drains.1

/-- and so it does in every step, whatever else happens. -/
theorem step_waiting (harms : ¬ spec.Arms) (h : Waiting spec s) {input : ServerInput}
    (hstep : step json around s input = some s') : Waiting spec s' := by
  cases input with
  | shutdownRequest =>
    cases hstep
    cases h with
    | requested hstate hflag hspec htimer => exact .requested hstate rfl hspec htimer
    | draining hstate htimer hdraining => exact .draining hstate htimer hdraining
  | iteration wait =>
    obtain ⟨-, s₁, hbegin, hrest⟩ := (step_iteration_iff json around).mp hstep
    -- whatever the iteration waits for, the timer is disarmed
    have hwait : s₁.state = .DRAINING → s₁.timerFd = .disarmed →
        s₁.sessionManager.draining = true → Waiting spec s' := by
      intro hstate htimer hdraining
      rcases hrest with ⟨hstopped, -⟩ | ⟨-, hreports, hwake⟩
      · exact absurd (hstate.symm.trans hstopped) (by decide)
      · exact (wakeUp_waiting hstate htimer hdraining hreports).of_run_ok hwake
    cases h with
    | requested hstate hflag hspec htimer =>
      rw [beginIteration_run_requested hstate hflag] at hbegin
      cases hbegin
      refine hwait rfl ?_ rfl
      show s.timerFd.settime s.timerSpec = .disarmed
      rw [htimer, hspec, TimerFd.settime_of_not_arms harms]
    | draining hstate htimer hdraining =>
      rw [beginIteration_run_draining hstate] at hbegin
      cases hbegin
      exact hwait hstate htimer hdraining

/-- **At any other rate the loop never stops,** however long it runs. -/
theorem never_stops {rate : Int} (hrate : 0 < rate) (hother : ¬ (2 ≤ rate ∧ rate ≤ 1000))
    {s₀ : Server} (h : Requested rate s₀) (htimer : s₀.timerFd = .disarmed)
    {inputs : List ServerInput} (hrun : Run.exec (step json around) s₀ inputs = some s) :
    s.state = .RUNNING ∨ s.state = .DRAINING := by
  have harms : ¬ (shutdownTimerSpec rate).Arms := fun harms =>
    hother ((shutdownTimerSpec_arms_iff hrate).mp harms)
  have hstart : Waiting (shutdownTimerSpec rate) s₀ :=
    .requested h.state h.shutdownRequest h.timerSpec htimer
  cases Run.exec_invariant (fun _ _ _ h hstep => step_waiting harms h hstep) hstart hrun with
  | requested hstate _ _ _ => exact .inl hstate
  | draining hstate _ _ => exact .inr hstate

end Server
end Pgw
