import MiniPgw.Tcp.TcpHandler
import MiniPgw.Tcp.TcpServer
import MiniPgw.Udp.UdpServer

/-!
# The event loop of the server

`Server::Impl::runEventLoop` of `pgw/server/Server.cpp`, over the models of the components it
drives. The TCP command handler and the UDP server share the session manager and the shutdown flag,
which are kept in the handler.

`Server` is the state between two iterations, and `step` is one iteration or a shutdown request from
another thread. What the kernel answers comes with the iteration; `epoll_ctl` succeeds.
-/

namespace Pgw

open Protocol

/-! ## timerfd

As much of `timerfd_settime` as the loop uses. Its result is not looked at in the source, so a
rejected specification goes unnoticed. -/

/-- `struct timespec` -/
structure TimeSpec where
  tvSec : Int
  tvNsec : Int
  deriving DecidableEq, Repr

/-- `struct itimerspec` -/
structure ITimerSpec where
  itInterval : TimeSpec
  itValue : TimeSpec
  deriving DecidableEq, Repr

/-- What the kernel accepts as a time. -/
def TimeSpec.Valid (t : TimeSpec) : Prop :=
  0 ≤ t.tvSec ∧ 0 ≤ t.tvNsec ∧ t.tvNsec ≤ 999999999

instance (t : TimeSpec) : Decidable t.Valid :=
  inferInstanceAs (Decidable (_ ∧ _ ∧ _))

/-- The timer is accepted and does not disarm itself. -/
def ITimerSpec.Arms (spec : ITimerSpec) : Prop :=
  (spec.itInterval.Valid ∧ spec.itValue.Valid) ∧ spec.itValue ≠ ⟨0, 0⟩

instance (spec : ITimerSpec) : Decidable spec.Arms :=
  inferInstanceAs (Decidable (_ ∧ _))

/-- The timer of the kernel. -/
inductive TimerFd where
  | disarmed
  | armed (spec : ITimerSpec)
  deriving DecidableEq, Repr

/-- `timerfd_settime(timer, 0, &spec, nullptr)`: a specification that is not valid is rejected with
`EINVAL`, and an all-zero `it_value` disarms. -/
def TimerFd.settime (timer : TimerFd) (spec : ITimerSpec) : TimerFd :=
  if spec.itInterval.Valid ∧ spec.itValue.Valid then
    if spec.itValue = ⟨0, 0⟩ then .disarmed else .armed spec
  else timer

/-- `shutdownInterval`, in milliseconds; the rate is not 0. -/
def shutdownInterval (shutdownRate : Int) : Int :=
  (1000 : Int).tdiv shutdownRate

/-- `timerSpec` -/
def shutdownTimerSpec (shutdownRate : Int) : ITimerSpec where
  itInterval := ⟨0, shutdownInterval shutdownRate * 1000000⟩
  itValue := ⟨0, shutdownInterval shutdownRate * 1000000⟩

/-! ## The command handler as a service

The surroundings of a call (the clock, the uptime, the answer of the CDR reader) may be different in
each. They are given as a function of the number of the call. -/

/-- The command handler of a running server; `handled` counts its calls. -/
structure Service where
  handler : TcpHandler
  handled : Nat

/-- The `i`-th call of `handle` finds the surroundings `around i`. -/
def Service.handle (json : JsonLib) (around : Nat → Surroundings) (request : Message) :
    EStateM Fault Service Message := do
  let v ← get
  set { v with handled := v.handled + 1 }
  Effects.zoom Service.handler (fun h v => { v with handler := h })
    (TcpHandler.handle json (around v.handled) request)

/-! ## The state of the loop

The servers refer to one session manager through the command handler, so it is stored once. Views
and updates of the parts follow below. -/

/-- The enumeration `State` of `runEventLoop`. -/
inductive LoopState where
  | RUNNING
  | DRAINING
  | STOPPING
  | STOPPED
  deriving DecidableEq, Repr

/-- The local variables of `runEventLoop`, the servers that it drives, and what epoll watches for
it. -/
structure Server where
  state : LoopState
  /-- The loop was left through `break`. -/
  left : Bool
  timerFd : TimerFd
  timerSpec : ITimerSpec
  /-- The timer is in the epoll set. -/
  timerWatched : Bool
  /-- The client descriptors in the epoll set. -/
  clientsWatched : Finset Nat
  lastCleanup : Time
  tcpServer : TcpServer Service
  udpRunning : Bool
  udpSent : List (Bytes × Address)
  httpRunning : Bool

/-- What `epoll_wait` reports on one descriptor, with what handling it then finds. -/
inductive Ready where
  /-- `read(timerFd, &expirations, …)` -/
  | timer (expirations : Nat)
  | udp (receives : List UdpReceive)
  | tcp (outcome : AcceptOutcome)
  | client (fd : Nat) (received : ReceiveOutcome) (sends : Nat → SendOutcome)

/-- The event is an expiration of the timer. -/
def Ready.isTimer : Ready → Bool
  | .timer _ => true
  | _ => false

/-- What is read from the timer. -/
def Ready.expirations : Ready → Nat
  | .timer expirations => expirations
  | _ => 0

/-- What `epoll_wait` returns. -/
inductive EpollWait where
  /-- At most `MAX_FDS` events, and the readings of `steady_clock` by the loop and by
  `cleanTimeoutSessions`. -/
  | events (ready : List Ready) (now cleanupNow : Time)
  /-- `EINTR` -/
  | interrupted
  | failed

/-- What happens next: an iteration, or a request from another thread. -/
inductive ServerInput where
  | iteration (wait : EpollWait)
  /-- The flag is set by the HTTP thread or by `Server::stop`. -/
  | shutdownRequest

/-- The expirations that an iteration reads. -/
def ServerInput.expirations : ServerInput → Nat
  | .iteration (.events ready _ _) => (ready.map Ready.expirations).sum
  | _ => 0

namespace Server

/-- `MAX_FDS` -/
def MAX_FDS : Nat := 10

/-- In seconds. -/
def SESSION_CLEANUP_INTERVAL_S : Int := 10

/-- A part of the loop body. -/
abbrev Method := EStateM Fault Server

/-- The command handler is a member of the TCP server, -/
def tcpHandler (s : Server) : TcpHandler := s.tcpServer.handler.handler

/-- and refers to the one session manager that all servers share. -/
def sessionManager (s : Server) : SessionManager := s.tcpHandler.sessionManager

/-- The server with this handler, -/
def setTcpHandler (h : TcpHandler) (s : Server) : Server :=
  { s with tcpServer.handler.handler := h }

/-- or with this session manager. -/
def setSessionManager (m : SessionManager) (s : Server) : Server :=
  s.setTcpHandler { s.tcpHandler with sessionManager := m }

/-- The UDP server as its own functions see it. -/
def udpServer (s : Server) : UdpServer :=
  ⟨s.sessionManager, s.udpRunning, s.udpSent⟩

/-- What is left when they have run. -/
def setUdpServer (u : UdpServer) (s : Server) : Server :=
  { s.setSessionManager u.sessionManager with udpRunning := u.running, udpSent := u.sent }

/-- A call of the session manager, -/
def onManager {α : Type} (call : SessionManager.Method α) : Method α :=
  Effects.zoom sessionManager setSessionManager call

/-- of the TCP server, -/
def onTcp {α : Type} (call : TcpServer.Method Service α) : Method α :=
  Effects.zoom tcpServer (fun tcpServer s => { s with tcpServer := tcpServer }) call

/-- or of the UDP server: an exception of theirs goes on through the loop. -/
def onUdp {α : Type} (call : UdpServer.Method α) : Method α :=
  Effects.zoom udpServer setUdpServer call

/-- The local variables of `runEventLoop` before the loop. The servers have been started. -/
def entered (tcpServer : TcpServer Service) (now : Time) : Server where
  state := .RUNNING
  left := false
  timerFd := .disarmed
  timerSpec := shutdownTimerSpec tcpServer.handler.handler.sessionManager.shutdownRate
  timerWatched := false
  clientsWatched := ∅
  lastCleanup := now
  tcpServer := tcpServer
  udpRunning := true
  udpSent := []
  httpRunning := true

/-! ## One iteration

The loop body in the order of the source. An event on a descriptor that is neither the timer nor a
listening socket is one of a client. -/

/-- `if (state == State::RUNNING && m_shutdownRequest)` -/
def startShutdown : Method Unit := do
  let s ← get
  if s.state = .RUNNING ∧ s.tcpHandler.shutdownRequest = true then do
    onManager SessionManager.startDraining
    onTcp TcpServer.setStopAccepting
    modify fun s => { s with
      -- what `timerfd_settime` returns is not looked at
      timerFd := s.timerFd.settime s.timerSpec
      timerWatched := true
      state := .DRAINING }
  else pure ()

/-- `if (state == State::STOPPING)` -/
def stopServers : Method Unit := do
  let s ← get
  if s.state = .STOPPING then do
    onUdp UdpServer.stop
    onTcp TcpServer.stop
    modify fun t => { t with
      -- the kernel takes a descriptor that is closed out of the epoll set
      clientsWatched :=
        t.clientsWatched \ (TcpServer.closedSince s.tcpServer t.tcpServer).toFinset
      httpRunning := false
      state := .STOPPED }
  else pure ()

/-- The loop body before `epoll_wait`. -/
def beginIteration : Method Unit := do
  startShutdown
  stopServers

/-- The loop over the expirations. -/
def expire : Nat → Method Unit
  | 0 => pure ()
  | expirations + 1 => do
    let sessionsAvailable ← onManager SessionManager.shutdownSession
    if sessionsAvailable then expire expirations
    else modify fun s => { s with state := .STOPPING }

section
variable (json : JsonLib) (around : Nat → Surroundings)

/-- One round of the loop over the events: which server an event is for. -/
def processEvent : Ready → Method Unit
  | .timer expirations => do
    let s ← get
    if s.state = .DRAINING then expire expirations
    -- `handleClientData(timerFd)` finds no such client
    else set { s with timerWatched := false }
  | .udp receives => onUdp (UdpServer.processEvent receives)
  | .tcp outcome => do
    let clientFd ← onTcp (TcpServer.acceptNewClient outcome)
    if clientFd ≠ -1 then
      modify fun s => { s with clientsWatched := insert clientFd.toNat s.clientsWatched }
    else pure ()
  | .client fd received sends => do
    let connected ←
      onTcp (TcpServer.handleClientData (Service.handle json around) fd received sends)
    if connected then pure ()
    else modify fun s => { s with clientsWatched := s.clientsWatched.erase fd }

/-- `for (int i = 0; i < nfds; ++i)` -/
def processEvents : List Ready → Method Unit
  | [] => pure ()
  | event :: events => do
    processEvent json around event
    processEvents events

/-- `cleanTimeoutSessions`, at most once in each period. -/
def cleanup (now cleanupNow : Time) : Method Unit := do
  let s ← get
  -- the period is an integer division: 3 s
  if now - s.lastCleanup > seconds (SESSION_CLEANUP_INTERVAL_S / 3) then do
    onManager (SessionManager.cleanTimeoutSessions cleanupNow)
    modify fun s => { s with lastCleanup := now }
  else pure ()

/-- From `epoll_wait` to the end of the iteration. -/
def wakeUp : EpollWait → Method Unit
  | .interrupted => pure ()
  | .failed => modify fun s => { s with left := true }
  | .events ready now cleanupNow => do
    processEvents json around ready
    cleanup now cleanupNow

/-- What `epoll_wait` can report: the timer only when it is armed and in the epoll set. -/
def Reports (s : Server) : EpollWait → Prop
  | .events ready _ _ => ready.length ≤ MAX_FDS ∧
      (ready.any Ready.isTimer = true → s.timerFd ≠ .disarmed ∧ s.timerWatched = true)
  | .interrupted | .failed => True

instance (s : Server) : (wait : EpollWait) → Decidable (s.Reports wait)
  | .events _ _ _ => inferInstanceAs (Decidable (_ ∧ (_ → _)))
  | .interrupted | .failed => inferInstanceAs (Decidable True)

/-- One iteration of the loop, which takes place until the loop has been left; or a request from
another thread. An exception leaves the loop, and undefined behaviour the program. -/
def step (s : Server) : ServerInput → Option Server
  | .shutdownRequest => some (s.setTcpHandler { s.tcpHandler with shutdownRequest := true })
  | .iteration wait =>
    if s.left = true ∨ s.state = .STOPPED then none
    else
      match beginIteration.run s with
      | .error _ _ => none
      | .ok _ s₁ =>
        if s₁.state = .STOPPED then some s₁
        else if s₁.Reports wait then
          match (wakeUp json around wait).run s₁ with
          | .error _ _ => none
          | .ok _ s₂ => some s₂
        else none

/-- The inversion of an iteration. -/
theorem step_iteration_iff {s s' : Server} {wait : EpollWait} :
    step json around s (.iteration wait) = some s' ↔
      (s.left = false ∧ s.state ≠ .STOPPED) ∧ ∃ s₁, beginIteration.run s = .ok () s₁ ∧
        (s₁.state = .STOPPED ∧ s' = s₁ ∨
          s₁.state ≠ .STOPPED ∧ s₁.Reports wait ∧
          (wakeUp json around wait).run s₁ = .ok () s') := by
  -- a loop that has been left or has stopped makes no iteration
  by_cases hin : s.left = true ∨ s.state = .STOPPED
  · have hover : ¬ (s.left = false ∧ s.state ≠ .STOPPED) := by
      rintro ⟨hleft, hstate⟩
      rcases hin with h | h
      · exact absurd (h.symm.trans hleft) (by decide)
      · exact hstate h
    simp [step, hin, hover]
  · have hin' : s.left = false ∧ s.state ≠ .STOPPED := by simpa using hin
    cases hbegin : beginIteration.run s with
    | error e s₁ => simp [step, hin, hbegin]
    | ok _ s₁ =>
      by_cases hstopped : s₁.state = .STOPPED
      · simp [step, hbegin, hin', hstopped, eq_comm]
      by_cases hreports : s₁.Reports wait
      · cases hwake : (wakeUp json around wait).run s₁ <;>
          simp [step, hbegin, hin', hstopped, hreports, hwake]
      · simp [step, hin, hbegin, hstopped, hreports]

end

end Server
end Pgw
