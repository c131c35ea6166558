import MiniPgw.Server.Shutdown
import MiniPgw.Tcp.Listener

/-!
# Exceptions of the sockets

The calls of the sockets throw. `UdpServer::processEvent` and `TcpServer::handleClientData` catch
whatever their sockets throw, in any state; `TcpServer::acceptNewClient` catches it only while it
accepts clients. Once `m_stopAccepting` is set, it calls `accept` outside the `try` block, so an
`accept` that throws leaves `runEventLoop` in the middle of a shutdown.

`keepsServing_iff` puts this on the runs of the loop.

## The architecture

* **`Contained`** — no exception leaves a computation; it composes (`Contained.bind`), a handler
  that throws nothing contains what it handles (`contained_catching`), and a call on a part of the
  state throws if the call itself does (`contained_zoom_iff`).
* **`processEvent_contained`**, **`handleClientData_contained`**,
  **`acceptNewClient_contained_iff`** — the three methods that the loop calls when a socket is
  ready.
* **`Listens`**, **`turn_listens`** — how the listener stands in each state of the loop: it
  refuses clients from the start of the shutdown.
* **`keepsServing_iff`** — along a run only a turn with `AcceptsBadly` ends the loop by an
  exception.
-/

namespace Pgw

open Protocol Effects

/-! ## Computations from which no exception leaves

`Contained` is the half of a Hoare triple that speaks of exceptions only. It composes along `bind`,
and a `catch` establishes it. -/

section
variable {σ τ α β : Type} {x : EStateM Fault σ α} {s : σ}

/-- No exception leaves the computation; it returns or its behaviour is undefined. -/
def Contained (x : EStateM Fault σ α) (s : σ) : Prop :=
  ∀ s', x.run s ≠ .error .exception s'

/-- What returns contains its exceptions. -/
theorem contained_of_run_ok {a : α} {t : σ} (h : x.run s = .ok a t) : Contained x s := by
  intro s' hrun
  rw [h] at hrun
  cases hrun

/-- Nothing is thrown. -/
theorem contained_pure (a : α) : Contained (pure a) s :=
  contained_of_run_ok rfl

/-- Two calls in a row, the second from where the first has ended. -/
theorem Contained.bind {f : α → EStateM Fault σ β} (hx : Contained x s)
    (hf : ∀ a t, x.run s = .ok a t → Contained (f a) t) : Contained (x >>= f) s := by
  intro s' hrun
  rw [EStateM.run_bind] at hrun
  cases hfirst : x.run s with
  | ok a t =>
    rw [hfirst] at hrun
    exact hf a t hfirst s' hrun
  | error e t =>
    rw [hfirst] at hrun
    cases hrun
    exact hx s' hfirst

/-- To look at the state throws nothing. -/
theorem contained_get_bind {f : σ → EStateM Fault σ α} :
    Contained (get >>= f) s ↔ Contained (f s) s := Iff.rfl

/-- A handler that throws nothing itself contains whatever it handles. -/
theorem contained_catching (body : EStateM Fault σ α) {handler : EStateM Fault σ α}
    (h : ∀ t, Contained handler t) : Contained (catching body handler) s := by
  intro s' hrun
  rw [run_catching] at hrun
  cases hbody : body.run s with
  | ok a t =>
    rw [hbody] at hrun
    cases hrun
  | error e t =>
    rw [hbody] at hrun
    cases e with
    | exception => exact h t s' hrun
    | undefined => cases hrun

/-- A call on a part of the state throws if the part's own call does. -/
theorem contained_zoom_iff {part : σ → τ} {put : τ → σ → σ} {y : EStateM Fault τ α} :
    Contained (zoom part put y) s ↔ Contained y (part s) := by
  unfold Contained
  rw [run_zoom]
  cases hrun : y.run (part s) with
  | ok a t => simp
  | error e t => simp

end

/-! ## The three methods

The datagrams and the clients are handled inside a `try`. `acceptNewClient` has one as well, but
refuses a connection before it gets there. -/

namespace UdpServer

/-- The UDP server catches everything that is thrown in its loop. -/
theorem processEvent_contained (receives : List UdpReceive) (u : UdpServer) :
    Contained (processEvent receives) u := by
  rw [processEvent, contained_get_bind]
  split
  · exact contained_pure ()
  · exact contained_catching _ fun _ => contained_pure ()

end UdpServer

/-- `TcpSocket::accept` throws. -/
def AcceptOutcome.throws : AcceptOutcome → Bool
  | .flagsFailed _ | .temporaryFailed _ => true
  | .failed | .connected _ _ => false

namespace TcpServer

variable {η : Type} {handle : Message → EStateM Fault η Message} {s : TcpServer η}

/-- To record an event throws nothing, -/
theorem record_contained (event : TcpEvent) (s : TcpServer η) : Contained (record event) s :=
  fun _ hrun => by cases hrun

/-- nor does a close, -/
theorem closeSocket_contained (fd : Nat) (s : TcpServer η) : Contained (closeSocket fd) s :=
  contained_of_run_ok (closeSocket_run fd)

/-- nor removing a client. -/
theorem removeClient_contained (fd : Nat) (s : TcpServer η) : Contained (removeClient fd) s := by
  cases hlookup : s.clients.lookup fd with
  | none =>
    have hrun : (removeClient fd).run s = .ok () s := by simp [removeClient, hlookup]
    exact contained_of_run_ok hrun
  | some client => exact contained_of_run_ok (removeClient_run hlookup)

/-- **Whatever the socket or the command handler throws, `handleClientData` catches it.** -/
theorem handleClientData_contained (fd : Nat) (received : ReceiveOutcome)
    (sends : Nat → SendOutcome) (s : TcpServer η) :
    Contained (handleClientData handle fd received sends) s := by
  rw [handleClientData, contained_get_bind]
  split
  · exact contained_pure false
  · refine contained_catching _ fun t => ?_
    exact (removeClient_contained fd t).bind fun _ _ _ => contained_pure false

/-- The server refuses new clients, and the `accept` that is to refuse this one throws. -/
def RefusesBadly (s : TcpServer η) (outcome : AcceptOutcome) : Prop :=
  s.running = true ∧ s.stopAccepting = some true ∧ s.socket ≠ none ∧ outcome.throws = true

/-- What leaves `m_socket->accept()` is what `TcpSocket::accept` throws. -/
theorem acceptFrom_contained_iff (outcome : AcceptOutcome) :
    Contained (acceptFrom outcome) s ↔ ¬ (s.socket ≠ none ∧ outcome.throws = true) := by
  rw [acceptFrom, contained_get_bind]
  cases hsocket : s.socket with
  | none => simp [Contained]
  | some fd =>
    cases outcome with
    | failed => simp [Contained, accept, AcceptOutcome.throws]
    | flagsFailed fd => simp [Contained, accept, AcceptOutcome.throws, record]
    | temporaryFailed fd => simp [Contained, accept, AcceptOutcome.throws]
    | connected fd temporary => simp [Contained, accept, AcceptOutcome.throws, record]

/-- **`acceptNewClient`** lets an exception out exactly if it has to turn the connection away: that
path is outside of its `try` block. -/
theorem acceptNewClient_contained_iff (outcome : AcceptOutcome) :
    Contained (acceptNewClient outcome) s ↔ ¬ s.RefusesBadly outcome := by
  rw [acceptNewClient, contained_get_bind]
  cases hrunning : s.running with
  | false => simp [RefusesBadly, hrunning, contained_pure]
  | true =>
    simp only [Bool.not_true, Bool.false_eq_true, if_false]
    cases haccepting : s.stopAccepting with
    | none => simp [RefusesBadly, haccepting, Contained]
    | some stopAccepting =>
      cases stopAccepting with
      | false =>
        -- `accept` is called inside the `try` block
        refine iff_of_true (contained_catching _ fun _ => contained_pure (-1)) ?_
        simp [RefusesBadly, haccepting]
      | true =>
        simp only [RefusesBadly, hrunning, haccepting, true_and]
        rw [← acceptFrom_contained_iff]
        constructor
        · intro hall s' hrun
          refine hall s' ?_
          rw [EStateM.run_bind, hrun]
        · intro haccept
          refine haccept.bind fun clientSocket t _ => ?_
          cases clientSocket with
          | none => exact contained_pure (-1)
          | some socket =>
            refine (record_contained _ t).bind fun _ t' _ => ?_
            exact (closeSocket_contained _ t').bind fun _ _ _ => contained_pure (-1)

end TcpServer

/-! ## The loop

What throws in the loop leaves `runEventLoop`. Whether the server refuses connections is read off
the state of the loop, which is how the condition becomes one on the state before the turn. -/

namespace Server

variable {json : JsonLib} {around : Nat → Surroundings} {s s' : Server}

/-- An exception of a socket call leaves the loop in this turn. -/
def SocketFault (json : JsonLib) (around : Nat → Surroundings) (s : Server) (t : Turn) : Prop :=
  ∃ event, t = .event event ∧ event.isTimer = false ∧
    ¬ Contained (processEvent json around event) s

/-- The shutdown is in progress, and the turn is a connection on which `accept` throws. -/
def AcceptsBadly (s : Server) (t : Turn) : Prop :=
  (s.state = .DRAINING ∨ s.state = .STOPPING) ∧
    ∃ outcome, t = .event (.tcp outcome) ∧ outcome.throws = true

/-- How the listener stands in a state of the loop. -/
structure Listens (s : Server) : Prop where
  opened : s.state ≠ .STOPPED → s.tcpServer.running = true ∧ s.tcpServer.socket ≠ none
  accepts : s.state = .RUNNING → s.tcpServer.stopAccepting = some false
  refuses : s.state = .DRAINING ∨ s.state = .STOPPING → s.tcpServer.stopAccepting = some true
  closed : s.state = .STOPPED → s.tcpServer.running = false

/-- The server that has been started listens, and has its flag set to false. -/
theorem listens_started (service : Service) (socket : Nat) (now : Time) :
    (started service socket now).Listens where
  opened := fun _ => ⟨rfl, Option.some_ne_none _⟩
  accepts := fun _ => rfl
  refuses := fun h => by rcases h with h | h <;> cases h
  closed := fun h => by cases h

/-- Neither the state of the loop nor the listener has changed. -/
structure Stays (s s' : Server) : Prop where
  state : s'.state = s.state
  listener : TcpServer.SameListener s.tcpServer s'.tcpServer

/-- Nothing has changed. -/
theorem Stays.refl (s : Server) : Stays s s :=
  ⟨rfl, .refl _⟩

/-- What does not concern the listener keeps it listening. -/
theorem Listens.stays (h : s.Listens) (hs : Stays s s') : s'.Listens where
  opened := by
    rw [hs.state, hs.listener.running, hs.listener.socket]
    exact h.opened
  accepts := by
    rw [hs.state, hs.listener.stopAccepting]
    exact h.accepts
  refuses := by
    rw [hs.state, hs.listener.stopAccepting]
    exact h.refuses
  closed := by
    rw [hs.state, hs.listener.running]
    exact h.closed

/-- The loop finds no session left. -/
theorem Listens.stopping (h : s.Listens) (hstate : s.state = .DRAINING)
    (hlistener : TcpServer.SameListener s.tcpServer s'.tcpServer) (hstate' : s'.state = .STOPPING) :
    s'.Listens where
  opened := fun _ => by
    rw [hlistener.running, hlistener.socket]
    exact h.opened (by rw [hstate]; decide)
  accepts := fun hrunning => by
    rw [hstate'] at hrunning
    cases hrunning
  refuses := fun _ => by
    rw [hlistener.stopAccepting]
    exact h.refuses (.inl hstate)
  closed := fun hstopped => by
    rw [hstate'] at hstopped
    cases hstopped

/-- The expirations do not touch the listener. -/
theorem expire_listener (expirations : Nat) :
    Preserves (fun s' => TcpServer.SameListener s.tcpServer s'.tcpServer ∧
      (s'.state = s.state ∨ s'.state = .STOPPING)) (expire expirations) := by
  induction expirations with
  | zero => exact preserves_pure ()
  | succ expirations ih =>
    refine Preserves.bind (preserves_zoom_of_put _ fun _ _ h => ?_) fun sessionsAvailable => ?_
    · exact ⟨⟨h.1.running, h.1.socket, h.1.stopAccepting⟩, h.2⟩
    · refine Preserves.ite ih (preserves_modify fun u hu => ?_)
      exact ⟨hu.1, .inr rfl⟩

/-- Events on the sockets, the clean-up and the requests. -/
theorem quietTurn_stays {t : Turn} (hquiet : Turn.IsQuiet t) :
    Preserves (Stays s) (take json around t) := by
  -- a state with the same listener, in the same state of the server
  have hother {u v : Server} (hu : Stays s u) (hstate : v.state = u.state)
      (hlistener : TcpServer.SameListener s.tcpServer v.tcpServer) : Stays s v :=
    ⟨hstate.trans hu.state, hlistener⟩
  cases t with
  | beginIteration => exact hquiet.elim
  | event event =>
    cases event with
    | timer expirations => cases hquiet
    | udp receives =>
      refine preserves_zoom_of_put _ fun _ _ hu => ?_
      exact ⟨hu.state, hu.listener.running, hu.listener.socket, hu.listener.stopAccepting⟩
    -- `accept` may throw, and keeps the listener then too
    | tcp outcome =>
      intro u hu
      simp only [take, processEvent, onTcp, ensures_bind, ensures_zoom]
      refine (TcpServer.acceptNewClient_sameListener outcome u.tcpServer hu.listener).mono
        (fun clientFd v hv => ?_) fun _ v hv => hother hu rfl hv
      rw [ensures_ite]
      split
      · exact hother hu rfl hv
      · exact hother hu rfl hv
    | client fd received sends =>
      intro u hu
      simp only [take, processEvent, onTcp, ensures_bind, ensures_zoom]
      refine (TcpServer.handleClientData_sameListener fd received sends u.tcpServer
        hu.listener).mono (fun connected v hv => ?_) fun _ v hv => hother hu rfl hv
      rw [ensures_ite]
      split
      · exact hother hu rfl hv
      · exact hother hu rfl hv
  | cleanup now cleanupNow =>
    refine preserves_get.bind fun u => Preserves.ite ?_ (preserves_pure ())
    refine Preserves.bind (preserves_zoom_of_put _ fun _ _ hu => ?_) fun _ => ?_
    · exact ⟨hu.state, hu.listener.running, hu.listener.socket, hu.listener.stopAccepting⟩
    · exact preserves_modify fun _ hu => ⟨hu.state, hu.listener⟩
  | failed => exact preserves_modify fun _ hu => ⟨hu.state, hu.listener⟩
  | shutdownRequest =>
    refine preserves_modify fun _ hu => ?_
    exact ⟨hu.state, hu.listener.running, hu.listener.socket, hu.listener.stopAccepting⟩

/-- When the loop stops the servers, the listener is closed with them. -/
theorem beginIteration_closes (hstate : s.state = .STOPPING) :
    Returns beginIteration s fun _ s' => s'.state = .STOPPED ∧ s'.tcpServer.running = false := by
  have hstart : Returns startShutdown s fun _ s' => s' = s := by
    simp [startShutdown, hstate]
  rw [beginIteration, Returns, ensures_bind]
  refine hstart.mono (fun _ s' hs' => ?_) fun _ _ he => he
  subst hs'
  simp only [stopServers, onUdp, onTcp, ensures_bind, ensures_get, hstate, if_true, ensures_zoom,
    ensures_modify]
  refine (UdpServer.stop_returns s'.udpServer).mono (fun _ u _ => ?_) fun _ _ he => he
  exact (TcpServer.stop_running _).mono (fun _ t ht => ⟨trivial, ht⟩) fun _ _ he => he

/-- The shutdown has been started. -/
theorem Listens.shutdownStarted (h : s.Listens) (hstate : s.state = .RUNNING) :
    s.shutdownStarted.Listens where
  opened := fun _ => h.opened (by rw [hstate]; decide)
  accepts := fun hrunning => by cases hrunning
  refuses := fun _ => rfl
  closed := fun hstopped => by cases hstopped

/-- **Every turn keeps how the listener stands.** -/
theorem turn_listens (h : s.Listens) {t : Turn} (hturn : turn json around s t = some s') :
    s'.Listens := by
  by_cases hquiet : Turn.IsQuiet t
  · have hstays : Preserves (Stays s) (take json around t) := quietTurn_stays hquiet
    exact h.stays ((hstays s (.refl s)).of_run_ok (turn_eq_some.mp hturn))
  have hrun := turn_eq_some.mp hturn
  cases t with
  | beginIteration =>
    -- nothing happens, the shutdown starts, or the servers are stopped
    rcases beginIteration_cases hrun with ⟨rfl, -⟩ | ⟨hstate, rfl⟩ | ⟨hstate, -, -⟩
    · exact h
    · exact h.shutdownStarted hstate
    · obtain ⟨hstopped, hclosed⟩ := (beginIteration_closes hstate).of_run_ok hrun
      refine ⟨fun hne => absurd hstopped hne, fun hlate => ?_, fun hlate => ?_, fun _ => hclosed⟩
      · rw [hstopped] at hlate
        cases hlate
      · rw [hstopped] at hlate
        rcases hlate with hlate | hlate <;> cases hlate
  | event event =>
    cases event with
    | timer expirations =>
      by_cases hstate : s.state = .DRAINING
      · rw [take_timer_run_draining hstate] at hrun
        obtain ⟨hlistener, hsame | hstopping⟩ :=
          (expire_listener expirations s ⟨.refl _, .inl rfl⟩).of_run_ok hrun
        · exact h.stays ⟨hsame, hlistener⟩
        · exact h.stopping hstate hlistener hstopping
      · rw [take_timer_run_ignored hstate] at hrun
        cases hrun
        exact h.stays ⟨rfl, .refl _⟩
    | _ => exact absurd rfl hquiet
  | _ => exact absurd trivial hquiet

/-- In terms of the loop: the server refuses clients from the start of the shutdown. -/
theorem Listens.refusesBadly_iff (h : s.Listens) (outcome : AcceptOutcome) :
    s.tcpServer.RefusesBadly outcome ↔
      (s.state = .DRAINING ∨ s.state = .STOPPING) ∧ outcome.throws = true := by
  unfold TcpServer.RefusesBadly
  cases hstate : s.state with
  | RUNNING => simp [h.accepts hstate]
  | DRAINING => simp [h.refuses (.inl hstate), h.opened (by rw [hstate]; decide)]
  | STOPPING => simp [h.refuses (.inr hstate), h.opened (by rw [hstate]; decide)]
  | STOPPED => simp [h.closed hstate]

/-- What leaves an event of the TCP listener is what leaves `acceptNewClient`. -/
theorem processEvent_tcp_contained_iff (outcome : AcceptOutcome) :
    Contained (processEvent json around (.tcp outcome)) s ↔
      ¬ s.tcpServer.RefusesBadly outcome := by
  rw [← TcpServer.acceptNewClient_contained_iff]
  constructor
  · intro h s' hrun
    refine h (Server.mk s.state s.left s.timerFd s.timerSpec s.timerWatched s.clientsWatched
      s.lastCleanup s' s.udpRunning s.udpSent s.httpRunning) ?_
    simp [processEvent, onTcp, hrun]
  · intro h
    refine Contained.bind (contained_zoom_iff.mpr h) fun clientFd t _ => ?_
    split
    · exact contained_of_run_ok rfl
    · exact contained_pure ()

/-- **Where an exception of a socket leaves the loop.** -/
theorem Listens.socketFault_iff (h : s.Listens) (t : Turn) :
    SocketFault json around s t ↔ AcceptsBadly s t := by
  constructor
  · rintro ⟨event, rfl, hevent, hfault⟩
    cases event with
    | timer expirations => cases hevent
    | udp receives =>
      exact absurd (contained_zoom_iff.mpr (UdpServer.processEvent_contained receives _)) hfault
    | tcp outcome =>
      rw [processEvent_tcp_contained_iff, not_not, h.refusesBadly_iff] at hfault
      exact ⟨hfault.1, outcome, rfl, hfault.2⟩
    | client fd received sends =>
      refine absurd (Contained.bind (contained_zoom_iff.mpr
        (TcpServer.handleClientData_contained fd received sends _)) fun connected t _ => ?_) hfault
      split
      · exact contained_pure ()
      · exact contained_of_run_ok rfl
  · rintro ⟨hstate, outcome, rfl, hthrows⟩
    refine ⟨.tcp outcome, rfl, rfl, ?_⟩
    rw [processEvent_tcp_contained_iff, not_not, h.refusesBadly_iff]
    exact ⟨hstate, hthrows⟩

/-! ## Whole runs

A run goes on until a turn starts in which an exception leaves the loop, and there is only one
kind. -/

/-- What the loop promises about a run from `start`: no failure of a socket ends it, and it goes on
with a shutdown until no session is left. -/
structure KeepsServing (json : JsonLib) (around : Nat → Surroundings) (start : Server)
    (turns : List Turn) : Prop where
  contained : Run.Along (turn json around) (fun s t => ¬ SocketFault json around s t) start turns
  drains : ∀ pre s, pre <+: turns → Run.exec (turn json around) start pre = some s →
    s.state = .DRAINING → s.sessionManager.cdrWriter.Reliable →
    ∀ expirations, s.sessionManager.countActiveSession < expirations → ∃ s',
      turn json around s (.event (.timer expirations)) = some s' ∧ s'.state = .STOPPING ∧
        s'.sessionManager.sessions.keySet = ∅

/-- More expirations than there are sessions end the draining. -/
theorem expire_drains (hstate : s.state = .DRAINING)
    (hreliable : s.sessionManager.cdrWriter.Reliable) {expirations : Nat}
    (hmany : s.sessionManager.countActiveSession < expirations) :
    ∃ s', turn json around s (.event (.timer expirations)) = some s' ∧ s'.state = .STOPPING ∧
      s'.sessionManager.sessions.keySet = ∅ := by
  obtain ⟨_, s', hexpire, -, -, hend⟩ := (returns_iff _).mp (expire_takes expirations hreliable)
  refine ⟨s', turn_eq_some.mpr ?_, ?_⟩
  · rw [take_timer_run_draining hstate]
    exact hexpire
  · rcases hend with ⟨-, hfew⟩ | hstopping
    · exact absurd hfew (Nat.not_le.mpr hmany)
    · exact hstopping

/-- **Exceptions of the sockets leave the loop exactly when `accept` throws during a shutdown.** -/
theorem keepsServing_iff (json : JsonLib) (around : Nat → Surroundings) (service : Service)
    (socket : Nat) (now : Time) (turns : List Turn) :
    KeepsServing json around (started service socket now) turns ↔
      Run.Along (turn json around) (fun s t => ¬ AcceptsBadly s t) (started service socket now)
        turns := by
  have hcontained : Run.Along (turn json around) (fun s t => ¬ SocketFault json around s t)
      (started service socket now) turns ↔
        Run.Along (turn json around) (fun s t => ¬ AcceptsBadly s t) (started service socket now)
          turns :=
    Run.along_congr (fun _ _ _ h hturn => turn_listens h hturn)
      (fun _ t h => not_congr (Listens.socketFault_iff h t)) (listens_started service socket now)
  constructor
  · intro h
    exact hcontained.mp h.contained
  · intro h
    refine ⟨hcontained.mpr h, fun pre s _ _ hstate hreliable expirations hmany => ?_⟩
    exact expire_drains hstate hreliable hmany

/-- A session is created, the shutdown begins, and `accept` runs out of descriptors. -/
def refusedTurns : List Turn :=
  [.event (.udp [.packet (ascii "001010000000001") 1 0 false]), .shutdownRequest, .beginIteration,
    .event (.tcp (.temporaryFailed 7))]

/-- A connection whose flags cannot be set, while the server drains, ends the loop. -/
theorem not_keepsServing_refusedTurns :
    ¬ KeepsServing TcpHandler.sampleJson sampleAround (started newService 3 0) refusedTurns := by
  intro h
  have hfault := h.contained.2 _ rfl |>.2 _ rfl |>.2 _ rfl |>.1
  refine hfault ⟨_, rfl, rfl, fun hcontained => ?_⟩
  exact hcontained _ rfl

end Server
end Pgw
