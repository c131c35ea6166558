import MiniPgw.Server.EventLoop
import MiniPgw.Tcp.HandlerSafety
import MiniPgw.Tcp.Steps

/-!
# What the sockets can do to the session manager

The TCP commands and the datagrams reach the session manager only through `createSession`, with an
IMSI that has been validated, and `terminateSession`. So whatever these calls keep of the manager,
also when the CDR writer throws, is kept by the command handler, by the TCP server around it, and by
the UDP server.

## The architecture

* **`handle_preserves`**, **`answerTo_preserves`** — a command and a datagram make at most one
  call.
* **`conversation_keeps`**, **`receiveAll_preserves`** — what a call keeps is kept by a
  conversation on a connection and by the loop over the datagrams.
* **`method_ensures`**, **`step_keeps`** — and by the methods of the TCP server, which touch the
  manager through the handler only.
* **`socketEvent_keeps_at`** — one rule for all events on sockets, with the times of the calls.
-/

namespace Pgw

open Protocol TcpSerializer Effects

variable {I : SessionManager → Prop}

namespace TcpHandler

variable {json : JsonLib} {around : Surroundings}

theorem onManager_preserves {α : Type} {call : SessionManager.Method α} (h : Preserves I call) :
    Preserves (fun h => I h.sessionManager) (onManager call) :=
  h.zoom fun _ _ => rfl

/-- The commands keep what `createSession`, at the time of the call, and `terminateSession` keep. -/
theorem handle_preserves
    (hcreate : ∀ imsi, Validation.isValidImsi imsi = true →
      Preserves I (SessionManager.createSession imsi around.now))
    (hterminate : ∀ imsi, Preserves I (SessionManager.terminateSession imsi)) (request : Message) :
    Preserves (fun h => I h.sessionManager) (handle json around request) := by
  -- the commands and `default`, in the order of the `switch`
  refine Preserves.ite ?_ (Preserves.ite ?_ (Preserves.ite ?_ (Preserves.ite ?_ (Preserves.ite ?_
    (Preserves.ite ?_ (preserves_pure _))))))
  · exact preserves_get.bind fun _ => createJsonMsg_preserves _ _ _
  · exact preserves_get.bind fun _ => createJsonMsg_preserves _ _ _
  · refine preserves_get.bind fun h => Preserves.ite (createJsonMsg_preserves _ _ _) ?_
    refine (readLimit_preserves _).bind fun limit => ?_
    cases around.getRecentRecords limit with
    | error e => exact preserves_throw e
    | ok records => exact createJsonMsg_preserves _ _ _
  · refine (readImsi_preserves _).bind fun imsi => ?_
    split
    · exact createJsonMsg_preserves _ _ _
    · -- `START_SESSION`, with a valid IMSI
      next hinvalid =>
      have hvalid : Validation.isValidImsi imsi = true := by
        by_contra h
        exact hinvalid (.inr (Bool.eq_false_iff.mpr h))
      exact (onManager_preserves (hcreate imsi hvalid)).bind fun _ =>
        createJsonMsg_preserves _ _ _
  · refine (readImsi_preserves _).bind fun imsi => Preserves.ite (createJsonMsg_preserves _ _ _) ?_
    exact (onManager_preserves (hterminate imsi)).bind fun _ => createJsonMsg_preserves _ _ _
  · refine Preserves.bind ?_ fun _ => createJsonMsg_preserves _ _ _
    exact preserves_modify fun _ h => h

end TcpHandler

/-- The calls from the `start`-th one on. -/
theorem Service.handle_preserves {json : JsonLib} {around : Nat → Surroundings} {start : Nat}
    (hcreate : ∀ imsi i, Validation.isValidImsi imsi = true → start ≤ i →
      Preserves I (SessionManager.createSession imsi (around i).now))
    (hterminate : ∀ imsi, Preserves I (SessionManager.terminateSession imsi)) (request : Message) :
    Preserves (fun v => I v.handler.sessionManager ∧ start ≤ v.handled)
      (Service.handle json around request) := by
  rintro v ⟨hv, hstart⟩
  simp only [Service.handle, ensures_bind, ensures_get, ensures_set, ensures_zoom]
  have hhandle : Preserves (fun h => I h.sessionManager)
      (TcpHandler.handle json (around v.handled) request) :=
    TcpHandler.handle_preserves (fun imsi hvalid => hcreate imsi v.handled hvalid hstart)
      hterminate request
  exact (hhandle v.handler hv).mono (fun _ _ h => ⟨h, Nat.le_succ_of_le hstart⟩)
    fun _ _ h => ⟨h, Nat.le_succ_of_le hstart⟩

namespace TcpServer

variable {η : Type} {handle : Message → EStateM Fault η Message} {J : η → Prop}

theorem conversation_keeps (hhandle : ∀ request, Preserves J (handle request))
    (sends : Nat → SendOutcome) (requests : List Message) :
    ∀ (i : Nat) (h : η), J h → J (conversation handle sends i h requests).handler := by
  induction requests with
  | nil => exact fun _ _ hh => hh
  | cons request requests ih =>
    intro i h hh
    have hrequest := hhandle request h hh
    rw [conversation]
    cases hrun : (handle request).run h with
    | error e h' => exact hrequest.of_run_error hrun
    | ok reply h' =>
      have hh' := hrequest.of_run_ok hrun
      cases sends i with
      | failed => exact hh'
      | accepted taken => exact ih (i + 1) h' hh'

/-- **A call keeps what the handler keeps of its state.** -/
theorem step_keeps (hhandle : ∀ request, Preserves J (handle request)) {s s' : TcpServer η}
    {c : ServerCall} (hs : J s.handler) (hstep : step handle s c = some s') : J s'.handler := by
  cases step_cases hstep with
  | admin _ _ clients hadmits honly => exact honly.handler ▸ hs
  | unknown fd received sends hlookup => exact hs
  | nothing fd sends client hlookup => exact hs
  | removed fd received sends _ client hlookup hreceived honly => exact honly.handler ▸ hs
  | served fd data peekIsZero sends client exchanges h' hlookup hdata hconversation =>
    have hkeeps := conversation_keeps hhandle sends
      (TcpSerializer.framing.parse (client.readBuffer ++ data)).1 0 s.handler hs
    rwa [hconversation] at hkeeps
  | broken fd data peekIsZero sends _ client exchanges h' breakage closes hlookup hdata
      hconversation hclients hhandler htrace =>
    have hkeeps := conversation_keeps hhandle sends
      (TcpSerializer.framing.parse (client.readBuffer ++ data)).1 0 s.handler hs
    rw [hconversation] at hkeeps
    exact hhandler ▸ hkeeps

/-- A public method that returns has made a step. -/
theorem method_ensures (hhandle : ∀ request, Preserves J (handle request)) {α : Type}
    {method : Method η α} {c : ServerCall} (hmethod : perform handle c = do let _ ← method)
    {s : TcpServer η} (hs : J s.handler) :
    Ensures method s (fun _ s' => J s'.handler) (fun _ _ => True) := by
  unfold Ensures
  cases hrun : method.run s with
  | error e s' => trivial
  | ok a s' => exact step_keeps hhandle hs (c := c) (by simp [step, hmethod, hrun])

/-- `stop` always returns. -/
theorem stop_returns (s : TcpServer η) :
    Returns stop s fun _ s' => s'.handler = s.handler := by
  simp only [stop, ensures_bind, ensures_get]
  split
  · simp only [ensures_bind, ensures_set]
    refine ensures_closeClients _ fun closes => ?_
    split
    · rfl
    · simp only [ensures_bind]
      exact ensures_closeSocket _ fun closes' => rfl
  · rfl

end TcpServer

namespace UdpServer

theorem stop_returns (u : UdpServer) :
    Returns stop u fun _ u' => u'.sessionManager = u.sessionManager := by
  simp only [stop, ensures_bind, ensures_get]
  split <;> rfl

theorem answerTo_preserves {data : Bytes} {now : Time}
    (hcreate : Validation.isValidImsi data = true →
      Preserves I (SessionManager.createSession data now)) :
    Preserves (fun u => I u.sessionManager) (answerTo data now) := by
  unfold answerTo
  split
  · next hvalid =>
    refine Preserves.bind ((hcreate hvalid).zoom fun _ _ => rfl) fun result => ?_
    cases result <;> exact preserves_pure _
  · exact preserves_pure _

/-- The datagrams keep what `createSession` keeps, for their data at their times. -/
theorem receiveAll_preserves {receives : List UdpReceive}
    (hcreate : ∀ data sender now sendThrows,
      UdpReceive.packet data sender now sendThrows ∈ receives → Validation.isValidImsi data = true →
      Preserves I (SessionManager.createSession data now)) :
    Preserves (fun u => I u.sessionManager) (receiveAll receives) := by
  induction receives with
  | nil => exact preserves_pure ()
  | cons receive receives ih =>
    have hrest := ih fun data sender now sendThrows hin =>
      hcreate data sender now sendThrows (List.mem_cons_of_mem receive hin)
    cases receive with
    | throws => exact preserves_throw _
    | packet data sender now sendThrows =>
      have hanswer := answerTo_preserves (hcreate data sender now sendThrows List.mem_cons_self)
      refine Preserves.ite (preserves_pure ()) (hanswer.bind fun _ => ?_)
      refine Preserves.bind (Preserves.ite (preserves_throw _) ?_) fun _ => hrest
      exact preserves_modify fun _ h => h

theorem processEvent_preserves {receives : List UdpReceive}
    (hcreate : ∀ data sender now sendThrows,
      UdpReceive.packet data sender now sendThrows ∈ receives → Validation.isValidImsi data = true →
      Preserves I (SessionManager.createSession data now)) :
    Preserves (fun u => I u.sessionManager) (processEvent receives) := by
  refine preserves_get.bind fun u => Preserves.ite (preserves_pure ()) ?_
  refine (receiveAll_preserves hcreate).tryCatch fun e => ?_
  cases e with
  | exception => exact preserves_pure ()
  | undefined => exact preserves_throw _

end UdpServer

/-! ## Events of the loop

The sockets reach the session manager through two methods only, `createSession` and
`terminateSession`. An invariant that these keep is kept by every event but the timer. -/

/-- The event is one of a command client. -/
def Ready.isClient : Ready → Bool
  | .client _ _ _ => true
  | _ => false

namespace Server

variable {json : JsonLib} {around : Nat → Surroundings} {s s' : Server}

/-- The loop is where it was. -/
structure SameLoop (s s' : Server) : Prop where
  state : s'.state = s.state
  left : s'.left = s.left
  timerFd : s'.timerFd = s.timerFd
  timerWatched : s'.timerWatched = s.timerWatched

/-- The event can call `createSession` for this IMSI at this time. -/
def CreatesAt (around : Nat → Surroundings) (s : Server) : Ready → Imsi → Time → Prop
  | .udp receives, imsi, now =>
    ∃ sender sendThrows, UdpReceive.packet imsi sender now sendThrows ∈ receives
  | .client _ _ _, _, now => ∃ i, s.tcpServer.handler.handled ≤ i ∧ (around i).now = now
  | _, _, _ => False

/-- An event on a socket keeps what `createSession`, at the times of the event, and
`terminateSession` keep. -/
theorem socketEvent_keeps_at {event : Ready}
    (hcreate : ∀ imsi now, Validation.isValidImsi imsi = true → CreatesAt around s event imsi now →
      Preserves I (SessionManager.createSession imsi now))
    (hterminate : event.isClient = true →
      ∀ imsi, Preserves I (SessionManager.terminateSession imsi))
    (hI : I s.sessionManager) (hevent : event.isTimer = false) :
    Ensures (processEvent json around event) s
      (fun _ s' => SameLoop s s' ∧ I s'.sessionManager) (fun _ _ => True) := by
  cases event with
  | timer expirations => cases hevent
  | udp receives =>
    have hdatagram : ∀ data sender now sendThrows,
        UdpReceive.packet data sender now sendThrows ∈ receives →
        Validation.isValidImsi data = true →
        Preserves I (SessionManager.createSession data now) :=
      fun data sender now sendThrows hin hvalid => hcreate data now hvalid ⟨sender, sendThrows, hin⟩
    simp only [processEvent, onUdp, ensures_zoom]
    refine (UdpServer.processEvent_preserves hdatagram s.udpServer hI).mono
      (fun _ u hu => ?_) fun _ _ _ => trivial
    exact ⟨⟨rfl, rfl, rfl, rfl⟩, hu⟩
  | tcp outcome =>
    -- a new connection does not reach the command handler
    have hquiet : ∀ request : Message,
        Preserves (fun v : Service => I v.handler.sessionManager)
          (pure request : EStateM Fault _ _) :=
      fun request => preserves_pure request
    simp only [processEvent, onTcp, ensures_bind, ensures_zoom]
    refine (TcpServer.method_ensures hquiet (c := .acceptNewClient outcome) rfl hI).mono
      (fun clientFd t ht => ?_) fun _ _ _ => trivial
    split
    · exact ⟨⟨rfl, rfl, rfl, rfl⟩, ht⟩
    · exact ⟨⟨rfl, rfl, rfl, rfl⟩, ht⟩
  | client fd received sends =>
    -- the command handler reaches the manager only through these two methods
    have hhandle : ∀ request, Preserves
        (fun v => I v.handler.sessionManager ∧ s.tcpServer.handler.handled ≤ v.handled)
        (Service.handle json around request) :=
      Service.handle_preserves (fun imsi i hvalid hi => hcreate imsi _ hvalid ⟨i, hi, rfl⟩)
        (hterminate rfl)
    simp only [processEvent, onTcp, ensures_bind, ensures_zoom]
    refine (TcpServer.method_ensures hhandle (c := .handleClientData fd received sends) rfl
      ⟨hI, Nat.le_refl _⟩).mono (fun connected t ht => ?_) fun _ _ _ => trivial
    split
    · exact ⟨⟨rfl, rfl, rfl, rfl⟩, ht.1⟩
    · exact ⟨⟨rfl, rfl, rfl, rfl⟩, ht.1⟩

/-- An event on a socket keeps what `createSession` and `terminateSession` keep. -/
theorem socketEvent_keeps
    (hcreate : ∀ imsi now, Validation.isValidImsi imsi = true →
      Preserves I (SessionManager.createSession imsi now))
    (hterminate : ∀ imsi, Preserves I (SessionManager.terminateSession imsi))
    (hI : I s.sessionManager) {event : Ready} (hevent : event.isTimer = false) :
    Ensures (processEvent json around event) s
      (fun _ s' => SameLoop s s' ∧ I s'.sessionManager) (fun _ _ => True) :=
  socketEvent_keeps_at (fun imsi now hvalid _ => hcreate imsi now hvalid)
    (fun _ => hterminate) hI hevent

theorem cleanup_keeps (hclean : ∀ now, Preserves I (SessionManager.cleanTimeoutSessions now))
    (hI : I s.sessionManager) (now cleanupNow : Time) :
    Ensures (cleanup now cleanupNow) s (fun _ s' => SameLoop s s' ∧ I s'.sessionManager)
      (fun _ _ => True) := by
  simp only [cleanup, ensures_bind, ensures_get]
  split
  · simp only [ensures_bind, onManager, ensures_zoom]
    refine (hclean cleanupNow _ hI).mono (fun _ m hm => ?_) fun _ _ _ => trivial
    exact ⟨⟨rfl, rfl, rfl, rfl⟩, hm⟩
  · exact ⟨⟨rfl, rfl, rfl, rfl⟩, hI⟩

end Server
end Pgw
