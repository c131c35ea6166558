import MiniPgw.Tcp.TcpServer

/-!
# Conversations

What serving a connection is for, without buffers and descriptors: the messages of a client are
handled one after the other, each reply is sent, and the conversation ends early when the handler
or a `send` fails. `conversation` computes this from the list of messages.

The loop of `handleClientData` refines it (`serveFrames_run`): whatever is in the read buffer, it
holds the conversation about the messages that the buffer is parsed into.

## The architecture

* **`Exchange`**, **`Breakage`**, **`Conversation`** — what became of each request, in the order
  of the requests, and of the one at which the conversation broke.
* **`exchangeEvents`**, **`breakageEvents`** — the same as entries of the server's trace.
* **`serveMessage_run_ok`**, **`serveMessage_run_handle`**, **`serveMessage_run_send`** — one
  round of the loop, in its three outcomes.
* **`serveFrames_run`** — the loop, by induction on the fuel with the parsed messages generalised.
* **`handleClientData_run_request`** — the case that other modules need most.
-/

namespace Pgw

open Protocol

/-- A message that was handled, its reply, and the number of bytes of the reply that `::send`
took. -/
structure Exchange where
  request : Message
  reply : Message
  taken : Nat
  deriving DecidableEq, Repr

/-- The bytes of the reply that reach the peer. -/
def Exchange.delivered (x : Exchange) : Bytes :=
  (TcpSerializer.serializer x.reply).take x.taken

/-- How a conversation breaks: the handler fails on a request, or the reply cannot be sent. -/
inductive Breakage where
  | handle (request : Message)
  | send (request reply : Message)
  deriving DecidableEq, Repr

/-- The request at which the conversation broke. -/
def Breakage.request : Breakage → Message
  | .handle request => request
  | .send request _ => request

/-- What comes of some requests of one client: the state of the handler, the exchanges that were
completed, and what broke the rest off. -/
structure Conversation (η : Type) where
  exchanges : List Exchange
  /-- The state of the handler at the end. -/
  handler : η
  broken : Option (Fault × Breakage)

namespace TcpServer

variable {η : Type} (handle : Message → EStateM Fault η Message) (sends : Nat → SendOutcome)

/-- The conversation about a list of messages; `i` counts the calls of `send`. -/
def conversation : Nat → η → List Message → Conversation η
  | _, h, [] => ⟨[], h, none⟩
  | i, h, request :: requests =>
    match (handle request).run h with
    | .error e h' => ⟨[], h', some (e, .handle request)⟩
    | .ok reply h' =>
      match sends i with
      | .failed => ⟨[], h', some (.exception, .send request reply)⟩
      | .accepted taken =>
        let c := conversation (i + 1) h' requests
        ⟨⟨request, reply, taken⟩ :: c.exchanges, c.handler, c.broken⟩

/-- The requests that were answered come first, in order, then the one that broke. -/
theorem conversation_requests (requests : List Message) :
    ∀ (i : Nat) (h : η),
      match (conversation handle sends i h requests).broken with
      | none => requests = (conversation handle sends i h requests).exchanges.map Exchange.request
      | some (_, breakage) => ∃ rest, requests =
          (conversation handle sends i h requests).exchanges.map Exchange.request
            ++ breakage.request :: rest := by
  induction requests with
  | nil => intro i h; rfl
  | cons request requests ih =>
    intro i h
    rw [conversation]
    cases hhandle : (handle request).run h with
    | error e h' => exact ⟨requests, rfl⟩
    | ok reply h' =>
      cases hsend : sends i with
      | failed => exact ⟨requests, rfl⟩
      | accepted taken =>
        -- the reply is sent, and the rest is a conversation of its own
        have hrest := ih (i + 1) h'
        dsimp only
        cases hbroken : (conversation handle sends (i + 1) h' requests).broken with
        | none =>
          rw [hbroken] at hrest
          simpa using hrest
        | some breakage =>
          rw [hbroken] at hrest
          simpa using hrest

/-! ## What others see of a conversation

The trace of the server records these events, so that what holds of a conversation can be said of
the bytes on the wire. -/

/-- The events of an exchange on the connection `fd`. -/
def exchangeEvents (fd : Nat) (x : Exchange) : List TcpEvent :=
  [.handled fd x.request (some x.reply),
    .sent fd (TcpSerializer.serializer x.reply) (.accepted x.taken)]

/-- The events with which a conversation breaks on the connection `fd`. -/
def breakageEvents (fd : Nat) : Breakage → List TcpEvent
  | .handle request => [.handled fd request none]
  | .send request reply =>
    [.handled fd request (some reply), .sent fd (TcpSerializer.serializer reply) .failed]

/-! ## The loop holds the conversation

`serveFrames` works on the buffer and with fuel, the conversation on a list of messages. The loop of
the one is the recursion of the other. -/

section
variable {handle sends}

/-- A request that is handled and answered is recorded with its reply. -/
theorem serveMessage_run_ok {v : Serving η} {msg reply : Message} {h' : η} {taken : Nat}
    (hhandle : (handle msg).run v.handler = .ok reply h') :
    (serveMessage handle (.accepted taken) msg).run v = .ok () {
      handler := h'
      client := { v.client with
        socket.wire := v.client.socket.wire ++ (TcpSerializer.serializer reply).take taken
        readBuffer := v.client.readBuffer.drop (headerSize + msg.header.length.toNat) }
      trace := v.trace ++ exchangeEvents v.client.socket.fd ⟨msg, reply, taken⟩ } := by
  simp [serveMessage, callHandler, hhandle, send, exchangeEvents]

/-- The handler throws: there is no reply. -/
theorem serveMessage_run_handle {v : Serving η} {msg : Message} {e : Fault} {h' : η}
    {outcome : SendOutcome} (hhandle : (handle msg).run v.handler = .error e h') :
    (serveMessage handle outcome msg).run v = .error e {
      handler := h'
      client := v.client
      trace := v.trace ++ breakageEvents v.client.socket.fd (.handle msg) } := by
  simp [serveMessage, callHandler, hhandle, breakageEvents]

/-- The reply cannot be sent. -/
theorem serveMessage_run_send {v : Serving η} {msg reply : Message} {h' : η}
    (hhandle : (handle msg).run v.handler = .ok reply h') :
    (serveMessage handle .failed msg).run v = .error .exception {
      handler := h'
      client := v.client
      trace := v.trace ++ breakageEvents v.client.socket.fd (.send msg reply) } := by
  simp [serveMessage, callHandler, hhandle, send, breakageEvents]

/-- **The loop refines the conversation.** With enough fuel, it ends normally exactly if the
conversation about the parsed messages is not broken; then the buffer keeps the rest of the bytes,
and the trace and the wire have got the exchanges. Induction on the fuel: every message takes at
least a header off the buffer. -/
theorem serveFrames_run (handle : Message → EStateM Fault η Message) (sends : Nat → SendOutcome)
    (fuel : Nat) :
    ∀ (i : Nat) (v : Serving η), v.client.readBuffer.length < fuel →
      match conversation handle sends i v.handler
          (TcpSerializer.framing.parse v.client.readBuffer).1 with
      | ⟨exchanges, h', none⟩ => (serveFrames handle sends fuel i).run v = .ok () {
          handler := h'
          client := { v.client with
            socket.wire := v.client.socket.wire ++ exchanges.flatMap Exchange.delivered
            readBuffer := (TcpSerializer.framing.parse v.client.readBuffer).2 }
          trace := v.trace ++ exchanges.flatMap (exchangeEvents v.client.socket.fd) }
      | ⟨exchanges, h', some (e, breakage)⟩ => ∃ client, client.socket.fd = v.client.socket.fd ∧
          (serveFrames handle sends fuel i).run v = .error e {
            handler := h'
            client := client
            trace := v.trace ++ exchanges.flatMap (exchangeEvents v.client.socket.fd)
              ++ breakageEvents v.client.socket.fd breakage } := by
  induction fuel with
  | zero => exact fun _ _ hfuel => absurd hfuel (Nat.not_lt_zero _)
  | succ fuel ih =>
    intro i v hfuel
    cases hdecode : TcpSerializer.deserializer v.client.readBuffer with
    | none =>
      -- no complete message: the loop ends and the buffer keeps its bytes
      have hparse := TcpSerializer.framing.parse_of_none hdecode
      simp [hparse, conversation, serveFrames, hdecode]
    | some msg =>
      -- the buffer is the frame of `msg` and `rest`, and the loop erases exactly this frame
      obtain ⟨hwf, rest, hbuffer⟩ := (TcpSerializer.deserializer_eq_some _ _).mp hdecode
      have hlength := TcpSerializer.length_serializer_of_wellFormed hwf
      have hparse : TcpSerializer.framing.parse v.client.readBuffer
          = (msg :: (TcpSerializer.framing.parse rest).1,
            (TcpSerializer.framing.parse rest).2) := by
        rw [← hbuffer]
        exact TcpSerializer.framing.parse_frame_append hwf rest
      have hdrop : v.client.readBuffer.drop (headerSize + msg.header.length.toNat) = rest := by
        rw [← hbuffer, ← hlength, List.drop_left]
      rw [hparse, conversation]
      have hloop : (serveFrames handle sends (fuel + 1) i).run v
          = (do
              serveMessage handle (sends i) msg
              serveFrames handle sends fuel (i + 1)).run v := by
        simp [serveFrames, hdecode]
      rw [hloop, EStateM.run_bind]
      cases hhandle : (handle msg).run v.handler with
      | error e h' =>
        refine ⟨v.client, rfl, ?_⟩
        simp [serveMessage_run_handle hhandle]
      | ok reply h' =>
        cases hsend : sends i with
        | failed =>
          refine ⟨v.client, rfl, ?_⟩
          simp [serveMessage_run_send hhandle]
        | accepted taken =>
          rw [serveMessage_run_ok hhandle, hdrop]
          have hrest := ih (i + 1) ⟨h', { v.client with
            socket.wire := v.client.socket.wire ++ (TcpSerializer.serializer reply).take taken
            readBuffer := rest },
            v.trace ++ exchangeEvents v.client.socket.fd ⟨msg, reply, taken⟩⟩ (by
              rw [← hbuffer, List.length_append] at hfuel
              simp only [headerSize] at hlength
              dsimp only
              omega)
          dsimp only at hrest ⊢
          -- how the rest of the conversation came about no longer matters
          generalize conversation handle sends (i + 1) h' (TcpSerializer.framing.parse rest).1 = c
            at hrest ⊢
          obtain ⟨exchanges, h'', broken⟩ := c
          cases broken with
          | none =>
            dsimp only at hrest ⊢
            rw [hrest]
            simp [Exchange.delivered]
          | some breakage =>
            obtain ⟨client, hfd, hrun⟩ := hrest
            refine ⟨client, hfd, ?_⟩
            dsimp only
            rw [hrun]
            simp

/-- **One request in one chunk**: with nothing left over in its buffer, the client gets as much of
the reply as `::send` takes, and its buffer is empty again. -/
theorem handleClientData_run_request {s : TcpServer η} {fd : Nat} {client : ClientContext}
    {request reply : Message} {h' : η} {taken : Nat} (hlookup : s.clients.lookup fd = some client)
    (hempty : client.readBuffer = []) (hwf : request.WellFormed)
    (hhandle : (handle request).run s.handler = .ok reply h') (hsend : sends 0 = .accepted taken)
    (peekIsZero : Bool) :
    (handleClientData handle fd (.packet (TcpSerializer.serializer request) peekIsZero) sends).run s
      = .ok true { s with
        handler := h'
        clients := s.clients.replace fd { client with
          socket.wire := client.socket.wire ++ (TcpSerializer.serializer reply).take taken
          readBuffer := [] }
        trace := s.trace ++ exchangeEvents client.socket.fd ⟨request, reply, taken⟩ } := by
  obtain ⟨byte, bytes, hbytes⟩ := List.exists_cons_of_ne_nil
    (TcpSerializer.framing.frame_ne_nil request)
  have hserializer : TcpSerializer.serializer request = byte :: bytes := hbytes
  have hparse : TcpSerializer.framing.parse (byte :: bytes) = ([request], []) := by
    have hnil : TcpSerializer.framing.parse [] = ([], []) :=
      TcpSerializer.framing.parse_of_none rfl
    have hone := TcpSerializer.framing.parse_frame_append hwf []
    rw [List.append_nil, hbytes, hnil] at hone
    exact hone
  have hconversation : conversation handle sends 0 s.handler [request]
      = ⟨[⟨request, reply, taken⟩], h', none⟩ := by
    simp [conversation, hhandle, hsend]
  -- the loop holds the conversation about this one request
  have hframes := serveFrames_run handle sends ((byte :: bytes).length + 1) 0
    ⟨s.handler, { client with readBuffer := byte :: bytes }, s.trace⟩ (Nat.lt_succ_self _)
  dsimp only at hframes
  rw [hparse, hconversation] at hframes
  dsimp only at hframes
  have hserve : (serveData handle (byte :: bytes) sends).run ⟨s.handler, client, s.trace⟩
      = (serveFrames handle sends ((byte :: bytes).length + 1) 0).run
          ⟨s.handler, { client with readBuffer := byte :: bytes }, s.trace⟩ := by
    simp [serveData, hempty]
  rw [hframes] at hserve
  rw [hserializer]
  simp [handleClientData, hlookup, withClient, hserve, Exchange.delivered]

end
end TcpServer
end Pgw
