import MiniPgw.Lib.Effects
import MiniPgw.Lib.Run
import MiniPgw.Lib.UnorderedMap
import MiniPgw.Tcp.Protocol

/-!
# TcpServer — the connections of the command clients

`pgw/server/TcpServer.cpp` and the calls of `TcpSocket` that it makes. The command handler is a
parameter `handle`, a computation on a state of its own. What the kernel answers comes with each
call: the outcome of `accept`, what `receive` delivers, and the outcome of every `send`.

`trace` lists what the server did that others can see: the messages it handed to the handler, the
`send` calls and the `close` calls. `step` is one call of a public method.
-/

namespace Pgw

open Protocol

/-! ## Sockets

The sockets are what the kernel answers: how much `::send` takes, what `receive` delivers, how
`accept` ends. -/

/-- A connected `TcpSocket`. -/
structure TcpSocket where
  fd : Nat
  /-- The bytes that the kernel has taken from `send`, for the peer. -/
  wire : Bytes
  deriving DecidableEq, Repr

/-- What `::send` does: it takes the first `k` of the bytes offered, or fails. -/
inductive SendOutcome where
  | accepted (k : Nat)
  | failed
  deriving DecidableEq, Repr

/-- What `ITcpSocket::receive` does. For an empty packet, `peekIsZero` is whether the probe with
`MSG_PEEK` returns 0. -/
inductive ReceiveOutcome where
  | packet (data : Bytes) (peekIsZero : Bool)
  | throws
  deriving DecidableEq, Repr

/-- How `TcpSocket::accept` ends. -/
inductive AcceptOutcome where
  /-- `::accept` fails. -/
  | failed
  /-- `fcntl` fails on the new descriptor. -/
  | flagsFailed (fd : Nat)
  /-- The constructor of the temporary `TcpSocket` throws. -/
  | temporaryFailed (fd : Nat)
  /-- The descriptor `temporary` of the temporary `TcpSocket` is replaced by `fd`. -/
  | connected (fd temporary : Nat)
  deriving DecidableEq, Repr

/-- What others can see of the server: the commands that it handles, the bytes that it sends and the
descriptors that it closes. -/
inductive TcpEvent where
  /-- `m_commandHandler.handle(request)`, with the reply if it returned. -/
  | handled (fd : Nat) (request : Message) (reply : Option Message)
  | sent (fd : Nat) (data : Bytes) (outcome : SendOutcome)
  | closed (fd : Nat)
  deriving DecidableEq, Repr

/-! ## The server

A map of clients by their descriptors, and one listening socket that `stop` destroys. -/

/-- `TcpServer::ClientContext` -/
structure ClientContext where
  /-- Never null: `acceptNewClient` stores no other. -/
  socket : TcpSocket
  writeBuffer : Bytes
  readBuffer : Bytes
  isWriting : Bool
  deriving DecidableEq, Repr

/-- The members of `TcpServer`, and the trace of what it has done. -/
structure TcpServer (η : Type) where
  /-- The state of the command handler. -/
  handler : η
  /-- The descriptor of `m_socket`, while it is not null. -/
  socket : Option Nat
  running : Bool
  /-- The second constructor leaves it uninitialised. -/
  stopAccepting : Option Bool
  clients : UnorderedMap Nat ClientContext
  trace : List TcpEvent

namespace TcpServer

variable {η : Type}

/-- A method of the server. -/
abbrev Method (η : Type) := EStateM Fault (TcpServer η)

/-- The server that the first constructor leaves. -/
def constructed (handler : η) (socket : Nat) : TcpServer η where
  handler := handler
  socket := some socket
  running := false
  stopAccepting := some false
  clients := ∅
  trace := []

/-- The server that the constructor with a given socket leaves. -/
def constructedWith (handler : η) (socket : Nat) : TcpServer η :=
  { constructed handler socket with stopAccepting := none }

/-- The descriptors that were passed to `::close`. -/
def closedFds (events : List TcpEvent) : List Nat :=
  events.filterMap fun
    | .closed fd => some fd
    | _ => none

/-- What was closed between `s` and `s'`. -/
def closedSince (s s' : TcpServer η) : List Nat :=
  closedFds (s'.trace.drop s.trace.length)

/-- Something that can be seen has happened. -/
def record (event : TcpEvent) : Method η Unit :=
  modify fun s => { s with trace := s.trace ++ [event] }

/-- `TcpSocket::close`: descriptor 0 is not closed. -/
def closeSocket (fd : Nat) : Method η Unit :=
  if fd > 0 then record (.closed fd) else pure ()

/-- `TcpSocket::accept` -/
def accept : AcceptOutcome → Method η (Option TcpSocket)
  | .failed => pure none
  | .flagsFailed fd => do
    record (.closed fd)
    throw .exception
  | .temporaryFailed _ => throw .exception
  | .connected fd temporary => do
    record (.closed temporary)
    pure (some ⟨fd, []⟩)

/-- `m_socket->accept()` -/
def acceptFrom (outcome : AcceptOutcome) : Method η (Option TcpSocket) := do
  let s ← get
  match s.socket with
  | none => throw .undefined
  | some _ => accept outcome

/-- `TcpServer::start`: the socket is dereferenced, bound and set to listen. Any failure is thrown
again. -/
def start (bindSucceeds : Bool) : Method η Unit := do
  let s ← get
  if s.running then pure ()
  else
    match s.socket with
    | none => throw .undefined
    | some _ =>
      if bindSucceeds then set { s with running := true }
      else throw .exception

/-- The loop of `stop` over the clients. -/
def closeClients : List (Sigma fun _ : Nat => ClientContext) → Method η Unit
  | [] => pure ()
  | client :: rest => do
    closeSocket client.2.socket.fd
    record (.closed client.1)
    closeClients rest

/-- `TcpServer::stop`: the sockets of all clients are closed, then their descriptors once more, then
the listening socket. -/
def stop : Method η Unit := do
  let s ← get
  if s.running then do
    set { s with running := false }
    closeClients s.clients.entries
    match s.socket with
    | none => modify fun s => { s with clients := ∅ }
    | some fd => do
      closeSocket fd
      modify fun s => { s with clients := ∅, socket := none }
  else pure ()

/-- The destructors of the elements of `m_clients`. -/
def destroyClients : List (Sigma fun _ : Nat => ClientContext) → Method η Unit
  | [] => pure ()
  | client :: rest => do
    closeSocket client.2.socket.fd
    destroyClients rest

/-- `~TcpServer`, and the destructors of `m_clients` and `m_socket` after it. -/
def destroy : Method η Unit := do
  let s ← get
  let _ ← if s.running then stop else pure ()
  let s ← get
  destroyClients s.clients.entries
  match s.socket with
  | some fd => closeSocket fd
  | none => pure ()

/-- `TcpServer::stopAccepting` -/
def setStopAccepting : Method η Unit :=
  modify fun s => { s with stopAccepting := some true }

/-- `m_clients[clientFd] = std::move(client)`: a socket that was there is destroyed. -/
def storeClient (socket : TcpSocket) : Method η Unit := do
  let s ← get
  match s.clients.lookup socket.fd with
  | some old => closeSocket old.socket.fd
  | none => pure ()
  modify fun s => { s with clients := s.clients.insert socket.fd ⟨socket, [], [], false⟩ }

/-- The descriptor of the new client, or -1. -/
def acceptNewClient (outcome : AcceptOutcome) : Method η Int := do
  let s ← get
  if !s.running then pure (-1)
  else
    match s.stopAccepting with
    | none => throw .undefined
    | some true => do
      let clientSocket ← acceptFrom outcome
      match clientSocket with
      | some socket => do
        record (.closed socket.fd)
        -- the destructor of `clientSocket`
        closeSocket socket.fd
        pure (-1)
      | none => pure (-1)
    | some false =>
      catching
        (do
          let clientSocket ← acceptFrom outcome
          match clientSocket with
          | some socket => do
            storeClient socket
            pure socket.fd
          | none => pure (-1))
        (pure (-1))

/-- The client leaves the map, and the destructor of its socket closes the descriptor. -/
def removeClient (clientFd : Nat) : Method η Unit := do
  let s ← get
  match s.clients.lookup clientFd with
  | some client => do
    closeSocket client.socket.fd
    modify fun s => { s with clients := s.clients.erase clientFd }
  | none => pure ()

/-! ## handleClientData

The longest method. It works on one client of the map, within a `try` whose `catch` removes the
client. -/

/-- What the `try` block of `handleClientData` works on: `client` refers to an element of
`m_clients`, and nothing else of the server changes. -/
structure Serving (η : Type) where
  handler : η
  client : ClientContext
  trace : List TcpEvent

section
variable (handle : Message → EStateM Fault η Message)

/-- `m_commandHandler.handle(*msg)` -/
def callHandler (request : Message) : EStateM Fault (Serving η) Message := do
  let v ← get
  match (handle request).run v.handler with
  | .ok reply handler => do
    set { v with
      handler := handler
      trace := v.trace ++ [TcpEvent.handled v.client.socket.fd request (some reply)] }
    pure reply
  | .error e handler => do
    set { v with
      handler := handler
      trace := v.trace ++ [TcpEvent.handled v.client.socket.fd request none] }
    throw e

/-- `client.socket->send(data)`: the number of bytes sent is not looked at. -/
def send (data : Bytes) (outcome : SendOutcome) : EStateM Fault (Serving η) Unit := do
  let v ← get
  let trace := v.trace ++ [TcpEvent.sent v.client.socket.fd data outcome]
  match outcome with
  | .accepted k =>
    set { v with client.socket.wire := v.client.socket.wire ++ data.take k, trace := trace }
  | .failed => do
    set { v with trace := trace }
    throw .exception

/-- One message: handle it, send the response, and take the message off the buffer. -/
def serveMessage (outcome : SendOutcome) (msg : Message) : EStateM Fault (Serving η) Unit := do
  let response ← callHandler handle msg
  send (TcpSerializer.serializer response) outcome
  let consumed := headerSize + msg.header.length.toNat
  modify fun v => { v with client.readBuffer := v.client.readBuffer.drop consumed }

/-- `while (true)`, at most `fuel` times; `i` counts the calls of `send`. Every iteration that does
not end the loop takes a header off the buffer, so `readBuffer.size() + 1` iterations are enough
(`serveFrames_run`). -/
def serveFrames (sends : Nat → SendOutcome) : Nat → Nat → EStateM Fault (Serving η) Unit
  | 0, _ => pure ()
  | fuel + 1, i => do
    let v ← get
    match TcpSerializer.deserializer v.client.readBuffer with
    | none => pure ()
    | some msg => do
      serveMessage handle (sends i) msg
      serveFrames sends fuel (i + 1)

/-- The `try` block once data has been received. -/
def serveData (data : Bytes) (sends : Nat → SendOutcome) : EStateM Fault (Serving η) Unit := do
  modify fun v => { v with client.readBuffer := v.client.readBuffer ++ data }
  let v ← get
  serveFrames handle sends (v.client.readBuffer.length + 1) 0

/-- Runs the `try` block on the client `clientFd`. -/
def withClient (clientFd : Nat) (client : ClientContext)
    (body : EStateM Fault (Serving η) Unit) : Method η Unit := do
  let s ← get
  match body.run ⟨s.handler, client, s.trace⟩ with
  | .ok _ v =>
    set { s with
      handler := v.handler
      clients := s.clients.replace clientFd v.client
      trace := v.trace }
  | .error e v => do
    set { s with
      handler := v.handler
      clients := s.clients.replace clientFd v.client
      trace := v.trace }
    throw e

/-- `TcpServer::handleClientData`: the result is true if data was received and handled, and false in
every other case. -/
def handleClientData (clientFd : Nat) (received : ReceiveOutcome) (sends : Nat → SendOutcome) :
    Method η Bool := do
  let s ← get
  match s.clients.lookup clientFd with
  | none => pure false
  | some client =>
    catching
      (match received with
        | .throws => throw .exception
        -- nothing arrived: `recv` with `MSG_PEEK` tells whether the peer has closed the connection
        | .packet [] peekIsZero =>
          if peekIsZero then do
            removeClient clientFd
            pure false
          else pure false
        | .packet (byte :: bytes) _ => do
          withClient clientFd client (serveData handle (byte :: bytes) sends)
          pure true)
      -- the `catch` block
      (do
        removeClient clientFd
        pure false)

/-! ## Runs

A run is a list of calls of the event loop. It breaks off at the first one with undefined
behaviour. -/

/-- The calls that the event loop makes, each with what the system answers in it. -/
inductive ServerCall where
  | start (bindSucceeds : Bool)
  | stop
  | stopAccepting
  | acceptNewClient (outcome : AcceptOutcome)
  | handleClientData (clientFd : Nat) (received : ReceiveOutcome) (sends : Nat → SendOutcome)

/-- What a call runs. -/
def perform : ServerCall → Method η Unit
  | .start bindSucceeds => TcpServer.start bindSucceeds
  | .stop => TcpServer.stop
  | .stopAccepting => setStopAccepting
  | .acceptNewClient outcome => do
    let _ ← TcpServer.acceptNewClient outcome
  | .handleClientData clientFd received sends => do
    let _ ← TcpServer.handleClientData handle clientFd received sends

/-- One call. An exception leaves the server as it is; after undefined behaviour there is none. -/
def step (s : TcpServer η) (c : ServerCall) : Option (TcpServer η) :=
  match (perform handle c).run s with
  | .ok _ s' => some s'
  | .error .exception s' => some s'
  | .error .undefined _ => none

end

end TcpServer
end Pgw
