import MiniPgw.Session.SessionManager

/-!
# UdpServer — the datagrams of the subscribers

`pgw/server/UdpServer.cpp`. What the socket answers comes with the call of `processEvent`: the
datagrams that `receive` delivers one after the other, until there is none.
-/

namespace Pgw

/-- `sockaddr_in`: the address in the high 32 bits, the port below. -/
abbrev Address := Nat

/-- What `IUdpSocket::receive` does, with what the loop then finds: the reading of `steady_clock`
that `createSession` makes, and whether `send` throws. -/
inductive UdpReceive where
  | packet (data : Bytes) (sender : Address) (now : Time) (sendThrows : Bool)
  | throws

structure UdpServer where
  sessionManager : SessionManager
  running : Bool
  /-- The replies that the socket has taken, with their receivers. -/
  sent : List (Bytes × Address)

namespace UdpServer

abbrev Method := EStateM Fault UdpServer

def validateImsi (imsi : Bytes) : Bool :=
  Validation.isValidImsi imsi

/-- A call of the session manager. -/
def onManager {α : Type} (call : SessionManager.Method α) : Method α :=
  Effects.zoom sessionManager (fun m s => { s with sessionManager := m }) call

/-- `m_socket->send(answer, addr)` -/
def send (answer : Bytes) (addr : Address) (sendThrows : Bool) : Method Unit :=
  if sendThrows then throw .exception
  else modify fun s => { s with sent := s.sent ++ [(answer, addr)] }

/-- The answer to a datagram, after the session has been created for a valid IMSI. -/
def answerTo (data : Bytes) (now : Time) : Method Bytes := do
  if validateImsi data then do
    let result ← onManager (SessionManager.createSession data now)
    match result with
    | .CREATED => pure (ascii "created")
    | .REJECTED_BLACKLIST | .ALREADY_EXISTS | .SERVICE_UNAVAILABLE | .ERROR =>
      pure (ascii "rejected")
  else pure (ascii "rejected")

/-- `while (true)`: after the datagrams of the list, `receive` has nothing to deliver. -/
def receiveAll : List UdpReceive → Method Unit
  | [] => pure ()
  | .throws :: _ => throw .exception
  | .packet data sender now sendThrows :: rest =>
    if data = [] then pure ()
    else do
      let answer ← answerTo data now
      send answer sender sendThrows
      receiveAll rest

def processEvent (receives : List UdpReceive) : Method Unit := do
  let s ← get
  if !s.running then pure ()
  else catching (receiveAll receives) (pure ())

def stop : Method Unit := do
  let s ← get
  if s.running then set { s with running := false }
  else pure ()

end UdpServer
end Pgw
