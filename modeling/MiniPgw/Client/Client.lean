import MiniPgw.Udp.Answers

/-!
# Client — one subscriber

`pgw/client/Client.cpp`: the client sends its IMSI in one datagram, waits half a second for one
answer, and closes its socket. What the calls of the socket and `poll` return are arguments.
-/

namespace Pgw

/-- What `poll` returns for the socket. -/
inductive PollResult where
  | failed
  | timedOut
  /-- `ready > 0`, with the bit `POLLIN` of `revents`. -/
  | ready (pollin : Bool)
  deriving DecidableEq, Repr

structure Client where
  imsi : Imsi
  /-- `m_response` -/
  response : Bytes
  /-- The datagrams that the socket has taken. -/
  sent : List Bytes
  /-- `close` has not been called. -/
  socketOpen : Bool
  deriving DecidableEq, Repr

namespace Client

abbrev Method := EStateM Fault Client

def constructed (imsi : Imsi) : Client where
  imsi := imsi
  response := []
  sent := []
  socketOpen := true

/-- `m_socket->send(m_imsi, m_config->getServerIp(), m_config->getServerPort())` -/
def send (sendThrows : Bool) : Method Unit :=
  if sendThrows then throw .exception
  else modify fun c => { c with sent := c.sent ++ [c.imsi] }

/-- The answer that `receive` delivers; `none` when it throws. -/
def receive (received : Option Bytes) : Method Unit :=
  match received with
  | none => throw .exception
  | some data => modify fun c => { c with response := data.take UdpSocket.MAX_BYTES_RECIEVE }

/-- `runEventLoop` from `poll` on. -/
def awaitResponse (poll : PollResult) (received : Option Bytes) : Method Unit := do
  if poll = .ready true then receive received else pure ()
  modify fun c => { c with socketOpen := false }

def runEventLoop (sendThrows : Bool) (poll : PollResult) (received : Option Bytes) :
    Method Unit := do
  send sendThrows
  awaitResponse poll received

/-- `initializeLogger`: `none` when `init` or `addFileSink` throws. -/
def initializeLogger (logger : Option Bool) : Method Bool :=
  match logger with
  | none => throw .exception
  | some isInit => pure isInit

/-- The exit code of `run`. -/
def run (configValid hasSocket : Bool) (logger : Option Bool) (sendThrows : Bool)
    (poll : PollResult) (received : Option Bytes) : Method ℕ :=
  catching
    (do
      if !configValid then pure 1
      else if !hasSocket then pure 1
      else do
        let initialized ← initializeLogger logger
        if !initialized then pure 1
        else do
          runEventLoop sendThrows poll received
          pure 0)
    (pure 1)

/-! ## The client while it waits

The program between its datagram and its end. It reads one answer, or gives up after its timeout. -/

/-- The client after its datagram. -/
def asked (c : Client) : Client :=
  { c with sent := c.sent ++ [c.imsi] }

theorem send_run (c : Client) : (send false).run c = .ok () c.asked := rfl

/-- The client after an answer. -/
def answered (c : Client) (data : Bytes) : Client :=
  { c with response := data.take UdpSocket.MAX_BYTES_RECIEVE, socketOpen := false }

theorem awaitResponse_run (c : Client) (data : Bytes) :
    (awaitResponse (.ready true) (some data)).run c = .ok () (c.answered data) := rfl

/-- The client that has waited in vain. -/
def closed (c : Client) : Client :=
  { c with socketOpen := false }

theorem awaitResponse_run_none (c : Client) {poll : PollResult} (hpoll : poll ≠ .ready true)
    (received : Option Bytes) : (awaitResponse poll received).run c = .ok () c.closed := by
  simp [awaitResponse, hpoll, closed]

end Client
end Pgw
