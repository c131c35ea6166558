import Mathlib.Algebra.Order.Ring.Int
import Mathlib.Data.List.TakeWhile
import MiniPgw.Session.Refinement
import MiniPgw.Udp.UdpServer

/-!
# The answers to a queue of datagrams

`UdpEndpoint` is the server together with the datagrams that wait in its socket. `processEvent`
reads them until `receive` returns a packet without data. That is what `receive` makes of an empty
queue, and of a datagram without data.

`answersAll_iff` says when every datagram is answered: none of them is empty.

## The architecture

* **`UdpEndpoint`** — the server and its queue; **`processEvent_server`** says that it is the
  server of `UdpServer` on what the queue gives.
* **`truth`**, **`createSession_truth`** — the reply that a datagram should get, and the result
  that `createSession` gives.
* **`respond_run`**, **`receiveLoop_run`** — one datagram, and the loop up to the first empty one.
* **`getElem?_answers`**, **`sent_foldl`** — the `i`-th reply is the truth about the `i`-th
  datagram.
* **`answersAll_iff`** — without an empty datagram the loop gets to the end of the queue; with one
  it leaves at least that one without a reply.
-/

namespace Pgw

/-! ## The socket

A datagram that is longer than the buffer is cut off, and one without data looks like no datagram at
all. -/

namespace UdpSocket

def MAX_BYTES_RECIEVE : Nat := 1024

/-- `ISocket::Packet`, in the queue of the socket and as `receive` returns it, with the reading of
`steady_clock` that `createSession` makes for it. -/
structure Packet where
  data : Bytes
  senderAddr : Address
  now : Time
  deriving DecidableEq, Repr

/-- What `receive` returns, and what it leaves of the queue. `recvfrom` cuts off what does not fit
into the buffer. -/
def receive : List Packet → Packet × List Packet
  -- EAGAIN
  | [] => (⟨[], 0, 0⟩, [])
  | packet :: queue => ({ packet with data := packet.data.take MAX_BYTES_RECIEVE }, queue)

/-- An empty datagram is the only one that `receive` returns without data. -/
theorem receive_data_eq_nil_iff (packet : Packet) (queue : List Packet) :
    (receive (packet :: queue)).1.data = [] ↔ packet.data = [] := by
  show packet.data.take MAX_BYTES_RECIEVE = [] ↔ _
  rw [List.take_eq_nil_iff]
  exact or_iff_right (by decide)

end UdpSocket

structure UdpEndpoint where
  server : UdpServer
  /-- The datagrams that have arrived and are not received yet. -/
  queue : List UdpSocket.Packet

namespace UdpEndpoint

open UdpSocket

abbrev Method := EStateM Fault UdpEndpoint

def receive : Method Packet := do
  let e ← get
  set { e with queue := (UdpSocket.receive e.queue).2 }
  pure (UdpSocket.receive e.queue).1

/-- The body of the loop after a packet with data: the answer goes to its sender. -/
def respond (packet : Packet) : UdpServer.Method Unit := do
  let answer ← UdpServer.answerTo packet.data packet.now
  UdpServer.send answer packet.senderAddr false

/-- `while (true)`, at most `fuel` times. Every turn that does not end the loop takes a datagram
from the queue, so `queue.length + 1` turns are enough. -/
def receiveLoop : Nat → Method Unit
  | 0 => pure ()
  | fuel + 1 => do
    let packet ← receive
    if packet.data = [] then pure ()
    else do
      Effects.zoom server (fun s e => { e with server := s }) (respond packet)
      receiveLoop fuel

def processEvent : Method Unit := do
  let e ← get
  if !e.server.running then pure ()
  else catching (receiveLoop (e.queue.length + 1)) (pure ())

/-! ## One datagram

One turn of the loop: the payload is checked as an IMSI, the session is created, and the answer goes
back to the sender. -/

/-- The manager after a datagram. -/
def served (m : SessionManager) (packet : Packet) : SessionManager :=
  if UdpServer.validateImsi packet.data then
    Effects.finalState ((SessionManager.createSession packet.data packet.now).run m)
  else m

/-- The answer that a datagram should get: `created` if it has added its IMSI to the active sessions
of `before`. -/
def truth (packet : Packet) (before after : SessionManager) : Bytes :=
  if packet.data ∉ before.sessions ∧ packet.data ∈ after.sessions then ascii "created"
  else ascii "rejected"

/-- The server after a datagram that it has answered. -/
def answered (s : UdpServer) (packet : Packet) : UdpServer :=
  let after := served s.sessionManager packet
  { s with
    sessionManager := after
    sent := s.sent ++ [(truth packet s.sessionManager after, packet.senderAddr)] }

variable {s : UdpServer} {m : SessionManager}

/-- `createSession` with a writer that does not throw: its result is the truth about the table. -/
theorem createSession_truth (hm : m.cdrWriter.Reliable) (imsi : Imsi) (now : Time) :
    ∃ result m', (SessionManager.createSession imsi now).run m = .ok result m' ∧
      m'.cdrWriter.Reliable ∧
      (result = .CREATED ↔ imsi ∉ m.sessions ∧ imsi ∈ m'.sessions) := by
  rw [SessionManager.createSession_run (hm _)]
  split
  · exact ⟨_, m, rfl, hm, by simp⟩
  split
  · refine ⟨_, m.rejected imsi, rfl, hm, ?_⟩
    have hsame : (m.rejected imsi).sessions = m.sessions := rfl
    simp [hsame]
  split
  · next himsi => exact ⟨_, m, rfl, hm, by simp [himsi]⟩
  · next himsi =>
    refine ⟨_, m.created imsi now, rfl, hm, ?_⟩
    have hin : imsi ∈ (m.created imsi now).sessions := by
      show imsi ∈ m.sessions.insert imsi ⟨now⟩
      rw [AList.mem_insert]
      exact .inl rfl
    simp [himsi, hin]

theorem served_reliable (hm : m.cdrWriter.Reliable) (packet : Packet) :
    (served m packet).cdrWriter.Reliable := by
  unfold served
  split
  · obtain ⟨result, m', hrun, hreliable, -⟩ := createSession_truth hm packet.data packet.now
    rw [hrun]
    exact hreliable
  · exact hm

/-- What the buffer cuts off does not matter: the rest is too long for an IMSI as well. -/
theorem validateImsi_take (data : Bytes) :
    UdpServer.validateImsi (data.take MAX_BYTES_RECIEVE) = UdpServer.validateImsi data := by
  by_cases hlength : data.length ≤ MAX_BYTES_RECIEVE
  · rw [List.take_of_length_le hlength]
  · have hlong : data.length ≠ Validation.IMSI_LENGTH := by
      unfold MAX_BYTES_RECIEVE at hlength
      unfold Validation.IMSI_LENGTH
      omega
    have htake : (data.take MAX_BYTES_RECIEVE).length ≠ Validation.IMSI_LENGTH := by
      rw [List.length_take]
      unfold MAX_BYTES_RECIEVE at hlength ⊢
      unfold Validation.IMSI_LENGTH
      omega
    unfold UdpServer.validateImsi Validation.isValidImsi
    rw [if_pos hlong, if_pos htake]

theorem take_of_validateImsi {data : Bytes} (h : UdpServer.validateImsi data = true) :
    data.take MAX_BYTES_RECIEVE = data := by
  unfold UdpServer.validateImsi Validation.isValidImsi at h
  split at h
  · cases h
  · next hlength =>
    rw [not_not] at hlength
    apply List.take_of_length_le
    rw [hlength]
    decide

/-- **One datagram gets one truthful answer.** -/
theorem respond_run (hm : s.sessionManager.cdrWriter.Reliable) (packet : Packet) :
    (respond { packet with data := packet.data.take MAX_BYTES_RECIEVE }).run s =
      .ok () (answered s packet) := by
  have hsame := validateImsi_take packet.data
  by_cases hvalid : UdpServer.validateImsi packet.data = true
  · obtain ⟨result, m', hrun, -, htruth⟩ := createSession_truth hm packet.data packet.now
    have hserved : served s.sessionManager packet = m' := by
      rw [served, if_pos hvalid, hrun]
      rfl
    rw [take_of_validateImsi hvalid]
    by_cases hcreated : result = .CREATED
    · subst hcreated
      simp [respond, UdpServer.answerTo, hvalid, UdpServer.onManager, hrun, UdpServer.send,
        answered, hserved, truth, htruth.mp rfl]
    · have hrejected : truth packet s.sessionManager m' = ascii "rejected" := by
        rw [truth, if_neg (mt htruth.mpr hcreated)]
      cases result with
      | CREATED => exact absurd rfl hcreated
      | _ =>
        simp [respond, UdpServer.answerTo, hvalid, UdpServer.onManager, hrun, UdpServer.send,
          answered, hserved, hrejected]
  · have hserved : served s.sessionManager packet = s.sessionManager := by
      rw [served, if_neg hvalid]
    -- a text that is no IMSI reaches no manager
    have hrejected : truth packet s.sessionManager s.sessionManager = ascii "rejected" := by
      rw [truth, if_neg fun h => h.1 h.2]
    simp [respond, UdpServer.answerTo, hsame, hvalid, UdpServer.send, answered, hserved, hrejected]

/-! ## The loop

The loop ends at the first packet without data. It was written for a socket that has nothing more to
deliver, and an empty datagram looks the same. -/

theorem receiveLoop_nil (fuel : Nat) (s : UdpServer) :
    (receiveLoop (fuel + 1)).run ⟨s, []⟩ = .ok () ⟨s, []⟩ := by
  simp [receiveLoop, receive, UdpSocket.receive]

theorem receiveLoop_cons (fuel : Nat) (s : UdpServer) (packet : Packet) (queue : List Packet) :
    (receiveLoop (fuel + 1)).run ⟨s, packet :: queue⟩ =
      if packet.data = [] then .ok () ⟨s, queue⟩
      else match (respond { packet with data := packet.data.take MAX_BYTES_RECIEVE }).run s with
        | .ok _ s' => (receiveLoop fuel).run ⟨s', queue⟩
        | .error e s' => .error e ⟨s', queue⟩ := by
  have hdata := receive_data_eq_nil_iff packet queue
  simp only [UdpSocket.receive] at hdata
  by_cases hempty : packet.data = []
  · simp [receiveLoop, receive, UdpSocket.receive, hempty]
  · have hne := mt hdata.mp hempty
    simp only [receiveLoop, receive, UdpSocket.receive, EStateM.run_bind, EStateM.run_get,
      EStateM.run_set, EStateM.run_pure, if_neg hne, if_neg hempty, Effects.run_zoom]
    cases (respond { packet with data := packet.data.take MAX_BYTES_RECIEVE }).run s <;> rfl

/-- **The loop answers the datagrams in front of the first empty one** and takes that one, too.
Induction on the queue. -/
theorem receiveLoop_run (queue : List Packet) :
    ∀ {s : UdpServer} {fuel : Nat}, s.sessionManager.cdrWriter.Reliable → queue.length < fuel →
      (receiveLoop fuel).run ⟨s, queue⟩ =
        .ok () ⟨(queue.takeWhile (·.data ≠ [])).foldl answered s,
          (queue.dropWhile (·.data ≠ [])).tail⟩ := by
  induction queue with
  | nil =>
    intro s fuel hm hfuel
    obtain ⟨fuel, rfl⟩ := Nat.exists_eq_add_one_of_ne_zero hfuel.ne'
    exact receiveLoop_nil fuel s
  | cons packet queue ih =>
    intro s fuel hm hfuel
    obtain ⟨fuel, rfl⟩ := Nat.exists_eq_add_one_of_ne_zero (Nat.ne_zero_of_lt hfuel)
    rw [receiveLoop_cons]
    by_cases hempty : packet.data = []
    · rw [if_pos hempty]
      simp [hempty]
    · rw [if_neg hempty, respond_run hm]
      have hm' : (answered s packet).sessionManager.cdrWriter.Reliable := served_reliable hm packet
      rw [List.length_cons] at hfuel
      simpa [hempty] using ih hm' (by omega)

/-- `processEvent` of a running server. -/
theorem processEvent_run {e : UdpEndpoint} (hm : e.server.sessionManager.cdrWriter.Reliable)
    (hrunning : e.server.running = true) :
    processEvent.run e =
      .ok () ⟨(e.queue.takeWhile (·.data ≠ [])).foldl answered e.server,
        (e.queue.dropWhile (·.data ≠ [])).tail⟩ := by
  have hloop := receiveLoop_run e.queue hm (Nat.lt_succ_self e.queue.length)
  simp [processEvent, hrunning, hloop]

theorem processEvent_run_stopped {e : UdpEndpoint} (hstopped : e.server.running = false) :
    processEvent.run e = .ok () e := by
  simp [processEvent, hstopped]

/-- What the loop of the server is given when `queue` waits. -/
def receives (queue : List Packet) : List UdpReceive :=
  queue.map fun packet =>
    .packet (packet.data.take MAX_BYTES_RECIEVE) packet.senderAddr packet.now false

/-- How a call ends for the server alone. -/
def onServer : EStateM.Result Fault UdpEndpoint Unit → EStateM.Result Fault UdpServer Unit
  | .ok a e => .ok a e.server
  | .error f e => .error f e.server

/-- The queue is one way in which packets come to the loop of the server, whatever the writer
does. -/
theorem receiveLoop_server (queue : List Packet) : ∀ {s : UdpServer} {fuel : Nat},
    queue.length < fuel →
      onServer ((receiveLoop fuel).run ⟨s, queue⟩) =
        (UdpServer.receiveAll (receives queue)).run s := by
  induction queue with
  | nil =>
    intro s fuel hfuel
    obtain ⟨fuel, rfl⟩ := Nat.exists_eq_add_one_of_ne_zero hfuel.ne'
    rw [receiveLoop_nil]
    rfl
  | cons packet queue ih =>
    intro s fuel hfuel
    obtain ⟨fuel, rfl⟩ := Nat.exists_eq_add_one_of_ne_zero (Nat.ne_zero_of_lt hfuel)
    have hdata : packet.data.take MAX_BYTES_RECIEVE = [] ↔ packet.data = [] :=
      receive_data_eq_nil_iff packet queue
    rw [List.length_cons] at hfuel
    rw [receiveLoop_cons]
    show _ = (UdpServer.receiveAll (_ :: receives queue)).run s
    unfold UdpServer.receiveAll
    by_cases hempty : packet.data = []
    · rw [if_pos hempty, if_pos (hdata.mpr hempty)]
      rfl
    · rw [if_neg hempty, if_neg (mt hdata.mp hempty)]
      simp only [respond, EStateM.run_bind]
      cases (UdpServer.answerTo (packet.data.take MAX_BYTES_RECIEVE) packet.now).run s with
      | error f s' => rfl
      -- `send` does not throw
      | ok answer s' => exact ih (by omega)

/-- **The endpoint is the server with a queue.** -/
theorem processEvent_server (e : UdpEndpoint) : onServer (processEvent.run e) =
    (UdpServer.processEvent (receives e.queue)).run e.server := by
  have hloop := receiveLoop_server e.queue (s := e.server) (Nat.lt_succ_self e.queue.length)
  by_cases hrunning : e.server.running = true
  · simp only [processEvent, UdpServer.processEvent, EStateM.run_bind, EStateM.run_get, hrunning,
      Bool.not_true, Bool.false_eq_true, if_false, run_catching]
    rw [← hloop]
    cases (receiveLoop (e.queue.length + 1)).run e with
    | ok a e' => rfl
    | error f e' => cases f <;> rfl
  · simp [processEvent, UdpServer.processEvent, hrunning, onServer]

/-! ## The answers to a queue

The answers in the order of the datagrams, each of them true of the table before and after its own
datagram. -/

/-- The answers to datagrams that all have data. -/
def answers : UdpServer → List Packet → List Bytes
  | _, [] => []
  | s, packet :: queue =>
    truth packet s.sessionManager (served s.sessionManager packet)
      :: answers (answered s packet) queue

theorem length_answers (queue : List Packet) : ∀ s, (answers s queue).length = queue.length := by
  induction queue with
  | nil => exact fun _ => rfl
  | cons packet queue ih => exact fun s => congrArg (· + 1) (ih (answered s packet))

/-- The `i`-th answer is the truth about the `i`-th datagram, between what the datagrams before it
leave and what those up to it leave. -/
theorem getElem?_answers (queue : List Packet) : ∀ (s : UdpServer) (i : Nat),
    (answers s queue)[i]? = queue[i]?.map fun packet =>
      truth packet ((queue.take i).foldl answered s).sessionManager
        ((queue.take (i + 1)).foldl answered s).sessionManager := by
  induction queue with
  | nil => exact fun _ _ => rfl
  | cons packet queue ih =>
    intro s i
    cases i with
    | zero => rfl
    | succ i => exact ih (answered s packet) i

theorem sent_foldl (queue : List Packet) : ∀ s : UdpServer, (queue.foldl answered s).sent =
    s.sent ++ (answers s queue).zip (queue.map Packet.senderAddr) := by
  induction queue with
  | nil => exact fun s => (List.append_nil _).symm
  | cons packet queue ih =>
    intro s
    rw [List.foldl_cons, ih (answered s packet)]
    exact List.append_assoc _ _ _

/-- What `processEvent` leaves of the manager when only the first `n` datagrams have arrived. -/
def managerAfter (e : UdpEndpoint) (n : Nat) : SessionManager :=
  (Effects.finalState (processEvent.run { e with queue := e.queue.take n })).server.sessionManager

/-- `processEvent` takes the whole queue and sends one reply for each datagram, in this order and to
its sender; the reply says whether this datagram has added its IMSI to the active sessions. -/
def AnswersAll (e : UdpEndpoint) : Prop :=
  ∃ (e' : UdpEndpoint) (replies : List Bytes), processEvent.run e = .ok () e' ∧ e'.queue = [] ∧
    replies.length = e.queue.length ∧
    e'.server.sent = e.server.sent ++ replies.zip (e.queue.map Packet.senderAddr) ∧
    ∀ i (hi : i < e.queue.length),
      replies[i]? = some (truth e.queue[i] (e.managerAfter i) (e.managerAfter (i + 1)))

/-- **When every datagram is answered**: the server runs, and no datagram is empty. -/
theorem answersAll_iff {e : UdpEndpoint} (hm : e.server.sessionManager.cdrWriter.Reliable) :
    e.AnswersAll ↔
      (∀ packet ∈ e.queue, packet.data ≠ []) ∧ (e.server.running = true ∨ e.queue = []) := by
  constructor
  · rintro ⟨e', replies, hrun, -, hlength, hsent, -⟩
    have hnumber := congrArg List.length hsent
    rw [List.length_append, List.length_zip, hlength, List.length_map, min_self] at hnumber
    by_cases hrunning : e.server.running = true
    · refine ⟨?_, .inl hrunning⟩
      rw [processEvent_run hm hrunning] at hrun
      cases hrun
      -- only what is in front of the first empty datagram has been answered
      rw [sent_foldl, List.length_append, List.length_zip, length_answers, List.length_map,
        min_self] at hnumber
      have hall : e.queue.takeWhile (·.data ≠ []) = e.queue :=
        (List.takeWhile_prefix _).eq_of_length (by omega)
      exact fun packet hpacket => of_decide_eq_true
        (List.takeWhile_eq_self_iff.mp hall packet hpacket)
    · rw [processEvent_run_stopped (by simpa using hrunning)] at hrun
      cases hrun
      have hempty : e.queue = [] := List.length_eq_zero_iff.mp (by omega)
      rw [hempty]
      exact ⟨fun _ hpacket => absurd hpacket (by simp), .inr rfl⟩
  · rintro ⟨hdata, hrunning | hempty⟩
    · have hfront (n : Nat) : (e.queue.take n).takeWhile (·.data ≠ []) = e.queue.take n :=
        List.takeWhile_eq_self_iff.mpr fun packet hpacket =>
          decide_eq_true (hdata packet (List.mem_of_mem_take hpacket))
      have hafter (n : Nat) :
          e.managerAfter n = ((e.queue.take n).foldl answered e.server).sessionManager := by
        rw [managerAfter, processEvent_run (e := { e with queue := e.queue.take n }) hm hrunning]
        show (((e.queue.take n).takeWhile _).foldl answered e.server).sessionManager = _
        rw [hfront]
      have hall : e.queue.takeWhile (·.data ≠ []) = e.queue :=
        List.takeWhile_eq_self_iff.mpr fun packet hpacket => decide_eq_true (hdata packet hpacket)
      have hrest : e.queue.dropWhile (·.data ≠ []) = [] :=
        List.dropWhile_eq_nil_iff.mpr fun packet hpacket => decide_eq_true (hdata packet hpacket)
      refine ⟨_, answers e.server e.queue, processEvent_run hm hrunning, ?_,
        length_answers _ _, ?_, fun i hi => ?_⟩
      · rw [hrest]
        rfl
      · rw [hall]
        exact sent_foldl _ _
      · rw [getElem?_answers, List.getElem?_eq_getElem hi, hafter, hafter]
        rfl
    · obtain ⟨s, queue⟩ := e
      cases hempty
      have hrun : processEvent.run ⟨s, []⟩ = .ok () ⟨s, []⟩ := by
        by_cases hrunning : s.running = true
        · exact processEvent_run hm hrunning
        · exact processEvent_run_stopped (by simpa using hrunning)
      exact ⟨_, [], hrun, rfl, rfl, (List.append_nil _).symm,
        fun i hi => absurd hi (Nat.not_lt_zero i)⟩

def subscriber : Imsi := ascii "012340123401234"

/-- A running server without sessions, in front of which `queue` waits. -/
def waiting (queue : List Packet) : UdpEndpoint where
  server := ⟨.constructed ⟨[], 0, fun _ => false⟩ ∅ 60 10 0, true, []⟩
  queue := queue

/-- The same subscriber twice, and a datagram that is no IMSI. -/
theorem answersAll_waiting :
    (waiting [⟨subscriber, 1, 0⟩, ⟨subscriber, 2, 0⟩,
      ⟨ascii "8-800-555-35-35", 3, 0⟩]).AnswersAll :=
  (answersAll_iff fun _ => rfl).mpr ⟨by decide, .inl rfl⟩

/-- An empty datagram ends the call, and the subscriber behind it gets no answer. -/
theorem emptyDatagram_ends_call :
    ∃ e', processEvent.run (waiting [⟨[], 1, 0⟩, ⟨subscriber, 2, 0⟩]) = .ok () e' ∧
      e'.queue = [⟨subscriber, 2, 0⟩] ∧ e'.server.sent = [] ∧
      ¬ (waiting [⟨[], 1, 0⟩, ⟨subscriber, 2, 0⟩]).AnswersAll := by
  have hrun := processEvent_run (e := waiting [⟨[], 1, 0⟩, ⟨subscriber, 2, 0⟩])
    (fun _ => rfl) rfl
  refine ⟨_, hrun, rfl, rfl, ?_⟩
  rintro ⟨e', replies, hrun', hqueue, -⟩
  rw [hrun] at hrun'
  cases hrun'
  exact absurd hqueue (by decide)

end UdpEndpoint
end Pgw
