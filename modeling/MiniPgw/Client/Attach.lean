import MiniPgw.Lib.Datagrams
import MiniPgw.Session.Records
import MiniPgw.Client.Client

/-!
# Attaching over UDP

The clients, the network and the UDP side of the server together. A client sends its IMSI from its
address, and takes the first datagram that comes in as the answer, whoever has sent it. The network
may lose a datagram, deliver it more than once and in any order; and the server does anything else
with its sessions in between.

UDP says nothing about who has sent a datagram, and a client does not look. So what an answer is
worth depends on the network, and what is assumed of it stands apart from the system (`Genuine`):

* what reaches a client was sent to it by the server;
* a datagram with the source address of a client was sent by this client, while all other addresses
  send what they like;
* no two clients ever have the same address: the kernel does not give the port of a client that has
  ended to a new one.

Results:

* **`matches_step`** — under these assumptions the system is a `Datagrams` server whose answers go
  through the queue of the socket;
* **`attach_exclusive`** — a client that was told `created` is paid for by a `CREATED` record of its
  IMSI, and of all the clients of one IMSI no more are told so than sessions of it have ended, and
  one.

## The architecture

* **`step`**, **`step_cases`** — every movement of a datagram and every call of the server, with
  its inversion.
* **`Genuine`** — the assumptions, as a condition on the single steps of a run.
* **`Shows`**, **`Matches`** — where a client and the server stand in the protocol of
  `Lib.Datagrams`, with one lemma for each kind of step.
* **`served_exec`** — one call of the server answers many datagrams, so that it is a run of the
  protocol, not a step.
* **`attachServer_serve`** — the account of one datagram: an answer `created` costs a record.
* **`toldCreated_le`** — the rule of the library, at this account.
-/

namespace Pgw

/-- The server with its queue, and at every address the last client that has had it. -/
structure AttachSystem where
  endpoint : UdpEndpoint
  clients : Address → Option Client

/-- What can happen next in the system. -/
inductive AttachAction where
  /-- A new client is started, and its socket gets this address. -/
  | clientStarts (a : Address) (imsi : Imsi)
  | clientSends (a : Address)
  /-- A datagram arrives in the queue of the server, from anywhere. -/
  | arrives (packet : UdpSocket.Packet)
  | processEvent
  | stop
  /-- The server does something else with its sessions. -/
  | call (c : SessionManager.SessionCall)
  /-- A datagram arrives at a client, from anywhere. -/
  | clientReceives (a : Address) (data : Bytes)
  /-- `poll` fails, times out, or reports something else than `POLLIN`. -/
  | clientGivesUp (a : Address) (poll : PollResult)

namespace AttachSystem

open UdpSocket UdpEndpoint SessionManager

/-- The client has sent its datagram and waits for the answer. -/
def waits (c : Client) : Bool :=
  !c.sent.isEmpty && c.socketOpen

/-- This program is now on this address. -/
def setClient (s : AttachSystem) (a : Address) (c : Client) : AttachSystem :=
  { s with clients := Function.update s.clients a (some c) }

/-- A client for which `may` holds goes on as `method` says. -/
def clientRuns (s : AttachSystem) (a : Address) (may : Client → Bool)
    (method : Client.Method Unit) :
    Option AttachSystem :=
  match s.clients a with
  | none => none
  | some c =>
    if may c then
      match method.run c with
      | .ok _ c' => some (s.setClient a c')
      | .error _ _ => none
    else none

/-- The server goes on as `method` says. -/
def serverRuns (s : AttachSystem) (method : UdpEndpoint.Method Unit) : Option AttachSystem :=
  match method.run s.endpoint with
  | .ok _ e => some { s with endpoint := e }
  | .error _ _ => none

/-- A call of the session manager from elsewhere. -/
def withManager (s : AttachSystem) (m : SessionManager) : AttachSystem :=
  { s with endpoint.server.sessionManager := m }

/-- The session manager of the server. -/
def manager (s : AttachSystem) : SessionManager :=
  s.endpoint.server.sessionManager

/-- One step: a client is started, sends, receives or gives up, a datagram arrives or is lost, or
the server does something. -/
def step (s : AttachSystem) : AttachAction → Option AttachSystem
  | .clientStarts a imsi =>
    -- the address is free again when the client that has had it has closed its socket
    if (s.clients a).any (·.socketOpen) then none
    else some (s.setClient a (.constructed imsi))
  | .clientSends a => s.clientRuns a (·.sent.isEmpty) (Client.send false)
  | .arrives packet => some { s with endpoint.queue := s.endpoint.queue ++ [packet] }
  | .processEvent => s.serverRuns UdpEndpoint.processEvent
  | .stop => some { s with endpoint.server.running := false }
  | .call c => (SessionManager.step s.manager c).map s.withManager
  | .clientReceives a data =>
    s.clientRuns a waits (Client.awaitResponse (.ready true) (some data))
  | .clientGivesUp a poll =>
    if poll ≠ .ready true then s.clientRuns a waits (Client.awaitResponse poll none) else none

/-- No client has been started, and the queue of the server is empty. -/
def start (m : SessionManager) (running : Bool) : AttachSystem where
  endpoint := ⟨⟨m, running, []⟩, []⟩
  clients := fun _ => none

/-! ## What is assumed of the network

UDP does not authenticate anybody. What the answers are worth depends on who can send from which
address, so this is said as a condition on the steps of a run. -/

/-- **Nobody pretends to be another**: `subscribers` says which client has which address, once for
the whole run. -/
def Genuine (subscribers : Address → Option Imsi) (s : AttachSystem) : AttachAction → Prop
  | .clientStarts a imsi => subscribers a = some imsi ∧ s.clients a = none
  | .arrives packet => subscribers packet.senderAddr = none ∨
      ∃ c ∈ s.clients packet.senderAddr, packet.data ∈ c.sent
  | .clientReceives a data => (data, a) ∈ s.endpoint.server.sent
  | _ => True

instance (subscribers : Address → Option Imsi) (s : AttachSystem) :
    ∀ a, Decidable (Genuine subscribers s a)
  | .clientStarts a imsi =>
    inferInstanceAs (Decidable (subscribers a = some imsi ∧ s.clients a = none))
  | .arrives packet =>
    inferInstanceAs (Decidable (subscribers packet.senderAddr = none ∨
      ∃ c ∈ s.clients packet.senderAddr, packet.data ∈ c.sent))
  | .clientReceives a data => inferInstanceAs (Decidable ((data, a) ∈ s.endpoint.server.sent))
  | .clientSends _ | .processEvent | .stop | .call _ | .clientGivesUp _ _ => isTrue trivial

/-! ## What a step can do

One constructor for each action, with what the action needs and the state after it. The proofs below
go by these cases and do not unfold `step`. -/

variable {subscribers : Address → Option Imsi} {s t u v : AttachSystem} {m m' : SessionManager}

/-- **The inversion of a step.** -/
inductive Step (s : AttachSystem) : AttachAction → AttachSystem → Prop where
  | clientStarts (a : Address) (imsi : Imsi) :
      Step s (.clientStarts a imsi) (s.setClient a (.constructed imsi))
  | clientSends (a : Address) (c : Client) (hclient : s.clients a = some c) (hnew : c.sent = []) :
      Step s (.clientSends a) (s.setClient a c.asked)
  | arrives (packet : Packet) :
      Step s (.arrives packet) { s with endpoint.queue := s.endpoint.queue ++ [packet] }
  | processEvent (e : UdpEndpoint) (hrun : UdpEndpoint.processEvent.run s.endpoint = .ok () e) :
      Step s .processEvent { s with endpoint := e }
  | stop : Step s .stop { s with endpoint.server.running := false }
  | call (c : SessionCall) (m : SessionManager) (hstep : SessionManager.step s.manager c = some m) :
      Step s (.call c) (s.withManager m)
  | clientReceives (a : Address) (data : Bytes) (c : Client) (hclient : s.clients a = some c)
      (hwaits : waits c = true) :
      Step s (.clientReceives a data) (s.setClient a (c.answered data))
  | clientGivesUp (a : Address) (poll : PollResult) (c : Client) (hclient : s.clients a = some c)
      (hwaits : waits c = true) :
      Step s (.clientGivesUp a poll) (s.setClient a c.closed)

/-- Who goes on, and where to. -/
theorem clientRuns_eq_some {a : Address} {may : Client → Bool} {method : Client.Method Unit}
    {after : Client → Client} (hmethod : ∀ c, method.run c = .ok () (after c)) :
    s.clientRuns a may method = some t ↔
      ∃ c, s.clients a = some c ∧ may c = true ∧ t = s.setClient a (after c) := by
  unfold clientRuns
  cases hclient : s.clients a with
  | none => simp
  | some c =>
    -- a client that may go on does, since none of its methods throws
    by_cases hmay : may c = true
    · dsimp only
      rw [if_pos hmay, hmethod]
      constructor
      · intro h
        exact ⟨c, rfl, hmay, (Option.some.inj h).symm⟩
      · rintro ⟨c', hc', -, rfl⟩
        cases hc'
        rfl
    · dsimp only
      rw [if_neg hmay]
      constructor
      · intro h
        cases h
      · rintro ⟨c', hc', hmay', -⟩
        cases hc'
        exact absurd hmay' hmay

/-- **The inversion of `step`.** -/
theorem step_cases {a : AttachAction} (h : step s a = some t) : Step s a t := by
  cases a with
  | clientStarts a imsi =>
    obtain ⟨-, h⟩ := Option.ite_none_left_eq_some.mp h
    cases h
    exact .clientStarts a imsi
  | clientSends a =>
    obtain ⟨c, hclient, hnew, rfl⟩ := (clientRuns_eq_some Client.send_run).mp h
    exact .clientSends a c hclient (List.isEmpty_iff.mp hnew)
  | arrives packet => cases h; exact .arrives packet
  | processEvent =>
    simp only [step, serverRuns] at h
    split at h
    · next e hrun => cases h; exact .processEvent e hrun
    · cases h
  | stop => cases h; exact .stop
  | call c =>
    obtain ⟨m, hm, rfl⟩ := Option.map_eq_some_iff.mp h
    exact .call c m hm
  | clientReceives a data =>
    obtain ⟨c, hclient, hwaits, rfl⟩ :=
      (clientRuns_eq_some fun c => Client.awaitResponse_run c data).mp h
    exact .clientReceives a data c hclient hwaits
  | clientGivesUp a poll =>
    obtain ⟨hpoll, h⟩ := Option.ite_none_right_eq_some.mp h
    obtain ⟨c, hclient, hwaits, rfl⟩ :=
      (clientRuns_eq_some fun c => Client.awaitResponse_run_none c hpoll none).mp h
    exact .clientGivesUp a poll c hclient hwaits

/-! ## The protocol

The library's protocol: each client asks once and takes an answer that was sent to its address. It
knows no queue and no sockets. -/

/-- The server as a server of datagrams: a datagram is answered when it is received. -/
def attachServer (subscribers : Address → Option Imsi) :
    Datagrams.Server SessionManager Address Bytes Bytes Time SessionCall where
  request := subscribers
  serve := fun m a data now =>
    (served m ⟨data, a, now⟩, truth ⟨data, a, now⟩ m (served m ⟨data, a, now⟩))
  own := SessionManager.step

/-- What the client of an address shows of its place in the protocol. A client that has not been
started yet is `idle`. -/
inductive Shows (imsi : Imsi) : Option Client → Datagrams.Place Bytes → Prop where
  | absent : Shows imsi none .idle
  | idle : Shows imsi (some ⟨imsi, [], [], true⟩) .idle
  | waiting : Shows imsi (some ⟨imsi, [], [imsi], true⟩) .waiting
  | answered (data : Bytes) : Shows imsi (some ⟨imsi, data, [imsi], false⟩) (.answered data)
  | gaveUp : Shows imsi (some ⟨imsi, [], [imsi], false⟩) .gaveUp

/-- The texts of the two answers. -/
def IsAnswer (data : Bytes) : Prop :=
  data = ascii "created" ∨ data = ascii "rejected"

/-- The system and the protocol in the same state. A datagram in the queue is still in the
network. -/
structure Matches (subscribers : Address → Option Imsi) (s : AttachSystem)
    (p : Datagrams.State SessionManager Address Bytes) : Prop where
  server : p.server = s.manager
  ledgered : s.manager.Ledgered
  sent : p.sent = s.endpoint.server.sent.map Prod.swap
  answers : ∀ e ∈ s.endpoint.server.sent, IsAnswer e.1
  queue : ∀ packet ∈ s.endpoint.queue,
    Datagrams.CanArrive (attachServer subscribers) p packet.senderAddr packet.data
  clients : ∀ a imsi, subscribers a = some imsi → Shows imsi (s.clients a) (p.clients a)
  others : ∀ a, subscribers a = none → s.clients a = none

variable {p q : Datagrams.State SessionManager Address Bytes}

/-- The truth is one of the answers. -/
theorem truth_isAnswer (packet : Packet) (before after : SessionManager) :
    IsAnswer (truth packet before after) := by
  unfold truth
  split
  · exact .inl rfl
  · exact .inr rfl

/-- The answers are shorter than the buffer of the client. -/
theorem IsAnswer.take {data : Bytes} (h : IsAnswer data) : data.take MAX_BYTES_RECIEVE = data := by
  rcases h with rfl | rfl
  · rfl
  · rfl

/-- A datagram keeps a manager that keeps a ledger, and takes no record away. -/
theorem served_ledgered (h : m.Ledgered) (packet : Packet) :
    (served m packet).Ledgered ∧
      m.cdrWriter.entries <+: (served m packet).cdrWriter.entries := by
  unfold served
  split
  · obtain ⟨result, m', hrun, -, -⟩ := createSession_truth h.reliable packet.data packet.now
    have hstep : SessionManager.step m (.createSession packet.data packet.now) = some m' := by
      simp [SessionManager.step, perform, hrun]
    rw [hrun]
    exact records_le_step h hstep
  · exact ⟨h, List.prefix_refl _⟩

/-! ## A client and its place

How the members of a `Client` show where it is in the protocol. -/

/-- A client asks for the IMSI of its address. -/
theorem Shows.imsi_eq {imsi : Imsi} {c : Client} {place : Datagrams.Place Bytes}
    (h : Shows imsi (some c) place) : c.imsi = imsi := by
  cases h with
  | idle => rfl
  | waiting => rfl
  | answered data => rfl
  | gaveUp => rfl

/-- Who has been started sends the IMSI and nothing else, and has asked from then on. -/
theorem Shows.of_sent {imsi : Imsi} {c : Client} {place : Datagrams.Place Bytes}
    (h : Shows imsi (some c) place) {data : Bytes} (hsent : data ∈ c.sent) :
    data = imsi ∧ place ≠ .idle := by
  cases h with
  | idle => cases hsent
  | waiting => exact ⟨List.mem_singleton.mp hsent, by simp⟩
  | answered response => exact ⟨List.mem_singleton.mp hsent, by simp⟩
  | gaveUp => exact ⟨List.mem_singleton.mp hsent, by simp⟩

/-- Who is in the place of a client that waits. -/
theorem Shows.of_waits {imsi : Imsi} {c : Client} {place : Datagrams.Place Bytes}
    (h : Shows imsi (some c) place) (hwaits : waits c = true) :
    place = .waiting ∧ c = ⟨imsi, [], [imsi], true⟩ := by
  cases h with
  | waiting => exact ⟨rfl, rfl⟩
  | idle => cases hwaits
  | answered data => cases hwaits
  | gaveUp => cases hwaits

/-- Who has not sent anything has not asked. -/
theorem Shows.of_unsent {imsi : Imsi} {c : Client} {place : Datagrams.Place Bytes}
    (h : Shows imsi (some c) place) (hnew : c.sent = []) :
    place = .idle ∧ c = ⟨imsi, [], [], true⟩ := by
  cases h with
  | idle => exact ⟨rfl, rfl⟩
  | waiting => cases hnew
  | answered data => cases hnew
  | gaveUp => cases hnew

/-- Without a program the address is idle. -/
theorem Shows.of_none {imsi : Imsi} {place : Datagrams.Place Bytes} (h : Shows imsi none place) :
    place = .idle := by
  cases h with
  | absent => rfl

/-- Who shows a text was given it. -/
theorem Shows.of_response {imsi : Imsi} {c : Client} {place : Datagrams.Place Bytes}
    (h : Shows imsi (some c) place) (hresponse : c.response ≠ []) :
    place = .answered c.response := by
  cases h with
  | answered data => rfl
  | idle => exact absurd rfl hresponse
  | waiting => exact absurd rfl hresponse
  | gaveUp => exact absurd rfl hresponse

/-- A client has an address of a subscriber. -/
theorem Matches.subscriber (h : Matches subscribers s p) {a : Address} {c : Client}
    (hclient : s.clients a = some c) :
    ∃ imsi, subscribers a = some imsi ∧ Shows imsi (some c) (p.clients a) := by
  cases himsi : subscribers a with
  | none =>
    have hnone := h.others a himsi
    rw [hclient] at hnone
    cases hnone
  | some imsi =>
    have hshows := h.clients a imsi himsi
    rw [hclient] at hshows
    exact ⟨imsi, rfl, hshows⟩

/-! ## Every step of the system is a run of the protocol

One lemma for each kind of step that does something in the protocol, and of the others the two that
say why they do nothing there. -/

/-- At first there is nobody, and nothing has been told. -/
theorem matches_start (hm : m.Ledgered) (running : Bool) :
    Matches subscribers (start m running) (Datagrams.start m) where
  server := rfl
  ledgered := hm
  sent := rfl
  answers := fun _ h => by cases h
  queue := fun _ h => by cases h
  clients := fun _ _ _ => .absent
  others := fun _ _ => rfl

/-- A client moves on, and so does its place in the protocol. Who has asked has asked. -/
theorem Matches.client (h : Matches subscribers s p) {a : Address} {imsi : Imsi}
    (himsi : subscribers a = some imsi) {c : Client} {place : Datagrams.Place Bytes}
    (hplace : p.clients a ≠ .idle → place ≠ .idle) (hshows : Shows imsi (some c) place) :
    Matches subscribers (s.setClient a c)
      { p with clients := Function.update p.clients a place } where
  server := h.server
  ledgered := h.ledgered
  sent := h.sent
  answers := h.answers
  queue := fun packet hpacket => by
    -- who has asked before still has: the client at `a` does not go back to `idle`
    rcases h.queue packet hpacket with ⟨hrequest, hasked⟩ | hnone
    · refine .inl ⟨hrequest, ?_⟩
      show Function.update p.clients a place packet.senderAddr ≠ .idle
      by_cases ha : packet.senderAddr = a
      · rw [ha, Function.update_self]
        exact hplace (ha ▸ hasked)
      · rw [Function.update_of_ne ha]
        exact hasked
    · exact .inr hnone
  clients := fun b imsi' himsi' => by
    -- only the place of `a` is new
    show Shows imsi' (Function.update s.clients a (some c) b) (Function.update p.clients a place b)
    by_cases hb : b = a
    · rw [hb, Function.update_self, Function.update_self]
      obtain rfl : imsi' = imsi := Option.some.inj ((hb ▸ himsi').symm.trans himsi)
      exact hshows
    · rw [Function.update_of_ne hb, Function.update_of_ne hb]
      exact h.clients b imsi' himsi'
  others := fun b hb => by
    -- `a` has a subscriber, so it is none of the others
    have hne : b ≠ a := by
      rintro rfl
      rw [himsi] at hb
      cases hb
    show Function.update s.clients a (some c) b = none
    rw [Function.update_of_ne hne]
    exact h.others b hb

/-- A client that is started has not asked. -/
theorem Matches.clientStarts (h : Matches subscribers s p) {a : Address} {imsi : Imsi}
    (himsi : subscribers a = some imsi) (hfree : s.clients a = none) :
    Matches subscribers (s.setClient a (.constructed imsi)) p := by
  have hshows := h.clients a imsi himsi
  rw [hfree] at hshows
  have hidle : p.clients a = .idle := hshows.of_none
  have hshown : Shows imsi (some (.constructed imsi)) .idle := .idle
  have hmoved := h.client himsi (fun hasked => absurd hidle hasked) hshown
  rw [← hidle, Function.update_eq_self] at hmoved
  exact hmoved

/-- A client sends its request once, and from then on it waits. -/
theorem Matches.clientSends (h : Matches subscribers s p) {a : Address} {c : Client}
    (hclient : s.clients a = some c) (hnew : c.sent = []) :
    ∃ es q, Run.exec (Datagrams.step (attachServer subscribers)) p es = some q ∧
      Matches subscribers (s.setClient a c.asked) q := by
  obtain ⟨imsi, himsi, hshows⟩ := h.subscriber hclient
  obtain ⟨hidle, rfl⟩ := hshows.of_unsent hnew
  have hask : Datagrams.step (attachServer subscribers) p (.ask a)
      = some { p with clients := Function.update p.clients a .waiting } := by
    have hguard : ((attachServer subscribers).request a).isSome ∧ p.clients a = .idle :=
      ⟨by show (subscribers a).isSome = true; rw [himsi]; rfl, hidle⟩
    rw [Datagrams.step, if_pos hguard]
  exact ⟨_, _, Run.exec_singleton hask, h.client himsi (by simp) .waiting⟩

/-- Nothing is received that was not sent, and nobody else sends from the address of a client. -/
theorem Matches.arrives (h : Matches subscribers s p) {packet : Packet}
    (hgenuine : Genuine subscribers s (.arrives packet)) :
    Matches subscribers { s with endpoint.queue := s.endpoint.queue ++ [packet] } p := by
  refine { h with queue := fun packet' hpacket' => ?_ }
  rcases List.mem_append.mp hpacket' with hold | hnew
  · exact h.queue packet' hold
  · cases List.mem_singleton.mp hnew
    rcases hgenuine with hnobody | ⟨c, hclient, hsent⟩
    · exact .inr hnobody
    · obtain ⟨imsi, himsi, hshows⟩ := h.subscriber hclient
      obtain ⟨hdata, hasked⟩ := hshows.of_sent hsent
      exact .inl ⟨by rw [hdata]; exact himsi, hasked⟩

/-- It takes an answer that the server has sent to its address, and is done. -/
theorem Matches.clientReceives (h : Matches subscribers s p) {a : Address} {c : Client}
    {data : Bytes} (hclient : s.clients a = some c) (hwaits : waits c = true)
    (hsent : (data, a) ∈ s.endpoint.server.sent) :
    ∃ es q, Run.exec (Datagrams.step (attachServer subscribers)) p es = some q ∧
      Matches subscribers (s.setClient a (c.answered data)) q := by
  obtain ⟨imsi, himsi, hshows⟩ := h.subscriber hclient
  obtain ⟨hwaiting, rfl⟩ := hshows.of_waits hwaits
  have hin : (a, data) ∈ p.sent := by
    rw [h.sent]
    exact List.mem_map.mpr ⟨(data, a), hsent, rfl⟩
  have hreceive : Datagrams.step (attachServer subscribers) p (.receive a data)
      = some { p with clients := Function.update p.clients a (.answered data) } := by
    rw [Datagrams.step, if_pos ⟨hwaiting, hin⟩]
  refine ⟨_, _, Run.exec_singleton hreceive, h.client himsi (by simp) ?_⟩
  rw [Client.answered, (h.answers _ hsent).take]
  exact .answered data

/-- It closes its socket without an answer. -/
theorem Matches.clientGivesUp (h : Matches subscribers s p) {a : Address} {c : Client}
    (hclient : s.clients a = some c) (hwaits : waits c = true) :
    ∃ es q, Run.exec (Datagrams.step (attachServer subscribers)) p es = some q ∧
      Matches subscribers (s.setClient a c.closed) q := by
  obtain ⟨imsi, himsi, hshows⟩ := h.subscriber hclient
  obtain ⟨hwaiting, rfl⟩ := hshows.of_waits hwaits
  have hgiveUp : Datagrams.step (attachServer subscribers) p (.giveUp a)
      = some { p with clients := Function.update p.clients a .gaveUp } := by
    rw [Datagrams.step, if_pos hwaiting]
  exact ⟨_, _, Run.exec_singleton hgiveUp, h.client himsi (by simp) .gaveUp⟩

/-- The server changes its sessions by other calls: its answers may then be different, those that it
has sent stay. -/
theorem Matches.call (h : Matches subscribers s p) {c : SessionCall} {m' : SessionManager}
    (hcall : SessionManager.step s.manager c = some m') :
    ∃ es q, Run.exec (Datagrams.step (attachServer subscribers)) p es = some q ∧
      Matches subscribers (s.withManager m') q := by
  have hown : Datagrams.step (attachServer subscribers) p (.own c)
      = some { p with server := m' } := by
    have hserver : (attachServer subscribers).own p.server c = some m' := by
      rw [h.server]
      exact hcall
    rw [Datagrams.step, hserver, Option.map_some]
  exact ⟨_, _, Run.exec_singleton hown,
    { h with server := rfl, ledgered := (records_le_step h.ledgered hcall).1 }⟩

/-- **The datagrams of the queue are served one after the other.** Induction on the queue. -/
theorem served_exec (queue : List Packet) : ∀ {s : UdpServer}
    {p : Datagrams.State SessionManager Address Bytes}, s.sessionManager.Ledgered →
    p.server = s.sessionManager → p.sent = s.sent.map Prod.swap →
    (∀ e ∈ s.sent, IsAnswer e.1) →
    (∀ packet ∈ queue,
      Datagrams.CanArrive (attachServer subscribers) p packet.senderAddr packet.data) →
    ∃ es q, Run.exec (Datagrams.step (attachServer subscribers)) p es = some q ∧
      q.clients = p.clients ∧ q.server = (queue.foldl UdpEndpoint.answered s).sessionManager ∧
      (queue.foldl UdpEndpoint.answered s).sessionManager.Ledgered ∧
      q.sent = (queue.foldl UdpEndpoint.answered s).sent.map Prod.swap ∧
      ∀ e ∈ (queue.foldl UdpEndpoint.answered s).sent, IsAnswer e.1 := by
  induction queue with
  | nil =>
    exact fun {s p} hm hserver hsent hanswers _ =>
      ⟨[], p, rfl, rfl, hserver, hm, hsent, hanswers⟩
  | cons packet queue ih =>
    intro s p hm hserver hsent hanswers hqueue
    -- the datagram at the front is one that the network lets in, so the server serves it
    have harrive := hqueue packet List.mem_cons_self
    have hserve : Datagrams.step (attachServer subscribers) p
        (.serve packet.senderAddr packet.data packet.now) = some { p with
          server := served s.sessionManager packet
          sent := p.sent ++ [(packet.senderAddr,
            truth packet s.sessionManager (served s.sessionManager packet))] } := by
      rw [Datagrams.step, if_pos harrive, hserver]
      rfl
    have hm' := (served_ledgered hm packet).1
    -- the answers so far and the new one: all of them tell what happened to the table
    have hanswers' : ∀ e ∈ (UdpEndpoint.answered s packet).sent, IsAnswer e.1 := by
      intro e he
      rcases List.mem_append.mp he with he | he
      · exact hanswers e he
      · rw [List.mem_singleton.mp he]
        exact truth_isAnswer _ _ _
    -- the rest of the queue is served from the state after it
    obtain ⟨es, q, hes, hclients, hrest⟩ := ih (s := UdpEndpoint.answered s packet) (p := { p with
        server := served s.sessionManager packet
        sent := p.sent ++ [(packet.senderAddr,
          truth packet s.sessionManager (served s.sessionManager packet))] })
      hm' rfl (by rw [hsent]; simp [UdpEndpoint.answered]) hanswers'
      (fun packet' hpacket' => hqueue packet' (List.mem_cons_of_mem _ hpacket'))
    exact ⟨_ :: es, q, Run.exec_cons_eq_some.mpr ⟨_, hserve, hes⟩, hclients, hrest⟩

/-- `processEvent` of the UDP server answers the requests of its queue one by one. -/
theorem Matches.processEvent (h : Matches subscribers s p) {e : UdpEndpoint}
    (hrun : UdpEndpoint.processEvent.run s.endpoint = .ok () e) :
    ∃ es q, Run.exec (Datagrams.step (attachServer subscribers)) p es = some q ∧
      Matches subscribers { s with endpoint := e } q := by
  by_cases hrunning : s.endpoint.server.running = true
  · rw [UdpEndpoint.processEvent_run h.ledgered.reliable hrunning] at hrun
    cases hrun
    obtain ⟨es, q, hes, hclients, hserver, hm, hsent, hanswers⟩ :=
      served_exec (s.endpoint.queue.takeWhile (·.data ≠ [])) (s := s.endpoint.server) (p := p)
        h.ledgered h.server h.sent h.answers
        (fun packet hpacket => h.queue packet ((List.takeWhile_prefix _).subset hpacket))
    refine ⟨es, q, hes, hserver, hm, hsent, hanswers, fun packet hpacket => ?_, ?_, h.others⟩
    · -- what is left of the queue can still arrive: the clients have not moved
      have hin : packet ∈ s.endpoint.queue :=
        (List.dropWhile_suffix _).subset (List.mem_of_mem_tail hpacket)
      show Datagrams.CanArrive _ q _ _
      unfold Datagrams.CanArrive
      rw [hclients]
      exact h.queue packet hin
    · rw [hclients]
      exact h.clients
  · rw [UdpEndpoint.processEvent_run_stopped (by simpa using hrunning)] at hrun
    cases hrun
    exact ⟨[], p, rfl, h⟩

/-- **Every genuine step of the system is a run of the protocol.** -/
theorem matches_step (h : Matches subscribers s p) {a : AttachAction}
    (hgenuine : Genuine subscribers s a) (hstep : step s a = some t) :
    ∃ es q, Run.exec (Datagrams.step (attachServer subscribers)) p es = some q ∧
      Matches subscribers t q := by
  cases step_cases hstep with
  | clientStarts a imsi => exact ⟨[], p, rfl, h.clientStarts hgenuine.1 hgenuine.2⟩
  | clientSends a c hclient hnew => exact h.clientSends hclient hnew
  | arrives packet => exact ⟨[], p, rfl, h.arrives hgenuine⟩
  | processEvent e hrun => exact h.processEvent hrun
  | stop => exact ⟨[], p, rfl, { h with }⟩
  | call c m hcall => exact h.call hcall
  | clientReceives a data c hclient hwaits => exact h.clientReceives hclient hwaits hgenuine
  | clientGivesUp a poll c hclient hwaits => exact h.clientGivesUp hclient hwaits

/-- So a genuine run is one of the library's system. -/
theorem matches_exec (h : Matches subscribers s p) {as : List AttachAction}
    (hgenuine : Run.Along step (Genuine subscribers) s as)
    (hrun : Run.exec step s as = some t) :
    ∃ es q, Run.exec (Datagrams.step (attachServer subscribers)) p es = some q ∧
      Matches subscribers t q :=
  Run.exec_simulation_along (fun _ _ _ _ h hg hstep => matches_step h hg hstep) h hgenuine hrun

/-! ## What an answer is worth

The library counts answers. Here each `created` is a record in the log of the manager. -/

/-- A datagram that is answered with `created` adds a `CREATED` record of its IMSI. -/
theorem served_records (h : m.Ledgered) (packet : Packet) (imsi : Imsi) :
    m.recordsOf imsi ICdrWriter.SESSION_CREATED
        + (if packet.data = imsi ∧ truth packet m (served m packet) = ascii "created"
            then 1 else 0)
      ≤ (served m packet).recordsOf imsi ICdrWriter.SESSION_CREATED := by
  obtain ⟨hm', hentries⟩ := served_ledgered h packet
  by_cases hcreated : packet.data = imsi ∧ truth packet m (served m packet) = ascii "created"
  · rw [if_pos hcreated]
    obtain ⟨rfl, htruth⟩ := hcreated
    have hnew : packet.data ∉ m.sessions ∧ packet.data ∈ (served m packet).sessions := by
      by_contra hsame
      rw [truth, if_neg hsame] at htruth
      exact absurd htruth (by decide)
    -- the records of the IMSI balance before and after
    have hbefore := records_balance h packet.data
    have hafter := records_balance hm' packet.data
    have hno : ¬ m.hasSession packet.data = true := by simpa [hasSession] using hnew.1
    have hyes : (served m packet).hasSession packet.data = true := by
      simpa [hasSession] using hnew.2
    have hdeleted : m.recordsOf packet.data ICdrWriter.SESSION_DELETED
        ≤ (served m packet).recordsOf packet.data ICdrWriter.SESSION_DELETED :=
      hentries.sublist.count_le _
    rw [if_neg hno] at hbefore
    rw [if_pos hyes] at hafter
    omega
  · rw [if_neg hcreated]
    exact hentries.sublist.count_le _

/-- The client at `a` asks for `imsi`, had not sent its datagram in `u` and shows `created` in
`v`. -/
def ToldCreated (imsi : Imsi) (u v : AttachSystem) (a : Address) : Prop :=
  (∃ c, v.clients a = some c ∧ c.imsi = imsi ∧ c.response = ascii "created") ∧
    ∀ c, u.clients a = some c → c.sent = []

/-- A client that has been told `"created"` since was idle before, and has this answer now. -/
theorem place_of_toldCreated {imsi : Imsi} {a : Address} (hu : Matches subscribers u p)
    (hv : Matches subscribers v q) (h : ToldCreated imsi u v a) :
    subscribers a = some imsi ∧ p.clients a = .idle ∧
      q.clients a = .answered (ascii "created") := by
  obtain ⟨⟨c, hclient, hc, htold⟩, hnew⟩ := h
  obtain ⟨imsi', himsi, hshows⟩ := hv.subscriber hclient
  obtain rfl : imsi' = imsi := hshows.imsi_eq.symm.trans hc
  have hsome : c.response ≠ [] := by
    rw [htold]
    decide
  have hafter := hshows.of_response hsome
  rw [htold] at hafter
  refine ⟨himsi, ?_, hafter⟩
  cases hbefore : u.clients a with
  | none =>
    have hidle := hu.clients a imsi' himsi
    rw [hbefore] at hidle
    exact hidle.of_none
  | some c' =>
    have hidle := hu.clients a imsi' himsi
    rw [hbefore] at hidle
    exact (hidle.of_unsent (hnew c' hbefore)).1

/-- The client at `a` asks for `imsi`. -/
def asksFor (subscribers : Address → Option Imsi) (imsi : Imsi) (a : Address) : Bool :=
  subscribers a = some imsi

/-- **An answer `created` costs the server a record.** A client of `imsi` sends nothing but
`imsi`. -/
theorem attachServer_serve {x : SessionManager} (hx : x.Ledgered) (imsi : Imsi) (a : Address)
    (data : Bytes) (now : Time)
    (hasked : (attachServer subscribers).request a = some data ∨
      (attachServer subscribers).request a = none) :
    ((attachServer subscribers).serve x a data now).1.Ledgered ∧
      x.recordsOf imsi ICdrWriter.SESSION_CREATED
        + (if asksFor subscribers imsi a
            && decide (((attachServer subscribers).serve x a data now).2 = ascii "created")
            then 1 else 0)
        ≤ ((attachServer subscribers).serve x a data now).1.recordsOf imsi
            ICdrWriter.SESSION_CREATED := by
  have hrecords := served_records hx ⟨data, a, now⟩ imsi
  refine ⟨(served_ledgered hx _).1, Nat.le_trans (Nat.add_le_add_left ?_ _) hrecords⟩
  -- the answer counts, so the datagram came from a client of `imsi` with this payload
  split
  · next hcount =>
    obtain ⟨hclient, htruth⟩ := Bool.and_eq_true_iff.mp hcount
    have himsi : subscribers a = some imsi := of_decide_eq_true hclient
    have hdata : data = imsi := by
      rcases hasked with hasked | hnone
      · exact Option.some.inj (hasked.symm.trans himsi)
      · exact absurd (hnone.symm.trans himsi) (by simp)
    have hboth : data = imsi ∧ truth ⟨data, a, now⟩ x (served x ⟨data, a, now⟩)
        = ascii "created" := ⟨hdata, of_decide_eq_true htruth⟩
    rw [if_pos hboth]
  · exact Nat.zero_le _

/-- Between two states of a run, the clients of `imsi` that asked and were told `created` are at
most as many as the `CREATED` records of `imsi` written in between. -/
theorem toldCreated_le {running : Bool} (hm : m.Ledgered) {pre post : List AttachAction}
    (hgenuine : Run.Along step (Genuine subscribers) (start m running) pre)
    (hgenuine' : Run.Along step (Genuine subscribers) u post)
    (hpre : Run.exec step (start m running) pre = some u)
    (hpost : Run.exec step u post = some v) {imsi : Imsi} {S : Finset Address}
    (hS : ∀ a ∈ S, ToldCreated imsi u v a) :
    u.manager.Ledgered ∧ v.manager.Ledgered ∧
      S.card + u.manager.recordsOf imsi ICdrWriter.SESSION_CREATED
        ≤ v.manager.recordsOf imsi ICdrWriter.SESSION_CREATED := by
  -- both runs, before and after `u`, are runs of the protocol
  obtain ⟨es, p, hes, hu⟩ := matches_exec (matches_start hm running) hgenuine hpre
  obtain ⟨es', q, hes', hv⟩ := matches_exec hu hgenuine' hpost
  refine ⟨hu.ledgered, hv.ledgered, ?_⟩
  rw [← hu.server, ← hv.server]
  -- the server's own calls never take a `CREATED` record away
  have hown : ∀ (x : SessionManager) (c : SessionCall) (y : SessionManager), x.Ledgered →
      (attachServer subscribers).own x c = some y → y.Ledgered ∧
        x.recordsOf imsi ICdrWriter.SESSION_CREATED
          ≤ y.recordsOf imsi ICdrWriter.SESSION_CREATED := by
    intro x c y hx hstep
    obtain ⟨hy, hentries⟩ := records_le_step hx hstep
    exact ⟨hy, hentries.sublist.count_le _⟩
  -- the counting is the library's, with the number of these records as its quantity
  have hinv : p.server.Ledgered := hu.server ▸ hu.ledgered
  refine Datagrams.answered_le (fun x a data now hx => attachServer_serve hx imsi a data now) hown
    hinv (Datagrams.sound_exec hes) hes' fun a ha => ?_
  obtain ⟨himsi, hidle, hanswered⟩ := place_of_toldCreated hu hv (hS a ha)
  have hclient : ((attachServer subscribers).request a).isSome = true := by
    show (subscribers a).isSome = true
    rw [himsi]
    rfl
  exact ⟨decide_eq_true himsi, hclient, hidle, hanswered⟩

/-- **An attach is paid for, and it is exclusive.** In a run in which nobody pretends to be another,
and between any two states of it: of the clients of one IMSI that asked in between, those that were
told `created` are at most as many as the `CREATED` records of the IMSI written in between; and at
most as many as its sessions that ended in between, and one if the IMSI has a session now, less one
if it had one before. -/
theorem attach_exclusive {running : Bool} (hm : m.Ledgered) {pre post : List AttachAction}
    (hgenuine : Run.Along step (Genuine subscribers) (start m running) pre)
    (hgenuine' : Run.Along step (Genuine subscribers) u post)
    (hpre : Run.exec step (start m running) pre = some u)
    (hpost : Run.exec step u post = some v) {imsi : Imsi} {S : Finset Address}
    (hS : ∀ a ∈ S, ToldCreated imsi u v a) :
    S.card + u.manager.recordsOf imsi ICdrWriter.SESSION_CREATED
        ≤ v.manager.recordsOf imsi ICdrWriter.SESSION_CREATED ∧
      S.card + u.manager.recordsOf imsi ICdrWriter.SESSION_DELETED
          + (if u.manager.hasSession imsi = true then 1 else 0)
        ≤ v.manager.recordsOf imsi ICdrWriter.SESSION_DELETED
          + (if v.manager.hasSession imsi = true then 1 else 0) := by
  obtain ⟨hu, hv, hpaid⟩ := toldCreated_le hm hgenuine hgenuine' hpre hpost hS
  have hbefore := records_balance hu imsi
  have hafter := records_balance hv imsi
  exact ⟨hpaid, by omega⟩

/-- Two clients with the same IMSI. -/
def twoClients : Address → Option Imsi :=
  fun a => if a = 1 ∨ a = 2 then some UdpEndpoint.subscriber else none

/-- Both are started and send. The datagram of the first arrives twice, somebody else sends rubbish,
and only the first answer reaches the first client. -/
def attachRun : List AttachAction :=
  [.clientStarts 1 UdpEndpoint.subscriber, .clientStarts 2 UdpEndpoint.subscriber,
    .clientSends 1, .clientSends 2, .arrives ⟨UdpEndpoint.subscriber, 1, 0⟩,
    .arrives ⟨UdpEndpoint.subscriber, 1, 0⟩, .arrives ⟨UdpEndpoint.subscriber, 2, 0⟩,
    .arrives ⟨ascii "x", 7, 0⟩, .processEvent, .clientReceives 1 (ascii "created"),
    .clientReceives 2 (ascii "rejected")]

/-- The server of the run has no sessions at first. -/
def attachStart : AttachSystem :=
  start (.constructed freshWriter ∅ 60 10 0) true

/-- The run of the witness is genuine. -/
theorem genuine_attachRun : Run.Along step (Genuine twoClients) attachStart attachRun := by
  decide +kernel

/-- The subscriber is told that its session has been created. -/
theorem response_attachRun :
    (Run.exec step attachStart attachRun).bind (fun v => (v.clients 1).map fun c =>
      (c.imsi, c.response)) = some (UdpEndpoint.subscriber, ascii "created") := by
  decide +kernel

/-- One client is told so, and there is one record. -/
theorem attach_exclusive_attachRun : ∃ v c,
    Run.exec step attachStart attachRun = some v ∧ v.clients 1 = some c ∧
      c.response = ascii "created" ∧
      1 ≤ v.manager.recordsOf UdpEndpoint.subscriber ICdrWriter.SESSION_CREATED := by
  have hm : (SessionManager.constructed freshWriter ∅ 60 10 0).Ledgered :=
    ledgered_constructed (fun _ => rfl) rfl ∅ 60 (by decide) 0
  obtain ⟨v, hrun, hresponse⟩ := Option.bind_eq_some_iff.mp response_attachRun
  obtain ⟨c, hclient, hc⟩ := Option.map_eq_some_iff.mp hresponse
  obtain ⟨himsi, htold⟩ := Prod.mk.inj hc
  have hnone : Run.Along step (Genuine twoClients) attachStart [] := trivial
  have hpaid := (attach_exclusive hm hnone genuine_attachRun (Run.exec_nil _) hrun (S := {1})
    fun a ha => by
      rw [Finset.mem_singleton.mp ha]
      exact ⟨⟨c, hclient, himsi, htold⟩, fun c' hc' => by cases hc'⟩).1
  exact ⟨v, c, hrun, hclient, htold, Nat.le_trans (Nat.le_add_right 1 _) hpaid⟩

/-- A forged answer is worth nothing: it is shown, and there is no record. -/
example : ((Run.exec step attachStart [.clientStarts 1 UdpEndpoint.subscriber, .clientSends 1,
    .clientReceives 1 (ascii "created")]).map fun v =>
      ((v.clients 1).map (·.response),
        v.manager.recordsOf UdpEndpoint.subscriber ICdrWriter.SESSION_CREATED))
      = some (some (ascii "created"), 0) := by
  decide +kernel

end AttachSystem
end Pgw
