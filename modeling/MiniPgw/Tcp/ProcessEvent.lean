import MiniPgw.Tcp.Listener
import MiniPgw.Tcp.Reassembly

/-!
# TcpServer::processEvent — one pass over all clients

`processEvent` accepts a client and then calls `handleClientData` for every element of `m_clients`,
in a range-based `for` over the map itself. `handleClientData` erases the element of a client whose
connection ends. The loop then advances an iterator to an erased element, which is undefined
behaviour, also at the last element.

`servesEveryClient_iff` says when a call serves all clients: no connection ends in it.

## The architecture

* **`serveClients`** — the `for` over the map with its iterator: the descriptors still to come.
* **`handleEach`** — the loop as it is meant, over a list that nothing erases from.
* **`servesEveryClient_iff`** — they agree as long as no client is removed, by induction on the
  clients still to come.
-/

namespace Pgw

open Protocol Effects

namespace TcpServer

variable {η : Type}

/-- What a call of `processEvent` meets: the outcome of `accept`, and for each client what `receive`
and the calls of `send` do. -/
structure EventOutcomes where
  accept : AcceptOutcome
  received : Nat → ReceiveOutcome
  sends : Nat → Nat → SendOutcome

section
variable (handle : Message → EStateM Fault η Message) (o : EventOutcomes)

/-- `for (const auto& [fd, _ ] : m_clients)`, from the element with the first of these descriptors
on. Erasing an element leaves the rest of the iteration as it is. -/
def serveClients : List Nat → Method η Unit
  | [] => pure ()
  | fd :: fds => do
    let _ ← handleClientData handle fd (o.received fd) (o.sends fd)
    let s ← get
    -- `++it`
    if fd ∈ s.clients then serveClients fds
    else throw .undefined

/-- `TcpServer::processEvent`: one new client, then one read of every client that the map has. -/
def processEvent : Method η Unit := do
  let s ← get
  if !s.running then pure ()
  else
    catching
      (do
        let _ ← acceptNewClient o.accept
        let s ← get
        serveClients handle o s.clients.keys)
      (pure ())

/-! ## What the call should do

The specification: each client that was connected at the start is handled once, and none is left out
because another one has ended. -/

/-- `handleClientData` for these clients, one after the other. -/
def handleEach : List Nat → Method η Unit
  | [] => pure ()
  | fd :: fds => do
    let _ ← handleClientData handle fd (o.received fd) (o.sends fd)
    handleEach fds

/-- The connection of the client ends: `receive` fails or finds it closed, or a message cannot be
answered. -/
def ends (s : TcpServer η) (fd : Nat) : Bool :=
  match o.received fd with
  | .throws => true
  | .packet [] peekIsZero => peekIsZero
  | .packet (byte :: bytes) _ =>
    match s.clients.lookup fd with
    | none => false
    | some client =>
      (conversation handle (o.sends fd) 0 s.handler
        (TcpSerializer.framing.parse (client.readBuffer ++ byte :: bytes)).1).broken.isSome

/-- The clients whose connections end when they are handled one after the other. -/
def endedFds : List Nat → TcpServer η → List Nat
  | [], _ => []
  | fd :: fds, s =>
    let ended := endedFds fds
      (finalState ((handleClientData handle fd (o.received fd) (o.sends fd)).run s))
    if ends handle o s fd then fd :: ended else ended

/-- The call invokes `handleClientData` once for each client that is connected at its start, and
returns; of these clients exactly those are gone whose connections have ended. -/
def ServesEveryClient (s : TcpServer η) : Prop :=
  ∃ s', (processEvent handle o).run s = .ok () s' ∧
    (handleEach handle o s.clients.keys).run s = .ok () s' ∧
    ∀ fd, fd ∈ s'.clients ↔ fd ∈ s.clients ∧ fd ∉ endedFds handle o s.clients.keys s

end

variable {handle : Message → EStateM Fault η Message} {o : EventOutcomes} {s : TcpServer η}

/-! ## One client

Whether a client survives its turn is a matter of what it has received, and of no other client. -/

/-- Undefined behaviour of the handler aside, a conversation breaks off with an exception. -/
theorem broken_exception (hhandle : Defined handle) {sends : Nat → SendOutcome} {i : Nat} {h h' : η}
    {requests : List Message} {exchanges : List Exchange} {e : Fault} {breakage : Breakage}
    (hconversation : conversation handle sends i h requests = ⟨exchanges, h', some (e, breakage)⟩) :
    e = .exception := by
  cases e with
  | exception => rfl
  | undefined =>
    have hdefined := conversation_defined hhandle sends requests i h breakage
    rw [hconversation] at hdefined
    exact absurd rfl hdefined

/-- **One client**: the call returns, the other clients stay, and this one does unless its
connection ends. -/
theorem handleClientData_run_client (hhandle : Defined handle) {fd : Nat} (hin : fd ∈ s.clients) :
    ∃ connected s', (handleClientData handle fd (o.received fd) (o.sends fd)).run s =
        .ok connected s' ∧
      ∀ g, g ∈ s'.clients ↔ g ∈ s.clients ∧ ¬ (g = fd ∧ ends handle o s fd = true) := by
  obtain ⟨client, hlookup⟩ := Option.isSome_iff_exists.mp (AList.lookup_isSome.mpr hin)
  have hremove := removeClient_run hlookup
  have herase (g : Nat) : g ∈ s.clients.erase fd ↔ g ∈ s.clients ∧ ¬ (g = fd ∧ True) := by
    rw [AList.mem_erase, and_true, and_comm]
  cases hreceived : o.received fd with
  | throws =>
    -- the `catch` block removes the client
    refine ⟨false, _, by simp [handleClientData, hlookup, hremove]; rfl, fun g => ?_⟩
    simpa [ends, hreceived] using herase g
  | packet data peekIsZero =>
    cases data with
    | nil =>
      cases peekIsZero with
      | true =>
        refine ⟨false, _, by simp [handleClientData, hlookup, hremove]; rfl, fun g => ?_⟩
        simpa [ends, hreceived] using herase g
      | false =>
        refine ⟨false, s, by simp [handleClientData, hlookup], fun g => ?_⟩
        simp [ends, hreceived]
    | cons byte bytes =>
      cases hconversation : conversation handle (o.sends fd) 0 s.handler
          (TcpSerializer.framing.parse (client.readBuffer ++ byte :: bytes)).1 with
      | mk exchanges h' broken =>
        cases broken with
        | none =>
          -- all messages are answered: the client gets new buffers and keeps its place
          refine ⟨true, _, handleClientData_served peekIsZero hlookup (List.cons_ne_nil _ _)
            hconversation, fun g => ?_⟩
          have hends : ends handle o s fd = false := by
            simp [ends, hreceived, hlookup, hconversation]
          rw [hends]
          show g ∈ s.clients.replace fd _ ↔ _
          rw [AList.mem_replace]
          simp
        | some failure =>
          obtain ⟨e, breakage⟩ := failure
          -- the exception is caught, and the client removed
          obtain rfl := broken_exception hhandle hconversation
          obtain ⟨s', hrun, hclients, -⟩ := handleClientData_broken peekIsZero hlookup
            (List.cons_ne_nil _ _) hconversation
          refine ⟨false, s', hrun, fun g => ?_⟩
          have hends : ends handle o s fd = true := by
            simp [ends, hreceived, hlookup, hconversation]
          rw [hends, ← AList.lookup_isSome, hclients]
          by_cases hg : g = fd
          · rw [if_pos hg]
            simp [hg]
          · rw [if_neg hg, AList.lookup_isSome]
            simp [hg]

/-! ## All clients

The loop advances an iterator of the map. If the element under it has been erased by then, the
advance is undefined. -/

/-- The clients whose turn is still to come stay connected. -/
theorem others_connected {fd : Nat} {fds : List Nat} {ended : Prop} {s' : TcpServer η}
    (hin : ∀ g ∈ fd :: fds, g ∈ s.clients) (hfd : fd ∉ fds)
    (hclients : ∀ g, g ∈ s'.clients ↔ g ∈ s.clients ∧ ¬ (g = fd ∧ ended)) :
    ∀ g ∈ fds, g ∈ s'.clients := by
  intro g hg
  refine (hclients g).mpr ⟨hin g (List.mem_cons_of_mem fd hg), ?_⟩
  rintro ⟨rfl, -⟩
  exact hfd hg

/-- A client that has not ended before is there when its turn comes. Induction on the clients. -/
theorem handleEach_run (hhandle : Defined handle) (fds : List Nat) : ∀ {s : TcpServer η},
    fds.Nodup → (∀ fd ∈ fds, fd ∈ s.clients) →
      ∃ s', (handleEach handle o fds).run s = .ok () s' ∧
        ∀ g, g ∈ s'.clients ↔ g ∈ s.clients ∧ g ∉ endedFds handle o fds s := by
  induction fds with
  | nil => exact fun {s} _ _ => ⟨s, rfl, fun g => by simp [endedFds]⟩
  | cons fd fds ih =>
    intro s hnodup hin
    obtain ⟨hfd, hnodup'⟩ := List.nodup_cons.mp hnodup
    obtain ⟨connected, u, hrun, hclients⟩ := handleClientData_run_client (o := o) hhandle
      (hin fd List.mem_cons_self)
    have hin' := others_connected hin hfd hclients
    obtain ⟨s', hrest, hclients'⟩ := ih hnodup' hin'
    refine ⟨s', by simp [handleEach, hrun, hrest], fun g => ?_⟩
    rw [hclients', hclients, endedFds, hrun]
    -- the clients that are gone are this one, if it ends, and those of the rest
    show _ ↔ g ∈ s.clients ∧ g ∉ if ends handle o s fd = true then fd :: endedFds handle o fds u
      else endedFds handle o fds u
    by_cases hends : ends handle o s fd = true
    · rw [if_pos hends, List.mem_cons, not_or]
      tauto
    · rw [if_neg hends]
      tauto

/-- **The traversal** is that sequence of calls until a connection ends. -/
theorem serveClients_run (hhandle : Defined handle) (fds : List Nat) : ∀ {s : TcpServer η},
    fds.Nodup → (∀ fd ∈ fds, fd ∈ s.clients) →
      if endedFds handle o fds s = [] then
        (serveClients handle o fds).run s = (handleEach handle o fds).run s
      else ∃ s', (serveClients handle o fds).run s = .error .undefined s' := by
  induction fds with
  | nil => exact fun {s} _ _ => rfl
  | cons fd fds ih =>
    intro s hnodup hin
    obtain ⟨hfd, hnodup'⟩ := List.nodup_cons.mp hnodup
    obtain ⟨connected, u, hrun, hclients⟩ := handleClientData_run_client (o := o) hhandle
      (hin fd List.mem_cons_self)
    have hin' := others_connected hin hfd hclients
    have hstays := hclients fd
    by_cases hends : ends handle o s fd = true
    · -- the element of `fd` is erased, and the loop advances from it
      have hgone : fd ∉ u.clients := fun hmem => (hstays.mp hmem).2 ⟨rfl, hends⟩
      rw [if_neg (by simp [endedFds, hends])]
      exact ⟨u, by simp [serveClients, hrun, hgone]⟩
    · -- the element is still there, and the loop goes on
      have hthere : fd ∈ u.clients :=
        hstays.mpr ⟨hin fd List.mem_cons_self, fun hand => hends hand.2⟩
      have hended : endedFds handle o (fd :: fds) s = endedFds handle o fds u := by
        rw [endedFds, hrun]
        exact if_neg hends
      have hrest := ih hnodup' hin'
      rw [hended]
      simpa [serveClients, handleEach, hrun, hthere] using hrest

/-- Without a new connection `acceptNewClient` returns -1. -/
theorem acceptNewClient_run_failed (husable : s.Usable) :
    (acceptNewClient .failed).run s = .ok (-1) s := by
  obtain ⟨socket, hsocket⟩ := Option.isSome_iff_exists.mp husable.socket
  obtain ⟨stopped, hstopped⟩ := Option.isSome_iff_exists.mp husable.stopAccepting
  cases stopped <;> simp [acceptNewClient, acceptFrom, accept, hsocket, hstopped]

/-- With no new client, `processEvent` is the traversal. -/
theorem processEvent_run (handle : Message → EStateM Fault η Message) (husable : s.Usable)
    (hrunning : s.running = true) (haccept : o.accept = .failed) :
    (processEvent handle o).run s =
      (catching (serveClients handle o s.clients.keys) (pure ())).run s := by
  simp [processEvent, hrunning, haccept, acceptNewClient_run_failed husable]

/-- The `catch` block of `processEvent` does not see undefined behaviour. -/
theorem processEvent_undefined_of_accept (handle : Message → EStateM Fault η Message)
    (hrunning : s.running = true) (haccept : Undefined (acceptNewClient o.accept) s) :
    Undefined (processEvent handle o) s := by
  obtain ⟨u, hu⟩ := haccept
  exact ⟨u, by simp [processEvent, hrunning, hu]⟩

/-- **When every client is served.** For a running server with any clients, in any order, and no new
client: exactly when the server has its socket and its flag, and no connection ends in the call. -/
theorem servesEveryClient_iff (hhandle : Defined handle) (hrunning : s.running = true)
    (haccept : o.accept = .failed) :
    ServesEveryClient handle o s ↔ s.Usable ∧ endedFds handle o s.clients.keys s = [] := by
  by_cases husable : s.Usable
  · -- the traversal and the plain sequence of calls, both over the keys of the map
    have hnodup : s.clients.keys.Nodup := s.clients.keys_nodup
    have hin : ∀ fd ∈ s.clients.keys, fd ∈ s.clients := fun fd hfd => AList.mem_keys.mpr hfd
    have hserve := serveClients_run (o := o) hhandle s.clients.keys hnodup hin
    obtain ⟨s', heach, hclients⟩ := handleEach_run (o := o) hhandle s.clients.keys hnodup hin
    have hrun := processEvent_run handle husable hrunning haccept
    rw [run_catching] at hrun
    rw [and_iff_right husable]
    by_cases hnone : endedFds handle o s.clients.keys s = []
    · rw [if_pos hnone, heach] at hserve
      rw [hserve] at hrun
      exact iff_of_true ⟨s', hrun, heach, hclients⟩ hnone
    · -- an element was erased under the iterator
      rw [if_neg hnone] at hserve
      obtain ⟨u, hu⟩ := hserve
      rw [hu] at hrun
      refine iff_of_false ?_ hnone
      rintro ⟨s'', hreturns, -⟩
      rw [hrun] at hreturns
      cases hreturns
  · -- without socket or flag the call dereferences a null pointer before it comes to a client
    have haccepted : Undefined (acceptNewClient o.accept) s :=
      (acceptNewClient_undefined_iff o.accept).mpr ⟨hrunning, husable⟩
    obtain ⟨u, hu⟩ := processEvent_undefined_of_accept handle hrunning haccepted
    refine iff_of_false ?_ fun h => husable h.1
    rintro ⟨s', hreturns, -⟩
    rw [hu] at hreturns
    cases hreturns

/-- A running server with two clients. -/
def servingTwo : TcpServer Unit :=
  { constructed () 3 with
    running := true
    clients := ((∅ : UnorderedMap Nat ClientContext).insert 5 (freshClient 5)).insert 6
      (freshClient 6) }

/-- The client 5 sends a byte, the other one has nothing to read or has closed its connection. -/
def byteAndNothing (closed : Bool) : EventOutcomes where
  accept := .failed
  received fd := if fd = 5 then .packet [1] false else .packet [] closed
  sends _ _ := .accepted 0

/-- Both clients stay, so the traversal comes to its end. -/
theorem servesEveryClient_servingTwo :
    ServesEveryClient echo (byteAndNothing false) servingTwo := by
  have hecho : Defined echo := by
    intro m h h' hrun
    cases hrun
  -- one byte is no message yet
  have hbyte : ends echo (byteAndNothing false) servingTwo 5 = false := by
    show (conversation echo _ 0 () (TcpSerializer.framing.parse [1]).1).broken.isSome = false
    rw [TcpSerializer.framing.parse_of_none rfl]
    rfl
  refine (servesEveryClient_iff hecho rfl rfl).mpr ⟨⟨rfl, rfl⟩, ?_⟩
  show (if ends echo (byteAndNothing false) servingTwo 5 = true then [5] else []) = []
  rw [hbyte]
  rfl

/-- The client 6 has closed its connection; the traversal advances from its erased element. -/
theorem closedClient_undefined :
    Undefined (processEvent echo (byteAndNothing true)) servingTwo ∧
      ¬ ServesEveryClient echo (byteAndNothing true) servingTwo := by
  have hundefined : (processEvent echo (byteAndNothing true)).run servingTwo
      = .error .undefined _ := rfl
  refine ⟨⟨_, hundefined⟩, ?_⟩
  rintro ⟨s', hreturns, -⟩
  rw [hundefined] at hreturns
  cases hreturns

end TcpServer
end Pgw
