import MiniPgw.Tcp.Conversation

/-!
# What a call of the TCP server does

`Step` lists, for every public method, what a call does to the clients, the handler and the trace:
the methods that are not about received data close descriptors, forget all clients or add one, and
`handleClientData` holds a conversation with one client or removes it (`step_cases`). Proofs about
runs split on it and never unfold the methods.

## The architecture

* **`OnlyClients`** — the frame: nothing but the map and the closes in the trace has changed.
* **`start_yields`**, **`stop_yields`**, **`acceptNewClient_ensures`** — the methods that are not
  about received data; the last one says with its result which client was added.
* **`closeSocket_run`**, **`removeClient_run`**, **`withClient_run_ok`**,
  **`withClient_run_error`** — the parts of `handleClientData` as updates of the server.
* **`handleClientData_served`**, **`handleClientData_broken`** — its two ways to end, in the terms
  of `Conversation`.
* **`of_step`**, **`step_cases`** — from the outcomes of a method to the next state of the server.
-/

namespace Pgw

open Protocol Effects

namespace TcpServer

variable {η : Type} {handle : Message → EStateM Fault η Message} {s s' : TcpServer η}

/-- A client that has just been accepted. -/
def freshClient (fd : Nat) : ClientContext :=
  ⟨⟨fd, []⟩, [], [], false⟩

/-- `s'` has the clients `clients`, the same handler, and only `close` calls more in its trace. -/
structure OnlyClients (s s' : TcpServer η) (clients : UnorderedMap Nat ClientContext) : Prop where
  clients : s'.clients = clients
  handler : s'.handler = s.handler
  trace : ∃ closes : List Nat, s'.trace = s.trace ++ closes.map .closed

/-- What the calls other than `handleClientData` may do to the clients. -/
def Admits (s : TcpServer η) : ServerCall → UnorderedMap Nat ClientContext → Prop
  | .stop, clients => clients = s.clients ∨ clients = ∅
  | .acceptNewClient outcome, clients => clients = s.clients ∨
      ∃ fd temporary, outcome = .connected fd temporary ∧
        clients = s.clients.insert fd (freshClient fd)
  | .handleClientData _ _ _, _ => False
  | _, clients => clients = s.clients

/-- **The inversion of a call**: whom the server may serve after it, and what the calls in which a
client's data are read do to that client. -/
inductive Step (handle : Message → EStateM Fault η Message) (s : TcpServer η) :
    ServerCall → TcpServer η → Prop where
  | admin (c : ServerCall) (s' : TcpServer η) (clients : UnorderedMap Nat ClientContext)
      (hadmits : s.Admits c clients) (honly : OnlyClients s s' clients) : Step handle s c s'
  | unknown (fd : Nat) (received : ReceiveOutcome) (sends : Nat → SendOutcome)
      (hlookup : s.clients.lookup fd = none) : Step handle s (.handleClientData fd received sends) s
  | nothing (fd : Nat) (sends : Nat → SendOutcome) (client : ClientContext)
      (hlookup : s.clients.lookup fd = some client) :
      Step handle s (.handleClientData fd (.packet [] false) sends) s
  | removed (fd : Nat) (received : ReceiveOutcome) (sends : Nat → SendOutcome) (s' : TcpServer η)
      (client : ClientContext) (hlookup : s.clients.lookup fd = some client)
      (hreceived : received = .throws ∨ received = .packet [] true)
      (honly : OnlyClients s s' (s.clients.erase fd)) :
      Step handle s (.handleClientData fd received sends) s'
  | served (fd : Nat) (data : Bytes) (peekIsZero : Bool) (sends : Nat → SendOutcome)
      (client : ClientContext) (exchanges : List Exchange) (h' : η)
      (hlookup : s.clients.lookup fd = some client) (hdata : data ≠ [])
      (hconversation : conversation handle sends 0 s.handler
        (TcpSerializer.framing.parse (client.readBuffer ++ data)).1 = ⟨exchanges, h', none⟩) :
      Step handle s (.handleClientData fd (.packet data peekIsZero) sends) { s with
        handler := h'
        clients := s.clients.replace fd { client with
          socket.wire := client.socket.wire ++ exchanges.flatMap Exchange.delivered
          readBuffer := (TcpSerializer.framing.parse (client.readBuffer ++ data)).2 }
        trace := s.trace ++ exchanges.flatMap (exchangeEvents client.socket.fd) }
  | broken (fd : Nat) (data : Bytes) (peekIsZero : Bool) (sends : Nat → SendOutcome)
      (s' : TcpServer η) (client : ClientContext) (exchanges : List Exchange) (h' : η)
      (breakage : Breakage) (closes : List Nat)
      (hlookup : s.clients.lookup fd = some client) (hdata : data ≠ [])
      (hconversation : conversation handle sends 0 s.handler
        (TcpSerializer.framing.parse (client.readBuffer ++ data)).1
          = ⟨exchanges, h', some (.exception, breakage)⟩)
      (hclients : ∀ g, s'.clients.lookup g = if g = fd then none else s.clients.lookup g)
      (hhandler : s'.handler = h')
      (htrace : s'.trace = s.trace ++ exchanges.flatMap (exchangeEvents client.socket.fd)
        ++ breakageEvents client.socket.fd breakage ++ closes.map .closed) :
      Step handle s (.handleClientData fd (.packet data peekIsZero) sends) s'

/-! ## The methods, one by one

`Yields` is a postcondition for every way in which a method ends except for undefined behaviour,
after which there is no state to speak of. -/

/-- Every outcome of the method satisfies `P`, undefined behaviour aside. -/
def Yields {α : Type} (body : Method η α) (s : TcpServer η) (P : TcpServer η → Prop) : Prop :=
  Ensures body s (fun _ s' => P s') (fun e s' => e = .exception → P s')

/-- Nothing has changed. -/
theorem OnlyClients.refl (s : TcpServer η) : OnlyClients s s s.clients :=
  ⟨rfl, rfl, [], by simp⟩

/-- A close is an entry of the trace, or nothing at all for the descriptor 0. -/
theorem ensures_closeSocket {Q : Unit → TcpServer η → Prop} {E : Fault → TcpServer η → Prop}
    (fd : Nat) (h : ∀ closes : List Nat, Q () { s with trace := s.trace ++ closes.map .closed }) :
    Ensures (closeSocket fd) s Q E := by
  unfold closeSocket
  split
  · exact h [fd]
  · have hnone := h []
    simpa using hnone

/-- The same for the whole loop of `stop`. -/
theorem ensures_closeClients {Q : Unit → TcpServer η → Prop} {E : Fault → TcpServer η → Prop}
    (clients : List (Sigma fun _ : Nat => ClientContext)) :
    ∀ {s : TcpServer η},
      (∀ closes : List Nat, Q () { s with trace := s.trace ++ closes.map .closed }) →
      Ensures (closeClients clients) s Q E := by
  induction clients with
  | nil =>
    intro s h
    have hnone := h []
    simpa [closeClients] using hnone
  | cons client rest ih =>
    intro s h
    simp only [closeClients, record, ensures_bind, ensures_modify]
    refine ensures_closeSocket _ fun closes₁ => ih fun closes₂ => ?_
    have hboth := h (closes₁ ++ client.1 :: closes₂)
    simpa using hboth

/-- `start` leaves the clients as they are. -/
theorem start_yields (bindSucceeds : Bool) :
    Yields (start bindSucceeds) s fun s' => OnlyClients s s' s.clients := by
  simp only [Yields, start, ensures_bind, ensures_get]
  split
  · exact OnlyClients.refl s
  · split
    · intro h
      cases h
    · split
      · exact ⟨rfl, rfl, [], by simp⟩
      · exact fun _ => OnlyClients.refl s

/-- `stop` leaves them as they are, or leaves none. -/
theorem stop_yields :
    Yields stop s fun s' => OnlyClients s s' s.clients ∨ OnlyClients s s' ∅ := by
  simp only [Yields, stop, ensures_bind, ensures_get]
  split
  · simp only [ensures_bind, ensures_set]
    refine ensures_closeClients _ fun closes => ?_
    split
    · exact .inr ⟨rfl, rfl, closes, rfl⟩
    · simp only [ensures_bind]
      refine ensures_closeSocket _ fun closes' => ?_
      exact .inr ⟨rfl, rfl, closes ++ closes', by simp⟩
  · exact .inl (OnlyClients.refl s)

/-- The map has the new client, and something may have been closed. -/
theorem ensures_storeClient {Q : Unit → TcpServer η → Prop} {E : Fault → TcpServer η → Prop}
    (fd : Nat) (h : ∀ closes : List Nat, Q () { s with
      clients := s.clients.insert fd (freshClient fd)
      trace := s.trace ++ closes.map .closed }) :
    Ensures (storeClient ⟨fd, []⟩) s Q E := by
  simp only [storeClient, ensures_bind, ensures_get]
  cases s.clients.lookup fd with
  | none =>
    have hnone := h []
    simpa [freshClient] using hnone
  | some old =>
    rw [ensures_bind]
    exact ensures_closeSocket old.socket.fd h

/-- **What `acceptNewClient` returns**: the descriptor of the fresh client that it has added, or -1
when it has added none. An exception adds none either. -/
theorem acceptNewClient_ensures (outcome : AcceptOutcome) :
    Ensures (acceptNewClient outcome) s
      (fun clientFd s' => clientFd = -1 ∧ OnlyClients s s' s.clients ∨
        ∃ fd temporary, outcome = .connected fd temporary ∧ clientFd = fd ∧
          OnlyClients s s' (s.clients.insert fd (freshClient fd)))
      fun e s' => e = .exception → OnlyClients s s' s.clients := by
  simp only [acceptNewClient, ensures_bind, ensures_get]
  -- a server that was not started refuses
  split
  · exact .inl ⟨rfl, OnlyClients.refl s⟩
  · split
    · intro h
      cases h
    · -- a connection is accepted only to be closed
      simp only [acceptFrom, ensures_bind, ensures_get]
      split
      · intro h
        cases h
      · cases outcome with
        | failed => exact .inl ⟨rfl, OnlyClients.refl s⟩
        | flagsFailed fd => exact fun _ => ⟨rfl, rfl, [fd], rfl⟩
        | temporaryFailed fd => exact fun _ => OnlyClients.refl s
        | connected fd temporary =>
          simp only [accept, record, ensures_bind, ensures_modify, ensures_pure]
          refine ensures_closeSocket _ fun closes => ?_
          exact .inl ⟨trivial, rfl, rfl, temporary :: fd :: closes, by simp⟩
    · -- the branch that keeps the connection: the client is stored under its descriptor
      simp only [acceptFrom, ensures_catching, ensures_bind, ensures_get]
      split
      · intro h
        cases h
      · cases outcome with
        | failed => exact .inl ⟨rfl, OnlyClients.refl s⟩
        | flagsFailed fd => exact .inl ⟨rfl, rfl, rfl, [fd], rfl⟩
        | temporaryFailed fd => exact .inl ⟨rfl, OnlyClients.refl s⟩
        | connected fd temporary =>
          simp only [accept, record, ensures_bind, ensures_modify, ensures_pure]
          refine ensures_storeClient _ fun closes => ?_
          exact .inr ⟨fd, temporary, rfl, rfl, rfl, rfl, temporary :: closes, by simp⟩

/-- So `acceptNewClient` adds a fresh client at most. -/
theorem acceptNewClient_yields (outcome : AcceptOutcome) :
    Yields (perform handle (.acceptNewClient outcome)) s fun s' => OnlyClients s s' s.clients ∨
      ∃ fd temporary, outcome = .connected fd temporary ∧
        OnlyClients s s' (s.clients.insert fd (freshClient fd)) := by
  rw [Yields, perform, ensures_bind]
  refine (acceptNewClient_ensures outcome).mono (fun clientFd s' h => ?_)
    fun _ _ h he => .inl (h he)
  rcases h with ⟨-, honly⟩ | ⟨fd, temporary, houtcome, -, honly⟩
  · exact .inl honly
  · exact .inr ⟨fd, temporary, houtcome, honly⟩

/-- What `TcpSocket::close` passes to `::close`. -/
def closesOf (fd : Nat) : List Nat :=
  if fd > 0 then [fd] else []

/-- `closeSocket` as one update of the trace. -/
theorem closeSocket_run (fd : Nat) :
    (closeSocket fd).run s = .ok () { s with trace := s.trace ++ (closesOf fd).map .closed } := by
  unfold closeSocket closesOf
  split
  · rfl
  · simp

/-- `removeClient` erases the client, and the destructor of its socket closes the descriptor. -/
theorem removeClient_run {fd : Nat} {client : ClientContext}
    (hlookup : s.clients.lookup fd = some client) :
    (removeClient fd).run s = .ok () { s with
      clients := s.clients.erase fd
      trace := s.trace ++ (closesOf client.socket.fd).map .closed } := by
  simp [removeClient, hlookup, closeSocket_run]

/-- The server after the `try` block of `handleClientData` has left `v`. -/
def putBack (s : TcpServer η) (fd : Nat) (v : Serving η) : TcpServer η :=
  { s with handler := v.handler, clients := s.clients.replace fd v.client, trace := v.trace }

/-- What a client's context has become is put back into the map, -/
theorem withClient_run_ok (fd : Nat) {client : ClientContext}
    {body : EStateM Fault (Serving η) Unit} {v : Serving η}
    (h : body.run ⟨s.handler, client, s.trace⟩ = .ok () v) :
    (withClient fd client body).run s = .ok () (s.putBack fd v) := by
  simp [withClient, h, putBack]

/-- also when an exception leaves the call. -/
theorem withClient_run_error (fd : Nat) {client : ClientContext}
    {body : EStateM Fault (Serving η) Unit} {e : Fault} {v : Serving η}
    (h : body.run ⟨s.handler, client, s.trace⟩ = .error e v) :
    (withClient fd client body).run s = .error e (s.putBack fd v) := by
  simp [withClient, h, putBack]

/-- New data go to the end of the buffer before the frames in it are served. -/
theorem serveData_run (data : Bytes) (sends : Nat → SendOutcome) (v : Serving η) :
    (serveData handle data sends).run v =
      (serveFrames handle sends ((v.client.readBuffer ++ data).length + 1) 0).run
        { v with client.readBuffer := v.client.readBuffer ++ data } := by
  simp [serveData]

section
variable {fd : Nat} {client : ClientContext} {data : Bytes} {peekIsZero : Bool}
  {sends : Nat → SendOutcome} {exchanges : List Exchange} {h' : η}

/-- `handleClientData` on data for a registered client. -/
theorem handleClientData_run_data (hlookup : s.clients.lookup fd = some client)
    (hdata : data ≠ []) :
    (handleClientData handle fd (.packet data peekIsZero) sends).run s =
      (catching (do withClient fd client (serveData handle data sends); pure true)
        (do removeClient fd; pure false)).run s := by
  cases data with
  | nil => exact absurd rfl hdata
  | cons byte bytes => simp [handleClientData, hlookup]

/-- A conversation that does not break. -/
theorem handleClientData_served (peekIsZero : Bool) (hlookup : s.clients.lookup fd = some client)
    (hdata : data ≠ [])
    (hconversation : conversation handle sends 0 s.handler
      (TcpSerializer.framing.parse (client.readBuffer ++ data)).1 = ⟨exchanges, h', none⟩) :
    (handleClientData handle fd (.packet data peekIsZero) sends).run s
      = .ok true { s with
        handler := h'
        clients := s.clients.replace fd { client with
          socket.wire := client.socket.wire ++ exchanges.flatMap Exchange.delivered
          readBuffer := (TcpSerializer.framing.parse (client.readBuffer ++ data)).2 }
        trace := s.trace ++ exchanges.flatMap (exchangeEvents client.socket.fd) } := by
  have hserve := serveFrames_run handle sends
    ((client.readBuffer ++ data).length + 1) 0
    ⟨s.handler, { client with readBuffer := client.readBuffer ++ data }, s.trace⟩
    (Nat.lt_succ_self _)
  simp only [hconversation] at hserve
  have hbody : (serveData handle data sends).run ⟨s.handler, client, s.trace⟩ = _ :=
    (serveData_run data sends _).trans hserve
  rw [handleClientData_run_data hlookup hdata]
  simp [withClient_run_ok fd hbody, putBack]

/-- A conversation that breaks: the client is removed if the failure can be caught. -/
theorem handleClientData_broken (peekIsZero : Bool) {e : Fault} {breakage : Breakage}
    (hlookup : s.clients.lookup fd = some client) (hdata : data ≠ [])
    (hconversation : conversation handle sends 0 s.handler
      (TcpSerializer.framing.parse (client.readBuffer ++ data)).1
        = ⟨exchanges, h', some (e, breakage)⟩) :
    match e with
    | .undefined => ∃ s',
      (handleClientData handle fd (.packet data peekIsZero) sends).run s = .error .undefined s'
    | .exception => ∃ s',
      (handleClientData handle fd (.packet data peekIsZero) sends).run s = .ok false s' ∧
        (∀ g, s'.clients.lookup g = if g = fd then none else s.clients.lookup g) ∧
        s'.handler = h' ∧
        s'.trace = s.trace ++ exchanges.flatMap (exchangeEvents client.socket.fd)
          ++ breakageEvents client.socket.fd breakage
          ++ (closesOf client.socket.fd).map .closed ∧
        s'.socket = s.socket ∧ s'.running = s.running := by
  -- the frames of the buffer are served up to the one that breaks
  have hserve := serveFrames_run handle sends
    ((client.readBuffer ++ data).length + 1) 0
    ⟨s.handler, { client with readBuffer := client.readBuffer ++ data }, s.trace⟩
    (Nat.lt_succ_self _)
  simp only [hconversation] at hserve
  obtain ⟨client', hfd, hserve⟩ := hserve
  have hbody : (serveData handle data sends).run ⟨s.handler, client, s.trace⟩ = _ :=
    (serveData_run data sends _).trans hserve
  have hwith := withClient_run_error fd hbody
  rw [handleClientData_run_data hlookup hdata]
  -- undefined behaviour is not caught, and no state of the server follows from it
  cases e with
  | undefined => exact ⟨_, by simp [hwith]; rfl⟩
  | exception =>
    set v : Serving η := ⟨h', client',
      s.trace ++ exchanges.flatMap (exchangeEvents client.socket.fd)
      ++ breakageEvents client.socket.fd breakage⟩ with hv
    have hreplaced : (s.putBack fd v).clients.lookup fd = some client' :=
      UnorderedMap.lookup_replace_self hlookup
    -- an exception is: the caller removes the client by its key, after the served part is put back
    have hremove := removeClient_run hreplaced
    rw [hfd] at hremove
    refine ⟨{ s.putBack fd v with
      clients := (s.putBack fd v).clients.erase fd
      trace := (s.putBack fd v).trace ++ (closesOf client.socket.fd).map .closed }, ?_,
      fun g => ?_, rfl, rfl, rfl, rfl⟩
    · simp only [run_catching, EStateM.run_bind, hwith, hremove, EStateM.run_pure]
    · by_cases hg : g = fd
      · rw [if_pos hg, hg]
        exact AList.lookup_erase fd _
      · rw [if_neg hg]
        exact (AList.lookup_erase_ne hg).trans (UnorderedMap.lookup_replace_ne s.clients hg client')

end

/-- The server after a call, if its behaviour is defined. -/
def afterCall {α : Type} (body : Method η α) (s : TcpServer η) : Option (TcpServer η) :=
  match body.run s with
  | .ok _ s' => some s'
  | .error .exception s' => some s'
  | .error .undefined _ => none

/-- What every outcome of the method satisfies holds after the call. -/
theorem of_afterCall {α : Type} {body : Method η α} {P : TcpServer η → Prop}
    (h : afterCall body s = some s') (hyields : Yields body s P) : P s' := by
  unfold afterCall at h
  split at h
  · next s'' hrun =>
    cases h
    exact hyields.of_run_ok hrun
  · next s'' hrun =>
    cases h
    exact hyields.of_run_error hrun rfl
  · cases h

/-- A step is the state that the call leaves, unless its behaviour is undefined. -/
theorem step_eq_afterCall (c : ServerCall) : step handle s c = afterCall (perform handle c) s := by
  unfold step afterCall
  cases (perform handle c).run s with
  | ok _ s' => rfl
  | error e s' => cases e <;> rfl

/-- So what a call yields holds of the next state. -/
theorem of_step {c : ServerCall} {P : TcpServer η → Prop} (h : step handle s c = some s')
    (hyields : Yields (perform handle c) s P) : P s' := by
  rw [step_eq_afterCall] at h
  exact of_afterCall h hyields

/-- **The inversion of `step`.** -/
theorem step_cases {c : ServerCall} (h : step handle s c = some s') : Step handle s c s' := by
  cases c with
  | start bindSucceeds =>
    exact .admin _ _ s.clients rfl (of_step h (start_yields bindSucceeds))
  | stop =>
    rcases of_step h stop_yields with honly | honly
    · exact .admin _ _ s.clients (.inl rfl) honly
    · exact .admin _ _ ∅ (.inr rfl) honly
  | stopAccepting =>
    cases h
    exact .admin _ _ s.clients rfl ⟨rfl, rfl, [], by simp⟩
  | acceptNewClient outcome =>
    rcases of_step h (acceptNewClient_yields outcome) with honly | ⟨fd, temporary, rfl, honly⟩
    · exact .admin _ _ s.clients (.inl rfl) honly
    · exact .admin _ _ _ (.inr ⟨fd, temporary, rfl, rfl⟩) honly
  | handleClientData fd received sends =>
    cases hlookup : s.clients.lookup fd with
    | none =>
      simp [step, perform, TcpServer.handleClientData, hlookup] at h
      subst h
      exact .unknown fd received sends hlookup
    | some client =>
      -- both an exception of `receive` and a closed connection end in `removeClient`
      have hremove := removeClient_run hlookup
      cases received with
      | throws =>
        simp [step, perform, TcpServer.handleClientData, hlookup, hremove] at h
        subst h
        exact .removed fd _ sends _ client hlookup (.inl rfl) ⟨rfl, rfl, _, rfl⟩
      | packet data peekIsZero =>
        by_cases hdata : data = []
        · subst hdata
          cases peekIsZero with
          | false =>
            simp [step, perform, TcpServer.handleClientData, hlookup] at h
            subst h
            exact .nothing fd sends client hlookup
          | true =>
            simp [step, perform, TcpServer.handleClientData, hlookup, hremove] at h
            subst h
            exact .removed fd _ sends _ client hlookup (.inr rfl) ⟨rfl, rfl, _, rfl⟩
        · cases hconversation : conversation handle sends 0 s.handler
              (TcpSerializer.framing.parse (client.readBuffer ++ data)).1 with
          | mk exchanges h' broken =>
            cases broken with
            | none =>
              have hrun := handleClientData_served peekIsZero hlookup hdata
                hconversation
              simp [step, perform, hrun] at h
              subst h
              exact .served fd data peekIsZero sends client exchanges h' hlookup hdata hconversation
            | some failure =>
              obtain ⟨e, breakage⟩ := failure
              have hrun := handleClientData_broken peekIsZero hlookup hdata
                hconversation
              cases e with
              -- undefined behaviour leaves no next state
              | undefined =>
                obtain ⟨s'', hrun⟩ := hrun
                simp [step, perform, hrun] at h
              | exception =>
                obtain ⟨s'', hrun, hclients, hhandler, htrace, -, -⟩ := hrun
                simp [step, perform, hrun] at h
                subst h
                exact .broken fd data peekIsZero sends _ client exchanges h' breakage _ hlookup
                  hdata hconversation hclients hhandler htrace

end TcpServer
end Pgw
