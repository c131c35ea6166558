import MiniPgw.Lib.Handles
import MiniPgw.Tcp.Reassembly

/-!
# The descriptors of the TCP server

Every descriptor that `::accept` returns should be closed exactly once. The kernel gives a number
that is not in use, and gives it again after it has been closed, so a run is tracked with a log of
all openings and closes (`Tracked`); what a call closes is `FdStep`.

An accepted descriptor is in order as long as the server owns it: it is the key of a client. Three
calls break this, and `closedOnce_iff` says that they are the only ones: `TcpSocket::accept` forgets
the descriptor when the temporary socket cannot be made, a connection that is accepted only to be
turned away is closed twice, and so is every client that is there when the server is stopped.

## The architecture

* **`given`**, **`FdStep`**, **`step_closes`** — what a call is given and what it closes, with one
  constructor for each way in which a call can end.
* **`Tracked`** — the server with its log of openings and closes; `Tracked.step_cases` inverts a
  step.
* **`Tracked.Base`** — what holds in every run, careful or not.
* **`Turn`**, **`FdStep.turn`** — a careful call does one of four things to a given descriptor,
  and each of them keeps it in order (`Turn.keeps`); there is one lemma for each kind of call.
* **`Tracked.Tidy`**, **`Tracked.Lost`** — in order, or lost for good: `Tracked.tidy_step` and
  `Tracked.lost_step` are the step lemmas, `Tracked.lost_of_careless` leads from one to the other.
* **`closedOnce_iff`** — along the run, with the destructor at its end.
-/

namespace Pgw

open Protocol Effects Handles

/-! ## What the kernel gives

Two descriptors for each connection: its own, and that of a temporary socket, which is created and
closed again. -/

namespace AcceptOutcome

/-- The descriptor that `::accept` returns. -/
def accepted : AcceptOutcome → List Nat
  | .failed => []
  | .flagsFailed fd => [fd]
  | .temporaryFailed fd => [fd]
  | .connected fd _ => [fd]

/-- The descriptor that `::socket` returns for the temporary `TcpSocket`; a constructor that throws
has closed it again. -/
def created : AcceptOutcome → List Nat
  | .connected _ temporary => [temporary]
  | _ => []

end AcceptOutcome

namespace TcpServer

variable {η : Type} {handle : Message → EStateM Fault η Message} {s s' : TcpServer η}

/-- The descriptors that `::accept` returns in a call. -/
def accepts (s : TcpServer η) : ServerCall → List Nat
  | .acceptNewClient outcome => if s.running then outcome.accepted else []
  | _ => []

/-- All descriptors that the kernel gives in a call. -/
def given (s : TcpServer η) : ServerCall → List Nat
  | .acceptNewClient outcome => if s.running then outcome.accepted ++ outcome.created else []
  | _ => []

/-- Only a running server calls `::accept`, -/
theorem accepts_of_running (hrunning : s.running = true) (outcome : AcceptOutcome) :
    s.accepts (.acceptNewClient outcome) = outcome.accepted := by
  rw [accepts, if_pos hrunning]

/-- and only with a connection is there a second descriptor. -/
theorem given_of_running (hrunning : s.running = true) (outcome : AcceptOutcome) :
    s.given (.acceptNewClient outcome) = outcome.accepted ++ outcome.created := by
  rw [given, if_pos hrunning]

/-! ## What a call closes

The trace has an entry for each `::close`. A step says which descriptors it closes and whom the
server serves afterwards. -/

/-- The closes in a trace are the descriptors that were closed. -/
@[simp] theorem closedFds_map_closed (closes : List Nat) :
    closedFds (closes.map .closed) = closes := by
  simp [closedFds]

/-- The closes of two parts of a trace. -/
theorem closedFds_append (events events' : List TcpEvent) :
    closedFds (events ++ events') = closedFds events ++ closedFds events' :=
  List.filterMap_append

/-- Requests and replies close nothing, -/
theorem closedFds_exchanges (fd : Nat) (exchanges : List Exchange) :
    closedFds (exchanges.flatMap (exchangeEvents fd)) = [] := by
  induction exchanges with
  | nil => rfl
  | cons x exchanges ih => simpa [closedFds, exchangeEvents] using ih

/-- and neither does an exception that breaks them off. -/
theorem closedFds_breakage (fd : Nat) (breakage : Breakage) :
    closedFds (breakageEvents fd breakage) = [] := by
  cases breakage <;> rfl

/-- What has been closed since `s` can be read off the new part of the trace. -/
theorem closedSince_eq {events : List TcpEvent} (htrace : s'.trace = s.trace ++ events) :
    closedSince s s' = closedFds events := by
  rw [closedSince, htrace, List.drop_left]

/-- What `stop` closes: every client has its socket closed, and then its key. -/
def stopCloses (s : TcpServer η) : List Nat :=
  s.clients.entries.flatMap (fun client => closesOf client.2.socket.fd ++ [client.1])
    ++ s.socket.elim [] closesOf

/-- `s'` has the same clients and the same listening socket. -/
structure SameOwner (s s' : TcpServer η) : Prop where
  clients : s'.clients.keySet = s.clients.keySet
  socket : s'.socket = s.socket
  running : s'.running = false → s.running = false

/-- What a call closes, and whom the server serves after it. -/
inductive FdStep (s : TcpServer η) : ServerCall → List Nat → TcpServer η → Prop where
  | quiet (c : ServerCall) (s' : TcpServer η) (hgiven : s.given c = [])
      (hstop : c = .stop → s.running = false) (hsame : SameOwner s s') : FdStep s c [] s'
  | stopped (s' : TcpServer η) (hrunning : s.running = true) (hclients : s'.clients = ∅)
      (hsocket : s'.socket = none) : FdStep s .stop (stopCloses s) s'
  | flagsFailed (fd : Nat) (s' : TcpServer η) (hrunning : s.running = true)
      (hsame : SameOwner s s') : FdStep s (.acceptNewClient (.flagsFailed fd)) [fd] s'
  | temporaryFailed (fd : Nat) (s' : TcpServer η) (hrunning : s.running = true)
      (hsame : SameOwner s s') : FdStep s (.acceptNewClient (.temporaryFailed fd)) [] s'
  | rejected (fd temporary : Nat) (s' : TcpServer η) (hrunning : s.running = true)
      (hstopped : s.stopAccepting = some true) (hsame : SameOwner s s') :
      FdStep s (.acceptNewClient (.connected fd temporary)) (temporary :: fd :: closesOf fd) s'
  | stored (fd temporary : Nat) (s' : TcpServer η) (hrunning : s.running = true)
      (hopen : s.stopAccepting = some false)
      (hclients : s'.clients.keySet = insert fd s.clients.keySet) (hsocket : s'.socket = s.socket)
      (hstill : s'.running = true) :
      FdStep s (.acceptNewClient (.connected fd temporary))
        (temporary :: if fd ∈ s.clients.keySet then closesOf fd else []) s'
  | removed (fd : Nat) (received : ReceiveOutcome) (sends : Nat → SendOutcome) (s' : TcpServer η)
      (hclient : fd ∈ s.clients.keySet) (hclients : s'.clients.keySet = s.clients.keySet.erase fd)
      (hsocket : s'.socket = s.socket) (hrunning : s'.running = s.running) :
      FdStep s (.handleClientData fd received sends) (closesOf fd) s'

/-- A call that does nothing leaves the owners as they are. -/
theorem SameOwner.refl (s : TcpServer η) : SameOwner s s :=
  ⟨rfl, rfl, id⟩

/-- An outcome of the call `c` is a step that closes what the trace says. -/
def Closes (c : ServerCall) (s s' : TcpServer η) : Prop :=
  FdStep s c (closedSince s s') s'

/-- A call has closed `closes` if its part of the trace says so. -/
theorem Closes.of_trace {c : ServerCall} (closes : List Nat)
    (htrace : s'.trace = s.trace ++ closes.map .closed) (hstep : FdStep s c closes s') :
    Closes c s s' := by
  rw [Closes, closedSince_eq htrace, closedFds_map_closed]
  exact hstep

/-- `start` binds the address or throws; nothing is closed. -/
theorem start_closes (bindSucceeds : Bool) :
    Yields (start bindSucceeds) s (Closes (.start bindSucceeds) s) := by
  have hsame : Closes (.start bindSucceeds) s s :=
    .of_trace [] (by simp) (.quiet _ _ rfl (by simp) (.refl s))
  simp only [Yields, start, ensures_bind, ensures_get]
  split
  · exact hsame
  · split
    · intro h
      cases h
    · split
      · refine .of_trace [] (by simp) (.quiet _ _ rfl (by simp) ⟨rfl, rfl, ?_⟩)
        intro h
        cases h
      · exact fun _ => hsame

/-- The loop of `stop` closes the socket of each client, and then the key of the client, which is
the same number. -/
theorem closeClients_run (clients : List (Sigma fun _ : Nat => ClientContext)) :
    ∀ {s : TcpServer η}, (closeClients clients).run s = .ok () { s with
      trace := s.trace ++ (clients.flatMap fun client =>
        closesOf client.2.socket.fd ++ [client.1]).map .closed } := by
  induction clients with
  | nil => simp [closeClients]
  | cons client rest ih => simp [closeClients, closeSocket_run, record, ih]

/-- `stop` of a running server leaves it without clients and without a socket. -/
theorem stop_run (hrunning : s.running = true) :
    stop.run s = .ok () { s with
      running := false
      clients := ∅
      socket := none
      trace := s.trace ++ (stopCloses s).map .closed } := by
  cases hsocket : s.socket with
  | none => simp [stop, hrunning, closeClients_run, hsocket, stopCloses]
  | some fd => simp [stop, hrunning, closeClients_run, hsocket, stopCloses, closeSocket_run]

/-- On a server that is not running it does nothing. -/
theorem stop_closes : Yields stop s (Closes .stop s) := by
  unfold Yields Ensures
  by_cases hrunning : s.running = true
  · rw [stop_run hrunning]
    exact .of_trace (stopCloses s) rfl (.stopped _ hrunning rfl rfl)
  · have hrun : stop.run s = .ok () s := by simp [stop, hrunning]
    rw [hrun]
    exact .of_trace [] (by simp) (.quiet _ _ rfl (fun _ => by simpa using hrunning) (.refl s))

/-- The map takes the new client; the socket of a client that had the descriptor before is closed by
its destructor. -/
theorem storeClient_run (hsound : s.Sound) (fd : Nat) :
    (storeClient ⟨fd, []⟩).run s = .ok () { s with
      clients := s.clients.insert fd (freshClient fd)
      trace := s.trace
        ++ (if fd ∈ s.clients.keySet then closesOf fd else []).map .closed } := by
  cases hlookup : s.clients.lookup fd with
  | none =>
    have hnot : fd ∉ s.clients.keySet := by
      rw [UnorderedMap.mem_keySet]
      exact AList.lookup_eq_none.mp hlookup
    simp [storeClient, hlookup, hnot, freshClient]
  | some old =>
    have hin : fd ∈ s.clients.keySet := by
      rw [UnorderedMap.mem_keySet, ← AList.lookup_isSome, hlookup]
      rfl
    simp [storeClient, hlookup, hin, freshClient, closeSocket_run,
      (hsound fd old hlookup).descriptor]

/-- `acceptNewClient` has one kind of step for each answer of the kernel, and two for a connection:
it is stored, or turned away after `stopAccepting`. -/
theorem acceptNewClient_closes (hsound : s.Sound) (outcome : AcceptOutcome) :
    Yields (perform handle (.acceptNewClient outcome)) s (Closes (.acceptNewClient outcome) s) := by
  simp only [Yields, perform, acceptNewClient, ensures_bind, ensures_get]
  split
  · next hidle =>
    have hgiven : s.given (.acceptNewClient outcome) = [] := by
      have hfalse : s.running = false := by simpa using hidle
      simp [given, hfalse]
    exact .of_trace [] (by simp) (.quiet _ _ hgiven (by simp) (.refl s))
  · next hrunning =>
    replace hrunning : s.running = true := by simpa using hrunning
    -- without a new connection it does not matter whether clients are accepted
    have hfailed : Closes (.acceptNewClient .failed) s s :=
      .of_trace [] (by simp)
        (.quiet _ _ (by simp [given, AcceptOutcome.accepted, AcceptOutcome.created]) (by simp)
          (.refl s))
    have hflags : ∀ fd, Closes (.acceptNewClient (.flagsFailed fd)) s
        { s with trace := s.trace ++ [.closed fd] } :=
      fun fd => .of_trace [fd] rfl (.flagsFailed fd _ hrunning ⟨rfl, rfl, id⟩)
    have htemporary : ∀ fd, Closes (.acceptNewClient (.temporaryFailed fd)) s s :=
      fun fd => .of_trace [] (by simp) (.temporaryFailed fd _ hrunning (.refl s))
    split
    · intro h
      cases h
    · next hstopped =>
      simp only [acceptFrom, ensures_bind, ensures_get]
      split
      · intro h
        cases h
      · cases outcome with
        | failed => exact hfailed
        | flagsFailed fd => exact fun _ => hflags fd
        | temporaryFailed fd => exact fun _ => htemporary fd
        | connected fd temporary =>
          simp only [accept, record, ensures_bind, ensures_modify, ensures_pure]
          unfold Ensures
          rw [closeSocket_run]
          refine .of_trace (temporary :: fd :: closesOf fd) (by simp) ?_
          exact .rejected fd temporary _ hrunning hstopped ⟨rfl, rfl, id⟩
    · next hopen =>
      simp only [acceptFrom, ensures_catching, ensures_bind, ensures_get]
      split
      · intro h
        cases h
      · cases outcome with
        | failed => exact hfailed
        | flagsFailed fd => exact hflags fd
        | temporaryFailed fd => exact htemporary fd
        | connected fd temporary =>
          simp only [accept, record, ensures_bind, ensures_modify, ensures_pure]
          -- a client that had this descriptor is replaced, and its socket closed
          have hstore := storeClient_run (s := { s with trace := s.trace ++ [.closed temporary] })
            hsound fd
          unfold Ensures
          rw [hstore]
          refine .of_trace
            (temporary :: if fd ∈ s.clients.keySet then closesOf fd else []) (by simp) ?_
          exact .stored fd temporary _ hrunning hopen
            (UnorderedMap.keySet_insert _ _ _) rfl hrunning

/-- `handleClientData` closes the socket of its client when it removes it, and nothing else. -/
theorem handleClientData_closes (hsound : s.Sound) {fd : Nat} {received : ReceiveOutcome}
    {sends : Nat → SendOutcome}
    (h : step handle s (.handleClientData fd received sends) = some s') :
    Closes (.handleClientData fd received sends) s s' := by
  cases hlookup : s.clients.lookup fd with
  | none =>
    simp [step, perform, handleClientData, hlookup] at h
    subst h
    exact .of_trace [] (by simp) (.quiet _ _ rfl (by simp) (.refl s))
  | some client =>
    have hfd := (hsound fd client hlookup).descriptor
    have hin : fd ∈ s.clients.keySet := by
      rw [UnorderedMap.mem_keySet, ← AList.lookup_isSome, hlookup]
      rfl
    have hremove := removeClient_run hlookup
    rw [hfd] at hremove
    -- whatever the reason, the client is removed and its socket closed
    have hremoved : Closes (.handleClientData fd received sends) s { s with
        clients := s.clients.erase fd
        trace := s.trace ++ (closesOf fd).map .closed } :=
      .of_trace (closesOf fd) rfl
        (.removed fd received sends _ hin (UnorderedMap.keySet_erase _ _) rfl rfl)
    cases received with
    | throws =>
      simp [step, perform, handleClientData, hlookup, hremove] at h
      subst h
      exact hremoved
    | packet data peekIsZero =>
      by_cases hdata : data = []
      · subst hdata
        cases peekIsZero with
        | false =>
          simp [step, perform, handleClientData, hlookup] at h
          subst h
          exact .of_trace [] (by simp) (.quiet _ _ rfl (by simp) (.refl s))
        | true =>
          simp [step, perform, handleClientData, hlookup, hremove] at h
          subst h
          exact hremoved
      · cases hconversation : conversation handle sends 0 s.handler
            (TcpSerializer.framing.parse (client.readBuffer ++ data)).1 with
        | mk exchanges h' broken =>
          cases broken with
          | none =>
            have hrun := handleClientData_served peekIsZero hlookup hdata hconversation
            simp [step, perform, hrun] at h
            subst h
            rw [Closes, closedSince_eq rfl, closedFds_exchanges]
            exact .quiet _ _ rfl (by simp) ⟨UnorderedMap.keySet_replace _ _ _, rfl, id⟩
          | some failure =>
            obtain ⟨e, breakage⟩ := failure
            have hrun := handleClientData_broken peekIsZero hlookup hdata hconversation
            cases e with
            | undefined =>
              obtain ⟨s'', hrun⟩ := hrun
              simp [step, perform, hrun] at h
            | exception =>
              obtain ⟨s'', hrun, hclients, -, htrace, hsocket, hrunning⟩ := hrun
              simp [step, perform, hrun] at h
              subst h
              rw [List.append_assoc, List.append_assoc] at htrace
              rw [Closes, closedSince_eq htrace, closedFds_append, closedFds_append,
                closedFds_exchanges, closedFds_breakage, closedFds_map_closed, hfd]
              exact .removed fd _ sends _ hin
                (UnorderedMap.keySet_of_lookup hclients) hsocket hrunning

/-- **What a step closes.** -/
theorem step_closes (hsound : s.Sound) {c : ServerCall} (h : step handle s c = some s') :
    Closes c s s' := by
  cases c with
  | start bindSucceeds => exact of_step h (start_closes bindSucceeds)
  | stop => exact of_step h stop_closes
  | stopAccepting =>
    cases h
    exact .of_trace [] (by simp) (.quiet _ _ rfl (by simp) ⟨rfl, rfl, id⟩)
  | acceptNewClient outcome => exact of_step h (acceptNewClient_closes hsound outcome)
  | handleClientData fd received sends => exact handleClientData_closes hsound h

/-! ## Counting the closes of one descriptor

`stop` closes the sockets of the clients, and then their keys, so that a client that is still there
is closed twice. -/

/-- The destructor of a socket closes its own descriptor, once. -/
theorem count_closesOf {fd : Nat} (hpos : 0 < fd) (g : Nat) :
    (closesOf g).count fd = if g = fd then 1 else 0 := by
  unfold closesOf
  by_cases hg : g = fd
  · rw [if_pos hg, if_pos (hg ▸ hpos), hg, List.count_singleton_self]
  · rw [if_neg hg]
    split
    · rw [List.count_cons_of_ne hg, List.count_nil]
    · rfl

/-- It closes no other. -/
theorem notMem_closesOf {fd g : Nat} (hne : g ≠ fd) : fd ∉ closesOf g := by
  unfold closesOf
  split
  · simpa using Ne.symm hne
  · exact List.not_mem_nil

/-- What `stop` closes for the clients. -/
def clientCloses (clients : List (Sigma fun _ : Nat => ClientContext)) : List Nat :=
  clients.flatMap fun client => closesOf client.2.socket.fd ++ [client.1]

/-- The loop of `stop` closes the descriptors of clients only. -/
theorem notMem_clientCloses {clients : List (Sigma fun _ : Nat => ClientContext)}
    (hkeys : ∀ client ∈ clients, client.2.socket.fd = client.1) {fd : Nat}
    (hfd : fd ∉ clients.map Sigma.fst) : fd ∉ clientCloses clients := by
  intro hmem
  obtain ⟨client, hclient, hfd'⟩ := List.mem_flatMap.mp hmem
  have hne : client.1 ≠ fd := fun heq => hfd (heq ▸ List.mem_map_of_mem hclient)
  rw [hkeys client hclient] at hfd'
  rcases List.mem_append.mp hfd' with hsocket | hkey
  · exact notMem_closesOf hne hsocket
  · exact hne (List.mem_singleton.mp hkey).symm

/-- A client is closed twice by `stop`. -/
theorem two_le_count_clientCloses {clients : List (Sigma fun _ : Nat => ClientContext)}
    (hkeys : ∀ client ∈ clients, client.2.socket.fd = client.1) {fd : Nat} (hpos : 0 < fd)
    (hfd : fd ∈ clients.map Sigma.fst) : 2 ≤ (clientCloses clients).count fd := by
  induction clients with
  | nil => cases hfd
  | cons client rest ih =>
    have hcons : clientCloses (client :: rest)
        = closesOf client.2.socket.fd ++ [client.1] ++ clientCloses rest := rfl
    rw [hcons, List.count_append, List.count_append, hkeys client (by simp), count_closesOf hpos]
    by_cases hclient : client.1 = fd
    · rw [if_pos hclient, hclient, List.count_singleton_self]
      omega
    · have hrest : fd ∈ rest.map Sigma.fst := by
        rcases List.mem_cons.mp hfd with heq | hrest
        · exact absurd heq.symm hclient
        · exact hrest
      have hcount := ih (fun e he => hkeys e (by simp [he])) hrest
      omega

/-- In a sound server every key is the descriptor of its client. -/
theorem Sound.entries (hsound : s.Sound) :
    ∀ client ∈ s.clients.entries, client.2.socket.fd = client.1 :=
  fun client hclient =>
    (hsound client.1 client.2 (AList.mem_lookup_iff.mpr hclient)).descriptor

/-- `stop` closes for the clients first, then the listening socket. -/
theorem stopCloses_eq (s : TcpServer η) :
    stopCloses s = clientCloses s.clients.entries ++ s.socket.elim [] closesOf := rfl

/-- The keys of the map are those of its entries. -/
theorem mem_keySet_iff {fd : Nat} :
    fd ∈ s.clients.keySet ↔ fd ∈ s.clients.entries.map Sigma.fst := by
  rw [UnorderedMap.mem_keySet, AList.mem_keys]
  rfl

/-- A descriptor that is no client's is closed as the listening socket only. -/
theorem count_stopCloses (hsound : s.Sound) {fd : Nat} (hpos : 0 < fd)
    (hclient : fd ∉ s.clients.keySet) :
    (stopCloses s).count fd = if s.socket = some fd then 1 else 0 := by
  have hnone := notMem_clientCloses hsound.entries (mem_keySet_iff.not.mp hclient)
  rw [stopCloses_eq, List.count_append, List.count_eq_zero_of_not_mem hnone, Nat.zero_add]
  cases s.socket with
  | none => rfl
  | some g => simpa using count_closesOf hpos g

/-- **A client that is there when the server is stopped** is closed twice. -/
theorem two_le_count_stopCloses (hsound : s.Sound) {fd : Nat} (hpos : 0 < fd)
    (hclient : fd ∈ s.clients.keySet) : 2 ≤ (stopCloses s).count fd := by
  have htwo := two_le_count_clientCloses hsound.entries hpos (mem_keySet_iff.mp hclient)
  rw [stopCloses_eq, List.count_append]
  omega

/-! ## Runs with their descriptors

`Tracked` is the server with the account of the kernel: which descriptors are open, and what has
been closed. The kernel hands out what is not open. -/

/-- A server, what has become of every descriptor so far, and what `::accept` has returned. -/
structure Tracked (η : Type) where
  server : TcpServer η
  log : List (Use Nat)
  accepted : List Nat

/-- A server whose listening socket has just been made. -/
def Tracked.fresh (s : TcpServer η) (socket : Nat) : Tracked η :=
  ⟨s, [.acquired socket], []⟩

/-- One call. The kernel gives descriptors that are not in use. -/
def Tracked.step (handle : Message → EStateM Fault η Message) (p : Tracked η) (c : ServerCall) :
    Option (Tracked η) :=
  if (p.server.given c).Nodup ∧ ∀ fd ∈ p.server.given c, ¬ Held fd p.log then
    (TcpServer.step handle p.server c).map fun s' => {
      server := s'
      log := p.log ++ uses (p.server.given c) (closedSince p.server s')
      accepted := p.accepted ++ p.server.accepts c }
  else none

/-- After the destructor. -/
def Tracked.destroyed (p : Tracked η) : Tracked η :=
  let s' := finalState (destroy.run p.server)
  { p with server := s', log := p.log ++ uses [] (closedSince p.server s') }

/-- **Each accepted descriptor is closed exactly once**, by the time the server has been
destroyed. -/
def Tracked.ClosedOnce (p : Tracked η) : Prop :=
  ∀ fd > 0, fd ∈ p.accepted → ReleasedOnce fd p.destroyed.log

/-- The call forgets no descriptor and closes none twice. -/
def Careful (s : TcpServer η) : ServerCall → Prop
  | .acceptNewClient (.temporaryFailed fd) => s.running = true → fd = 0
  | .acceptNewClient (.connected fd _) =>
    s.running = true → s.stopAccepting = some true → fd = 0
  | .stop => s.running = true → ∀ fd ∈ s.clients.keySet, fd = 0
  | _ => True

/-- The descriptor belongs to a client, or to the listening socket. -/
def Owns (s : TcpServer η) (fd : Nat) : Prop :=
  fd ∈ s.clients.keySet ∨ s.socket = some fd

/-- A step closes only what the server owns and what the call has been given, and goes on with
nothing else. -/
theorem FdStep.frame {c : ServerCall} {closes : List Nat} (h : FdStep s c closes s') {fd : Nat}
    (hsound : s.Sound) (hpos : 0 < fd) (howns : ¬ s.Owns fd) (hgiven : fd ∉ s.given c) :
    fd ∉ closes ∧ ¬ s'.Owns fd := by
  obtain ⟨hclient, hsocket⟩ := not_or.mp howns
  have hsame : SameOwner s s' → ¬ s'.Owns fd := fun hsame => by
    rw [Owns, hsame.clients, hsame.socket]
    exact howns
  cases h with
  | quiet _ _ _ _ h => exact ⟨List.not_mem_nil, hsame h⟩
  | stopped _ _ hclients hsocket' =>
    refine ⟨?_, by simp [Owns, hclients, hsocket']⟩
    -- `stop` closes the descriptors of the clients and of the listener only
    rw [← List.count_eq_zero, count_stopCloses hsound hpos hclient, if_neg hsocket]
  | flagsFailed g _ hrunning h =>
    refine ⟨?_, hsame h⟩
    simpa [given, hrunning, AcceptOutcome.accepted, AcceptOutcome.created] using hgiven
  | temporaryFailed g _ hrunning h => exact ⟨List.not_mem_nil, hsame h⟩
  | rejected g temporary _ hrunning hstopped h =>
    have hne : fd ≠ g ∧ fd ≠ temporary := by
      simpa [given, hrunning, AcceptOutcome.accepted, AcceptOutcome.created] using hgiven
    refine ⟨?_, hsame h⟩
    simp [hne, notMem_closesOf hne.1.symm]
  | stored g temporary _ hrunning hopen hclients hsocket' _ =>
    have hne : fd ≠ g ∧ fd ≠ temporary := by
      simpa [given, hrunning, AcceptOutcome.accepted, AcceptOutcome.created] using hgiven
    constructor
    · by_cases hold : g ∈ s.clients.keySet <;> simp [hold, hne, notMem_closesOf hne.1.symm]
    · simp [Owns, hclients, hsocket', hne, hclient, hsocket]
  | removed g _ _ _ hg hclients hsocket' _ =>
    have hne : g ≠ fd := by
      rintro rfl
      exact hclient hg
    refine ⟨notMem_closesOf hne, ?_⟩
    simp [Owns, hclients, hsocket', hclient, hsocket]

/-! ## The invariants

`Base` holds in every run, `Tidy` as long as every call is careful. A call that is not leaves
something `Lost`, and nothing finds it again. -/

/-- A server that does not run has no clients. -/
def Idle (s : TcpServer η) : Prop :=
  s.running = false → s.clients.keySet = ∅

/-- What holds in every run. -/
structure Tracked.Base (p : Tracked η) : Prop where
  sound : p.server.Sound
  idle : p.server.Idle
  accepted : ∀ fd ∈ p.server.clients.keySet, fd ∈ p.accepted

/-- Nothing has gone wrong yet: the open descriptors are the ones that the server owns. -/
structure Tracked.Tidy (p : Tracked η) : Prop where
  orderly : ∀ fd > 0, Orderly fd p.log
  held : ∀ fd > 0, Held fd p.log ↔ p.server.Owns fd
  exclusive : ∀ fd ∈ p.server.clients.keySet, 0 < fd → p.server.socket ≠ some fd

/-- An accepted descriptor has been closed too often, or is open and nobody's. -/
def Tracked.Lost (p : Tracked η) : Prop :=
  ∃ fd > 0, fd ∈ p.accepted ∧ (¬ Orderly fd p.log ∨ Held fd p.log ∧ ¬ p.server.Owns fd)

/-- The inversion of a tracked step. -/
theorem Tracked.step_cases {p p' : Tracked η} {c : ServerCall} (hsound : p.server.Sound)
    (h : p.step handle c = some p') : ∃ closes, FdStep p.server c closes p'.server ∧
      p'.log = p.log ++ uses (p.server.given c) closes ∧
      p'.accepted = p.accepted ++ p.server.accepts c ∧ p'.server.Sound ∧
      (p.server.given c).Nodup ∧ ∀ fd ∈ p.server.given c, ¬ Held fd p.log := by
  unfold Tracked.step at h
  split at h
  · next hkernel =>
    obtain ⟨s', hstep, rfl⟩ := Option.map_eq_some_iff.mp h
    exact ⟨_, step_closes hsound hstep, rfl, rfl,
      sound_step hsound (TcpServer.step_cases hstep), hkernel⟩
  · cases h

/-- A server that does not run has no clients, and no call changes that. -/
theorem FdStep.idle {c : ServerCall} {closes : List Nat} (h : FdStep s c closes s')
    (hidle : s.Idle) : s'.Idle := by
  have hsame : SameOwner s s' → s'.Idle := fun hsame hstill => by
    rw [hsame.clients]
    exact hidle (hsame.running hstill)
  cases h with
  | quiet _ _ _ _ h => exact hsame h
  | stopped _ _ hclients _ => exact fun _ => by simp [hclients]
  | flagsFailed _ _ _ h => exact hsame h
  | temporaryFailed _ _ _ h => exact hsame h
  | rejected _ _ _ _ _ h => exact hsame h
  | stored _ _ _ _ _ _ _ hstill =>
    intro hidle'
    rw [hstill] at hidle'
    cases hidle'
  | removed g _ _ _ _ hclients _ hrunning =>
    intro hidle'
    rw [hclients, hidle (hrunning ▸ hidle')]
    rfl

/-- New clients have been accepted in the call. -/
theorem FdStep.mem_clients {c : ServerCall} {closes : List Nat} (h : FdStep s c closes s')
    {fd : Nat}
    (hfd : fd ∈ s'.clients.keySet) : fd ∈ s.clients.keySet ∨ fd ∈ s.accepts c := by
  have hsame : SameOwner s s' → fd ∈ s.clients.keySet ∨ fd ∈ s.accepts c := fun hsame =>
    .inl (hsame.clients ▸ hfd)
  cases h with
  | quiet _ _ _ _ h => exact hsame h
  | stopped _ _ hclients _ => simp [hclients] at hfd
  | flagsFailed _ _ _ h => exact hsame h
  | temporaryFailed _ _ _ h => exact hsame h
  | rejected _ _ _ _ _ h => exact hsame h
  | stored g temporary _ hrunning _ hclients _ _ =>
    rw [hclients] at hfd
    rcases Finset.mem_insert.mp hfd with rfl | hold
    · rw [accepts_of_running hrunning]
      exact .inr (List.mem_singleton_self fd)
    · exact .inl hold
  | removed g _ _ _ _ hclients _ _ =>
    rw [hclients] at hfd
    exact .inl (Finset.mem_of_mem_erase hfd)

/-- Each call keeps the base: a new client is one that `::accept` has returned in this call. -/
theorem Tracked.base_step {p p' : Tracked η} {c : ServerCall} (h : p.Base)
    (hstep : p.step handle c = some p') : p'.Base := by
  obtain ⟨closes, hfdstep, -, haccepted, hsound', -, -⟩ := Tracked.step_cases h.sound hstep
  refine ⟨hsound', hfdstep.idle h.idle, fun fd hfd => ?_⟩
  rw [haccepted]
  rcases hfdstep.mem_clients hfd with hold | hnew
  · exact List.mem_append_left _ (h.accepted fd hold)
  · exact List.mem_append_right _ hnew

/-- What is lost stays lost. -/
theorem Tracked.lost_step {p p' : Tracked η} {c : ServerCall} (hbase : p.Base) (h : p.Lost)
    (hstep : p.step handle c = some p') : p'.Lost := by
  obtain ⟨closes, hfdstep, hlog, haccepted, -, -, hkernel⟩ :=
    Tracked.step_cases hbase.sound hstep
  obtain ⟨fd, hpos, hin, hlost⟩ := h
  refine ⟨fd, hpos, haccepted ▸ List.mem_append_left _ hin, ?_⟩
  rw [hlog]
  rcases hlost with hdisorder | ⟨hheld, howns⟩
  · exact .inl fun horderly => hdisorder horderly.of_append
  · -- the kernel does not give it again, and nobody closes it
    have hgiven : fd ∉ p.server.given c := fun hmem => hkernel fd hmem hheld
    obtain ⟨hcloses, howns'⟩ := hfdstep.frame hbase.sound hpos howns hgiven
    exact .inr ⟨(held_append_of_notMem hgiven hcloses).mpr hheld, howns'⟩

/-- What a careful call may do to one descriptor. -/
inductive Turn (s s' : TcpServer η) (given closes : List Nat) (fd : Nat) : Prop where
  | untouched (hgiven : fd ∉ given) (hcloses : fd ∉ closes) (howns : s'.Owns fd ↔ s.Owns fd)
  | passing (hgiven : given.count fd = 1) (hcloses : closes.count fd = 1) (howns : ¬ s'.Owns fd)
  | taken (hgiven : given.count fd = 1) (hcloses : fd ∉ closes) (howns : s'.Owns fd)
  | dropped (hgiven : fd ∉ given) (hcloses : closes.count fd = 1) (hbefore : s.Owns fd)
      (howns : ¬ s'.Owns fd)

/-- Each of the four keeps the descriptor in order. -/
theorem Turn.keeps {given closes : List Nat} {fd : Nat} {log : List (Use Nat)}
    (h : Turn s s' given closes fd) (horderly : Orderly fd log) (hheld : Held fd log ↔ s.Owns fd)
    (hfree : fd ∈ given → ¬ Held fd log) :
    Orderly fd (log ++ uses given closes) ∧ (Held fd (log ++ uses given closes) ↔ s'.Owns fd) := by
  cases h with
  | untouched hgiven hcloses howns =>
    rw [orderly_append_of_notMem hgiven hcloses, held_append_of_notMem hgiven hcloses, howns]
    exact ⟨horderly, hheld⟩
  | passing hgiven hcloses howns =>
    have hmem : fd ∈ given := List.count_pos_iff.mp (by omega)
    obtain ⟨horderly', hfree'⟩ := horderly.both (hfree hmem) hgiven hcloses
    exact ⟨horderly', iff_of_false hfree' howns⟩
  | taken hgiven hcloses howns =>
    have hmem : fd ∈ given := List.count_pos_iff.mp (by omega)
    obtain ⟨horderly', hheld'⟩ := horderly.acquire (hfree hmem) hgiven hcloses
    exact ⟨horderly', iff_of_true hheld' howns⟩
  | dropped hgiven hcloses hbefore howns =>
    obtain ⟨horderly', hfree'⟩ := horderly.release (hheld.mpr hbefore) hgiven hcloses
    exact ⟨horderly', iff_of_false hfree' howns⟩

/-- The same owners own the same descriptors. -/
theorem SameOwner.owns_iff (h : SameOwner s s') (fd : Nat) : s'.Owns fd ↔ s.Owns fd := by
  rw [Owns, Owns, h.clients, h.socket]

/-- When no client has a descriptor, `stop` closes the listening socket and nothing else. -/
theorem Turn.of_stop (hsound : s.Sound) {fd : Nat} (hpos : 0 < fd)
    (hclient : fd ∉ s.clients.keySet) (hclients : s'.clients = ∅) (hsocket : s'.socket = none) :
    Turn s s' [] (stopCloses s) fd := by
  have hcount := count_stopCloses hsound hpos hclient
  have hgone : ¬ s'.Owns fd := by simp [Owns, hclients, hsocket]
  by_cases hlistening : s.socket = some fd
  · rw [if_pos hlistening] at hcount
    exact .dropped List.not_mem_nil hcount (.inr hlistening) hgone
  · rw [if_neg hlistening, List.count_eq_zero] at hcount
    exact .untouched List.not_mem_nil hcount
      (iff_of_false hgone (not_or.mpr ⟨hclient, hlistening⟩))

/-- A connection whose flags cannot be set is closed at once. -/
theorem Turn.of_flagsFailed {g fd : Nat} (hpos : 0 < fd) (hfree : ∀ k ∈ [g], 0 < k → ¬ s.Owns k)
    (hsame : SameOwner s s') : Turn s s' [g] [g] fd := by
  by_cases hg : g = fd
  · subst hg
    refine .passing (List.count_singleton_self ..) (List.count_singleton_self ..) ?_
    rw [hsame.owns_iff]
    exact hfree g (List.mem_singleton_self g) hpos
  · have hnot : fd ∉ [g] := by simpa using Ne.symm hg
    exact .untouched hnot hnot (hsame.owns_iff fd)

/-- Of a rejected connection the descriptor of the temporary socket is closed, and its own, which a
careful call gets only as 0, is not. -/
theorem Turn.of_rejected {temporary fd : Nat} (hpos : 0 < fd)
    (hfree : ∀ k ∈ [0, temporary], 0 < k → ¬ s.Owns k) (hsame : SameOwner s s') :
    Turn s s' [0, temporary] (temporary :: 0 :: closesOf 0) fd := by
  have hzero : fd ∉ closesOf 0 := notMem_closesOf hpos.ne
  by_cases htemporary : temporary = fd
  · subst htemporary
    refine .passing ?_ ?_ ?_
    · simp [hpos.ne]
    · simp [hpos.ne, List.count_eq_zero_of_not_mem hzero]
    · rw [hsame.owns_iff]
      exact hfree temporary (by simp) hpos
  · refine .untouched ?_ ?_ (hsame.owns_iff fd)
    · simp [hpos.ne', Ne.symm htemporary]
    · simp [hpos.ne', Ne.symm htemporary, hzero]

/-- A connection that is stored keeps its descriptor, and the temporary socket is closed. -/
theorem Turn.of_stored {g temporary fd : Nat} (hpos : 0 < fd) (hne : g ≠ temporary)
    (hfree : ∀ k ∈ [g, temporary], 0 < k → ¬ s.Owns k)
    (hclients : s'.clients.keySet = insert g s.clients.keySet) (hsocket : s'.socket = s.socket) :
    Turn s s' [g, temporary]
      (temporary :: if g ∈ s.clients.keySet then closesOf g else []) fd := by
  -- a client that was there under this descriptor would hold it
  have hold : fd ∉ if g ∈ s.clients.keySet then closesOf g else [] := by
    split
    · next hin =>
      refine notMem_closesOf ?_
      rintro rfl
      exact hfree g (by simp) hpos (.inl hin)
    · exact List.not_mem_nil
  have howns : s'.Owns fd ↔ fd = g ∨ s.Owns fd := by
    rw [Owns, hclients, hsocket, Finset.mem_insert, or_assoc]
    rfl
  by_cases hg : g = fd
  · subst hg
    refine .taken ?_ ?_ (howns.mpr (.inl rfl))
    · simp [hne.symm]
    · exact List.not_mem_cons_of_ne_of_not_mem hne hold
  by_cases htemporary : temporary = fd
  · subst htemporary
    refine .passing ?_ ?_ ?_
    · simp [hne]
    · rw [List.count_cons_self, List.count_eq_zero_of_not_mem hold]
    · rw [howns]
      exact not_or.mpr ⟨Ne.symm hg, hfree temporary (by simp) hpos⟩
  · refine .untouched ?_ ?_ ?_
    · simp [Ne.symm hg, Ne.symm htemporary]
    · exact List.not_mem_cons_of_ne_of_not_mem (Ne.symm htemporary) hold
    · rw [howns]
      exact or_iff_right (Ne.symm hg)

/-- A client that is removed gives up its descriptor. -/
theorem Turn.of_removed {g fd : Nat} (hpos : 0 < fd) (hg : g ∈ s.clients.keySet)
    (hexclusive : ∀ k ∈ s.clients.keySet, 0 < k → s.socket ≠ some k)
    (hclients : s'.clients.keySet = s.clients.keySet.erase g) (hsocket : s'.socket = s.socket) :
    Turn s s' [] (closesOf g) fd := by
  by_cases hfd : g = fd
  · subst hfd
    refine .dropped List.not_mem_nil (by simp [count_closesOf hpos]) (.inl hg) ?_
    simp [Owns, hclients, hsocket, hexclusive g hg hpos]
  · refine .untouched List.not_mem_nil (notMem_closesOf hfd) ?_
    simp [Owns, hclients, hsocket, Ne.symm hfd]

/-- **A careful step** gives every descriptor one of the four turns. -/
theorem FdStep.turn {c : ServerCall} {closes : List Nat} (h : FdStep s c closes s')
    (hsound : s.Sound) (hcareful : s.Careful c) (hnodup : (s.given c).Nodup)
    (hfree : ∀ fd ∈ s.given c, 0 < fd → ¬ s.Owns fd)
    (hexclusive : ∀ fd ∈ s.clients.keySet, 0 < fd → s.socket ≠ some fd) {fd : Nat} (hpos : 0 < fd) :
    Turn s s' (s.given c) closes fd := by
  cases h with
  | quiet _ _ hgiven _ hsame =>
    rw [hgiven]
    exact .untouched List.not_mem_nil List.not_mem_nil (hsame.owns_iff fd)
  | stopped _ hrunning hclients hsocket =>
    -- a careful `stop` finds no client with a descriptor that can be closed
    have hclient : fd ∉ s.clients.keySet := fun hmem => hpos.ne' (hcareful hrunning fd hmem)
    exact .of_stop hsound hpos hclient hclients hsocket
  | flagsFailed g _ hrunning hsame =>
    have hgiven : s.given (.acceptNewClient (.flagsFailed g)) = [g] :=
      given_of_running hrunning _
    rw [hgiven] at hfree ⊢
    exact .of_flagsFailed hpos hfree hsame
  | temporaryFailed g _ hrunning hsame =>
    obtain rfl : g = 0 := hcareful hrunning
    have hgiven : s.given (.acceptNewClient (.temporaryFailed 0)) = [0] :=
      given_of_running hrunning _
    rw [hgiven]
    exact .untouched (by simp [hpos.ne']) List.not_mem_nil (hsame.owns_iff fd)
  | rejected g temporary _ hrunning hstopped hsame =>
    obtain rfl : g = 0 := hcareful hrunning hstopped
    have hgiven : s.given (.acceptNewClient (.connected 0 temporary)) = [0, temporary] :=
      given_of_running hrunning _
    rw [hgiven] at hfree ⊢
    exact .of_rejected hpos hfree hsame
  | stored g temporary _ hrunning hopen hclients hsocket _ =>
    have hgiven : s.given (.acceptNewClient (.connected g temporary)) = [g, temporary] :=
      given_of_running hrunning _
    rw [hgiven] at hfree hnodup ⊢
    exact .of_stored hpos (by simpa using hnodup) hfree hclients hsocket
  | removed g _ _ _ hg hclients hsocket _ => exact .of_removed hpos hg hexclusive hclients hsocket

/-- No client has the descriptor of the listening socket. -/
theorem FdStep.exclusive {c : ServerCall} {closes : List Nat} (h : FdStep s c closes s')
    (hfree : ∀ fd ∈ s.given c, 0 < fd → ¬ s.Owns fd)
    (hexclusive : ∀ fd ∈ s.clients.keySet, 0 < fd → s.socket ≠ some fd) :
    ∀ fd ∈ s'.clients.keySet, 0 < fd → s'.socket ≠ some fd := by
  have hsame : SameOwner s s' → ∀ fd ∈ s'.clients.keySet, 0 < fd → s'.socket ≠ some fd := by
    intro hsame
    rw [hsame.clients, hsame.socket]
    exact hexclusive
  cases h with
  | quiet _ _ _ _ h => exact hsame h
  | stopped _ _ hclients _ => simp [hclients]
  | flagsFailed _ _ _ h => exact hsame h
  | temporaryFailed _ _ _ h => exact hsame h
  | rejected _ _ _ _ _ h => exact hsame h
  | stored g temporary _ hrunning _ hclients hsocket _ =>
    intro fd hfd hpos
    rw [hclients] at hfd
    rw [hsocket]
    -- the kernel gives no descriptor that is in use
    rcases Finset.mem_insert.mp hfd with rfl | hold
    · have hgiven : fd ∈ s.given (.acceptNewClient (.connected fd temporary)) := by
        rw [given_of_running hrunning]
        exact List.mem_cons_self
      exact fun heq => hfree fd hgiven hpos (.inr heq)
    · exact hexclusive fd hold hpos
  | removed g _ _ _ _ hclients hsocket _ =>
    intro fd hfd
    rw [hclients] at hfd
    rw [hsocket]
    exact hexclusive fd (Finset.mem_of_mem_erase hfd)

/-- A careful step keeps everything in order. -/
theorem Tracked.tidy_step {p p' : Tracked η} {c : ServerCall} (hbase : p.Base) (h : p.Tidy)
    (hcareful : p.server.Careful c) (hstep : p.step handle c = some p') : p'.Tidy := by
  obtain ⟨closes, hfdstep, hlog, -, -, hnodup, hkernel⟩ := Tracked.step_cases hbase.sound hstep
  have hfree : ∀ fd ∈ p.server.given c, 0 < fd → ¬ p.server.Owns fd := fun fd hmem hpos howns =>
    hkernel fd hmem ((h.held fd hpos).mpr howns)
  have hkeeps : ∀ fd > 0, Orderly fd p'.log ∧ (Held fd p'.log ↔ p'.server.Owns fd) := by
    intro fd hpos
    rw [hlog]
    exact (hfdstep.turn hbase.sound hcareful hnodup hfree h.exclusive hpos).keeps
      (h.orderly fd hpos) (h.held fd hpos) (hkernel fd)
  exact {
    orderly := fun fd hpos => (hkeeps fd hpos).1
    held := fun fd hpos => (hkeeps fd hpos).2
    exclusive := hfdstep.exclusive hfree h.exclusive }

/-- **A careless step loses a descriptor.** -/
theorem Tracked.lost_of_careless {p p' : Tracked η} {c : ServerCall} (hbase : p.Base) (h : p.Tidy)
    (hcareless : ¬ p.server.Careful c) (hstep : p.step handle c = some p') : p'.Lost := by
  obtain ⟨closes, hfdstep, hlog, haccepted, -, -, hkernel⟩ :=
    Tracked.step_cases hbase.sound hstep
  cases hfdstep with
  | quiet _ _ hgiven hstop _ =>
    refine absurd ?_ hcareless
    cases c with
    | stop => simp [Careful, hstop rfl]
    | acceptNewClient outcome =>
      cases outcome with
      | temporaryFailed fd =>
        intro hrunning
        simp [given, hrunning, AcceptOutcome.accepted] at hgiven
      | connected fd temporary =>
        intro hrunning
        simp [given, hrunning, AcceptOutcome.accepted] at hgiven
      | _ => trivial
    | _ => trivial
  | stopped _ hrunning _ _ =>
    simp only [Careful, not_forall] at hcareless
    -- `stop` closes this client twice
    obtain ⟨-, fd, hclient, hzero⟩ := hcareless
    have hpos : 0 < fd := Nat.pos_of_ne_zero hzero
    refine ⟨fd, hpos, ?_, .inl ?_⟩
    · rw [haccepted]
      exact List.mem_append_left _ (hbase.accepted fd hclient)
    · rw [hlog]
      exact not_orderly_twice (two_le_count_stopCloses hbase.sound hpos hclient)
  | flagsFailed _ _ _ _ => exact absurd trivial hcareless
  | temporaryFailed fd _ hrunning hsame =>
    have hzero : fd ≠ 0 := fun hzero => hcareless fun _ => hzero
    have hpos : 0 < fd := Nat.pos_of_ne_zero hzero
    -- the descriptor has been accepted, and nobody owns it
    have hgiven : p.server.given (.acceptNewClient (.temporaryFailed fd)) = [fd] :=
      given_of_running hrunning _
    rw [hgiven] at hlog hkernel
    have hfree := hkernel fd (List.mem_singleton_self fd)
    refine ⟨fd, hpos, ?_, .inr ⟨?_, ?_⟩⟩
    · rw [haccepted, accepts_of_running hrunning]
      exact List.mem_append_right _ (List.mem_singleton_self fd)
    · rw [hlog]
      exact ((h.orderly fd hpos).acquire hfree (by simp) List.not_mem_nil).2
    · rw [Owns, hsame.clients, hsame.socket]
      exact fun howns => hfree ((h.held fd hpos).mpr howns)
  | rejected fd temporary _ hrunning _ _ =>
    have hzero : fd ≠ 0 := fun hzero => hcareless fun _ _ => hzero
    have hpos : 0 < fd := Nat.pos_of_ne_zero hzero
    refine ⟨fd, hpos, ?_, .inl ?_⟩
    · rw [haccepted, accepts_of_running hrunning]
      exact List.mem_append_right _ (List.mem_singleton_self fd)
    · rw [hlog]
      -- `close(clientFd)` and then the destructor of the socket
      refine not_orderly_twice ?_
      have hcount : (fd :: closesOf fd).count fd = 2 := by
        rw [List.count_cons_self, count_closesOf hpos, if_pos rfl]
      rw [← hcount]
      exact List.count_le_count_cons
  | stored _ _ _ _ hopen _ _ _ =>
    refine absurd ?_ hcareless
    intro _ hstopped
    rw [hopen] at hstopped
    cases hstopped
  | removed _ _ _ _ _ _ _ _ => exact absurd trivial hcareless

/-- A step from a tidy state leaves a tidy one or loses a descriptor. -/
theorem Tracked.either_step {p p' : Tracked η} {c : ServerCall} (h : p.Base ∧ (p.Tidy ∨ p.Lost))
    (hstep : p.step handle c = some p') : p'.Base ∧ (p'.Tidy ∨ p'.Lost) := by
  obtain ⟨hbase, htidy | hlost⟩ := h
  · refine ⟨Tracked.base_step hbase hstep, ?_⟩
    by_cases hcareful : p.server.Careful c
    · exact .inl (Tracked.tidy_step hbase htidy hcareful hstep)
    · exact .inr (Tracked.lost_of_careless hbase htidy hcareful hstep)
  · exact ⟨Tracked.base_step hbase hstep, .inr (Tracked.lost_step hbase hlost hstep)⟩

/-! ## The destructor

The destructor stops a running server, clients included. A server that does not run has no clients,
and only its listening socket is left to close. -/

/-- What the destructor closes. -/
def destroyCloses (s : TcpServer η) : List Nat :=
  if s.running then stopCloses s else s.socket.elim [] closesOf

/-- The destructor stops a running server; otherwise there are no clients, and it closes the
listening socket. -/
theorem destroy_run (hidle : s.Idle) :
    ∃ s', destroy.run s = .ok () s' ∧ s'.trace = s.trace ++ (destroyCloses s).map .closed := by
  by_cases hrunning : s.running = true
  · -- `stop` leaves nothing to destroy
    exact ⟨_, by simp [destroy, hrunning, stop_run hrunning, destroyClients]; rfl,
      by simp [destroyCloses, hrunning]⟩
  · have hnone : s.clients.entries = [] := by
      have hkeys : s.clients.keySet.card = 0 := by
        rw [hidle (by simpa using hrunning)]
        rfl
      rw [UnorderedMap.card_keySet] at hkeys
      exact List.length_eq_zero_iff.mp hkeys
    cases hsocket : s.socket with
    | none =>
      exact ⟨s, by simp [destroy, hrunning, hnone, destroyClients, hsocket],
        by simp [destroyCloses, hrunning, hsocket]⟩
    | some fd =>
      exact ⟨_, by simp [destroy, hrunning, hnone, destroyClients, hsocket, closeSocket_run]; rfl,
        by simp [destroyCloses, hrunning, hsocket]⟩

/-- What the destructor closes comes last in the log. -/
theorem Tracked.destroyed_log {p : Tracked η} (h : p.Base) :
    p.destroyed.log = p.log ++ uses [] (destroyCloses p.server) := by
  obtain ⟨s', hrun, htrace⟩ := destroy_run h.idle
  simp only [Tracked.destroyed, hrun, finalState_ok, closedSince_eq htrace, closedFds_map_closed]

/-- If the server has no clients at its end, its destructor closes the listening socket once, and no
other descriptor. -/
theorem count_destroyCloses (hsound : s.Sound) (hcareful : s.Careful .stop) {fd : Nat}
    (hpos : 0 < fd) :
    (destroyCloses s).count fd = if s.socket = some fd then 1 else 0 := by
  unfold destroyCloses
  split
  · next hrunning =>
    exact count_stopCloses hsound hpos fun hmem => hpos.ne' (hcareful hrunning fd hmem)
  · cases s.socket with
    | none => rfl
    | some g => simpa using count_closesOf hpos g

/-- A tidy server that is carefully destroyed has closed every accepted descriptor once, -/
theorem Tracked.closedOnce_of_tidy {p : Tracked η} (hbase : p.Base) (h : p.Tidy)
    (hcareful : p.server.Careful .stop) : p.ClosedOnce := by
  intro fd hpos _
  have hcount := count_destroyCloses hbase.sound hcareful hpos
  rw [Tracked.destroyed_log hbase]
  by_cases hsocket : p.server.socket = some fd
  · rw [if_pos hsocket] at hcount
    obtain ⟨horderly, hfree⟩ := (h.orderly fd hpos).release
      ((h.held fd hpos).mpr (.inr hsocket)) List.not_mem_nil hcount
    exact ⟨horderly, hfree⟩
  · rw [if_neg hsocket, List.count_eq_zero] at hcount
    have hclient : fd ∉ p.server.clients.keySet := by
      intro hmem
      by_cases hrunning : p.server.running = true
      · exact hpos.ne' (hcareful hrunning fd hmem)
      · rw [hbase.idle (by simpa using hrunning)] at hmem
        cases hmem
    refine ⟨(orderly_append_of_notMem List.not_mem_nil hcount).mpr (h.orderly fd hpos), ?_⟩
    rw [held_append_of_notMem List.not_mem_nil hcount, h.held fd hpos]
    exact not_or.mpr ⟨hclient, hsocket⟩

/-- but what is lost is not found again by the destructor, -/
theorem Tracked.not_closedOnce_of_lost {p : Tracked η} (hbase : p.Base) (h : p.Lost) :
    ¬ p.ClosedOnce := by
  intro hclosed
  obtain ⟨fd, hpos, hin, hlost⟩ := h
  have honce := hclosed fd hpos hin
  rw [Tracked.destroyed_log hbase] at honce
  rcases hlost with hdisorder | ⟨hheld, howns⟩
  · exact hdisorder honce.toOrderly.of_append
  · obtain ⟨hclient, hsocket⟩ := not_or.mp howns
    have hcloses : fd ∉ destroyCloses p.server := by
      rw [← List.count_eq_zero, destroyCloses]
      split
      · rw [count_stopCloses hbase.sound hpos hclient, if_neg hsocket]
      · cases hfd : p.server.socket with
        | none => rfl
        | some g =>
          have hne : g ≠ fd := by
            rintro rfl
            exact hsocket hfd
          simpa using List.count_eq_zero_of_not_mem (notMem_closesOf hne)
    exact honce.free ((held_append_of_notMem List.not_mem_nil hcloses).mpr hheld)

/-- and a destructor with clients closes them twice. -/
theorem Tracked.not_closedOnce_of_careless {p : Tracked η} (hbase : p.Base)
    (hcareless : ¬ p.server.Careful .stop) : ¬ p.ClosedOnce := by
  intro hclosed
  simp only [Careful, not_forall] at hcareless
  obtain ⟨hrunning, fd, hclient, hzero⟩ := hcareless
  have hpos : 0 < fd := Nat.pos_of_ne_zero hzero
  have honce := hclosed fd hpos (hbase.accepted fd hclient)
  rw [Tracked.destroyed_log hbase, destroyCloses, if_pos hrunning] at honce
  exact not_orderly_twice (two_le_count_stopCloses hbase.sound hpos hclient) honce.toOrderly

/-! ## Whole runs

A careful run stays tidy to its end; any other has lost a descriptor on the way. -/

/-- A new server has no clients and is sound, -/
theorem Tracked.base_fresh {handler : η} {socket : Nat}
    (hs : s = constructed handler socket ∨ s = constructedWith handler socket) :
    (Tracked.fresh s socket).Base := by
  have hclients : s.clients = ∅ := by rcases hs with rfl | rfl <;> rfl
  refine ⟨fun fd client hlookup => ?_, fun _ => ?_, fun fd hfd => ?_⟩
  · simp [Tracked.fresh, hclients] at hlookup
  · simp [Tracked.fresh, hclients]
  · simp [Tracked.fresh, hclients] at hfd

/-- and owns the one descriptor that is open. -/
theorem Tracked.tidy_fresh {handler : η} {socket : Nat}
    (hs : s = constructed handler socket ∨ s = constructedWith handler socket) :
    (Tracked.fresh s socket).Tidy := by
  have hclients : s.clients = ∅ := by rcases hs with rfl | rfl <;> rfl
  have hsocket : s.socket = some socket := by rcases hs with rfl | rfl <;> rfl
  -- the history has one entry: the listening socket
  have hheld : ∀ fd, Orderly fd [Use.acquired socket] ∧
      (Held fd [Use.acquired socket] ↔ socket = fd) := by
    intro fd
    by_cases hfd : socket = fd
    · subst hfd
      obtain ⟨horderly, hheld⟩ := (orderly_nil : Orderly socket []).acquire
        (by simp [Held, history])
        (List.count_singleton_self ..) (List.not_mem_nil : socket ∉ [])
      exact ⟨horderly, iff_of_true hheld rfl⟩
    · have hnot : fd ∉ [socket] := by simpa using Ne.symm hfd
      refine ⟨(orderly_append_of_notMem hnot (List.not_mem_nil : fd ∉ [])).mpr orderly_nil,
        iff_of_false ?_ hfd⟩
      simp [Held, history, Use.handle, hfd]
  refine ⟨fun fd _ => (hheld fd).1, fun fd _ => ?_, fun fd hfd => ?_⟩
  · rw [Tracked.fresh, (hheld fd).2]
    simp [Owns, hclients, hsocket]
  · simp [Tracked.fresh, hclients] at hfd

/-- **Each accepted descriptor is closed exactly once, exactly if every call is careful.** For
every run of a server made by one of its constructors, with any answers of the kernel: the
descriptors of `::accept` are all closed exactly once by the time the server has been destroyed, if
and only if `TcpSocket::accept` never failed to make its temporary socket, no connection was
accepted after `stopAccepting`, and no client was there when the server was stopped or
destroyed. -/
theorem closedOnce_iff {handler : η} {socket : Nat}
    (hs : s = constructed handler socket ∨ s = constructedWith handler socket)
    {calls : List ServerCall} {p : Tracked η}
    (hrun : Run.exec (Tracked.step handle) (.fresh s socket) calls = some p) :
    p.ClosedOnce ↔
      Run.Along (Tracked.step handle) (fun q c => q.server.Careful c) (.fresh s socket) calls ∧
        p.server.Careful .stop := by
  constructor
  · intro hclosed
    have hinv : ∀ {is q}, Run.exec (Tracked.step handle) (.fresh s socket) is = some q →
        q.Base ∧ (q.Tidy ∨ q.Lost) :=
      fun h => Run.exec_invariant (fun _ _ _ h hstep => Tracked.either_step h hstep)
        ⟨Tracked.base_fresh hs, .inl (Tracked.tidy_fresh hs)⟩ h
    -- what is lost on the way is lost at the end
    have hlost : ∀ t c t', t.Base ∧ t.Lost → Tracked.step handle t c = some t' →
        t'.Base ∧ t'.Lost :=
      fun _ _ _ h hstep => ⟨Tracked.base_step h.1 hstep, Tracked.lost_step h.1 h.2 hstep⟩
    have hkept : ∀ {q post}, q.Base → Run.exec (Tracked.step handle) q post = some p →
        ¬ q.Lost := by
      intro q post hbase hpost hq
      have hend := Run.exec_invariant hlost ⟨hbase, hq⟩ hpost
      exact Tracked.not_closedOnce_of_lost hend.1 hend.2 hclosed
    refine ⟨Run.along_of_steps hrun fun pre c post q v _ hq hv hrest => ?_, ?_⟩
    · obtain ⟨hbase, hstate⟩ := hinv hq
      have htidy := hstate.resolve_right
        (hkept hbase (Run.exec_cons_eq_some.mpr ⟨v, hv, hrest⟩))
      by_contra hcareless
      exact hkept (Tracked.base_step hbase hv) hrest
        (Tracked.lost_of_careless hbase htidy hcareless hv)
    · by_contra hcareless
      exact Tracked.not_closedOnce_of_careless (hinv hrun).1 hcareless hclosed
  · rintro ⟨halong, hcareful⟩
    have htidy : ∀ t c t', t.Base ∧ t.Tidy → t.server.Careful c →
        Tracked.step handle t c = some t' → t'.Base ∧ t'.Tidy :=
      fun _ _ _ h hc hstep => ⟨Tracked.base_step h.1 hstep, Tracked.tidy_step h.1 h.2 hc hstep⟩
    have hend := Run.exec_invariant_along htidy
      ⟨Tracked.base_fresh hs, Tracked.tidy_fresh hs⟩ halong hrun
    exact Tracked.closedOnce_of_tidy hend.1 hend.2 hcareful

/-- A client connects, breaks its connection, and the server is stopped. -/
def orderlyRun : List ServerCall :=
  [.start true, .acceptNewClient (.connected 5 6),
    .handleClientData 5 .throws fun _ => .failed, .stop]

/-- The client is gone when the server is stopped. -/
theorem closedOnce_orderlyRun : ∃ p,
    Run.exec (Tracked.step echo) (.fresh (constructed () 3) 3) orderlyRun = some p ∧
      p.accepted = [5] ∧ p.ClosedOnce := by
  have hrun : Run.exec (Tracked.step echo) (.fresh (constructed () 3) 3) orderlyRun = some _ := rfl
  refine ⟨_, hrun, rfl, (closedOnce_iff (.inl rfl) hrun).mpr ⟨?_, ?_⟩⟩
  · refine ⟨trivial, fun t ht => ⟨?_, fun u hu => ⟨trivial, fun v hv => ⟨?_, fun _ _ => trivial⟩⟩⟩⟩
    · cases ht
      intro _ hstopped
      cases hstopped
    · cases ht
      cases hu
      cases hv
      intro _ fd hfd
      cases hfd
  · intro h
    cases h

/-- A client connects, and the server is stopped. -/
def stoppedRun : List ServerCall :=
  [.start true, .acceptNewClient (.connected 5 6), .stop]

/-- `stop` closes the socket of the client, and then the descriptor once more. -/
theorem not_closedOnce_stoppedRun : ∃ p,
    Run.exec (Tracked.step echo) (.fresh (constructed () 3) 3) stoppedRun = some p ∧
      p.log = [.acquired 3, .acquired 5, .acquired 6, .released 6, .released 5, .released 5,
        .released 3] ∧ ¬ p.ClosedOnce := by
  refine ⟨_, rfl, rfl, fun h => ?_⟩
  have honce := h 5 (by decide) (by decide)
  exact absurd honce.alternates (by decide)

end TcpServer
end Pgw
