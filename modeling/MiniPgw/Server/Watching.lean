import MiniPgw.Server.Frame
import MiniPgw.Server.Turns
import MiniPgw.Tcp.Descriptors

/-!
# The epoll set and the client map

The event loop keeps a client in the epoll set as long as `handleClientData` says that it is
connected; the TCP server keeps it in `m_clients`. The two agree until a registered client has
nothing to receive and its connection is not closed either: `handleClientData` returns 0 on this
path as it does on those that remove the client, so the loop stops watching a client that is still
served (`watches_iff`).

## The architecture

* **`acceptNewClient_reports`**, **`handleClientData_reports`** — the results of the two methods,
  against the client map they leave; the latter outside of `Starves` only.
* **`SameClients`** — what a turn that is not about clients leaves as it is, so that only the
  turns of clients and `stopServers` need an argument.
* **`Watchful`**, **`watchful_turn`** — the two sets agree, and a turn that starves no client
  keeps it so.
* **`not_watches_of_starves`** — a turn that does takes the client out of the epoll set only.
* **`watches_iff`** — both along the run, from `watchful_started`.
-/

namespace Pgw

open Protocol Effects

namespace TcpServer

variable {η : Type} {handle : Message → EStateM Fault η Message} {s s' : TcpServer η}

/-! ## What the methods report

The loop learns of a client's end by the result of the call. The results of `acceptNewClient` and of
`handleClientData` are compared with the client map. -/

/-- `acceptNewClient` returns the descriptor of the client that it has registered. -/
theorem acceptNewClient_reports (outcome : AcceptOutcome) :
    Ensures (acceptNewClient outcome) s
      (fun clientFd s' => clientFd = -1 ∧ s'.clients.keySet = s.clients.keySet ∨
        ∃ fd : Nat, clientFd = fd ∧ s'.clients.keySet = insert fd s.clients.keySet)
      fun _ _ => True := by
  refine (acceptNewClient_ensures outcome).mono (fun clientFd s' h => ?_) fun _ _ _ => trivial
  rcases h with ⟨hnone, honly⟩ | ⟨fd, -, -, hfd, honly⟩
  · exact .inl ⟨hnone, by rw [honly.clients]⟩
  · refine .inr ⟨fd, hfd, ?_⟩
    rw [honly.clients]
    exact UnorderedMap.keySet_insert _ _ _

/-- A registered client has nothing to receive, and the probe does not find its connection
closed. -/
def Starves (s : TcpServer η) (fd : Nat) (received : ReceiveOutcome) : Prop :=
  fd ∈ s.clients.keySet ∧ received = .packet [] false

/-- A key of the map has a client. -/
theorem exists_client {fd : Nat} (h : fd ∈ s.clients.keySet) :
    ∃ client, s.clients.lookup fd = some client :=
  Option.isSome_iff_exists.mp (AList.lookup_isSome.mpr (UnorderedMap.mem_keySet.mp h))

/-- The client stays, and 0 is returned. -/
theorem handleClientData_run_starves {fd : Nat} {received : ReceiveOutcome}
    (h : s.Starves fd received) (sends : Nat → SendOutcome) :
    (handleClientData handle fd received sends).run s = .ok false s := by
  obtain ⟨hclient, rfl⟩ := h
  obtain ⟨client, hlookup⟩ := exists_client hclient
  simp [handleClientData, hlookup]

/-- On every other path the client is there after the call exactly if 1 is returned. -/
theorem handleClientData_reports {fd : Nat} {received : ReceiveOutcome}
    {sends : Nat → SendOutcome} {connected : Bool} (h : ¬ s.Starves fd received)
    (hrun : (handleClientData handle fd received sends).run s = .ok connected s') :
    connected = true ∧ fd ∈ s.clients.keySet ∧ s'.clients.keySet = s.clients.keySet ∨
      connected = false ∧ s'.clients.keySet = s.clients.keySet.erase fd := by
  by_cases hclient : fd ∈ s.clients.keySet
  · obtain ⟨client, hlookup⟩ := exists_client hclient
    have hremove := removeClient_run hlookup
    -- `receive` throws: the catch block removes the client
    have hremoved : (handleClientData handle fd .throws sends).run s = .ok false { s with
        clients := s.clients.erase fd
        trace := s.trace ++ (closesOf client.socket.fd).map .closed } := by
      simp [handleClientData, hlookup, hremove]
    cases received with
    | throws =>
      rw [hremoved] at hrun
      cases hrun
      exact .inr ⟨rfl, UnorderedMap.keySet_erase _ _⟩
    | packet data peekIsZero =>
      by_cases hdata : data = []
      · subst hdata
        cases peekIsZero with
        | false => exact absurd ⟨hclient, rfl⟩ h
        | true =>
          simp [handleClientData, hlookup, hremove] at hrun
          obtain ⟨rfl, rfl⟩ := hrun
          exact .inr ⟨rfl, UnorderedMap.keySet_erase _ _⟩
      · cases hconversation : conversation handle sends 0 s.handler
            (TcpSerializer.framing.parse (client.readBuffer ++ data)).1 with
        | mk exchanges h' broken =>
          cases broken with
          | none =>
            rw [handleClientData_served peekIsZero hlookup hdata hconversation] at hrun
            cases hrun
            exact .inl ⟨rfl, hclient, UnorderedMap.keySet_replace _ _ _⟩
          | some failure =>
            obtain ⟨e, breakage⟩ := failure
            have hbroken := handleClientData_broken peekIsZero hlookup hdata hconversation
            cases e with
            | undefined =>
              obtain ⟨s'', hrun'⟩ := hbroken
              rw [hrun'] at hrun
              cases hrun
            | exception =>
              obtain ⟨s'', hrun', hclients, -⟩ := hbroken
              rw [hrun'] at hrun
              cases hrun
              exact .inr ⟨rfl, UnorderedMap.keySet_of_lookup hclients⟩
  · have hlookup : s.clients.lookup fd = none := by
      rw [AList.lookup_eq_none, ← UnorderedMap.mem_keySet]
      exact hclient
    simp [handleClientData, hlookup] at hrun
    obtain ⟨rfl, rfl⟩ := hrun
    exact .inr ⟨rfl, (Finset.erase_eq_of_notMem hclient).symm⟩

/-- **`handleClientData` returns 0 exactly when the client is not registered any more,** unless it
has found a registered client without data. -/
theorem reports_iff {fd : Nat} {received : ReceiveOutcome} {sends : Nat → SendOutcome}
    {connected : Bool}
    (hrun : (handleClientData handle fd received sends).run s = .ok connected s') :
    (connected = false ↔ fd ∉ s'.clients.keySet) ↔ ¬ s.Starves fd received := by
  by_cases hstarves : s.Starves fd received
  · rw [handleClientData_run_starves hstarves] at hrun
    cases hrun
    simp [hstarves, UnorderedMap.mem_keySet.mp hstarves.1]
  · refine iff_of_true ?_ hstarves
    rcases handleClientData_reports hstarves hrun with ⟨rfl, hclient, hkeys⟩ | ⟨rfl, hkeys⟩
    · rw [hkeys]
      exact iff_of_false (by decide) (not_not.mpr hclient)
    · rw [hkeys]
      exact iff_of_true rfl (Finset.notMem_erase _ _)

end TcpServer

namespace Server

variable {json : JsonLib} {around : Nat → Surroundings} {s s' : Server}

/-- A descriptor is in the epoll set exactly if it is a key of `m_clients`. -/
def Watches (s : Server) : Prop :=
  s.clientsWatched = s.tcpServer.clients.keySet

/-- The turn finds a registered client without data. -/
def Starves (s : Server) : Turn → Prop
  | .event (.client fd received _) => s.tcpServer.Starves fd received
  | _ => False

/-- The call of `handleClientData` in the turn, if any, returns 0 exactly when the client is not
registered any more. -/
def ReportsTruly (json : JsonLib) (around : Nat → Surroundings) (s : Server) (t : Turn) : Prop :=
  ∀ fd received sends connected tcpServer, t = .event (.client fd received sends) →
    (TcpServer.handleClientData (Service.handle json around) fd received sends).run s.tcpServer
      = .ok connected tcpServer →
    (connected = false ↔ fd ∉ tcpServer.clients.keySet)

/-- What holds in every run: each client stands under its own descriptor, and there is none when
the server does not run. -/
structure Served (s : Server) : Prop where
  sound : s.tcpServer.Sound
  idle : s.tcpServer.Idle

/-- Nothing that concerns the clients has changed. -/
structure SameClients (s s' : Server) : Prop where
  watched : s'.clientsWatched = s.clientsWatched
  clients : s'.tcpServer.clients = s.tcpServer.clients
  running : s'.tcpServer.running = s.tcpServer.running

/-- Nothing has changed. -/
theorem SameClients.refl (s : Server) : SameClients s s :=
  ⟨rfl, rfl, rfl⟩

/-- What is not about the clients keeps them served, -/
theorem SameClients.served (h : SameClients s s') (hserved : s.Served) : s'.Served where
  sound := by
    intro fd client hlookup
    exact hserved.sound fd client (h.clients ▸ hlookup)
  idle := by
    intro hidle
    rw [h.clients]
    exact hserved.idle (h.running ▸ hidle)

/-- and watched. -/
theorem SameClients.watches (h : SameClients s s') (hwatches : s.Watches) : s'.Watches := by
  rw [Watches, h.watched, h.clients]
  exact hwatches

/-- No call of the session manager concerns the clients, -/
theorem onManager_sameClients {α : Type} (call : SessionManager.Method α) :
    Preserves (SameClients s) (onManager call) :=
  preserves_zoom_of_put call fun _ _ h => ⟨h.watched, h.clients, h.running⟩

/-- so the loop over the expirations does not either. -/
theorem expire_sameClients (expirations : Nat) :
    Preserves (SameClients s) (expire expirations) := by
  induction expirations with
  | zero => exact preserves_pure ()
  | succ expirations ih =>
    refine (onManager_sameClients SessionManager.shutdownSession).bind fun sessionsAvailable => ?_
    exact Preserves.ite ih (preserves_modify fun _ h => ⟨h.watched, h.clients, h.running⟩)

/-- The turns that do not concern the clients. -/
theorem take_sameClients {t : Turn} (htcp : ∀ outcome, t ≠ .event (.tcp outcome))
    (hclient : ∀ fd received sends, t ≠ .event (.client fd received sends))
    (hbegin : t ≠ .beginIteration) : Preserves (SameClients s) (take json around t) := by
  cases t with
  | beginIteration => exact absurd rfl hbegin
  | event event =>
    cases event with
    | timer expirations =>
      intro u hu
      simp only [take, processEvent, ensures_bind, ensures_get, ensures_ite]
      split
      · exact expire_sameClients expirations u hu
      · exact ⟨hu.watched, hu.clients, hu.running⟩
    | udp receives => exact preserves_zoom_of_put _ fun _ _ h => ⟨h.watched, h.clients, h.running⟩
    | tcp outcome => exact absurd rfl (htcp outcome)
    | client fd received sends => exact absurd rfl (hclient fd received sends)
  | cleanup now cleanupNow =>
    refine preserves_get.bind fun u => Preserves.ite ?_ (preserves_pure ())
    refine (onManager_sameClients _).bind fun _ => ?_
    exact preserves_modify fun _ h => ⟨h.watched, h.clients, h.running⟩
  | failed => exact preserves_modify fun _ h => ⟨h.watched, h.clients, h.running⟩
  | shutdownRequest => exact preserves_modify fun _ h => ⟨h.watched, h.clients, h.running⟩

/-- To start draining sets flags and arms the timer. -/
theorem startShutdown_sameClients : Preserves (SameClients s) startShutdown := by
  intro u hu
  simp only [startShutdown, ensures_bind, ensures_get, ensures_ite]
  split
  · simp only [onTcp, ensures_zoom, TcpServer.setStopAccepting, ensures_modify]
    refine (onManager_sameClients SessionManager.startDraining u hu).mono (fun _ v hv => ?_)
      fun _ _ hv => hv
    exact ⟨hv.watched, hv.clients, hv.running⟩
  · exact hu

/-- The epoll set and the client map agree, in a server that `Served` describes. -/
structure Watchful (s : Server) : Prop extends Served s where
  watches : s.Watches

/-- So a watchful server stays watchful in such a turn. -/
theorem SameClients.watchful (h : SameClients s s') (hwatchful : s.Watchful) : s'.Watchful :=
  ⟨h.served hwatchful.toServed, h.watches hwatchful.watches⟩

/-- `stop` closes the descriptor of every client. -/
theorem TcpServer.mem_stopCloses {η : Type} {s : TcpServer η} {fd : Nat}
    (h : fd ∈ s.clients.keySet) : fd ∈ s.stopCloses := by
  obtain ⟨client, hclient, rfl⟩ := List.mem_map.mp (TcpServer.mem_keySet_iff.mp h)
  refine List.mem_append_left _ (List.mem_flatMap.mpr ⟨client, hclient, ?_⟩)
  exact List.mem_append_right _ (List.mem_singleton_self _)

/-- Stopping the servers closes every client, and so empties the epoll set too. -/
theorem stopServers_watchful : Preserves Watchful stopServers := by
  intro s h
  simp only [stopServers, ensures_bind, ensures_get, ensures_ite]
  split
  · simp only [onUdp, onTcp, ensures_zoom, ensures_modify]
    refine (UdpServer.stop_returns s.udpServer).mono (fun _ u _ => ?_) fun _ _ he => he.elim
    unfold Ensures
    by_cases hrunning : s.tcpServer.running = true
    · rw [TcpServer.stop_run (s := (s.setUdpServer u).tcpServer) hrunning]
      refine ⟨⟨fun fd client hlookup => ?_, fun _ => rfl⟩, ?_⟩
      · cases hlookup
      · show s.clientsWatched \ (TcpServer.closedSince s.tcpServer _).toFinset = ∅
        rw [TcpServer.closedSince_eq rfl, TcpServer.closedFds_map_closed,
          Finset.sdiff_eq_empty_iff_subset]
        intro fd hfd
        rw [h.watches] at hfd
        exact List.mem_toFinset.mpr (TcpServer.mem_stopCloses hfd)
    · have hrun : TcpServer.stop.run (s.setUdpServer u).tcpServer
          = .ok () (s.setUdpServer u).tcpServer := by
        have hidle : (s.setUdpServer u).tcpServer.running = false :=
          Bool.eq_false_iff.mpr hrunning
        simp [TcpServer.stop, hidle]
      -- a server that does not run has no clients, so nothing was watched
      have hnone : s.clientsWatched = ∅ := by
        rw [h.watches]
        exact h.idle (by simpa using hrunning)
      rw [hrun]
      refine ⟨⟨h.sound, h.idle⟩, ?_⟩
      show s.clientsWatched \ _ = s.tcpServer.clients.keySet
      rw [← h.watches, hnone, Finset.empty_sdiff]
  · exact h

/-- Both parts of the beginning of an iteration keep the server watchful. -/
theorem beginIteration_watchful : Preserves Watchful beginIteration := by
  refine Preserves.bind (fun s h => ?_) fun _ => stopServers_watchful
  exact (startShutdown_sameClients s (.refl s)).mono (fun _ _ hs => hs.watchful h)
    fun _ _ hs => hs.watchful h

/-- A call of the TCP server leaves it as it has to be. -/
theorem served_of_step {c : TcpServer.ServerCall} {t : TcpServer Service} (h : s.Served)
    (hstep : TcpServer.step (Service.handle json around) s.tcpServer c = some t)
    (clientsWatched : Finset Nat) :
    Served { s with tcpServer := t, clientsWatched := clientsWatched } :=
  ⟨TcpServer.sound_step h.sound (TcpServer.step_cases hstep),
    (TcpServer.step_closes h.sound hstep).idle h.idle⟩

/-- A client that has been stored is watched, and one that has not been is not: the result of
`acceptNewClient` says which. -/
theorem accept_watchful (json : JsonLib) (around : Nat → Surroundings) (outcome : AcceptOutcome)
    (h : s.Watchful) :
    Ensures (processEvent json around (.tcp outcome)) s (fun _ s' => s'.Watchful)
      fun _ _ => True := by
  simp only [processEvent, onTcp, ensures_bind, ensures_zoom]
  refine ensures_of_run (fun clientFd t hrun => ?_) fun _ _ _ => trivial
  have hstep : TcpServer.step (Service.handle json around) s.tcpServer (.acceptNewClient outcome)
      = some t := by
    simp [TcpServer.step, TcpServer.perform, hrun]
  have hserved := served_of_step h.toServed hstep
  rw [ensures_ite]
  rcases (TcpServer.acceptNewClient_reports outcome).of_run_ok hrun with
    ⟨rfl, hkeys⟩ | ⟨fd, rfl, hkeys⟩
  · rw [if_neg (not_not.mpr rfl)]
    exact ⟨hserved _, by rw [Watches, hkeys]; exact h.watches⟩
  · rw [if_pos (by omega)]
    refine ⟨hserved _, ?_⟩
    show insert (Int.toNat fd) s.clientsWatched = t.clients.keySet
    rw [hkeys, h.watches, Int.toNat_natCast]

/-- A client that is served keeps its place in both or loses it in both, if the result of
`handleClientData` says the truth. -/
theorem client_watchful (fd : Nat) (received : ReceiveOutcome) (sends : Nat → SendOutcome)
    (h : s.Watchful) (hstarves : ¬ s.tcpServer.Starves fd received) :
    Ensures (processEvent json around (.client fd received sends)) s (fun _ s' => s'.Watchful)
      fun _ _ => True := by
  simp only [processEvent, onTcp, ensures_bind, ensures_zoom]
  refine ensures_of_run (fun connected t hrun => ?_) fun _ _ _ => trivial
  have hstep : TcpServer.step (Service.handle json around) s.tcpServer
      (.handleClientData fd received sends) = some t := by
    simp [TcpServer.step, TcpServer.perform, hrun]
  have hserved := served_of_step h.toServed hstep
  rw [ensures_ite]
  rcases TcpServer.handleClientData_reports hstarves hrun with ⟨rfl, -, hkeys⟩ | ⟨rfl, hkeys⟩
  · rw [if_pos rfl]
    exact ⟨hserved _, by rw [Watches, hkeys]; exact h.watches⟩
  · rw [if_neg Bool.false_ne_true]
    refine ⟨hserved _, ?_⟩
    show s.clientsWatched.erase fd = t.clients.keySet
    rw [hkeys, h.watches]

/-- **A turn that starves no client** keeps the epoll set and the client map together. -/
theorem watchful_turn {t : Turn} (h : s.Watchful) (hstarves : ¬ s.Starves t)
    (hturn : turn json around s t = some s') : s'.Watchful := by
  refine of_turn hturn ?_
  by_cases hbegin : t = .beginIteration
  · subst hbegin
    exact (beginIteration_watchful s h).mono (fun _ _ hs => hs) fun _ _ _ => trivial
  by_cases htcp : ∃ outcome, t = .event (.tcp outcome)
  · obtain ⟨outcome, rfl⟩ := htcp
    exact accept_watchful json around outcome h
  by_cases hclient : ∃ fd received sends, t = .event (.client fd received sends)
  · obtain ⟨fd, received, sends, rfl⟩ := hclient
    exact client_watchful fd received sends h hstarves
  · have hsame : Preserves (SameClients s) (take json around t) :=
      take_sameClients (fun outcome heq => htcp ⟨outcome, heq⟩)
        (fun fd received sends heq => hclient ⟨fd, received, sends, heq⟩) hbegin
    exact (hsame s (.refl s)).mono (fun _ _ hs => hs.watchful h) fun _ _ _ => trivial

/-- A client that is there but not watched breaks the agreement. -/
theorem not_watches_of_mem (fd : Nat) (hin : fd ∈ s.tcpServer.clients.keySet)
    (hout : fd ∉ s.clientsWatched) : ¬ s.Watches := by
  intro hwatches
  rw [Watches] at hwatches
  rw [hwatches] at hout
  exact hout hin

/-- A turn that starves a client takes it out of the epoll set only. -/
theorem not_watches_of_starves {t : Turn} (hstarves : s.Starves t)
    (hturn : turn json around s t = some s') : ¬ s'.Watches := by
  cases t with
  | event event =>
    cases event with
    | client fd received sends =>
      have hrun : (TcpServer.handleClientData (Service.handle json around) fd received sends).run
          s.tcpServer = .ok false s.tcpServer :=
        TcpServer.handleClientData_run_starves hstarves sends
      rw [turn_eq_some] at hturn
      simp [take, processEvent, onTcp, hrun] at hturn
      subst hturn
      exact not_watches_of_mem fd hstarves.1 (Finset.notMem_erase _ _)
    | _ => exact hstarves.elim
  | _ => exact hstarves.elim

/-! ## Whole runs

The two agree at the start, when there are no clients, and a turn breaks the agreement exactly when
it starves one. -/

/-- The loop is entered with a server that has just been started. -/
def started (service : Service) (socket : Nat) (now : Time) : Server :=
  .entered { TcpServer.constructed service socket with running := true } now

/-- At first there are no clients. -/
theorem watchful_started (service : Service) (socket : Nat) (now : Time) :
    (started service socket now).Watchful :=
  ⟨⟨TcpServer.sound_constructed service socket, fun _ => rfl⟩, rfl⟩

/-- The result is wrong exactly in the turns that starve a client. -/
theorem reportsTruly_iff (s : Server) (t : Turn) :
    ReportsTruly json around s t ↔ ¬ s.Starves t := by
  constructor
  · intro hreports hstarves
    cases t with
    | event event =>
      cases event with
      | client fd received sends =>
        have hrun : (TcpServer.handleClientData (Service.handle json around) fd received sends).run
            s.tcpServer = .ok false s.tcpServer :=
          TcpServer.handleClientData_run_starves hstarves sends
        exact (TcpServer.reports_iff hrun).mp (hreports fd received sends _ _ rfl hrun) hstarves
      | _ => exact hstarves
    | _ => exact hstarves
  · rintro hstarves fd received sends connected tcpServer rfl hrun
    exact (TcpServer.reports_iff hrun).mpr hstarves

/-- **The epoll set and the client map.** For every run of the loop, with any events and any answers
of the kernel: the clients that are watched are the registered ones in every state, if and only if
no turn finds a registered client that has nothing to receive and whose connection is not closed;
and the same turns are those in which `handleClientData` reports truly. -/
theorem watches_iff {service : Service} {socket : Nat} {now : Time} {turns : List Turn}
    (hrun : Run.exec (turn json around) (started service socket now) turns = some s) :
    ((∀ pre u, pre <+: turns →
        Run.exec (turn json around) (started service socket now) pre = some u → u.Watches) ↔
      Run.Along (turn json around) (fun u t => ¬ u.Starves t) (started service socket now) turns) ∧
    (Run.Along (turn json around) (ReportsTruly json around) (started service socket now) turns ↔
      Run.Along (turn json around) (fun u t => ¬ u.Starves t)
        (started service socket now) turns) := by
  constructor
  · refine Run.prefixes_iff_along (fun _ _ _ _ h ht hturn => watchful_turn h ht hturn)
      (fun _ h => h.watches) ?_ (watchful_started service socket now) hrun
    intro u t _ v _ hturn hwatches hstarves
    exact not_watches_of_starves hstarves hturn hwatches
  · have hsame : ReportsTruly json around = fun u t => ¬ u.Starves t := by
      funext u t
      exact propext (reportsTruly_iff u t)
    rw [hsame]

/-- The service of a server that has just started. -/
def newService : Service := ⟨TcpHandler.newHandler, 0⟩

/-- Every call of the handler finds the same surroundings. -/
def sampleAround (_ : Nat) : Surroundings := TcpHandler.sampleSurroundings

/-- A client connects, and its connection breaks. -/
def brokenClient : List Turn :=
  [.event (.tcp (.connected 5 6)), .event (.client 5 .throws fun _ => .failed)]

/-- A client connects and breaks its connection: both are told. -/
theorem watches_brokenClient :
    (∀ pre u, pre <+: brokenClient →
      Run.exec (turn TcpHandler.sampleJson sampleAround) (started newService 3 0) pre = some u →
      u.Watches) ∧
    Run.Along (turn TcpHandler.sampleJson sampleAround)
      (ReportsTruly TcpHandler.sampleJson sampleAround) (started newService 3 0) brokenClient := by
  have hrun : Run.exec (turn TcpHandler.sampleJson sampleAround) (started newService 3 0)
      brokenClient = some _ := rfl
  obtain ⟨hwatches, hreports⟩ := watches_iff hrun
  have halong : Run.Along (turn TcpHandler.sampleJson sampleAround) (fun u t => ¬ u.Starves t)
      (started newService 3 0) brokenClient := by
    refine ⟨id, fun t _ => ⟨?_, fun _ _ => trivial⟩⟩
    rintro ⟨-, hthrows⟩
    cases hthrows
  exact ⟨hwatches.mpr halong, hreports.mpr halong⟩

/-- A client connects; then `receive` would block, and so does the probe. -/
def idleClient : List ServerInput :=
  [.iteration (.events [.tcp (.connected 5 6)] 0 0),
    .iteration (.events [.client 5 (.packet [] false) fun _ => .failed] 0 0)]

/-- The client is still served, and no longer watched. -/
theorem not_watches_idleClient : ∃ s,
    Run.exec (step TcpHandler.sampleJson sampleAround) (started newService 3 0) idleClient
      = some s ∧
      5 ∈ s.tcpServer.clients.keySet ∧ 5 ∉ s.clientsWatched ∧ ¬ s.Watches := by
  exact ⟨_, rfl, by decide, by decide, not_watches_of_mem 5 (by decide) (by decide)⟩

end Server
end Pgw
