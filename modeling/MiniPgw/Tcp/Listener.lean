import MiniPgw.Tcp.Safety

/-!
# The listener of the TCP server

`m_running`, `m_socket` and `m_stopAccepting` belong to `start`, `stop` and `stopAccepting`:
accepting a client and handling its data leave them as they are (`SameListener`). What these calls
need of them is that the server is `Usable`: without, `acceptNewClient` dereferences the null
`m_socket` or reads an `m_stopAccepting` that has no value (`acceptNewClient_undefined_iff`).
-/

namespace Pgw

open Protocol Effects

namespace TcpServer

variable {η : Type} {handle : Message → EStateM Fault η Message} {s s' : TcpServer η}

/-- `m_running`, `m_socket` and `m_stopAccepting` are as they were. -/
structure SameListener (s s' : TcpServer η) : Prop where
  running : s'.running = s.running
  socket : s'.socket = s.socket
  stopAccepting : s'.stopAccepting = s.stopAccepting

/-- Nothing has changed. -/
theorem SameListener.refl (s : TcpServer η) : SameListener s s :=
  ⟨rfl, rfl, rfl⟩

/-- What changes no member of the listener. -/
theorem preserves_sameListener {f : TcpServer η → TcpServer η} (hf : ∀ u, SameListener u (f u)) :
    Preserves (SameListener s) (modify f : Method η Unit) :=
  preserves_modify fun u h => ⟨(hf u).running.trans h.running, (hf u).socket.trans h.socket,
    (hf u).stopAccepting.trans h.stopAccepting⟩

/-- What is recorded is not about the listener, -/
theorem record_sameListener (event : TcpEvent) : Preserves (SameListener s) (record event) :=
  preserves_sameListener fun _ => ⟨rfl, rfl, rfl⟩

/-- nor is a close, -/
theorem closeSocket_sameListener (fd : Nat) : Preserves (SameListener s) (closeSocket fd) :=
  Preserves.ite (record_sameListener _) (preserves_pure ())

/-- nor the clients in the map, -/
theorem removeClient_sameListener (fd : Nat) : Preserves (SameListener s) (removeClient fd) := by
  refine preserves_get.bind fun u => ?_
  cases u.clients.lookup fd with
  | none => exact preserves_pure ()
  | some client =>
    exact (closeSocket_sameListener _).bind fun _ => preserves_sameListener fun _ => ⟨rfl, rfl, rfl⟩

/-- whether one goes or comes. -/
theorem storeClient_sameListener (socket : TcpSocket) :
    Preserves (SameListener s) (storeClient socket) := by
  refine preserves_get.bind fun u => ?_
  cases u.clients.lookup socket.fd with
  | none => exact preserves_sameListener fun _ => ⟨rfl, rfl, rfl⟩
  | some old =>
    exact (closeSocket_sameListener _).bind fun _ => preserves_sameListener fun _ => ⟨rfl, rfl, rfl⟩

/-- `accept` reads the listening socket and leaves it as it is. -/
theorem acceptFrom_sameListener (outcome : AcceptOutcome) :
    Preserves (SameListener s) (acceptFrom outcome) := by
  refine preserves_get.bind fun u => ?_
  cases u.socket with
  | none => exact preserves_throw _
  | some fd =>
    cases outcome with
    | failed => exact preserves_pure _
    | flagsFailed fd => exact (record_sameListener _).bind fun _ => preserves_throw _
    | temporaryFailed fd => exact preserves_throw _
    | connected fd temporary => exact (record_sameListener _).bind fun _ => preserves_pure _

/-- So no answer of the kernel changes the listener. -/
theorem acceptNewClient_sameListener (outcome : AcceptOutcome) :
    Preserves (SameListener s) (acceptNewClient outcome) := by
  refine preserves_get.bind fun u => Preserves.ite (preserves_pure _) ?_
  cases u.stopAccepting with
  | none => exact preserves_throw _
  | some stopAccepting =>
    cases stopAccepting with
    | true =>
      -- a connection is accepted only to be closed
      refine (acceptFrom_sameListener outcome).bind fun clientSocket => ?_
      cases clientSocket with
      | none => exact preserves_pure _
      | some socket =>
        refine (record_sameListener _).bind fun _ => ?_
        exact (closeSocket_sameListener _).bind fun _ => preserves_pure _
    | false =>
      refine Preserves.tryCatch ((acceptFrom_sameListener outcome).bind fun clientSocket => ?_) ?_
      · cases clientSocket with
        | none => exact preserves_pure _
        | some socket => exact (storeClient_sameListener socket).bind fun _ => preserves_pure _
      · intro e
        cases e with
        | exception => exact preserves_pure _
        | undefined => exact preserves_throw _

/-- `stop` destroys the socket of a running server. -/
theorem stop_listener (hrunning : s.running = true) : Returns stop s fun _ s' =>
    s'.running = false ∧ s'.socket = none ∧ s'.stopAccepting = s.stopAccepting := by
  simp only [stop, ensures_bind, ensures_get]
  rw [if_pos hrunning]
  simp only [ensures_bind, ensures_set]
  refine ensures_closeClients _ fun closes => ?_
  dsimp only
  cases hsocket : s.socket with
  | none => exact ⟨rfl, rfl, rfl⟩
  | some fd =>
    simp only [ensures_bind]
    exact ensures_closeSocket _ fun closes' => ⟨rfl, rfl, rfl⟩

/-- `stop` of a server that is not running does nothing. -/
theorem stop_run_idle (hrunning : s.running = false) : stop.run s = .ok () s := by
  simp [stop, hrunning]

/-- `stop` leaves a server that is not running. -/
theorem stop_running (s : TcpServer η) : Returns stop s fun _ s' => s'.running = false := by
  cases hrunning : s.running with
  | false => exact (returns_iff _).mpr ⟨(), s, stop_run_idle hrunning, hrunning⟩
  | true => exact (stop_listener hrunning).mono (fun _ _ h => h.1) fun _ _ h => h

/-- To serve a client changes this client and the handler, -/
theorem withClient_sameListener (fd : Nat) (client : ClientContext)
    (body : EStateM Fault (Serving η) Unit) :
    Preserves (SameListener s) (withClient fd client body) := by
  intro u hu
  simp only [withClient, ensures_bind, ensures_get]
  cases body.run ⟨u.handler, client, u.trace⟩ with
  | ok _ v => exact ⟨hu.running, hu.socket, hu.stopAccepting⟩
  | error e v => exact ⟨hu.running, hu.socket, hu.stopAccepting⟩

/-- or removes it. -/
theorem handleClientData_sameListener (fd : Nat) (received : ReceiveOutcome)
    (sends : Nat → SendOutcome) :
    Preserves (SameListener s) (handleClientData handle fd received sends) := by
  have hremove : Preserves (SameListener s) (do removeClient fd; pure false : Method η Bool) :=
    (removeClient_sameListener fd).bind fun _ => preserves_pure _
  refine preserves_get.bind fun u => ?_
  cases u.clients.lookup fd with
  | none => exact preserves_pure _
  | some client =>
    refine Preserves.tryCatch ?_ fun e => ?_
    -- the `try` block
    · cases received with
      | throws => exact preserves_throw _
      | packet data peekIsZero =>
        cases data with
        | nil => exact Preserves.ite hremove (preserves_pure _)
        | cons byte bytes =>
          exact (withClient_sameListener fd client _).bind fun _ => preserves_pure _
    · cases e with
      | exception => exact hremove
      | undefined => exact preserves_throw _

/-! ## What the methods need of the listener

Whether `m_socket` and `m_stopAccepting` are there decides which calls are defined. -/

/-- The behaviour of the method is undefined. -/
def Undefined {α : Type} (body : Method η α) (s : TcpServer η) : Prop :=
  ∃ s', body.run s = .error .undefined s'

/-- A safe call is defined. -/
theorem Safe.not_undefined {α : Type} {body : Method η α} (h : Safe body s) :
    ¬ Undefined body s := by
  rintro ⟨s', hrun⟩
  have hexception := (h.of_run_error hrun).1
  cases hexception

/-- `start` touches the socket only of a server that is not running. -/
theorem start_undefined_iff (bindSucceeds : Bool) :
    Undefined (start bindSucceeds) s ↔ s.running = false ∧ s.socket = none := by
  unfold Undefined
  cases hrunning : s.running with
  | true => simp [start, hrunning]
  | false =>
    cases hsocket : s.socket with
    | none => simp [start, hrunning, hsocket]
    | some fd => cases bindSucceeds <;> simp [start, hrunning, hsocket]

/-- **Accepting needs both the socket and the flag.** -/
theorem acceptNewClient_undefined_iff (outcome : AcceptOutcome) :
    Undefined (acceptNewClient outcome) s ↔ s.running = true ∧ ¬ s.Usable := by
  cases hrunning : s.running with
  | false =>
    refine iff_of_false ?_ (fun h => by cases h.1)
    rintro ⟨s', hrun⟩
    rw [acceptNewClient, EStateM.run_bind, EStateM.run_get] at hrun
    simp [hrunning] at hrun
  | true =>
    rw [eq_self, true_and]
    constructor
    · intro hundefined husable
      exact (acceptNewClient_safe husable outcome).not_undefined hundefined
    · intro hunusable
      refine ⟨s, ?_⟩
      cases hstopped : s.stopAccepting with
      | none => simp [acceptNewClient, hrunning, hstopped]
      | some stopped =>
        -- the flag has a value, so it is the socket that is missing
        have hsocket : s.socket = none := by
          cases hsocket : s.socket with
          | none => rfl
          | some fd => exact absurd ⟨by rw [hsocket]; rfl, by rw [hstopped]; rfl⟩ hunusable
        cases stopped <;> simp [acceptNewClient, acceptFrom, hrunning, hstopped, hsocket]

end TcpServer
end Pgw
