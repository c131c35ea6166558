import MiniPgw.Tcp.Steps

/-!
# The TCP server takes every call

A server of the first constructor has a socket and has set `m_stopAccepting`, and keeps both until
`stop`. With a handler that returns or throws, no call has undefined behaviour on such a server
(`step_defined`), so every run of calls takes place (`exec_defined`).
-/

namespace Pgw

open Protocol Effects

namespace TcpServer

variable {η : Type} {handle : Message → EStateM Fault η Message} {s s' : TcpServer η}

/-- The handler returns or throws; it has no undefined behaviour. -/
def Defined (handle : Message → EStateM Fault η Message) : Prop :=
  ∀ m h h', (handle m).run h ≠ .error .undefined h'

/-- A server that has not been stopped, built by the first constructor. -/
structure Usable (s : TcpServer η) : Prop where
  socket : s.socket.isSome = true
  stopAccepting : s.stopAccepting.isSome = true

/-- If the handler never runs into undefined behaviour, serving some requests does not either. -/
theorem conversation_defined (hhandle : Defined handle) (sends : Nat → SendOutcome)
    (requests : List Message) :
    ∀ (i : Nat) (h : η) (breakage : Breakage),
      (conversation handle sends i h requests).broken ≠ some (.undefined, breakage) := by
  induction requests with
  | nil =>
    intro i h breakage hbroken
    cases hbroken
  | cons request requests ih =>
    intro i h breakage
    rw [conversation]
    cases hrun : (handle request).run h with
    | error e h' =>
      cases e with
      | exception => simp
      | undefined => exact absurd hrun (hhandle request h h')
    | ok reply h' =>
      cases sends i with
      | failed => simp
      | accepted taken => exact ih (i + 1) h' breakage

/-- So serving the data of a client does not. -/
theorem serveData_defined (hhandle : Defined handle) (data : Bytes) (sends : Nat → SendOutcome)
    (v v' : Serving η) : (serveData handle data sends).run v ≠ .error .undefined v' := by
  intro hrun
  rw [serveData_run] at hrun
  -- the loop ends as the conversation does
  have hserve := serveFrames_run handle sends
    ((v.client.readBuffer ++ data).length + 1) 0
    { v with client.readBuffer := v.client.readBuffer ++ data } (Nat.lt_succ_self _)
  have hdefined := conversation_defined hhandle sends
    (TcpSerializer.framing.parse (v.client.readBuffer ++ data)).1 0 v.handler
  cases hconversation : conversation handle sends 0 v.handler
      (TcpSerializer.framing.parse (v.client.readBuffer ++ data)).1 with
  | mk exchanges h' broken =>
    simp only [hconversation] at hserve hdefined
    cases broken with
    | none =>
      simp only [hrun] at hserve
      cases hserve
    | some failure =>
      obtain ⟨e, breakage⟩ := failure
      obtain ⟨client, -, hserve⟩ := hserve
      rw [hrun] at hserve
      cases hserve
      exact hdefined breakage rfl

/-- The method returns or throws, and leaves the server usable. -/
def Safe {α : Type} (body : Method η α) (s : TcpServer η) : Prop :=
  Ensures body s (fun _ s' => s'.Usable) (fun e s' => e = .exception ∧ s'.Usable)

/-- What is caught is handled in a usable server. -/
theorem Safe.caught {α : Type} {body handler : Method η α} (hbody : Safe body s)
    (hhandler : ∀ s', s'.Usable → Safe handler s') : Safe (catching body handler) s := by
  rw [Safe, ensures_catching]
  refine hbody.mono (fun _ _ h => h) ?_
  rintro e s' ⟨rfl, hs'⟩
  exact hhandler s' hs'

/-- Removing a client is safe and leaves the server usable. -/
theorem removeClient_safe (h : s.Usable) (fd : Nat) : Safe (removeClient fd) s := by
  simp only [Safe, removeClient, ensures_bind, ensures_get]
  split
  · simp only [ensures_bind, ensures_modify]
    exact ensures_closeSocket _ fun closes => ⟨h.socket, h.stopAccepting⟩
  · exact h

/-- Serving a client is safe if the body is defined. -/
theorem withClient_safe (h : s.Usable) (fd : Nat) (client : ClientContext)
    {body : EStateM Fault (Serving η) Unit}
    (hbody : ∀ v v', body.run v ≠ .error .undefined v') : Safe (withClient fd client body) s := by
  simp only [Safe, withClient, ensures_bind, ensures_get]
  split
  · exact ⟨h.socket, h.stopAccepting⟩
  · next e v hrun =>
    cases e with
    | exception => exact ⟨rfl, h.socket, h.stopAccepting⟩
    | undefined => exact absurd hrun (hbody _ v)

/-- `handleClientData` is safe with any descriptor, any data and any outcomes of `::send`. -/
theorem handleClientData_safe (hhandle : Defined handle) (h : s.Usable) (fd : Nat)
    (outcome : ReceiveOutcome) (sends : Nat → SendOutcome) :
    Safe (handleClientData handle fd outcome sends) s := by
  simp only [Safe, handleClientData, ensures_bind, ensures_get]
  split
  · exact h
  · next client _ =>
    -- whatever has been thrown, the client is removed
    have hremove : ∀ s' : TcpServer η, s'.Usable → Safe (do removeClient fd; pure false) s' := by
      intro s' hs'
      rw [Safe, ensures_bind]
      exact removeClient_safe hs' fd
    refine Safe.caught ?_ hremove
    cases outcome with
    | throws => exact ⟨rfl, h⟩
    | packet data peekIsZero =>
      cases data with
      | nil =>
        rw [Safe, ensures_ite]
        split
        · exact hremove s h
        · exact h
      | cons byte bytes =>
        rw [Safe, ensures_bind]
        exact withClient_safe h fd client (serveData_defined hhandle _ sends)

/-- A usable server has a socket to accept from. -/
theorem acceptFrom_safe (h : s.Usable) (outcome : AcceptOutcome) : Safe (acceptFrom outcome) s := by
  obtain ⟨socket, hsocket⟩ := Option.isSome_iff_exists.mp h.socket
  simp only [Safe, acceptFrom, ensures_bind, ensures_get, hsocket]
  cases outcome with
  | failed => exact h
  | flagsFailed fd => exact ⟨rfl, h.socket, h.stopAccepting⟩
  | temporaryFailed fd => exact ⟨rfl, h⟩
  | connected fd temporary => exact ⟨h.socket, h.stopAccepting⟩

/-- Storing a client changes the map only. -/
theorem storeClient_safe (h : s.Usable) (socket : TcpSocket) : Safe (storeClient socket) s := by
  simp only [Safe, storeClient, ensures_bind, ensures_get]
  split
  · rw [ensures_bind]
    exact ensures_closeSocket _ fun closes => ⟨h.socket, h.stopAccepting⟩
  · exact ⟨h.socket, h.stopAccepting⟩

/-- A usable server has a value in its flag, so that `acceptNewClient` is safe. -/
theorem acceptNewClient_safe (h : s.Usable) (outcome : AcceptOutcome) :
    Safe (acceptNewClient outcome) s := by
  obtain ⟨stopped, hstopped⟩ := Option.isSome_iff_exists.mp h.stopAccepting
  simp only [Safe, acceptNewClient, ensures_bind, ensures_get, hstopped]
  split
  · exact h
  · cases stopped with
    | true =>
      simp only [ensures_bind]
      refine (acceptFrom_safe h outcome).mono (fun clientSocket s' hs' => ?_) (fun _ _ he => he)
      cases clientSocket with
      | none => exact hs'
      | some socket =>
        simp only [record, ensures_bind, ensures_modify]
        exact ensures_closeSocket _ fun closes => ⟨hs'.socket, hs'.stopAccepting⟩
    | false =>
      simp only [ensures_catching, ensures_bind]
      refine (acceptFrom_safe h outcome).mono (fun clientSocket s' hs' => ?_) ?_
      · cases clientSocket with
        | none => exact hs'
        | some socket =>
          simp only [ensures_bind]
          -- what `storeClient` throws would be caught as well
          refine (storeClient_safe hs' socket).mono (fun _ _ hs'' => hs'') ?_
          rintro e s'' ⟨rfl, hs''⟩
          exact hs''
      · rintro e s' ⟨rfl, hs'⟩
        exact hs'

/-- `start` of a usable server finds its socket. -/
theorem start_safe (h : s.Usable) (bindSucceeds : Bool) : Safe (start bindSucceeds) s := by
  obtain ⟨socket, hsocket⟩ := Option.isSome_iff_exists.mp h.socket
  simp only [Safe, start, ensures_bind, ensures_get, hsocket]
  split
  · exact h
  · split
    · exact ⟨by simp, h.stopAccepting⟩
    · exact ⟨rfl, h⟩

/-- **A usable server takes every call but `stop`, and stays usable.** -/
theorem step_defined (hhandle : Defined handle) (h : s.Usable) {c : ServerCall} (hc : c ≠ .stop) :
    ∃ s', step handle s c = some s' ∧ s'.Usable := by
  have hsafe : Safe (perform handle c) s := by
    cases c with
    | start bindSucceeds => exact start_safe h bindSucceeds
    | stop => exact absurd rfl hc
    | stopAccepting => exact ⟨h.socket, rfl⟩
    | acceptNewClient outcome =>
      have haccept := acceptNewClient_safe h outcome
      simpa [perform, Safe] using haccept
    | handleClientData fd outcome sends =>
      have hdata := handleClientData_safe hhandle h fd outcome sends
      simpa [perform, Safe] using hdata
  -- an exception ends the call and leaves a usable server, too
  unfold Safe Ensures at hsafe
  unfold step
  cases hrun : (perform handle c).run s with
  | ok _ s' =>
    rw [hrun] at hsafe
    exact ⟨s', rfl, hsafe⟩
  | error e s' =>
    rw [hrun] at hsafe
    obtain ⟨rfl, hs'⟩ := hsafe
    exact ⟨s', rfl, hs'⟩

/-- The production constructor makes a usable server. -/
theorem usable_constructed (handler : η) (socket : Nat) : (constructed handler socket).Usable :=
  ⟨rfl, rfl⟩

/-- Every run without `stop` takes place. -/
theorem exec_defined (hhandle : Defined handle) {calls : List ServerCall}
    (hcalls : ServerCall.stop ∉ calls) :
    ∀ {s : TcpServer η}, s.Usable →
      ∃ s', Run.exec (step handle) s calls = some s' ∧ s'.Usable := by
  induction calls with
  | nil => exact fun {s} h => ⟨s, rfl, h⟩
  | cons c calls ih =>
    intro s h
    obtain ⟨u, hu, husable⟩ := step_defined hhandle h fun hc => hcalls (hc ▸ List.mem_cons_self)
    obtain ⟨s', hrun, hs'⟩ := ih (fun hc => hcalls (List.mem_cons_of_mem c hc)) husable
    exact ⟨s', Run.exec_cons_eq_some.mpr ⟨u, hu, hrun⟩, hs'⟩

end TcpServer
end Pgw
