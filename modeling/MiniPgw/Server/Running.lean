import MiniPgw.Server.Containment

/-!
# Which servers run

The loop is entered with its three servers running. No event and no clean-up starts or stops one of
them: they run until the loop stops them, all at once, and its state is `STOPPED` from then on
(`serversRun_exec`).
-/

namespace Pgw

open Effects

namespace UdpServer

/-- Datagrams do not stop the server. -/
theorem processEvent_running (receives : List UdpReceive) (running : Bool) :
    Preserves (fun u => u.running = running) (processEvent receives) := by
  have hanswer : ∀ data now, Preserves (fun u : UdpServer => u.running = running)
      (answerTo data now) := by
    intro data now
    refine Preserves.ite (Preserves.bind (preserves_zoom_of_put _ fun _ _ h => h) fun result => ?_)
      (preserves_pure _)
    cases result <;> exact preserves_pure _
  have hreceive : Preserves (fun u : UdpServer => u.running = running) (receiveAll receives) := by
    induction receives with
    | nil => exact preserves_pure ()
    | cons receive receives ih =>
      cases receive with
      | throws => exact preserves_throw _
      | packet data sender now sendThrows =>
        refine Preserves.ite (preserves_pure ()) ((hanswer data now).bind fun _ => ?_)
        refine Preserves.bind (Preserves.ite (preserves_throw _) ?_) fun _ => ih
        exact preserves_modify fun _ h => h
  refine preserves_get.bind fun u => Preserves.ite (preserves_pure ()) ?_
  refine hreceive.tryCatch fun e => ?_
  cases e with
  | exception => exact preserves_pure ()
  | undefined => exact preserves_throw _

/-- `stop` of the UDP server clears the flag that `processEvent` looks at. -/
theorem stop_running (u : UdpServer) : Returns stop u fun _ u' => u'.running = false := by
  cases hrunning : u.running <;> simp [stop, hrunning]

end UdpServer

namespace Server

variable {json : JsonLib} {around : Nat → Surroundings} {s s' : Server}

/-- The loop has been left, or it has stopped. -/
def Over (s : Server) : Prop :=
  s.left = true ∨ s.state = .STOPPED

/-- The UDP server and the HTTP server run until the loop stops them. -/
structure ServersRun (s : Server) : Prop where
  opened : s.state ≠ .STOPPED → s.udpRunning = true ∧ s.httpRunning = true
  closed : s.state = .STOPPED → s.udpRunning = false ∧ s.httpRunning = false

/-- No turn but the first part of an iteration starts or stops a server. -/
theorem turn_flags {t : Turn} (ht : t ≠ .beginIteration) (udp http : Bool) :
    Preserves (fun s => s.udpRunning = udp ∧ s.httpRunning = http) (take json around t) := by
  cases t with
  | beginIteration => exact absurd rfl ht
  | event event =>
    cases event with
    | timer expirations =>
      -- `shutdownSession` works on the manager, and the last expiration on the state of the loop
      have hexpire : ∀ n, Preserves (fun s : Server => s.udpRunning = udp ∧ s.httpRunning = http)
          (expire n) := by
        intro n
        induction n with
        | zero => exact preserves_pure ()
        | succ n ih =>
          refine Preserves.bind (preserves_zoom_of_put _ fun _ _ h => h) fun _ => ?_
          exact Preserves.ite ih (preserves_modify fun _ h => h)
      refine fun u hu => ?_
      simp only [take, processEvent, ensures_bind, ensures_get, ensures_ite]
      split
      · exact hexpire expirations u hu
      · exact hu
    | udp receives =>
      -- datagrams create sessions and nothing else
      intro u hu
      simp only [take, processEvent, onUdp, ensures_zoom]
      have hkept := UdpServer.processEvent_running receives udp u.udpServer hu.1
      exact hkept.mono (fun _ _ h => ⟨h, hu.2⟩) fun _ _ h => ⟨h, hu.2⟩
    | tcp outcome =>
      refine Preserves.bind (preserves_zoom_of_put _ fun _ _ h => h) fun _ => ?_
      exact Preserves.ite (preserves_modify fun _ h => h) (preserves_pure ())
    | client fd received sends =>
      refine Preserves.bind (preserves_zoom_of_put _ fun _ _ h => h) fun _ => ?_
      exact Preserves.ite (preserves_pure ()) (preserves_modify fun _ h => h)
  | cleanup now cleanupNow =>
    refine preserves_get.bind fun u => Preserves.ite ?_ (preserves_pure ())
    exact Preserves.bind (preserves_zoom_of_put _ fun _ _ h => h) fun _ =>
      preserves_modify fun _ h => h
  | failed => exact preserves_modify fun _ h => h
  | shutdownRequest => exact preserves_modify fun _ h => h

/-- The servers are stopped together. -/
theorem beginIteration_stops (hstate : s.state = .STOPPING) :
    Returns beginIteration s fun _ s' => s'.udpRunning = false ∧ s'.httpRunning = false := by
  have hstart : Returns startShutdown s fun _ s' => s' = s := by
    simp [startShutdown, hstate]
  -- in `STOPPING` the request for a shutdown is not looked at any more
  rw [beginIteration, Returns, ensures_bind]
  refine hstart.mono (fun _ s' hs' => ?_) fun _ _ he => he
  subst hs'
  -- `stop` of the UDP server first; that of the TCP server always returns
  simp only [stopServers, onUdp, onTcp, ensures_bind, ensures_get, hstate, if_true, ensures_zoom,
    ensures_modify]
  refine (UdpServer.stop_running s'.udpServer).mono (fun _ u hu => ?_) fun _ _ he => he
  exact (TcpServer.stop_returns _).mono (fun _ t _ => ⟨hu, trivial⟩) fun _ _ he => he

/-- Only the first part of an iteration stops the loop. -/
theorem turn_stopped_iff {t : Turn} (ht : t ≠ .beginIteration)
    (hturn : turn json around s t = some s') : s'.state = .STOPPED ↔ s.state = .STOPPED := by
  have hrun := turn_eq_some.mp hturn
  by_cases hquiet : Turn.IsQuiet t
  · have hstays : Preserves (Stays s) (take json around t) := quietTurn_stays hquiet
    rw [((hstays s (.refl s)).of_run_ok hrun).state]
  cases t with
  | beginIteration => exact absurd rfl ht
  | event event =>
    cases event with
    | timer expirations =>
      by_cases hstate : s.state = .DRAINING
      · rw [take_timer_run_draining hstate] at hrun
        obtain ⟨-, hsame | hstopping⟩ :=
          (expire_listener expirations s ⟨.refl _, .inl rfl⟩).of_run_ok hrun
        · rw [hsame]
        · rw [hstopping, hstate]
          decide
      · rw [take_timer_run_ignored hstate] at hrun
        cases hrun
        exact Iff.rfl
    | _ => exact absurd rfl hquiet
  | _ => exact absurd trivial hquiet

/-- A turn keeps `ServersRun`: only the first part of an iteration stops the servers, both of them
together, and with that the loop has stopped. -/
theorem turn_serversRun (h : s.ServersRun) {t : Turn} (hturn : turn json around s t = some s') :
    s'.ServersRun := by
  by_cases ht : t = .beginIteration
  · subst ht
    have hrun := turn_eq_some.mp hturn
    rcases beginIteration_cases hrun with ⟨rfl, -⟩ | ⟨hstate, rfl⟩ | ⟨hstate, hstopped, -⟩
    · exact h
    · exact ⟨fun _ => h.opened (by rw [hstate]; decide), fun hlate => by cases hlate⟩
    · exact ⟨fun hne => absurd hstopped hne,
        fun _ => (beginIteration_stops hstate).of_run_ok hrun⟩
  · have hstate := turn_stopped_iff ht hturn
    have hflags : Preserves _ (take json around t) := turn_flags ht s.udpRunning s.httpRunning
    obtain ⟨hudp, hhttp⟩ := (hflags s ⟨rfl, rfl⟩).of_run_ok (turn_eq_some.mp hturn)
    refine ⟨fun hne => ?_, fun heq => ?_⟩
    · rw [hudp, hhttp]
      exact h.opened fun hstopped => hne (hstate.mpr hstopped)
    · rw [hudp, hhttp]
      exact h.closed (hstate.mp heq)

/-- **Which servers run in the loop**: all of them until it has stopped, none afterwards. -/
theorem serversRun_exec {service : Service} {socket : Nat} {start : Time} {turns : List Turn}
    (hrun : Run.exec (turn json around) (started service socket start) turns = some s) :
    (s.udpRunning, s.httpRunning, s.tcpServer.running)
      = if s.state = .STOPPED then (false, false, false) else (true, true, true) := by
  have hstart : (started service socket start).ServersRun :=
    ⟨fun _ => ⟨rfl, rfl⟩, fun hstopped => by cases hstopped⟩
  have hlistens : s.Listens :=
    Run.exec_invariant (fun _ _ _ h hs => turn_listens h hs) (listens_started service socket start)
      hrun
  have hservers : s.ServersRun :=
    Run.exec_invariant (fun _ _ _ h hs => turn_serversRun h hs) hstart hrun
  by_cases hstopped : s.state = .STOPPED
  · obtain ⟨hudp, hhttp⟩ := hservers.closed hstopped
    rw [if_pos hstopped, hudp, hhttp, hlistens.closed hstopped]
  · obtain ⟨hudp, hhttp⟩ := hservers.opened hstopped
    rw [if_neg hstopped, hudp, hhttp, (hlistens.opened hstopped).1]

end Server
end Pgw
