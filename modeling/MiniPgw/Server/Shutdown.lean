import MiniPgw.Server.Drain
import MiniPgw.Server.Watching
import MiniPgw.Session.Laws

/-!
# Shutdown is complete and irreversible

`startDraining` is called once, and from then on the manager only loses sessions: every turn of the
loop keeps what the five calls of the manager keep (`turn_keeps`), and none of them adds a session
while the manager drains. The loop goes on to `STOPPING` only when it has found the table empty,
also when this happens in the middle of a batch of events, so the table is empty from then on
(`turn_shutsDown`), and by the laws of the ledger every creation has been matched by a deletion.

## The architecture

* **`KeptByCalls`** — a relation on managers that the five calls keep; `drainsWithin_kept` and
  `ledgered_kept` are the two used here.
* **`Makes`**, **`turn_keeps_made`** — which calls a turn can make; what they keep the turn keeps.
* **`ShutsDown`**, **`turn_shutsDown`** — the state of the loop against the manager, as an
  invariant of the turns in any order.
* **`expire_takes`** — the count of one read of the timer.
* **`drainsCompletely_run`** — the three together, over the turns after `startDraining`.
-/

namespace Pgw

open Effects

namespace SessionManager

variable {m : SessionManager}

/-- What the calls that the loop makes keep of the manager. -/
structure KeptByCalls (I : SessionManager → Prop) : Prop where
  createSession : ∀ imsi now, Validation.isValidImsi imsi = true →
    Preserves I (createSession imsi now)
  terminateSession : ∀ imsi, Preserves I (terminateSession imsi)
  shutdownSession : Preserves I shutdownSession
  cleanTimeoutSessions : ∀ now, Preserves I (cleanTimeoutSessions now)
  startDraining : Preserves I startDraining

theorem drainsWithin_kept (active : Finset Imsi) : KeptByCalls (DrainsWithin active) where
  createSession := fun imsi now _ => createSession_preserves imsi now
  terminateSession := terminateSession_preserves
  shutdownSession := shutdownSession_preserves
  cleanTimeoutSessions := cleanTimeoutSessions_preserves
  startDraining := startDraining_preserves

theorem ledgered_kept : KeptByCalls Ledgered := by
  have hkept : ∀ {α : Type} {method : Method α} (c : SessionCall),
      (perform c = do let _ ← method) → Preserves Ledgered method :=
    fun c hmethod m h => (h.returns hmethod).mono (fun _ _ h' => h') fun _ _ he => he.elim
  exact {
    createSession := fun imsi now _ => hkept (.createSession imsi now) rfl
    terminateSession := fun imsi => hkept (.terminateSession imsi) rfl
    shutdownSession := hkept .shutdownSession rfl
    cleanTimeoutSessions := fun now => hkept (.cleanTimeoutSessions now) (bind_pure_unit).symm
    startDraining := hkept .startDraining rfl }

end SessionManager

namespace Server

open SessionManager (SessionCall)

variable {json : JsonLib} {around : Nat → Surroundings} {s s' : Server}
  {I : SessionManager → Prop}

/-! ## What a turn does to the manager

For the session manager a turn is a sequence of calls. `Makes` lists which ones, with the state of
the loop in which they are made, so that an invariant of the manager is checked call by call. -/

theorem expire_preserves (hI : Preserves I SessionManager.shutdownSession) (expirations : Nat) :
    Preserves (fun s => I s.sessionManager) (expire expirations) := by
  induction expirations with
  | zero => exact preserves_pure ()
  | succ expirations ih =>
    refine Preserves.bind (hI.zoom fun _ _ => rfl) fun sessionsAvailable => ?_
    exact Preserves.ite ih (preserves_modify fun _ h => h)

/-- The part before `epoll_wait` starts the shutdown, ends it, or does nothing. -/
theorem beginIteration_cases (hbegin : beginIteration.run s = .ok () s') :
    s' = s ∧ s.state ≠ .STOPPING ∨ s.state = .RUNNING ∧ s' = s.shutdownStarted ∨
      s.state = .STOPPING ∧ s'.state = .STOPPED ∧ s'.sessionManager = s.sessionManager := by
  -- the two `if` of the loop body, by the state that they look at
  cases hstate : s.state with
  | RUNNING =>
    by_cases hflag : s.tcpHandler.shutdownRequest = true
    · rw [beginIteration_run_requested hstate hflag] at hbegin
      cases hbegin
      exact .inr (.inl ⟨rfl, rfl⟩)
    · have hidle : beginIteration.run s = .ok () s := by
        simp [beginIteration, startShutdown, stopServers, hstate, hflag]
      rw [hidle] at hbegin
      cases hbegin
      exact .inl ⟨rfl, by decide⟩
  | DRAINING =>
    rw [beginIteration_run_draining hstate] at hbegin
    cases hbegin
    exact .inl ⟨rfl, by decide⟩
  | STOPPING =>
    exact .inr (.inr ⟨rfl, (beginIteration_returns_stopping hstate).of_run_ok hbegin⟩)
  | STOPPED =>
    have hidle : beginIteration.run s = .ok () s := by
      simp [beginIteration, startShutdown, stopServers, hstate]
    rw [hidle] at hbegin
    cases hbegin
    exact .inl ⟨rfl, by decide⟩

/-- The turn reads no timer and is not the part before `epoll_wait`. -/
def Turn.IsQuiet : Turn → Prop
  | .beginIteration => False
  | .event event => event.isTimer = false
  | _ => True

/-- Such a turn leaves the state of the loop as it is. -/
theorem quietTurn_keeps (hI : SessionManager.KeptByCalls I) (h : I s.sessionManager) {t : Turn}
    (hquiet : Turn.IsQuiet t) (hturn : turn json around s t = some s') :
    s'.state = s.state ∧ I s'.sessionManager := by
  cases t with
  | beginIteration => exact hquiet.elim
  | event event =>
    obtain ⟨hloop, hI'⟩ := of_turn hturn
      (socketEvent_keeps hI.createSession hI.terminateSession h hquiet)
    exact ⟨hloop.state, hI'⟩
  | cleanup now cleanupNow =>
    obtain ⟨hloop, hI'⟩ := of_turn hturn (cleanup_keeps hI.cleanTimeoutSessions h now cleanupNow)
    exact ⟨hloop.state, hI'⟩
  | failed =>
    cases turn_eq_some.mp hturn
    exact ⟨rfl, h⟩
  | shutdownRequest =>
    cases turn_eq_some.mp hturn
    exact ⟨rfl, h⟩

/-- The calls of the session manager that a turn can make. -/
inductive Makes (around : Nat → Surroundings) (s : Server) : Turn → SessionCall → Prop where
  | startDraining (hstate : s.state = .RUNNING) (hflag : s.tcpHandler.shutdownRequest = true) :
      Makes around s .beginIteration .startDraining
  | shutdownSession (expirations : Nat) (hstate : s.state = .DRAINING) :
      Makes around s (.event (.timer expirations)) .shutdownSession
  | createSession (event : Ready) (imsi : Imsi) (now : Time)
      (hvalid : Validation.isValidImsi imsi = true) (hat : CreatesAt around s event imsi now) :
      Makes around s (.event event) (.createSession imsi now)
  | terminateSession (fd : Nat) (received : ReceiveOutcome) (sends : Nat → SendOutcome)
      (imsi : Imsi) : Makes around s (.event (.client fd received sends)) (.terminateSession imsi)
  | cleanTimeoutSessions (now cleanupNow : Time)
      (hdue : now - s.lastCleanup > seconds (SESSION_CLEANUP_INTERVAL_S / 3)) :
      Makes around s (.cleanup now cleanupNow) (.cleanTimeoutSessions cleanupNow)

/-- The calls that are made through a method of the manager. -/
theorem preserves_of_perform {α : Type} {method : SessionManager.Method α} {c : SessionCall}
    (hmethod : SessionManager.perform c = do let _ ← method)
    (h : Preserves I (SessionManager.perform c)) : Preserves I method := by
  intro m hm
  have hboth := h m hm
  rw [hmethod, ensures_bind] at hboth
  exact hboth

/-- **A turn keeps what its calls keep.** -/
theorem turn_keeps_made {t : Turn}
    (hkeep : ∀ c, Makes around s t c → Preserves I (SessionManager.perform c))
    (h : I s.sessionManager) (hturn : turn json around s t = some s') : I s'.sessionManager := by
  cases t with
  | beginIteration =>
    have hrun := turn_eq_some.mp hturn
    rcases beginIteration_cases hrun with ⟨rfl, -⟩ | ⟨hstate, rfl⟩ | ⟨-, -, hmanager⟩
    · exact h
    · -- the drain begins here, and only here
      by_cases hflag : s.tcpHandler.shutdownRequest = true
      · exact hkeep _ (.startDraining hstate hflag) s.sessionManager h
      · -- without the flag nothing is started
        have hidle : beginIteration.run s = .ok () s := by
          simp [beginIteration, startShutdown, stopServers, hstate, hflag]
        have hsame : s = s.shutdownStarted := by
          have hboth := hidle.symm.trans hrun
          simpa using hboth
        rw [← hsame]
        exact h
    · rw [hmanager]
      exact h
  | event event =>
    by_cases htimer : event.isTimer = true
    · cases event with
      | timer expirations =>
        by_cases hstate : s.state = .DRAINING
        · -- one `shutdownSession` for each expiration that the timer reports
          have hshutdown := preserves_of_perform rfl (hkeep _ (.shutdownSession expirations hstate))
          have hrun := turn_eq_some.mp hturn
          rw [take_timer_run_draining hstate] at hrun
          exact (expire_preserves hshutdown expirations s h).of_run_ok hrun
        · -- outside `DRAINING` the timer is not read
          have hrun := turn_eq_some.mp hturn
          rw [take_timer_run_ignored hstate] at hrun
          cases hrun
          exact h
      | _ => cases htimer
    · have hsocket : event.isTimer = false := by simpa using htimer
      -- every other event reaches the manager through `createSession` and `terminateSession` only
      have hcreate : ∀ imsi now, Validation.isValidImsi imsi = true →
          CreatesAt around s event imsi now →
          Preserves I (SessionManager.createSession imsi now) := by
        intro imsi now hvalid hat
        exact preserves_of_perform rfl (hkeep _ (.createSession event imsi now hvalid hat))
      have hterminate : event.isClient = true →
          ∀ imsi, Preserves I (SessionManager.terminateSession imsi) := by
        intro hclient imsi
        cases event with
        | client fd received sends =>
          exact preserves_of_perform rfl (hkeep _ (.terminateSession fd received sends imsi))
        | _ => cases hclient
      exact (of_turn hturn (socketEvent_keeps_at hcreate hterminate h hsocket)).2
  | cleanup now cleanupNow =>
    have hclean : Ensures (take json around (.cleanup now cleanupNow)) s
        (fun _ s' => I s'.sessionManager) (fun _ _ => True) := by
      simp only [take, cleanup, ensures_bind, ensures_get]
      split
      · next hdue =>
        simp only [ensures_bind, onManager, ensures_zoom]
        have hkept := hkeep _ (.cleanTimeoutSessions now cleanupNow hdue) s.sessionManager h
        exact hkept.mono (fun _ _ hm => hm) fun _ _ _ => trivial
      · exact h
    exact of_turn hturn hclean
  | failed =>
    cases turn_eq_some.mp hturn
    exact h
  | shutdownRequest =>
    cases turn_eq_some.mp hturn
    exact h

/-- **Every turn keeps what the calls keep.** -/
theorem turn_keeps (hI : SessionManager.KeptByCalls I) (h : I s.sessionManager) {t : Turn}
    (hturn : turn json around s t = some s') : I s'.sessionManager := by
  refine turn_keeps_made (fun c hmakes => ?_) h hturn
  cases hmakes with
  | startDraining hstate hflag => exact hI.startDraining
  | shutdownSession expirations hstate => exact hI.shutdownSession.bind fun _ => preserves_pure _
  | createSession event imsi now hvalid hat =>
    exact (hI.createSession imsi now hvalid).bind fun _ => preserves_pure _
  | terminateSession fd received sends imsi =>
    exact (hI.terminateSession imsi).bind fun _ => preserves_pure _
  | cleanTimeoutSessions now cleanupNow hdue => exact hI.cleanTimeoutSessions cleanupNow

/-- **The set of active IMSIs never grows again.** -/
theorem exec_drainsWithin {turns : List Turn} (hdraining : s.sessionManager.draining = true)
    (hrun : Run.exec (turn json around) s turns = some s') :
    s'.sessionManager.DrainsWithin s.sessionManager.sessions.keySet :=
  Run.exec_invariant
    (fun _ _ _ h hturn => turn_keeps (SessionManager.drainsWithin_kept _) h hturn)
    ⟨hdraining, subset_rfl⟩ hrun

/-! ## The drain timer

In `DRAINING` each expiration takes a session. The first one that finds none moves the loop on to
`STOPPING`. -/

/-- `e` expirations take `e` sessions; when there are fewer, the loop goes on to `STOPPING`.
Induction on the expirations. -/
theorem expire_takes (expirations : Nat) :
    ∀ {s : Server}, s.sessionManager.cdrWriter.Reliable →
      Returns (expire expirations) s fun _ s' =>
        s'.sessionManager.sessions.size = s.sessionManager.sessions.size - expirations ∧
        s'.sessionManager.sessions.keySet ⊆ s.sessionManager.sessions.keySet ∧
        (s'.state = s.state ∧ expirations ≤ s.sessionManager.sessions.size ∨
          s'.state = .STOPPING ∧ s'.sessionManager.sessions.keySet = ∅) := by
  induction expirations with
  | zero => exact fun _ => ⟨rfl, subset_rfl, .inl ⟨rfl, Nat.zero_le _⟩⟩
  | succ expirations ih =>
    intro s h
    simp only [expire, ensures_bind, onManager, ensures_zoom]
    unfold Ensures
    cases hentries : s.sessionManager.sessions.entries with
    | nil =>
      rw [SessionManager.shutdownSession_run_empty hentries]
      have hsize : s.sessionManager.sessions.size = 0 := by
        rw [UnorderedMap.size, hentries, List.length_nil]
      refine ⟨?_, subset_rfl, .inr ⟨rfl, ?_⟩⟩
      · show s.sessionManager.sessions.size = s.sessionManager.sessions.size - (expirations + 1)
        omega
      · show s.sessionManager.sessions.keySet = ∅
        rw [← Finset.card_eq_zero, UnorderedMap.card_keySet, hsize]
    | cons it rest =>
      rw [SessionManager.shutdownSession_run (h _) hentries]
      have hin : it.1 ∈ s.sessionManager.sessions :=
        UnorderedMap.mem_of_entries_eq_cons hentries
      have hsize := UnorderedMap.size_erase hin
      have hkeys : UnorderedMap.keySet (s.sessionManager.sessions.erase it.1)
          = s.sessionManager.sessions.keySet.erase it.1 :=
        UnorderedMap.keySet_erase s.sessionManager.sessions it.1
      -- one session less for the expirations that are left
      refine (ih (s := s.setSessionManager (s.sessionManager.terminated it.1)) h).mono
        (fun _ s' hs' => ?_) fun _ _ he => he
      obtain ⟨hcount, hsubset, hstate⟩ := hs'
      refine ⟨?_, ?_, hstate.imp_left fun hsame => ⟨hsame.1, ?_⟩⟩
      · have hcount' : s'.sessionManager.sessions.size
            = UnorderedMap.size (s.sessionManager.sessions.erase it.1) - expirations := hcount
        omega
      · have hsubset' : s'.sessionManager.sessions.keySet
            ⊆ UnorderedMap.keySet (s.sessionManager.sessions.erase it.1) := hsubset
        rw [hkeys] at hsubset'
        exact hsubset'.trans (Finset.erase_subset it.1 _)
      · have hleft : expirations ≤ UnorderedMap.size (s.sessionManager.sessions.erase it.1) :=
          hsame.2
        omega

/-! ## Where the loop stands

The state of the loop and the flag of the manager go together: no session can be created after
`RUNNING`, and none is left from `STOPPING` on. -/

/-- How far the shutdown has come in a state of the loop. -/
structure ShutsDown (s : Server) : Prop where
  ledgered : s.sessionManager.Ledgered
  draining : s.state ≠ .RUNNING → s.sessionManager.draining = true
  emptied : s.state = .STOPPING ∨ s.state = .STOPPED → s.sessionManager.sessions.keySet = ∅

/-- What happens to the manager after the loop has left `RUNNING` does not fill an empty table. -/
theorem ShutsDown.quiet (h : s.ShutsDown) (hledgered : s'.sessionManager.Ledgered)
    (hstate : s'.state = s.state)
    (hdrains : s.sessionManager.draining = true →
      s'.sessionManager.DrainsWithin s.sessionManager.sessions.keySet) : s'.ShutsDown where
  ledgered := hledgered
  draining := fun hne => (hdrains (h.draining (hstate ▸ hne))).1
  emptied := fun hlate => by
    rw [hstate] at hlate
    have hne : s.state ≠ .RUNNING := by
      rintro heq
      rcases hlate with hlate | hlate <;> rw [heq] at hlate <;> cases hlate
    have hsubset := (hdrains (h.draining hne)).2
    rw [h.emptied hlate] at hsubset
    exact Finset.subset_empty.mp hsubset

theorem turn_shutsDown (h : s.ShutsDown) {t : Turn} (hturn : turn json around s t = some s') :
    s'.ShutsDown := by
  -- the manager goes on with its ledger whatever the turn is
  have hledgered : s'.sessionManager.Ledgered :=
    turn_keeps SessionManager.ledgered_kept h.ledgered hturn
  have hdrains : s.sessionManager.draining = true →
      s'.sessionManager.DrainsWithin s.sessionManager.sessions.keySet := fun hdraining =>
    turn_keeps (SessionManager.drainsWithin_kept _) ⟨hdraining, subset_rfl⟩ hturn
  by_cases hquiet : Turn.IsQuiet t
  · have hstate := (quietTurn_keeps SessionManager.ledgered_kept h.ledgered hquiet hturn).1
    exact h.quiet hledgered hstate hdrains
  cases t with
  | beginIteration =>
    rcases beginIteration_cases (turn_eq_some.mp hturn) with
      ⟨rfl, -⟩ | ⟨-, rfl⟩ | ⟨hstate, hstopped, hmanager⟩
    · exact h
    · refine ⟨hledgered, fun _ => rfl, fun hlate => ?_⟩
      rcases hlate with hlate | hlate <;> cases hlate
    · refine ⟨hledgered, fun _ => ?_, fun _ => ?_⟩
      · rw [hmanager]
        exact h.draining (by rw [hstate]; decide)
      · rw [hmanager]
        exact h.emptied (.inl hstate)
  | event event =>
    cases event with
    | timer expirations =>
      have hrun := turn_eq_some.mp hturn
      by_cases hstate : s.state = .DRAINING
      · have hdraining := h.draining (by rw [hstate]; decide)
        rw [take_timer_run_draining hstate] at hrun
        obtain ⟨-, -, hend⟩ := (expire_takes expirations h.ledgered.reliable).of_run_ok hrun
        rcases hend with ⟨hsame, -⟩ | ⟨hstopping, hempty⟩
        · exact h.quiet hledgered hsame hdrains
        · exact ⟨hledgered, fun _ => (hdrains hdraining).1, fun _ => hempty⟩
      · rw [take_timer_run_ignored hstate] at hrun
        cases hrun
        exact ⟨h.ledgered, h.draining, h.emptied⟩
    | _ => exact absurd rfl hquiet
  | _ => exact absurd trivial hquiet

/-! ## Whole runs

The invariant of the turns along a run, and what it says about the state that the run reaches. -/

/-- The invariant of all turns, from the start. -/
theorem shutsDown_run {service : Service} {socket : Nat} {now : Time} {turns : List Turn}
    (hledgered : service.handler.sessionManager.Ledgered)
    (hrun : Run.exec (turn json around) (started service socket now) turns = some s) :
    s.ShutsDown := by
  have hstart : (started service socket now).ShutsDown := by
    refine ⟨hledgered, fun hne => absurd rfl hne, fun hlate => ?_⟩
    rcases hlate with hlate | hlate <;> cases hlate
  exact Run.exec_invariant (fun _ _ _ h hturn => turn_shutsDown h hturn) hstart hrun

/-- What is true of a state of the loop once the manager drains. -/
structure DrainsCompletely (json : JsonLib) (around : Nat → Surroundings) (s : Server) : Prop where
  begun : s.state ≠ .RUNNING → s.sessionManager.draining = true
  refuses : s.sessionManager.draining = true → ∀ imsi now,
    (SessionManager.createSession imsi now).run s.sessionManager
      = .ok .SERVICE_UNAVAILABLE s.sessionManager
  irreversible : s.sessionManager.draining = true → ∀ turns s',
    Run.exec (turn json around) s turns = some s' → s'.sessionManager.draining = true ∧
      s'.sessionManager.sessions.keySet ⊆ s.sessionManager.sessions.keySet
  /-- The sessions that a timer event removes. -/
  counted : s.state = .DRAINING → ∀ expirations, ∃ s',
    turn json around s (.event (.timer expirations)) = some s' ∧
      s'.sessionManager.sessions.keySet ⊆ s.sessionManager.sessions.keySet ∧
      (s.sessionManager.sessions.keySet \ s'.sessionManager.sessions.keySet).card
        = min expirations s.sessionManager.countActiveSession
  emptied : s.state = .STOPPING ∨ s.state = .STOPPED →
    s.sessionManager.sessions.keySet = ∅ ∧
      SessionManager.AllMatched s.sessionManager.cdrWriter.entries

/-- **Shutdown is complete and irreversible.** In every state that a run of the loop reaches, half
way through a batch of events too, with a rate that the configuration accepts and a CDR writer that
does not throw. -/
theorem drainsCompletely_run {w : CdrWriter} (hw : w.Reliable) (hnew : w.entries = [])
    {blacklist : Blacklist} {timeout rate : Int}
    (hvalid : Validation.isValidGracefulShutdownRate rate = true) {start now : Time}
    {service : Service} {socket : Nat}
    (hservice : service.handler.sessionManager = .constructed w blacklist timeout rate start)
    {turns : List Turn}
    (hrun : Run.exec (turn json around) (started service socket now) turns = some s) :
    DrainsCompletely json around s := by
  have hledgered : service.handler.sessionManager.Ledgered := by
    rw [hservice]
    exact SessionManager.ledgered_constructed hw hnew blacklist timeout hvalid start
  have h : s.ShutsDown := shutsDown_run hledgered hrun
  refine ⟨h.draining, fun hdraining => SessionManager.createSession_run_draining hdraining,
    fun hdraining turns s' hrun' => exec_drainsWithin hdraining hrun', fun hstate e => ?_,
    fun hlate => ⟨h.emptied hlate, ?_⟩⟩
  · -- an iteration in `DRAINING`: at most one session for each expiration
    obtain ⟨_, s', hexpire, hsize, hsubset, -⟩ :=
      (returns_iff _).mp (expire_takes e h.ledgered.reliable)
    refine ⟨s', turn_eq_some.mpr ?_, hsubset, ?_⟩
    · rw [take_timer_run_draining hstate]
      exact hexpire
    · rw [Finset.card_sdiff_of_subset hsubset, UnorderedMap.card_keySet, UnorderedMap.card_keySet,
        hsize, SessionManager.countActiveSession]
      omega
  · -- `STOPPING` comes when the table is empty, so every creation has its deletion
    obtain ⟨es, l, hes, hkeeps⟩ := h.ledgered
    exact SessionManager.allMatched_of_keeps hkeeps (Ledger.consistent_exec hes) (h.emptied hlate)

/-- A session is created, the shutdown is requested, and the timer is read in one batch with a
datagram that asks for another session. -/
def shutDownTurns : List Turn :=
  [.beginIteration, .event (.udp [.packet (ascii "001010000000001") 1 0 false]), .shutdownRequest,
    .beginIteration, .event (.timer 2), .event (.udp [.packet (ascii "001010000000002") 1 0 false])]

theorem drainsCompletely_shutDownTurns : ∃ s,
    Run.exec (turn TcpHandler.sampleJson sampleAround) (started newService 3 0) shutDownTurns
      = some s ∧ s.state = .STOPPING ∧
      s.sessionManager.cdrWriter.entries.map CdrEntry.action
        = [ICdrWriter.SESSION_CREATED, ICdrWriter.SESSION_DELETED] ∧
      DrainsCompletely TcpHandler.sampleJson sampleAround s := by
  have hrun : Run.exec (turn TcpHandler.sampleJson sampleAround) (started newService 3 0)
      shutDownTurns = some _ := rfl
  exact ⟨_, hrun, rfl, rfl, drainsCompletely_run (fun _ => rfl) rfl (by decide) rfl hrun⟩

end Server
end Pgw
