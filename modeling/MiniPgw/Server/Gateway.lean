import MiniPgw.Cdr.Destructor
import MiniPgw.Lib.Handover
import MiniPgw.Server.Calls
import MiniPgw.Server.Shutdown
import MiniPgw.Session.Records

/-!
# The gateway and its table of records

The event loop hands its records over to `DatabaseCdrWriter`, by `writeAction`, and the background
thread of the writer stores them while the loop goes on. When the loop has ended, the event-loop
thread runs the destructor of the writer. `gateway` is the `Handover` of the two.

* **`billed`** — whatever fails and however the threads are scheduled, the table never has more
  records of a subscriber than the session manager has made; and when the destructor has returned
  and the database has done what it was asked for, it has exactly these, so that every session is
  in the table as created and as deleted, unless it was still active when the loop ended.
-/

namespace Pgw

open FlushThreads Handover

/-! ## Every turn of the loop adds records

The log of the manager is a prefix of its log after any turn, and its books stay balanced. -/

namespace Server

variable {json : JsonLib} {around : Nat → Surroundings} {s s' : Server}

/-- No turn takes a record away. -/
theorem turn_records (h : s.sessionManager.Ledgered) {t : Turn}
    (hturn : turn json around s t = some s') : s'.sessionManager.Ledgered ∧
      s.sessionManager.cdrWriter.entries <+: s'.sessionManager.cdrWriter.entries := by
  obtain ⟨calls, -, hcalls⟩ := turn_calls hturn
  have hstep : ∀ m c m', (m.Ledgered ∧
      s.sessionManager.cdrWriter.entries <+: m.cdrWriter.entries) →
      SessionManager.step m c = some m' →
      m'.Ledgered ∧ s.sessionManager.cdrWriter.entries <+: m'.cdrWriter.entries := by
    intro m c m' hm hstep
    obtain ⟨hledgered, hprefix⟩ := SessionManager.records_le_step hm.1 hstep
    exact ⟨hledgered, hm.2.trans hprefix⟩
  exact Run.exec_invariant hstep ⟨h, List.prefix_refl _⟩ hcalls

/-- A loop that has stopped has left no session. -/
theorem hasSession_of_stopped {service : Service} {socket : Nat} {now : Time} {turns : List Turn}
    (hledgered : service.handler.sessionManager.Ledgered)
    (hrun : Run.exec (turn json around) (started service socket now) turns = some s)
    (hstopped : s.state = .STOPPED) (imsi : Imsi) : s.sessionManager.hasSession imsi = false := by
  have hkeys := (shutsDown_run hledgered hrun).emptied (.inr hstopped)
  show decide (imsi ∈ s.sessionManager.sessions) = false
  rw [decide_eq_false_iff_not, ← UnorderedMap.mem_keySet, hkeys]
  exact Finset.notMem_empty imsi

end Server

/-! ## What the writer stores

Any source of records may stand in front of the writer. What is stored is compared with what the
source has put out, once while anything may fail and once at the end of a run without failures. -/

/-- The event-loop thread runs the destructor of the writer. -/
def callsDestructor {ε : Type} : Monitor.Event (ThreadAction ε) → Bool
  | .act .stop => true
  | _ => false

/-- A source of records, and the two threads of the writer that stores them. -/
def storing {σ α : Type} (produce : σ → α → Option σ) (output : σ → List CdrEntry) :
    Handover σ α (Monitor.State (FlushThreads CdrEntry)) (Monitor.Event (ThreadAction CdrEntry))
      CdrEntry where
  produce := produce
  output := output
  consume := (flushThreads CdrEntry).step
  takes := calls
  admits := fun v => decide (v.shared.destructor = .notCalled)
  closes := callsDestructor

/-- The number of rows of `imsi` with this action. -/
def rowsOf (rows : List (Row CdrEntry)) (imsi : Imsi) (action : Bytes) : ℕ :=
  (rows.map Row.entry).count ⟨imsi, action⟩

/-- The database does what the writer asks for, and nothing is lost between its two threads. -/
structure DatabaseServes {ε : Type} (u : Monitor.State (FlushThreads ε))
    (es : List (Monitor.Event (ThreadAction ε))) : Prop where
  faultless : ∀ a ∈ writerTrace u es, DatabaseCdrWriter.Faultless a
  swaps : Run.Along DatabaseCdrWriter.step DatabaseCdrWriter.MeetsEmptyBuffer u.shared.writer
    (writerTrace u es)
  lastBegin : Run.Along (flushThreads ε).step LastBeginSucceeds u es

/-- The destructor of the writer has returned. -/
def Destroyed {ε : Type} (u : Monitor.State (FlushThreads ε)) : Prop :=
  u.shared.destructor = .joined ∧ u.shared.writer.phase .eventLoop = .idle

namespace Storing

/-- Only its first step starts the destructor. -/
theorem callsDestructor_of_step {ε : Type} {u v : Monitor.State (FlushThreads ε)}
    {e : Monitor.Event (ThreadAction ε)} (hstep : (flushThreads ε).step u e = some v)
    (hbefore : u.shared.destructor = .notCalled) (hafter : v.shared.destructor ≠ .notCalled) :
    callsDestructor e = true := by
  cases Monitor.step_cases hstep with
  | act a shared place hact hmoves =>
    cases act_cases hact with
    | stop w hdestructor hw => rfl
    | join w hdestructor hloop hw => rw [hbefore] at hdestructor; cases hdestructor
    | notifyOne hdestructor => rw [hbefore] at hdestructor; cases hdestructor
    | _ => exact absurd hbefore hafter
  | _ => exact absurd hbefore hafter

variable {σ α : Type} {produce : σ → α → Option σ} {output : σ → List CdrEntry} {I : σ → Prop}
  {p : σ} {prior : List (Row CdrEntry)} {time clock : ℕ}
  {is : List (α ⊕ Monitor.Event (ThreadAction CdrEntry))}
  {g : Handover.State σ (Monitor.State (FlushThreads CdrEntry)) CdrEntry}

/-- What the writer has been given is a prefix of what has been put out, and once the destructor has
been called it is all of it. -/
theorem given (hgrows : ∀ s a s', I s → produce s a = some s' → I s' ∧ output s <+: output s')
    (hp : I p) (hnew : output p = [])
    (hrun : Run.exec (storing produce output).step ⟨p, FlushThreads.started prior time clock, []⟩ is
      = some g) :
    (consumed is).flatMap calls <+: output g.producer ∧
      (g.consumer.shared.destructor ≠ .notCalled →
        (consumed is).flatMap calls = output g.producer) := by
  have hparts := exec_parts (h := storing produce output) hgrows hp hrun
  have houtput : output p ++ (consumed is).flatMap calls ++ g.pending = output g.producer :=
    hparts.output
  rw [hnew, List.nil_append] at houtput
  refine ⟨⟨g.pending, houtput⟩, fun hcalled => ?_⟩
  have hcloses : ∀ u e v, (flushThreads CdrEntry).step u e = some v →
      decide (u.shared.destructor = .notCalled) = true →
      decide (v.shared.destructor = .notCalled) = false → callsDestructor e = true :=
    fun u e v hstep hbefore hafter =>
      callsDestructor_of_step hstep (of_decide_eq_true hbefore) (of_decide_eq_false hafter)
  have hpending : g.pending = [] :=
    pending_of_closed (h := storing produce output) hcloses rfl hrun (decide_eq_false hcalled)
  rwa [hpending, List.append_nil] at houtput

/-- The destructor leaves exactly what was there and has been put out. -/
theorem rows_eq (hgrows : ∀ s a s', I s → produce s a = some s' → I s' ∧ output s <+: output s')
    (hp : I p) (hnew : output p = [])
    (hrun : Run.exec (storing produce output).step ⟨p, FlushThreads.started prior time clock, []⟩ is
      = some g) (hdestroyed : Destroyed g.consumer)
    (hserves : DatabaseServes (FlushThreads.started prior time clock) (consumed is)) :
    g.consumer.shared.writer.db.transaction = none ∧ ∀ imsi action,
      rowsOf g.consumer.shared.writer.db.committed imsi action
        = rowsOf prior imsi action + (output g.producer).count ⟨imsi, action⟩ := by
  have hthreads := (exec_parts (h := storing produce output) hgrows hp hrun).consumer
  have hcalled : g.consumer.shared.destructor ≠ .notCalled := by
    rw [hdestroyed.1]
    decide
  obtain ⟨hnone, hinventory⟩ := inventory_of_joined hthreads hserves.faultless hserves.lastBegin
    hdestroyed.1 hdestroyed.2
  -- the conservation law of the writer, with nothing left in the buffer or in a flush
  have hacc := DatabaseCdrWriter.accounted_of_along hserves.faultless hserves.swaps
    (writer_run hthreads)
  rw [DatabaseCdrWriter.Accounted, writes_writerTrace hthreads, hinventory,
    (given hgrows hp hnew hrun).2 hcalled] at hacc
  refine ⟨hnone, fun imsi action => ?_⟩
  have hcount := congrArg (Multiset.count ⟨imsi, action⟩) hacc
  rw [Multiset.count_add, Multiset.coe_count, Multiset.coe_count, Multiset.coe_count] at hcount
  exact hcount

end Storing

/-! ## The two together

The source is now the event loop. The balance of the ledger goes through the writer into the
table. -/

/-- The event loop and the writer that stores its records. -/
def gateway (json : JsonLib) (around : Nat → Surroundings) : Handover Server Turn
    (Monitor.State (FlushThreads CdrEntry)) (Monitor.Event (ThreadAction CdrEntry)) CdrEntry :=
  storing (Server.turn json around) fun s => s.sessionManager.cdrWriter.entries

abbrev Gateway := Handover.State Server (Monitor.State (FlushThreads CdrEntry)) CdrEntry

namespace Gateway

/-- The loop before its first iteration, and a table that already has the rows `prior`. -/
def started (service : Service) (socket : Nat) (now : Time) (prior : List (Row CdrEntry))
    (time clock : ℕ) : Gateway :=
  ⟨Server.started service socket now, FlushThreads.started prior time clock, []⟩

def writer (g : Gateway) : DatabaseCdrWriter CdrEntry :=
  g.consumer.shared.writer

/-- The table of the writer, committed or not. -/
def table (g : Gateway) : List (Row CdrEntry) :=
  g.writer.db.rows

variable {json : JsonLib} {around : Nat → Surroundings} {service : Service} {socket : Nat}
  {now : Time} {prior : List (Row CdrEntry)} {time clock : ℕ}
  {is : List (Turn ⊕ Monitor.Event (ThreadAction CdrEntry))} {g : Gateway}

/-- The loop has its own run. -/
theorem turns (h : service.handler.sessionManager.Ledgered)
    (hrun : Run.exec (gateway json around).step (started service socket now prior time clock) is
      = some g) :
    g.producer.sessionManager.Ledgered ∧
      Run.exec (Server.turn json around) (Server.started service socket now) (produced is)
        = some g.producer := by
  have hparts := exec_parts (h := gateway json around)
    (fun _ _ _ hp hturn => Server.turn_records hp hturn) (p := Server.started service socket now) h
    hrun
  exact ⟨hparts.kept, hparts.producer⟩

/-- In a process that has stored everything, the rows of a subscriber balance but for the session
that is still active, and a loop that has stopped has left none. -/
theorem committed_balance (hledgered : service.handler.sessionManager.Ledgered)
    (hempty : service.handler.sessionManager.cdrWriter.entries = [])
    (hrun : Run.exec (gateway json around).step (started service socket now prior time clock) is
      = some g) (hdestroyed : Destroyed g.consumer)
    (hserves : DatabaseServes (FlushThreads.started prior time clock) (consumed is)) :
    g.writer.db.transaction = none ∧ ∀ imsi,
      (∀ action, rowsOf g.writer.db.committed imsi action
        = rowsOf prior imsi action + g.producer.sessionManager.recordsOf imsi action) ∧
      rowsOf g.writer.db.committed imsi ICdrWriter.SESSION_CREATED
          + rowsOf prior imsi ICdrWriter.SESSION_DELETED
        = rowsOf g.writer.db.committed imsi ICdrWriter.SESSION_DELETED
          + rowsOf prior imsi ICdrWriter.SESSION_CREATED
          + (if g.producer.sessionManager.hasSession imsi = true then 1 else 0) ∧
      (g.producer.state = .STOPPED → g.producer.sessionManager.hasSession imsi = false) := by
  obtain ⟨hkept, hturns⟩ := turns hledgered hrun
  obtain ⟨hnone, hcommitted⟩ := Storing.rows_eq (fun _ _ _ hp hturn => Server.turn_records hp hturn)
    (p := Server.started service socket now) hledgered hempty hrun hdestroyed hserves
  refine ⟨hnone, fun imsi => ⟨hcommitted imsi, ?_, fun hstopped => ?_⟩⟩
  · -- two rows for one session that has ended, one for a session that has not
    have hbalance := SessionManager.records_balance hkept imsi
    have hcreated := hcommitted imsi ICdrWriter.SESSION_CREATED
    have hdeleted := hcommitted imsi ICdrWriter.SESSION_DELETED
    unfold SessionManager.recordsOf at hbalance
    show rowsOf g.consumer.shared.writer.db.committed _ _ + _
      = rowsOf g.consumer.shared.writer.db.committed _ _ + _ + _
    omega
  · -- the loop has stopped after the drain, which leaves no session
    exact Server.hasSession_of_stopped hledgered hturns hstopped imsi

/-- The session manager of a process has no sessions and no records at first. -/
theorem ledgered_of_constructed {w : CdrWriter} (hw : w.Reliable) (hnew : w.entries = [])
    {blacklist : Blacklist} {timeout rate : Int}
    (hvalid : Validation.isValidGracefulShutdownRate rate = true) {start : Time}
    (hservice : service.handler.sessionManager = .constructed w blacklist timeout rate start) :
    service.handler.sessionManager.Ledgered ∧
      service.handler.sessionManager.cdrWriter.entries = [] := by
  rw [hservice]
  exact ⟨SessionManager.ledgered_constructed hw hnew blacklist timeout hvalid start, hnew⟩

/-- A subscriber attaches, the shutdown is requested, the timer ends the session, and the destructor
stores both records. -/
def billedRun : List (Turn ⊕ Monitor.Event (ThreadAction CdrEntry)) :=
  let imsi := ascii "001010000000001"
  [.inl .beginIteration, .inl (.event (.udp [.packet imsi 1 0 false])),
    .inr (.act (.eventLoop (.writeAction ⟨imsi, ICdrWriter.SESSION_CREATED⟩))),
    .inl .shutdownRequest, .inl .beginIteration, .inl (.event (.timer 2)),
    .inr (.act (.eventLoop (.writeAction ⟨imsi, ICdrWriter.SESSION_DELETED⟩))),
    .inl .beginIteration, .inr (.act .stop), .inr (.act .notifyOne), .inr (.act .testStop),
    .inr (.act .join), .inr (.act (.eventLoop (.takeBuffer .eventLoop))),
    .inr (.act (.eventLoop (.begin .eventLoop true))),
    .inr (.act (.eventLoop (.insert .eventLoop true))),
    .inr (.act (.eventLoop (.insert .eventLoop true))),
    .inr (.act (.eventLoop (.commit .eventLoop .ok)))]

theorem serves_billedRun : DatabaseServes (FlushThreads.started [] 0 0) (consumed billedRun) := by
  have htrace : writerTrace (FlushThreads.started [] 0 0) (consumed billedRun)
      = [.writeAction ⟨ascii "001010000000001", ICdrWriter.SESSION_CREATED⟩,
        .writeAction ⟨ascii "001010000000001", ICdrWriter.SESSION_DELETED⟩, .setStop, .exitLoop,
        .callFlush .eventLoop, .takeBuffer .eventLoop, .begin .eventLoop true,
        .insert .eventLoop true, .insert .eventLoop true, .commit .eventLoop .ok] := rfl
  refine ⟨?_, ?_, ?_⟩
  · rw [htrace]
    simp [DatabaseCdrWriter.Faultless]
  · rw [htrace]
    exact Run.along_of_forall (by simp [DatabaseCdrWriter.MeetsEmptyBuffer]) _
  · exact Run.along_of_forall (by simp [billedRun, consumed, LastBeginSucceeds]) _

/-- The loop has stopped, and the destructor has returned. -/
def Ended (g : Gateway) : Bool :=
  decide (g.producer.state = .STOPPED ∧ g.consumer.shared.destructor = .joined) &&
    (g.writer.phase .eventLoop).isIdle

/-- `g` is where a process has ended whose table had the rows `prior`. -/
inductive Life (json : JsonLib) (prior : List (Row CdrEntry)) (g : Gateway) : Prop where
  | intro {w : CdrWriter} (hw : w.Reliable) (hnew : w.entries = []) {blacklist : Blacklist}
      {timeout rate : Int} (hvalid : Validation.isValidGracefulShutdownRate rate = true)
    {start : Time} {service : Service}
      (hservice : service.handler.sessionManager = .constructed w blacklist timeout rate start)
      {around : Nat → Surroundings} {socket : Nat} {now : Time} {time clock : ℕ}
      {is : List (Turn ⊕ Monitor.Event (ThreadAction CdrEntry))}
      (hrun : Run.exec (gateway json around).step (started service socket now prior time clock) is
        = some g) (hdestroyed : Destroyed g.consumer)
      (hserves : DatabaseServes (FlushThreads.started prior time clock) (consumed is))

/-- Processes one after the other on the same table, with the rows that each of them leaves. -/
inductive Lives (json : JsonLib) : List (Row CdrEntry) → List Gateway → List (Row CdrEntry) → Prop
  | nil (rows : List (Row CdrEntry)) : Lives json rows [] rows
  | cons {prior rows : List (Row CdrEntry)} {g : Gateway} {gs : List Gateway}
      (hlife : Life json prior g) (hlives : Lives json g.writer.db.committed gs rows) :
      Lives json prior (g :: gs) rows

/-- **Over any number of restarts** the rows of a subscriber balance but for the processes that have
ended while the subscriber had a session; a process whose loop has stopped is none of these. -/
theorem restarts {gs : List Gateway} {rows : List (Row CdrEntry)} (h : Lives json prior gs rows)
    (imsi : Imsi) :
    rowsOf rows imsi ICdrWriter.SESSION_CREATED + rowsOf prior imsi ICdrWriter.SESSION_DELETED
      = rowsOf rows imsi ICdrWriter.SESSION_DELETED + rowsOf prior imsi ICdrWriter.SESSION_CREATED
        + gs.countP (fun g => g.producer.sessionManager.hasSession imsi) ∧
    ∀ g ∈ gs, g.producer.state = .STOPPED → g.producer.sessionManager.hasSession imsi = false := by
  induction h with
  | nil rows => exact ⟨Nat.add_comm _ _, fun g hg => absurd hg List.not_mem_nil⟩
  | cons hlife hlives ih =>
    obtain ⟨hw, hnew, hvalid, hservice, hrun, hdestroyed, hserves⟩ := hlife
    obtain ⟨hledgered, hempty⟩ := ledgered_of_constructed hw hnew hvalid hservice
    obtain ⟨-, hbalance, hstopped⟩ :=
      (committed_balance hledgered hempty hrun hdestroyed hserves).2 imsi
    constructor
    · rw [List.countP_cons]
      omega
    · intro g' hg'
      rcases List.mem_cons.mp hg' with rfl | hlater
      · exact hstopped
      · exact ih.2 g' hlater

/-- Another subscriber attaches, and `epoll_wait` fails. -/
def brokenRun : List (Turn ⊕ Monitor.Event (ThreadAction CdrEntry)) :=
  let imsi := ascii "001010000000002"
  [.inl .beginIteration, .inl (.event (.udp [.packet imsi 1 0 false])),
    .inr (.act (.eventLoop (.writeAction ⟨imsi, ICdrWriter.SESSION_CREATED⟩))), .inl .failed,
    .inr (.act .stop), .inr (.act .notifyOne), .inr (.act .testStop), .inr (.act .join),
    .inr (.act (.eventLoop (.takeBuffer .eventLoop))),
    .inr (.act (.eventLoop (.begin .eventLoop true))),
    .inr (.act (.eventLoop (.insert .eventLoop true))),
    .inr (.act (.eventLoop (.commit .eventLoop .ok)))]

theorem serves_brokenRun (prior : List (Row CdrEntry)) :
    DatabaseServes (FlushThreads.started prior 0 0) (consumed brokenRun) := by
  have htrace : writerTrace (FlushThreads.started prior 0 0) (consumed brokenRun)
      = [.writeAction ⟨ascii "001010000000002", ICdrWriter.SESSION_CREATED⟩, .setStop, .exitLoop,
        .callFlush .eventLoop, .takeBuffer .eventLoop, .begin .eventLoop true,
        .insert .eventLoop true, .commit .eventLoop .ok] := rfl
  refine ⟨?_, ?_, ?_⟩
  · rw [htrace]
    simp [DatabaseCdrWriter.Faultless]
  · rw [htrace]
    exact Run.along_of_forall (by simp [DatabaseCdrWriter.MeetsEmptyBuffer]) _
  · exact Run.along_of_forall (by simp [brokenRun, consumed, LastBeginSucceeds]) _

def process (prior : List (Row CdrEntry))
    (is : List (Turn ⊕ Monitor.Event (ThreadAction CdrEntry))) : Option Gateway :=
  Run.exec (gateway TcpHandler.sampleJson Server.sampleAround).step
    (started Server.newService 3 0 prior 0 0) is

/-- The second process starts with the table of the first one. -/
def twoProcesses : Option (Gateway × Gateway) :=
  (process [] billedRun).bind fun g =>
    (process g.writer.db.committed brokenRun).map fun g' => (g, g')

/-- The destructor has returned, and the session of the second subscriber is active. -/
def Broken (g : Gateway) : Bool :=
  decide (g.consumer.shared.destructor = .joined) && (g.writer.phase .eventLoop).isIdle &&
    g.producer.sessionManager.hasSession (ascii "001010000000002")

theorem restarts_twoProcesses : ∃ g g',
    twoProcesses = some (g, g') ∧
      rowsOf g'.writer.db.committed (ascii "001010000000002") ICdrWriter.SESSION_CREATED
        = rowsOf g'.writer.db.committed (ascii "001010000000002") ICdrWriter.SESSION_DELETED
          + 1 := by
  -- both processes are evaluated; the second one breaks off in the middle
  have hends : twoProcesses.any (fun gs => gs.1.Ended &&
      (!gs.1.producer.sessionManager.hasSession (ascii "001010000000002") && gs.2.Broken))
        = true := by
    decide +kernel
  obtain ⟨⟨g, g'⟩, hrun, hended⟩ := (Option.any_eq_true _ _).mp hends
  obtain ⟨hfirst, hsecond⟩ := Bool.and_eq_true_iff.mp hended
  obtain ⟨hplace, hidle⟩ := Bool.and_eq_true_iff.mp hfirst
  obtain ⟨hnone, hbroken⟩ := Bool.and_eq_true_iff.mp hsecond
  obtain ⟨hplace', hactive⟩ := Bool.and_eq_true_iff.mp hbroken
  obtain ⟨hjoined', hidle'⟩ := Bool.and_eq_true_iff.mp hplace'
  have hruns := hrun
  rw [twoProcesses, Option.bind_eq_some_iff] at hruns
  obtain ⟨u, hu, hmap⟩ := hruns
  obtain ⟨v, hv, hpair⟩ := Option.map_eq_some_iff.mp hmap
  obtain ⟨rfl, rfl⟩ := Prod.mk.inj hpair
  -- each of them is a life on the table that the other one left
  have hlife : Life TcpHandler.sampleJson [] u :=
    .intro (fun _ => rfl) rfl (by decide) rfl hu
      ⟨(of_decide_eq_true hplace).2, Phase.isIdle_iff.mp hidle⟩ serves_billedRun
  have hlife' : Life TcpHandler.sampleJson u.writer.db.committed v :=
    .intro (fun _ => rfl) rfl (by decide) rfl hv
      ⟨of_decide_eq_true hjoined', Phase.isIdle_iff.mp hidle'⟩ (serves_brokenRun _)
  obtain ⟨hrows, -⟩ := restarts (.cons hlife (.cons hlife' (.nil _))) (ascii "001010000000002")
  -- the table was empty, and one process ended with the subscriber in a session
  have hprior : ∀ imsi action, rowsOf [] imsi action = 0 := fun _ _ => rfl
  have hcount : [u, v].countP (fun g =>
      g.producer.sessionManager.hasSession (ascii "001010000000002")) = 1 := by
    have hnone' := Bool.eq_false_of_not_eq_true' hnone
    simp [hnone', hactive]
  rw [hcount, hprior, hprior] at hrows
  exact ⟨u, v, hrun, hrows⟩

end Gateway
end Pgw
