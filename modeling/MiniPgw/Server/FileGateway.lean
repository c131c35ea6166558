import MiniPgw.Cdr.FallibleFileCdrWriter
import MiniPgw.Cdr.FileBill
import MiniPgw.Lib.Handover
import MiniPgw.Server.Gateway
import MiniPgw.Server.Monitors
import MiniPgw.Server.Subscribers

/-!
# The gateway and its CDR file

Without a database the records go to `FileCdrWriter`. Its `writeAction` runs on the event-loop
thread, which goes on when it returns: `fileGateway` is the `Handover` of the two. Both `open`
calls and every write may fail, and the writer goes on as if they had not; the results here are
about runs in which the file has served the writer (`FileServes`), and what is lost otherwise is
the subject of `honest_iff`.

* **`getCdr_answered`** — in every state that such a run reaches, `GET_CDR` is answered with the
  last records that the session manager has made;
* **`billedFromFile`** — over any number of processes on one file, the file has the records of all
  of them, also if some were killed; of a process that was killed the last ones may be missing, but
  none that was there when a `GET_CDR` was answered.

## The architecture

* **`fileGateway`** — the event loop and the writer as a `Handover`: each step of the loop hands
  its records over, and the writer takes them before the loop goes on.
* **`FileServes`**, **`FileServes.run`** — when no call of the stream fails, the writer is the one
  that never fails, so that the results of `FileLog` and `FileBill` hold of it.
* **`Continues`**, **`Server.turn_continues`** — the log of the manager only grows, by entries
  that can be read back.
* **`parts`** — what the writer has been given, against the log of the manager.
* **`Bills`**, **`bill_ends`**, **`bill_processes`** — one process, and by induction all
  processes.
* **`balance_of_bills`** — what the ledger says of the bill of processes that were not killed.
-/

namespace Pgw

open Handover

namespace FallibleFileCdrWriter

/-- How the constructor's calls of its streams end. -/
structure Opening where
  writeOpens : Bool
  readOpens : Bool
  /-- The headers. -/
  failure : WriteFailure
  deriving DecidableEq, Repr

def opened (prior : Bytes) (opening : Opening) : FallibleFileCdrWriter :=
  construct prior opening.writeOpens opening.readOpens opening.failure

/-- What a process leaves in the file; `closing` is how the last line of the destructor ends. -/
def fileLeft (w : FallibleFileCdrWriter) (closing : WriteFailure) : FileCdrWriter.Ending → Bytes
  | .destroyed => w.destroy closing
  | .killed => w.file

/-- The entries that a call writes. -/
def takes : Call → List CdrEntry
  | .writeAction entry _ _ => [entry]
  | _ => []

/-- **The file serves the writer**: both streams are opened, and no write and no flush fails. -/
structure FileServes (opening : Opening) (calls : List Call) : Prop where
  writeOpens : opening.writeOpens = true
  readOpens : opening.readOpens = true
  headers : opening.failure = none
  writes : ∀ call ∈ calls, call.failure = none

variable {prior : Bytes} {opening : Opening} {calls : List Call}

open FileCdrWriter (fallible written)

theorem map_fst_written (calls : List Call) :
    (written (calls.map Call.intended)).map Prod.fst = calls.flatMap takes := by
  induction calls with
  | nil => rfl
  | cons call calls ih =>
    rw [List.map_cons, ← List.singleton_append, FileCdrWriter.written_append, List.map_append, ih,
      List.flatMap_cons]
    cases call <;> rfl

/-- Then it is the writer that never fails. -/
theorem FileServes.run (h : FileServes opening calls) :
    (opened prior opening).run calls
      = ((FileCdrWriter.construct prior true true).run (calls.map Call.intended)).fallible := by
  have hreliable : (calls.map Call.intended).map FileCdrWriter.Call.reliable = calls := by
    rw [List.map_map]
    exact (List.map_congr_left fun call hcall => reliable_intended (h.writes call hcall)).trans
      (List.map_id calls)
  have hopened : opened prior opening = (FileCdrWriter.construct prior true true).fallible := by
    rw [opened, h.writeOpens, h.readOpens, h.headers, construct_reliable]
  rw [← run_reliable, hreliable, hopened]

theorem fileLeft_reliable (w : FileCdrWriter) (ending : FileCdrWriter.Ending) :
    w.fallible.fileLeft none ending = w.fileLeft ending := by
  cases ending with
  | destroyed => exact destroy_reliable w
  | killed => rfl

end FallibleFileCdrWriter

open FallibleFileCdrWriter
open FileCdrWriter (written header bill Begins Ending recordOf)

/-- The event loop and the file that its records go to. -/
def fileGateway (json : JsonLib) (around : Nat → Surroundings) :
    Handover Server Turn FallibleFileCdrWriter Call CdrEntry where
  produce := Server.turn json around
  output := fun s => s.sessionManager.cdrWriter.entries
  consume := fun w call => some (w.step call)
  takes := takes
  admits := fun _ => true
  closes := fun _ => false

abbrev FileGateway := Handover.State Server FallibleFileCdrWriter CdrEntry

namespace TcpHandler

open Protocol TcpSerializer Effects

variable {json : JsonLib} {around : Surroundings} {h : TcpHandler}

end TcpHandler

namespace SessionManager

/-- The service has a session manager that has just been constructed, for a CDR writer that does not
throw and a configuration that has been accepted. -/
inductive New (m : SessionManager) : Prop where
  | intro {w : CdrWriter} (hw : w.Reliable) (hnew : w.entries = []) {blacklist : Blacklist}
      {timeout rate : Int} (hvalid : Validation.isValidGracefulShutdownRate rate = true)
      {start : Time} (hm : m = .constructed w blacklist timeout rate start)

/-- What becomes of a manager that was `m₀`. -/
def Continues (m₀ m : SessionManager) : Prop :=
  m.Ledgered ∧ Permitted m₀ m

variable {m₀ m : SessionManager}

theorem New.continues (h : m.New) : m.Continues m ∧ m.cdrWriter.entries = [] := by
  obtain ⟨hw, hempty, hvalid, rfl⟩ := h
  exact ⟨⟨ledgered_constructed hw hempty _ _ hvalid _, Permitted.refl _⟩, hempty⟩

/-- All its records are those of a billing system. -/
theorem New.billable (h : m₀.New) (hkept : m₀.Continues m) :
    ∀ entry ∈ m.cdrWriter.entries, entry.Billable := by
  have hempty := h.continues.2
  have hsessions : m₀.sessions.keySet = ∅ := by
    obtain ⟨-, -, -, rfl⟩ := h
    rfl
  obtain ⟨⟨es, l, hes, hkeeps⟩, hpermitted⟩ := hkept
  obtain ⟨written, hwritten, hentries⟩ := hpermitted.written
  rw [hempty, List.nil_append] at hwritten
  intro entry hentry
  constructor
  · rcases (hentries entry (hwritten ▸ hentry)).1 with hold | hvalid
    · rw [hsessions] at hold
      exact absurd hold (Finset.notMem_empty _)
    · exact hvalid
  · rw [hkeeps.entries] at hentry
    obtain ⟨e, -, rfl⟩ := List.mem_map.mp hentry
    have hmarks : ∀ mark : Mark, mark.action ∈ ICdrWriter.actions := by
      intro mark
      cases mark <;> decide
    exact hmarks e.2

end SessionManager

/-- Every turn adds records. -/
theorem Server.turn_continues {json : JsonLib} {around : Nat → Surroundings} {s s' : Server}
    {m₀ : SessionManager} (h : m₀.Continues s.sessionManager) {t : Turn}
    (hturn : Server.turn json around s t = some s') :
    m₀.Continues s'.sessionManager ∧
      s.sessionManager.cdrWriter.entries <+: s'.sessionManager.cdrWriter.entries := by
  obtain ⟨hledgered, hprefix⟩ := turn_records h.1 hturn
  exact ⟨⟨hledgered, turn_keeps (SessionManager.permitted_kept _) h.2 hturn⟩, hprefix⟩

namespace FileGateway

variable {json : JsonLib} {around : Nat → Surroundings} {service : Service} {socket : Nat}
  {now : Time} {prior : Bytes} {opening : Opening} {is : List (Turn ⊕ Call)} {g : FileGateway}

/-- The loop before its first iteration, and the writer on a file that already has some text. -/
def started (service : Service) (socket : Nat) (now : Time) (prior : Bytes) (opening : Opening) :
    FileGateway :=
  ⟨Server.started service socket now, opened prior opening, []⟩

/-- The records that the session manager has made. -/
def entries (g : FileGateway) : List CdrEntry :=
  g.producer.sessionManager.cdrWriter.entries

/-- The calls of the writer. -/
def calls (is : List (Turn ⊕ Call)) : List FileCdrWriter.Call :=
  (consumed is).map Call.intended

/-- **What the writer has been given**: the records of the manager but for those that are pending,
and none that could not be read back. -/
theorem parts (hnew : service.handler.sessionManager.New)
    (hserves : FileServes opening (consumed is))
    (hrun : Run.exec (fileGateway json around).step (started service socket now prior opening) is
      = some g) :
    g.consumer = ((FileCdrWriter.construct prior true true).run (calls is)).fallible ∧
      (written (calls is)).map Prod.fst ++ g.pending = g.entries ∧
      g.producer.sessionManager.Ledgered ∧ (∀ entry ∈ g.entries, entry.Billable) ∧
      Run.exec (Server.turn json around) (Server.started service socket now) (produced is)
        = some g.producer := by
  obtain ⟨hstart, hnone⟩ := hnew.continues
  have hparts := exec_parts (h := fileGateway json around)
    (I := fun s => service.handler.sessionManager.Continues s.sessionManager)
    (fun _ _ _ hs hturn => Server.turn_continues hs hturn) (p := Server.started service socket now)
    hstart hrun
  have hconsumer := hparts.consumer
  have houtput : service.handler.sessionManager.cdrWriter.entries
      ++ (consumed is).flatMap takes ++ g.pending = g.entries := hparts.output
  rw [hnone, List.nil_append, ← map_fst_written] at houtput
  refine ⟨?_, houtput, hparts.kept.1, hnew.billable hparts.kept, hparts.producer⟩
  -- the consumer of the joint run is the writer run over its calls
  have hexec := Run.exec_some_eq_foldl FallibleFileCdrWriter.step (consumed is)
    (opened prior opening)
  exact (Option.some.inj (hconsumer.symm.trans hexec)).trans hserves.run

/-! ## GET_CDR

The read flushes before it reads, so it sees all that `writeAction` was given. What the file has
besides is the text of earlier processes, and the positions do not point there. -/

/-- Noon on a day in June. -/
def noon : Tm := ⟨0, 0, 12, 15, 5, 126, 1⟩

/-- A subscriber attaches. -/
def attachedRun : List (Turn ⊕ Call) :=
  let imsi := ascii "001010000000001"
  [.inl .beginIteration, .inl (.event (.udp [.packet imsi 1 0 false])),
    .inr (.writeAction ⟨imsi, ICdrWriter.SESSION_CREATED⟩ noon none)]

/-- Both streams are opened, and the headers are written. -/
def opens : Opening := ⟨true, true, none⟩

theorem new_newService : Server.newService.handler.sessionManager.New :=
  .intro (fun _ => rfl) rfl (by decide) rfl

end FileGateway

/-! ## Processes on one file

Each process finds the text that the one before it has left, torn or not, and appends to it. -/

/-- A process, from the start of its event loop to its end. -/
structure FileProcess where
  around : Nat → Surroundings
  service : Service
  socket : Nat
  now : Time
  opening : Opening
  steps : List (Turn ⊕ Call)
  ending : Ending
  /-- How the last line of the destructor ends. -/
  closing : WriteFailure

namespace FileProcess

variable (json : JsonLib)

/-- The process after some steps, on a file that had the text `prior`. -/
def after (p : FileProcess) (prior : Bytes) (steps : List (Turn ⊕ Call)) : Option FileGateway :=
  Run.exec (fileGateway json p.around).step
    (FileGateway.started p.service p.socket p.now prior p.opening) steps

/-- `g` is where the process has ended. -/
structure Ends (p : FileProcess) (prior : Bytes) (g : FileGateway) : Prop where
  new : p.service.handler.sessionManager.New
  run : p.after json prior p.steps = some g
  /-- The destructor is called when `writeAction` has returned. -/
  returned : p.ending = .destroyed → g.pending = []

/-- The file was opened and has taken every byte, to the last line. -/
structure Served (p : FileProcess) : Prop where
  serves : FileServes p.opening (consumed p.steps)
  closes : p.closing = none

/-- `stored` is what can be billed of the process. -/
structure Bills (p : FileProcess) (g : FileGateway) (stored : List CdrEntry) : Prop where
  entries : stored <+: g.entries
  all : p.ending = .destroyed → stored = g.entries
  /-- Nothing is lost that was there when the records were read. -/
  lasts : ∀ before limit rest, p.steps = before ++ .inr (.getRecentRecords limit none) :: rest →
    ∀ file g', p.after json file before = some g' → g'.pending = [] → g'.entries <+: stored

/-- Processes one after the other on the same file, with the text that each of them leaves. -/
inductive Processes : Bytes → List (FileProcess × FileGateway) → Bytes → Prop
  | nil (file : Bytes) : Processes file [] file
  | cons {prior file : Bytes} {p : FileProcess} {g : FileGateway}
      {ps : List (FileProcess × FileGateway)} (hends : p.Ends json prior g)
      (hrest : Processes (g.consumer.fileLeft p.closing p.ending) ps file) :
      Processes prior ((p, g) :: ps) file

variable {json} {p : FileProcess} {prior file : Bytes} {g : FileGateway}
  {ps : List (FileProcess × FileGateway)}

/-- One process. -/
theorem bill_ends (h : p.Ends json prior g) (hserved : p.Served) :
    ∃ text, g.consumer.fileLeft p.closing p.ending = prior ++ (header ++ text) ∧
      ∀ more, Begins more → ∃ stored, p.Bills json g stored ∧
        bill (header ++ text ++ more) = stored ++ bill more := by
  obtain ⟨hconsumer, hwritten, -, hbillable, -⟩ := FileGateway.parts h.new hserved.serves h.run
  -- the calls of the process stand in the log of its manager
  have hcalls : ∀ e ∈ written (FileGateway.calls p.steps), e.1.Billable := by
    intro e he
    apply hbillable
    rw [← hwritten]
    exact List.mem_append_left _ (List.mem_map_of_mem he)
  -- the file that it leaves: its header, and then what its calls have written
  obtain ⟨text, htext, hbill⟩ := FileCdrWriter.bill_process prior hcalls p.ending
  rw [← fileLeft_reliable, ← hconsumer] at htext
  refine ⟨text, by rw [hserved.closes]; exact htext, fun more hmore => ?_⟩
  obtain ⟨stored, hstored, hread⟩ := hbill more hmore
  refine ⟨stored, ⟨?_, fun hending => ?_, ?_⟩, hread⟩
  · rw [← hwritten]
    exact hstored.entries.trans (List.prefix_append _ _)
  · rw [hstored.all hending, ← hwritten, h.returned hending, List.append_nil]
  · -- the state before a read of the same run: the entries up to there are on file
    intro before limit rest hsteps file g' hrun hquiet
    have hfront : FileServes p.opening (consumed before) := by
      refine ⟨hserved.serves.writeOpens, hserved.serves.readOpens, hserved.serves.headers, ?_⟩
      intro call hcall
      apply hserved.serves.writes
      rw [hsteps, consumed, List.filterMap_append]
      exact List.mem_append_left _ hcall
    obtain ⟨-, hbefore, -⟩ := FileGateway.parts h.new hfront hrun
    rw [hquiet, List.append_nil] at hbefore
    rw [← hbefore]
    apply hstored.lasts (FileGateway.calls before) limit (FileGateway.calls rest)
    rw [hsteps]
    simp [FileGateway.calls, consumed, Call.intended]

/-- All processes. -/
theorem bill_processes (h : Processes json prior ps file) (hserved : ∀ p ∈ ps, p.1.Served) :
    ∃ text, file = prior ++ text ∧ Begins text ∧ ∃ stored,
      List.Forall₂ (fun p stored => p.1.Bills json p.2 stored) ps stored ∧
        bill text = stored.flatten := by
  induction h with
  | nil file => exact ⟨[], (List.append_nil file).symm, .inl rfl, [], .nil, rfl⟩
  | cons hends hrest ih =>
    rename_i p g ps
    obtain ⟨more, rfl, hmore, stored, hstored, hbill⟩ :=
      ih fun q hq => hserved q (List.mem_cons_of_mem _ hq)
    obtain ⟨text, htext, hfirst⟩ := bill_ends hends (hserved (p, g) List.mem_cons_self)
    obtain ⟨first, hbills, hread⟩ := hfirst more hmore
    have hbegins : Begins (header ++ text ++ more) := .inr ⟨text ++ more, List.append_assoc _ _ _⟩
    refine ⟨header ++ text ++ more, ?_, hbegins, first :: stored, .cons hbills hstored, ?_⟩
    · rw [htext, List.append_assoc]
    · rw [hread, hbill, List.flatten_cons]

/-- Every process has kept the books, and has no session when its loop has stopped. -/
theorem ledgered_of_processes (h : Processes json prior ps file)
    (hserved : ∀ p ∈ ps, p.1.Served) :
    ∀ p ∈ ps, p.2.producer.sessionManager.Ledgered ∧
      (p.2.producer.state = .STOPPED →
        ∀ imsi, p.2.producer.sessionManager.hasSession imsi = false) := by
  induction h with
  | nil file => exact fun p hp => absurd hp List.not_mem_nil
  | cons hends hrest ih =>
    intro p hp
    rcases List.mem_cons.mp hp with rfl | hlater
    · have hfile := hserved _ List.mem_cons_self
      obtain ⟨-, -, hledgered, -, hturns⟩ := FileGateway.parts hends.new hfile.serves hends.run
      exact ⟨hledgered, Server.hasSession_of_stopped hends.new.continues.1.1 hturns⟩
    · exact ih (fun q hq => hserved q (List.mem_cons_of_mem _ hq)) p hlater

/-- What processes that were not killed have billed of a subscriber balances, but for the sessions
that were active at their end. -/
theorem balance_of_bills {stored : List (List CdrEntry)}
    (hstored : List.Forall₂ (fun p stored => p.1.Bills json p.2 stored) ps stored)
    (hdestroyed : ∀ p ∈ ps, p.1.ending = .destroyed)
    (hledgered : ∀ p ∈ ps, p.2.producer.sessionManager.Ledgered) (imsi : Imsi) :
    stored.flatten.count ⟨imsi, ICdrWriter.SESSION_CREATED⟩
      = stored.flatten.count ⟨imsi, ICdrWriter.SESSION_DELETED⟩
        + ps.countP fun p => p.2.producer.sessionManager.hasSession imsi := by
  induction hstored with
  | nil => rfl
  | cons hfirst hrest ih =>
    rename_i p first ps stored
    have hlater := ih (fun q hq => hdestroyed q (List.mem_cons_of_mem p hq))
      (fun q hq => hledgered q (List.mem_cons_of_mem p hq))
    have hbalance := SessionManager.records_balance (hledgered p List.mem_cons_self) imsi
    have hall : first = p.2.producer.sessionManager.cdrWriter.entries :=
      hfirst.all (hdestroyed p List.mem_cons_self)
    unfold SessionManager.recordsOf at hbalance
    rw [← hall] at hbalance
    rw [List.flatten_cons, List.count_append, List.count_append, List.countP_cons]
    omega

/-- **The file is the bill.** For any processes that were started one after the other on the same
CDR file, each of them on a session manager that has just been constructed, when the file was
opened by each of them and has taken every byte: whoever reads the file from its beginning finds
the records of all session managers, in their order. Of a process that was killed the last ones may
be missing, but none that had been made when the records were read. If none was killed, the records
of every subscriber balance but for the processes that have ended while the subscriber had a
session, and a process whose loop has stopped is none of these. -/
theorem billedFromFile (hprior : ∀ c ∈ prior.getLast?, c = 10) (h : Processes json prior ps file)
    (hserved : ∀ p ∈ ps, p.1.Served) :
    (∃ stored, List.Forall₂ (fun p stored => p.1.Bills json p.2 stored) ps stored ∧
      bill file = bill prior ++ stored.flatten) ∧
    ((∀ p ∈ ps, p.1.ending = .destroyed) → ∀ imsi,
      (bill file).count ⟨imsi, ICdrWriter.SESSION_CREATED⟩
          + (bill prior).count ⟨imsi, ICdrWriter.SESSION_DELETED⟩
        = (bill file).count ⟨imsi, ICdrWriter.SESSION_DELETED⟩
          + (bill prior).count ⟨imsi, ICdrWriter.SESSION_CREATED⟩
          + ps.countP fun p => p.2.producer.sessionManager.hasSession imsi) ∧
    ∀ p ∈ ps, p.2.producer.state = .STOPPED →
      ∀ imsi, p.2.producer.sessionManager.hasSession imsi = false := by
  -- the text that was appended, and what each process has stored of it
  obtain ⟨text, rfl, -, stored, hstored, htext⟩ := bill_processes h hserved
  have hbill : bill (prior ++ text) = bill prior ++ stored.flatten := by
    rw [← htext]
    unfold bill
    rw [TextStream.lines_append hprior, List.filterMap_append]
  have hprocesses := ledgered_of_processes h hserved
  refine ⟨⟨stored, hstored, hbill⟩, fun hdestroyed imsi => ?_, fun p hp => (hprocesses p hp).2⟩
  have hbalance := balance_of_bills hstored hdestroyed (fun p hp => (hprocesses p hp).1) imsi
  rw [hbill, List.count_append, List.count_append]
  omega

/-! ## A process that is killed, and the next one

One run of the result above in which the text is torn: the second process writes behind a line
without its end. -/

/-- The records are read, the session is deleted, and the process is killed when 20 bytes of the
line have reached the file. -/
def killedProcess : FileProcess where
  around := Server.sampleAround
  service := Server.newService
  socket := 3
  now := 0
  opening := FileGateway.opens
  steps := FileGateway.attachedRun ++ [.inr (.getRecentRecords 10 none), .inl .shutdownRequest,
    .inl .beginIteration, .inl (.event (.timer 1)),
    .inr (.writeAction ⟨ascii "001010000000001", ICdrWriter.SESSION_DELETED⟩ FileGateway.noon none),
    .inr (.drain 20)]
  ending := .killed
  closing := none

/-- Another subscriber, and `epoll_wait` fails. -/
def nextProcess : FileProcess where
  around := Server.sampleAround
  service := Server.newService
  socket := 3
  now := 0
  opening := FileGateway.opens
  steps :=
    let imsi := ascii "001010000000002"
    [.inl .beginIteration, .inl (.event (.udp [.packet imsi 1 0 false])),
      .inr (.writeAction ⟨imsi, ICdrWriter.SESSION_CREATED⟩ FileGateway.noon none), .inl .failed]
  ending := .destroyed
  closing := none

theorem served_killedProcess : killedProcess.Served :=
  ⟨⟨rfl, rfl, rfl, by decide⟩, rfl⟩

theorem served_nextProcess : nextProcess.Served :=
  ⟨⟨rfl, rfl, rfl, by decide⟩, rfl⟩

/-- Where the two have ended, one after the other. -/
def tornFile : Option (FileGateway × FileGateway) :=
  (killedProcess.after TcpHandler.sampleJson [] killedProcess.steps).bind fun g =>
    (nextProcess.after TcpHandler.sampleJson (g.consumer.fileLeft none .killed)
      nextProcess.steps).map fun g' => (g, g')

theorem billedFromFile_tornFile : ∃ g g' stored,
    tornFile = some (g, g') ∧
      List.Forall₂ (fun p stored => FileProcess.Bills TcpHandler.sampleJson p.1 p.2 stored)
        [(killedProcess, g), (nextProcess, g')] stored ∧
      bill (g'.consumer.destroy none) = stored.flatten := by
  -- both processes are evaluated; the first one is killed in the middle of a line
  have hquiet : tornFile.any (fun gs => gs.2.pending.isEmpty) = true := by decide +kernel
  obtain ⟨⟨g, g'⟩, hrun, hended⟩ := (Option.any_eq_true _ _).mp hquiet
  have hruns := hrun
  rw [tornFile, Option.bind_eq_some_iff] at hruns
  obtain ⟨u, hu, hmap⟩ := hruns
  obtain ⟨v, hv, hpair⟩ := Option.map_eq_some_iff.mp hmap
  obtain ⟨rfl, rfl⟩ := Prod.mk.inj hpair
  have hkilled : killedProcess.Ends TcpHandler.sampleJson [] u :=
    ⟨FileGateway.new_newService, hu, fun h => by cases h⟩
  have hnext : nextProcess.Ends TcpHandler.sampleJson (u.consumer.fileLeft none .killed) v :=
    ⟨FileGateway.new_newService, hv, fun _ => List.isEmpty_iff.mp hended⟩
  have hprocesses : Processes TcpHandler.sampleJson [] [(killedProcess, u), (nextProcess, v)]
      (v.consumer.destroy none) := .cons hkilled (.cons hnext (.nil _))
  -- their files have taken every byte that was not lost by the kill
  have hserved : ∀ p ∈ [(killedProcess, u), (nextProcess, v)], p.1.Served := by
    intro p hp
    rcases List.mem_cons.mp hp with rfl | hlast
    · exact served_killedProcess
    · rw [List.mem_singleton.mp hlast]
      exact served_nextProcess
  obtain ⟨⟨stored, hstored, hbill⟩, -⟩ :=
    billedFromFile (fun c hc => by cases hc) hprocesses hserved
  exact ⟨u, v, stored, hrun, hstored, hbill⟩

end FileProcess
end Pgw
