import MiniPgw.Cdr.SingleFlush
import MiniPgw.Server.Gateway

/-!
# What others see in the table

The table of records is read by others while the gateway runs. `table_history` says what they find
as long as no SQLite call fails and nobody asks for `GET_CDR`: the log of the session manager as it
was at an earlier moment, so that every session is created before it is deleted and no record is
missing in between.
-/

namespace Pgw

open FlushThreads Handover

/-- `seen` is the log `entries` of an earlier moment, and the records of every subscriber are those
of sessions one after the other. -/
structure ShowsEarlier (seen entries : List CdrEntry) : Prop where
  earlier : seen <+: entries
  alternates : ∀ imsi, (historyOf seen imsi).IsChain (· ≠ ·)
  startsCreated : ∀ imsi, ∀ action ∈ (historyOf seen imsi).head?,
    action = ICdrWriter.SESSION_CREATED

/-- The log of a session manager, cut anywhere. -/
theorem showsEarlier_of_ledgered {m : SessionManager} (hledgered : m.Ledgered)
    {seen : List CdrEntry} (h : seen <+: m.cdrWriter.entries) :
    ShowsEarlier seen m.cdrWriter.entries := by
  obtain ⟨es, l, hes, hkeeps⟩ := hledgered
  have hhistory := SessionManager.historyMatches_of_keeps hkeeps (Ledger.consistent_exec hes)
    (Ledger.balanced_exec hes)
  have hcut : ∀ imsi, ∃ rest, m.cdrHistory imsi = historyOf seen imsi ++ rest := by
    intro imsi
    obtain ⟨rest, hrest⟩ := historyOf_mono h imsi
    rw [SessionManager.cdrHistory]
    exact ⟨rest, hrest.symm⟩
  refine ⟨h, fun imsi => ?_, fun imsi action hhead => ?_⟩
  · obtain ⟨rest, hrest⟩ := hcut imsi
    have hchain := hhistory.alternates imsi
    rw [hrest] at hchain
    exact hchain.left_of_append
  · obtain ⟨rest, hrest⟩ := hcut imsi
    apply hhistory.startsCreated imsi
    rw [hrest, List.head?_append, hhead]
    rfl

namespace Gateway

variable {json : JsonLib} {around : Nat → Surroundings} {service : Service} {socket : Nat}
  {now : Time} {time clock : ℕ} {is : List (Turn ⊕ Monitor.Event (ThreadAction CdrEntry))}
  {g : Gateway}

/-- **The table shows the log of an earlier moment.** For a table that was empty, in every state
that a run of the event loop and of the two threads of the writer reaches: if no SQLite call has
failed and the loop has not asked for records, this is what others see, which are the committed
rows, and what the connection of the writer sees. -/
theorem table_history {w : CdrWriter} (hw : w.Reliable) (hnew : w.entries = [])
    {blacklist : Blacklist} {timeout rate : Int}
    (hvalid : Validation.isValidGracefulShutdownRate rate = true) {start : Time}
    (hservice : service.handler.sessionManager = .constructed w blacklist timeout rate start)
    (hread : ∀ e ∈ consumed is, e ≠ .act (.eventLoop .getRecentRecords))
    (hok : ∀ a ∈ writerTrace (FlushThreads.started [] time clock) (consumed is),
      DatabaseCdrWriter.Succeeds a)
    (hrun : Run.exec (gateway json around).step (started service socket now [] time clock) is
      = some g) :
    ShowsEarlier g.writer.committedEntries g.producer.sessionManager.cdrWriter.entries ∧
      ShowsEarlier g.writer.tableEntries g.producer.sessionManager.cdrWriter.entries := by
  -- what the writer was given is the beginning of the log of the manager
  obtain ⟨hledgered, hempty⟩ := ledgered_of_constructed hw hnew hvalid hservice
  have hparts := exec_parts (h := gateway json around)
    (fun _ _ _ hp hturn => Server.turn_records hp hturn) (p := Server.started service socket now)
    hledgered hrun
  have hgiven := (Storing.given (fun _ _ _ hp hturn => Server.turn_records hp hturn)
    (p := Server.started service socket now) hledgered hempty hrun).1
  -- the table is the beginning of that, since one flush at a time keeps the order
  have htable : g.writer.tableEntries <+: g.producer.sessionManager.cdrWriter.entries :=
    (table_inOrder hread hok hparts.consumer).trans hgiven
  have hcommitted : g.writer.committedEntries <+: g.writer.tableEntries := by
    rw [DatabaseCdrWriter.tableEntries_eq]
    exact List.prefix_append _ _
  exact ⟨showsEarlier_of_ledgered hparts.kept (hcommitted.trans htable),
    showsEarlier_of_ledgered hparts.kept htable⟩

theorem table_history_billedRun : ∃ g : Gateway,
    Run.exec (gateway TcpHandler.sampleJson Server.sampleAround).step
        (started Server.newService 3 0 [] 0 0) billedRun = some g ∧
      g.writer.committedEntries = [⟨ascii "001010000000001", ICdrWriter.SESSION_CREATED⟩,
        ⟨ascii "001010000000001", ICdrWriter.SESSION_DELETED⟩] ∧
      ShowsEarlier g.writer.committedEntries g.producer.sessionManager.cdrWriter.entries := by
  have hends : (Run.exec (gateway TcpHandler.sampleJson Server.sampleAround).step
      (started Server.newService 3 0 [] 0 0) billedRun).any (fun g : Gateway =>
        decide (g.writer.committedEntries = [⟨ascii "001010000000001", ICdrWriter.SESSION_CREATED⟩,
          ⟨ascii "001010000000001", ICdrWriter.SESSION_DELETED⟩])) = true := by decide +kernel
  obtain ⟨g, hrun, hcommitted⟩ := (Option.any_eq_true _ _).mp hends
  have htrace : writerTrace (FlushThreads.started [] 0 0) (consumed billedRun)
      = [.writeAction ⟨ascii "001010000000001", ICdrWriter.SESSION_CREATED⟩,
        .writeAction ⟨ascii "001010000000001", ICdrWriter.SESSION_DELETED⟩, .setStop, .exitLoop,
        .callFlush .eventLoop, .takeBuffer .eventLoop, .begin .eventLoop true,
        .insert .eventLoop true, .insert .eventLoop true, .commit .eventLoop .ok] := rfl
  have hok : ∀ a ∈ writerTrace (FlushThreads.started [] 0 0) (consumed billedRun),
      DatabaseCdrWriter.Succeeds a := by
    rw [htrace]
    simp [DatabaseCdrWriter.Succeeds]
  have hread : ∀ e ∈ consumed billedRun, e ≠ .act (.eventLoop .getRecentRecords) := by
    simp [billedRun, consumed]
  have hshows := table_history (fun _ => rfl) rfl (by decide) rfl hread hok hrun
  exact ⟨g, hrun, of_decide_eq_true hcommitted, hshows.1⟩

end Gateway
end Pgw
