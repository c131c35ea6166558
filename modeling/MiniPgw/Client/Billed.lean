import MiniPgw.Client.Attach
import MiniPgw.Server.Gateway

/-!
# Who was told `created` is billed

The clients, the network and the UDP side of the server, with anything else that happens to its
sessions, as the source of the records that `DatabaseCdrWriter` stores.

**`told_isBilled`** — when the process has ended properly, every client that was told `created` has
a row of its own in the table.

## The architecture

* **`step_records`** — a step of the clients, the network or the server only adds records.
* **`billing`** — so it can be the source of a `Handover` to the writer.
* **`told_isBilled`** — the client was told by a record (`Attach`), and the destructor of the
  writer stores every record (`Destructor`).
-/

namespace Pgw
namespace AttachSystem

open SessionManager Handover

variable {subscribers : Address → Option Imsi} {s t : AttachSystem} {m : SessionManager}

/-! ## Every step adds records

The records of the manager only grow, in every step of the clients, the network and the server. -/

/-- Induction on the queue. -/
theorem answered_records (queue : List UdpSocket.Packet) : ∀ {s : UdpServer},
    s.sessionManager.Ledgered →
      (queue.foldl UdpEndpoint.answered s).sessionManager.Ledgered ∧
        s.sessionManager.cdrWriter.entries
          <+: (queue.foldl UdpEndpoint.answered s).sessionManager.cdrWriter.entries := by
  induction queue with
  | nil => exact fun h => ⟨h, List.prefix_refl _⟩
  | cons packet queue ih =>
    intro s h
    obtain ⟨hserved, hfirst⟩ := served_ledgered h packet
    obtain ⟨hrest, hmore⟩ := ih (s := UdpEndpoint.answered s packet) hserved
    exact ⟨hrest, hfirst.trans hmore⟩

/-- No step takes a record away. -/
theorem step_records (h : s.manager.Ledgered) {a : AttachAction}
    (hstep : step s a = some t) :
    t.manager.Ledgered ∧ s.manager.cdrWriter.entries <+: t.manager.cdrWriter.entries := by
  have hsame : s.manager.Ledgered ∧ s.manager.cdrWriter.entries <+: s.manager.cdrWriter.entries :=
    ⟨h, List.prefix_refl _⟩
  cases step_cases hstep with
  | processEvent e hrun =>
    by_cases hrunning : s.endpoint.server.running = true
    · rw [UdpEndpoint.processEvent_run h.reliable hrunning] at hrun
      cases hrun
      exact answered_records _ h
    · rw [UdpEndpoint.processEvent_run_stopped (by simpa using hrunning)] at hrun
      cases hrun
      exact hsame
  | call c m hm => exact records_le_step h hm
  | clientStarts => exact hsame
  | clientSends => exact hsame
  | arrives => exact hsame
  | stop => exact hsame
  | clientReceives => exact hsame
  | clientGivesUp => exact hsame

/-! ## From the client to the table

Two counts put one after the other: answers against records, and records against rows. -/

/-- The clients, the network and the server, and the writer that stores its records. -/
def billing : Handover AttachSystem AttachAction
    (Monitor.State (FlushThreads CdrEntry)) (Monitor.Event (ThreadAction CdrEntry)) CdrEntry :=
  storing step fun s => s.manager.cdrWriter.entries

/-- **Who was told `created` is billed.** For a session manager that has no sessions and no records
at first, and any table: in every run of the clients, the network, the server and the two threads of
the writer in which nobody pretends to be another (`Genuine`), when the destructor has returned and
the database has served the writer, the clients of an IMSI that were told `created` are at most as
many as the `CREATED` rows that the process has added for it; and all but at most one of them, which
still has its session, have a `DELETED` row, too. -/
theorem told_isBilled (hm : m.Ledgered) (hnew : m.cdrWriter.entries = []) {running : Bool}
    {prior : List (Row CdrEntry)} {time clock : ℕ}
    {is : List (AttachAction ⊕ Monitor.Event (ThreadAction CdrEntry))}
    {g : Handover.State AttachSystem (Monitor.State (FlushThreads CdrEntry)) CdrEntry}
    (hrun : Run.exec billing.step
      ⟨start m running, FlushThreads.started prior time clock, []⟩ is = some g)
    (hgenuine : Run.Along step (Genuine subscribers) (start m running) (produced is))
    (hdestroyed : Destroyed g.consumer)
    (hserves : DatabaseServes (FlushThreads.started prior time clock) (consumed is))
    {imsi : Imsi} {S : Finset Address}
    (hS : ∀ a ∈ S, ToldCreated imsi (start m running) g.producer a) :
    S.card + rowsOf prior imsi ICdrWriter.SESSION_CREATED
        ≤ rowsOf g.consumer.shared.writer.db.committed imsi ICdrWriter.SESSION_CREATED ∧
      S.card + rowsOf prior imsi ICdrWriter.SESSION_DELETED
        ≤ rowsOf g.consumer.shared.writer.db.committed imsi ICdrWriter.SESSION_DELETED
          + (if g.producer.manager.hasSession imsi = true then 1 else 0) := by
  -- the clients, the network and the server are the producer of the joint run
  have hturns := (exec_parts (h := billing) (fun _ _ _ h hstep => step_records h hstep)
    (p := start m running) hm hrun).producer
  have hnone : Run.Along step (Genuine subscribers) (start m running) [] := trivial
  -- who was told `created` has cost a record, and the records balance
  obtain ⟨-, hledgered, hpaid⟩ := toldCreated_le hm hnone hgenuine (Run.exec_nil _) hturns hS
  have hbalance := records_balance hledgered imsi
  -- what the manager has made is what the process has added to the table
  obtain ⟨-, hrows⟩ := Storing.rows_eq (fun _ _ _ h hstep => step_records h hstep)
    (p := start m running) hm hnew hrun hdestroyed hserves
  have hcreated := hrows imsi ICdrWriter.SESSION_CREATED
  have hdeleted := hrows imsi ICdrWriter.SESSION_DELETED
  unfold recordsOf at hbalance hpaid
  exact ⟨by omega, by omega⟩

/-- The record of the session. -/
def toldEntry : CdrEntry :=
  ⟨UdpEndpoint.subscriber, ICdrWriter.SESSION_CREATED⟩

/-- Two clients with the same IMSI send, the first datagram arrives twice, and when the answers have
been received the process ends. -/
def toldRun : List (AttachAction ⊕ Monitor.Event (ThreadAction CdrEntry)) :=
  (attachRun.take 9).map .inl ++ [.inr (.act (.eventLoop (.writeAction toldEntry)))] ++
    (attachRun.drop 9).map .inl ++
    [.inr (.act .stop), .inr (.act .notifyOne), .inr (.act .testStop), .inr (.act .join),
      .inr (.act (.eventLoop (.takeBuffer .eventLoop))),
      .inr (.act (.eventLoop (.begin .eventLoop true))),
      .inr (.act (.eventLoop (.insert .eventLoop true))),
      .inr (.act (.eventLoop (.commit .eventLoop .ok)))]

theorem produced_toldRun : produced toldRun = attachRun := rfl

theorem serves_toldRun : DatabaseServes (FlushThreads.started [] 0 0) (consumed toldRun) := by
  have htrace : FlushThreads.writerTrace (FlushThreads.started [] 0 0) (consumed toldRun)
      = [.writeAction toldEntry, .setStop, .exitLoop, .callFlush .eventLoop, .takeBuffer .eventLoop,
        .begin .eventLoop true, .insert .eventLoop true, .commit .eventLoop .ok] := rfl
  refine ⟨?_, ?_, ?_⟩
  · rw [htrace]
    simp [DatabaseCdrWriter.Faultless]
  · rw [htrace]
    exact Run.along_of_forall (by simp [DatabaseCdrWriter.MeetsEmptyBuffer]) _
  · apply Run.along_of_forall
    simp [toldRun, attachRun, consumed, FlushThreads.LastBeginSucceeds]

theorem told_isBilled_toldRun :
    ∃ (g : Handover.State AttachSystem (Monitor.State (FlushThreads CdrEntry)) CdrEntry)
      (c : Client),
      Run.exec billing.step ⟨attachStart, FlushThreads.started [] 0 0, []⟩ toldRun = some g ∧
        g.producer.clients 1 = some c ∧ c.response = ascii "created" ∧
        1 ≤ rowsOf g.consumer.shared.writer.db.committed UdpEndpoint.subscriber
          ICdrWriter.SESSION_CREATED := by
  -- the joint run is evaluated; the client at address 1 has read its answer
  have hends : (Run.exec billing.step ⟨attachStart, FlushThreads.started [] 0 0, []⟩ toldRun).any
      (fun g => decide (((g.producer.clients 1).map fun c => (c.imsi, c.response))
          = some (UdpEndpoint.subscriber, ascii "created") ∧
        g.consumer.shared.destructor = .joined) &&
        (g.consumer.shared.writer.phase .eventLoop).isIdle) = true := by decide +kernel
  obtain ⟨g, hrun, hended⟩ := (Option.any_eq_true _ _).mp hends
  obtain ⟨hplace, hidle⟩ := Bool.and_eq_true_iff.mp hended
  obtain ⟨hresponse, hjoined⟩ := of_decide_eq_true hplace
  obtain ⟨c, hclient, hc⟩ := Option.map_eq_some_iff.mp hresponse
  obtain ⟨himsi, htold⟩ := Prod.mk.inj hc
  have hm : (SessionManager.constructed freshWriter ∅ 60 10 0).Ledgered :=
    ledgered_constructed (fun _ => rfl) rfl ∅ 60 (by decide) 0
  have hgenuine : Run.Along step (Genuine twoClients) attachStart (produced toldRun) := by
    rw [produced_toldRun]
    exact genuine_attachRun
  -- one client, which had not asked when the run began
  have hS : ∀ a ∈ ({1} : Finset Address),
      ToldCreated UdpEndpoint.subscriber attachStart g.producer a := by
    intro a ha
    rw [Finset.mem_singleton.mp ha]
    exact ⟨⟨c, hclient, himsi, htold⟩, fun c' hc' => by cases hc'⟩
  have hbilled := (told_isBilled hm rfl hrun hgenuine ⟨hjoined, Phase.isIdle_iff.mp hidle⟩
    serves_toldRun hS).1
  exact ⟨g, c, hrun, hclient, htold, hbilled⟩

end AttachSystem
end Pgw
