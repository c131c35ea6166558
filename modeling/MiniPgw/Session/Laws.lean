import MiniPgw.Session.Refinement

/-!
# Two laws of the session manager

For every run of calls, with any IMSIs, any clock readings and any iteration orders of the table:

* **`historyMatches_run`** — the CDR records of an IMSI tell exactly when it has a session, and the
  numbers of records are those of the statistics;
* **`accounting_run`** — the counters balance, and none of them ever decreases.

Both are the laws of the ledger that the manager keeps.
-/

namespace Pgw

/-- The `CREATED` and `DELETED` records of `imsi` among `entries`, in order. -/
def historyOf (entries : List CdrEntry) (imsi : Imsi) : List Bytes :=
  (entries.filter fun e => e.imsi = imsi ∧
    (e.action = ICdrWriter.SESSION_CREATED ∨ e.action = ICdrWriter.SESSION_DELETED)).map
      CdrEntry.action

theorem historyOf_mono {seen entries : List CdrEntry} (h : seen <+: entries) (imsi : Imsi) :
    historyOf seen imsi <+: historyOf entries imsi :=
  (h.filter _).map _

namespace SessionManager

variable {m m' : SessionManager} {l l' : Ledger Imsi}

/-! ## What the CDR log says

The log of the manager is that of its ledger, with the actions in the place of the marks. -/

/-- The `CREATED` and `DELETED` records of `imsi`, in order. -/
def cdrHistory (m : SessionManager) (imsi : Imsi) : List Bytes :=
  historyOf m.cdrWriter.entries imsi

/-- The number of records with this action. -/
def recorded (m : SessionManager) (action : Bytes) : Nat :=
  m.cdrWriter.entries.countP fun e => e.action = action

/-- The CDR log agrees with the session table and with the statistics. -/
structure HistoryMatches (m : SessionManager) : Prop where
  alternates : ∀ imsi, (m.cdrHistory imsi).IsChain (· ≠ ·)
  startsCreated : ∀ imsi, ∀ action ∈ (m.cdrHistory imsi).head?, action = ICdrWriter.SESSION_CREATED
  active : ∀ imsi, m.hasSession imsi = true ↔
    (m.cdrHistory imsi).getLast? = some ICdrWriter.SESSION_CREATED
  createdRecords : ∀ now, m.recorded ICdrWriter.SESSION_CREATED
    = (m.getStatistics now).createdSessions
  deletedRecords : ∀ now, m.recorded ICdrWriter.SESSION_DELETED
    = (m.getStatistics now).expiredSessions + (m.getStatistics now).terminateSessions
  rejectedRecords : ∀ now, m.recorded ICdrWriter.SESSION_REJECTED
    = (m.getStatistics now).rejectedSessions
  noError : ∀ e ∈ m.cdrWriter.entries, e.action ≠ ICdrWriter.SESSION_ERROR

theorem action_injective : Function.Injective Mark.action := by
  intro a b
  cases a <;> cases b <;> decide

theorem action_ne_error (mark : Mark) : mark.action ≠ ICdrWriter.SESSION_ERROR := by
  cases mark <;> decide

theorem action_created_or_deleted (mark : Mark) :
    (mark.action = ICdrWriter.SESSION_CREATED ∨ mark.action = ICdrWriter.SESSION_DELETED) ↔
      mark ≠ .rejected := by
  cases mark <;> decide

/-- The CDR history of an IMSI is its history in the ledger. -/
theorem cdrHistory_eq (h : m.Keeps l) (imsi : Imsi) :
    m.cdrHistory imsi = (Ledger.history imsi l.log).map Mark.action := by
  rw [cdrHistory, historyOf, h.entries, List.filter_map, List.map_map, Ledger.history, List.map_map]
  simp only [Function.comp_def, Ledger.entry, action_created_or_deleted]

theorem recorded_eq (h : m.Keeps l) (mark : Mark) :
    m.recorded mark.action = Ledger.marked mark l.log := by
  rw [recorded, h.entries, List.countP_map]
  simp only [Function.comp_def, Ledger.entry, action_injective.eq_iff, Ledger.marked]

/-- **A manager that keeps a consistent and balanced ledger has a matching CDR log.** -/
theorem historyMatches_of_keeps (h : m.Keeps l) (hc : l.Consistent) (hb : l.Balanced) :
    m.HistoryMatches where
  alternates := fun imsi => by
    rw [cdrHistory_eq h, List.isChain_map]
    exact (hc imsi).1.1.imp fun _ _ hne heq => hne (action_injective heq)
  startsCreated := fun imsi action hhead => by
    rw [cdrHistory_eq h, List.head?_map, Option.mem_map] at hhead
    obtain ⟨mark, hmark, rfl⟩ := hhead
    rw [(hc imsi).1.2 mark hmark]
    rfl
  active := fun imsi => by
    -- the last record of an IMSI is the last mark of its history
    have hlast : (m.cdrHistory imsi).getLast? = some ICdrWriter.SESSION_CREATED ↔
        (Ledger.history imsi l.log).getLast? = some .created := by
      rw [cdrHistory_eq h, List.getLast?_map]
      exact (Option.map_injective action_injective).eq_iff (b := some Mark.created)
    rw [hlast, ← (hc imsi).2, ← h.active, UnorderedMap.mem_keySet]
    exact decide_eq_true_iff
  createdRecords := fun _ => (recorded_eq h .created).trans (hb.createdMarks.trans h.created.symm)
  deletedRecords := fun _ => by
    have hmarks := (recorded_eq h .deleted).trans hb.deletedMarks
    rw [← h.expired, ← h.terminated] at hmarks
    exact hmarks
  rejectedRecords := fun _ =>
    (recorded_eq h .rejected).trans (hb.rejectedMarks.trans h.rejected.symm)
  noError := fun e he => by
    rw [h.entries] at he
    obtain ⟨record, -, rfl⟩ := List.mem_map.mp he
    exact action_ne_error record.2

/-- Every `CREATED` record is followed by a `DELETED` record of the same IMSI, before the next
`CREATED` one. -/
def AllMatched (entries : List CdrEntry) : Prop :=
  ∀ pre e post, entries = pre ++ e :: post → e.action = ICdrWriter.SESSION_CREATED →
    ∃ between d rest, post = between ++ d :: rest ∧ d.imsi = e.imsi ∧
      d.action = ICdrWriter.SESSION_DELETED ∧
      ∀ x ∈ between, x.imsi = e.imsi → x.action ≠ ICdrWriter.SESSION_CREATED

/-- **When no session is left, every creation has been matched.** -/
theorem allMatched_of_keeps (h : m.Keeps l) (hc : l.Consistent)
    (hempty : m.sessions.keySet = ∅) : AllMatched m.cdrWriter.entries := by
  intro pre e post hentries hcreated
  rw [h.entries] at hentries
  obtain ⟨pre', tail, hlog, -, htail⟩ := List.map_eq_append_iff.mp hentries
  obtain ⟨⟨x, mark⟩, post', rfl, rfl, rfl⟩ := List.map_eq_cons_iff.mp htail
  obtain rfl : mark = .created := action_injective hcreated
  have hx : x ∉ l.active := by rw [← h.active, hempty]; exact Finset.notMem_empty x
  obtain ⟨between, rest, rfl, hbetween⟩ := Ledger.deleted_of_created hc hx hlog
  refine ⟨between.map Ledger.entry, Ledger.entry (x, .deleted), rest.map Ledger.entry, by simp, rfl,
    rfl, fun d hd himsi haction => ?_⟩
  obtain ⟨record, hrecord, rfl⟩ := List.mem_map.mp hd
  exact hbetween record hrecord himsi (action_injective haction)

/-! ## The counters

The counters that `getStatistics` reports, against the ledger's own. -/

/-- The statistics add up. -/
structure Accounting (m : SessionManager) : Prop where
  created : m.stats.createdSessions
    = m.countActiveSession + m.stats.expiredSessions + m.stats.terminateSessions
  total : m.stats.totalSessions = m.stats.createdSessions + m.stats.rejectedSessions
  cached : m.stats.activeSessions = m.sessions.size

theorem accounting_of_keeps (h : m.Keeps l) (hb : l.Balanced) : m.Accounting where
  created := by
    rw [h.created, h.expired, h.terminated, hb.created, ← h.active, UnorderedMap.card_keySet]
    rfl
  total := by rw [h.total, h.created, h.rejected, hb.total]
  cached := h.cached

/-- No counter of the statistics is larger in `m` than in `m'`. -/
structure StatisticsLe (m m' : SessionManager) : Prop where
  created : m.stats.createdSessions ≤ m'.stats.createdSessions
  rejected : m.stats.rejectedSessions ≤ m'.stats.rejectedSessions
  expired : m.stats.expiredSessions ≤ m'.stats.expiredSessions
  terminated : m.stats.terminateSessions ≤ m'.stats.terminateSessions
  total : m.stats.totalSessions ≤ m'.stats.totalSessions

/-- Every step of the manager lets the counters grow. -/
theorem statisticsLe_step (h : m.Keeps l) {c : SessionCall} (hstep : step m c = some m') :
    StatisticsLe m m' := by
  obtain ⟨es, l', hes, h'⟩ := step_simulates h hstep
  have hle := Ledger.countersLe_exec hes
  constructor
  · rw [h.created, h'.created]; exact hle.created
  · rw [h.rejected, h'.rejected]; exact hle.rejected
  · rw [h.expired, h'.expired]; exact hle.expired
  · rw [h.terminated, h'.terminated]; exact hle.terminated
  · rw [h.total, h'.total]; exact hle.total

/-! ## Whole runs

A run of calls is a run of the ledger, whose laws are proved once and for all. They are carried back
through `Keeps`. -/

/-- Every run of calls takes place, and the manager keeps a ledger that the ledger's own steps can
reach. -/
theorem exec_simulates {w : CdrWriter} (hw : w.Reliable) (hnew : w.entries = [])
    (blacklist : Blacklist) (timeout : Int) {rate : Int} (hrate : 0 < rate) (now : Time)
    (calls : List SessionCall) :
    ∃ m, Run.exec step (constructed w blacklist timeout rate now) calls = some m ∧ m.Ledgered := by
  have hstart := keeps_constructed hw hnew blacklist timeout hrate now
  have hstep : ∀ (m : SessionManager) (c : SessionCall), (∃ l, m.Keeps l) →
      ∃ m', step m c = some m' ∧ ∃ l', m'.Keeps l' := by
    rintro m c ⟨l, h⟩
    obtain ⟨m', es, l', hrun, -, h'⟩ := perform_run h c
    exact ⟨m', by simp [step, hrun], l', h'⟩
  obtain ⟨m, hm, -⟩ := Run.exec_total hstep calls ⟨_, hstart⟩
  exact ⟨m, hm, Run.exec_simulation (fun _ _ _ _ h hs => step_simulates h hs) hstart hm⟩

/-- **The CDR log and the session table never drift apart.** For every run of calls of a manager
with a positive shutdown rate and a CDR writer that does not throw: the run takes place, and the
`CREATED` and `DELETED` records of every IMSI alternate, start with `CREATED` and end with it
exactly when the IMSI has a session; the numbers of records are those of the statistics, and no
`ERROR` is recorded. -/
theorem historyMatches_run {w : CdrWriter} (hw : w.Reliable) (hnew : w.entries = [])
    (blacklist : Blacklist) (timeout : Int) {rate : Int} (hrate : 0 < rate) (now : Time)
    (calls : List SessionCall) :
    ∃ m, Run.exec step (constructed w blacklist timeout rate now) calls = some m ∧
      m.HistoryMatches := by
  obtain ⟨m, hm, es, l, hes, h⟩ := exec_simulates hw hnew blacklist timeout hrate now calls
  exact ⟨m, hm, historyMatches_of_keeps h (Ledger.consistent_exec hes) (Ledger.balanced_exec hes)⟩

/-- A CDR writer without entries whose `writeAction` never throws. -/
def freshWriter : CdrWriter := ⟨[], 0, fun _ => false⟩

/-- A session is created, refused a second time, expires and is created again. -/
def expiringRun : List SessionCall :=
  [.createSession (ascii "001010123456789") 0, .createSession (ascii "001010123456789") 1,
    .cleanTimeoutSessions (seconds 30), .createSession (ascii "001010123456789") (seconds 31)]

theorem historyMatches_expiringRun :
    ∃ m, Run.exec step (constructed freshWriter ∅ 30 10 0) expiringRun = some m ∧
      m.HistoryMatches :=
  historyMatches_run (fun _ => rfl) rfl ∅ 30 (by decide) 0 expiringRun

/-- **Session accounting is conserved.** In every state that a run of calls reaches the statistics
add up, and no further call decreases a counter. -/
theorem accounting_run {w : CdrWriter} (hw : w.Reliable) (hnew : w.entries = [])
    (blacklist : Blacklist) (timeout : Int) {rate : Int} (hrate : 0 < rate) (now : Time)
    (calls : List SessionCall) :
    ∃ m, Run.exec step (constructed w blacklist timeout rate now) calls = some m ∧
      m.Accounting ∧ ∀ c, ∃ m', step m c = some m' ∧ StatisticsLe m m' := by
  obtain ⟨m, hm, es, l, hes, h⟩ := exec_simulates hw hnew blacklist timeout hrate now calls
  refine ⟨m, hm, accounting_of_keeps h (Ledger.balanced_exec hes), fun c => ?_⟩
  obtain ⟨m', _, _, hrun, -, -⟩ := perform_run h c
  have hstep : step m c = some m' := by simp [step, hrun]
  exact ⟨m', hstep, statisticsLe_step h hstep⟩

theorem accounting_expiringRun :
    ∃ m, Run.exec step (constructed freshWriter ∅ 30 10 0) expiringRun = some m ∧
      m.Accounting ∧ ∀ c, ∃ m', step m c = some m' ∧ StatisticsLe m m' :=
  accounting_run (fun _ => rfl) rfl ∅ 30 (by decide) 0 expiringRun

end SessionManager
end Pgw
