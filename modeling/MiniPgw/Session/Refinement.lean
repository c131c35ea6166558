import MiniPgw.Session.Ledger
import MiniPgw.Session.SessionManager

/-!
# The session manager keeps a ledger

With a CDR writer that does not throw and a positive shutdown rate, every call of the manager ends
normally, and what it does to the table, the log and the counters is a run of `Ledger.step`
(`step_simulates`). So every run of the manager is a run of the ledger (`exec_simulates`), and the
laws of the ledger are laws of the manager.

## The architecture

* **`Keeps`** — the relation between a manager and a ledger: active keys, log, counters.
* **`wrote`**, **`deleted`**, **`terminated`**, **`created`** and the like — the manager after
  each part of a method, and a lemma that the method gets there (`deleteSession_run`,
  `createSession_run`).
* **`Keeps.create`**, **`Keeps.reject`**, **`Keeps.terminate`**, **`Keeps.expire`** — these
  managers keep the ledger after the event of the same name.
* **`cleanFrom_run`**, **`shutdownLoop_run`** — the two loops, as runs of the ledger.
* **`perform_run`**, **`step_simulates`** — a call, put together from these.
-/

namespace Pgw

/-- The text that `writeAction` is given for a mark. -/
def Mark.action : Mark → Bytes
  | .created => ICdrWriter.SESSION_CREATED
  | .deleted => ICdrWriter.SESSION_DELETED
  | .rejected => ICdrWriter.SESSION_REJECTED

/-- The CDR entry of a record of the ledger. -/
def Ledger.entry (e : Imsi × Mark) : CdrEntry :=
  ⟨e.1, e.2.action⟩

namespace SessionManager

variable {m m' : SessionManager} {l l' : Ledger Imsi}

/-- The manager `m` keeps the ledger `l`. -/
structure Keeps (m : SessionManager) (l : Ledger Imsi) : Prop where
  reliable : m.cdrWriter.Reliable
  rate : 0 < m.shutdownRate
  active : m.sessions.keySet = l.active
  entries : m.cdrWriter.entries = l.log.map Ledger.entry
  cached : m.stats.activeSessions = m.sessions.size
  created : m.stats.createdSessions = l.created
  rejected : m.stats.rejectedSessions = l.rejected
  expired : m.stats.expiredSessions = l.expired
  terminated : m.stats.terminateSessions = l.terminated
  total : m.stats.totalSessions = l.total

/-- A new manager with a writer that never throws keeps the empty ledger. -/
theorem keeps_constructed {w : CdrWriter} (hw : w.Reliable) (hnew : w.entries = [])
    (blacklist : Blacklist) (timeout : Int) {rate : Int} (hrate : 0 < rate) (now : Time) :
    (constructed w blacklist timeout rate now).Keeps .empty where
  reliable := hw
  rate := hrate
  active := rfl
  entries := hnew
  cached := rfl
  created := rfl
  rejected := rfl
  expired := rfl
  terminated := rfl
  total := rfl

/-! ## What the methods do to the manager

With a writer that does not throw every method ends in a state that can be written down: the table,
the log and the counters after the call. -/

/-- The manager after a `writeAction` that does not throw. -/
def wrote (m : SessionManager) (imsi : Imsi) (action : Bytes) : SessionManager :=
  { m with
    cdrWriter.entries := m.cdrWriter.entries ++ [⟨imsi, action⟩]
    cdrWriter.calls := m.cdrWriter.calls + 1 }

/-- A write that does not throw appends its record. -/
@[simp] theorem writeAction_run (h : m.Writes) (imsi : Imsi) (action : Bytes) :
    (writeAction imsi action).run m = .ok () (m.wrote imsi action) := by
  have hwrites : m.cdrWriter.throwsAt m.cdrWriter.calls = false := h
  simp [writeAction, hwrites, wrote]

/-- The manager after `deleteSession`. -/
def deleted (m : SessionManager) (imsi : Imsi) : SessionManager :=
  let sessions : Sessions := m.sessions.erase imsi
  { { m with sessions := sessions }.wrote imsi ICdrWriter.SESSION_DELETED with
    stats.activeSessions := sessions.size }

/-- `deleteSession` erases first and writes then, -/
theorem deleteSession_run (h : m.Writes) (it : SessionEntry) :
    (deleteSession it).run m = .ok () (m.deleted it.1) := by
  have hwrite := writeAction_run (m := { m with sessions := m.sessions.erase it.1 }) h it.1
    ICdrWriter.SESSION_DELETED
  simp [deleteSession, hwrite, deleted, wrote]

/-- The manager after a session has been terminated. -/
def terminated (m : SessionManager) (imsi : Imsi) : SessionManager :=
  { m.deleted imsi with stats.terminateSessions := m.stats.terminateSessions + 1 }

/-- The manager after a session has expired. -/
def expired (m : SessionManager) (imsi : Imsi) : SessionManager :=
  { m.deleted imsi with stats.expiredSessions := m.stats.expiredSessions + 1 }

/-- An empty table has no session to shut down. -/
theorem shutdownSession_run_empty (hempty : m.sessions.entries = []) :
    shutdownSession.run m = .ok false m := by
  simp [shutdownSession, hempty]

/-- `shutdownSession` terminates the first session of the table, -/
theorem shutdownSession_run (h : m.Writes) {it : SessionEntry}
    {rest : List SessionEntry} (hbegin : m.sessions.entries = it :: rest) :
    shutdownSession.run m = .ok true (m.terminated it.1) := by
  simp [shutdownSession, hbegin, deleteSession_run h, countTerminated, terminated, deleted, wrote]

/-- and `terminateSession` the one that it is given, -/
theorem terminateSession_run_none {imsi : Imsi} (himsi : imsi ∉ m.sessions) :
    (terminateSession imsi).run m = .ok false m := by
  simp [terminateSession, AList.lookup_eq_none.mpr himsi]

/-- if there is one. -/
theorem terminateSession_run (h : m.Writes) {imsi : Imsi} (himsi : imsi ∈ m.sessions) :
    (terminateSession imsi).run m = .ok true (m.terminated imsi) := by
  obtain ⟨data, hdata⟩ := Option.isSome_iff_exists.mp (AList.lookup_isSome.mpr himsi)
  simp [terminateSession, hdata, deleteSession_run h, countTerminated, terminated, deleted, wrote]

/-- The manager after a session has been created. -/
def created (m : SessionManager) (imsi : Imsi) (now : Time) : SessionManager :=
  let sessions : Sessions := m.sessions.insert imsi ⟨now⟩
  let m' := { m with sessions := sessions }.wrote imsi ICdrWriter.SESSION_CREATED
  { m' with
    stats.createdSessions := m.stats.createdSessions + 1
    stats.totalSessions := m.stats.totalSessions + 1
    stats.activeSessions := sessions.size }

/-- The manager after a blacklisted IMSI has been turned away. -/
def rejected (m : SessionManager) (imsi : Imsi) : SessionManager :=
  { m.wrote imsi ICdrWriter.SESSION_REJECTED with
    stats.rejectedSessions := m.stats.rejectedSessions + 1
    stats.totalSessions := m.stats.totalSessions + 1 }

/-- The four ways `createSession` ends when `writeAction` does not throw. -/
theorem createSession_run (h : m.Writes) (imsi : Imsi) (now : Time) :
    (createSession imsi now).run m =
      if m.draining then .ok .SERVICE_UNAVAILABLE m
      else if imsi ∈ m.blacklist then .ok .REJECTED_BLACKLIST (m.rejected imsi)
      else if imsi ∈ m.sessions then .ok .ALREADY_EXISTS m
      else .ok .CREATED (m.created imsi now) := by
  have hwrites : m.cdrWriter.throwsAt m.cdrWriter.calls = false := h
  by_cases hdraining : m.draining = true
  · simp [createSession, hdraining]
  by_cases hblack : imsi ∈ m.blacklist
  · simp [createSession, hdraining, hblack, writeAction_run h, rejected, wrote]
  by_cases himsi : imsi ∈ m.sessions
  · simp [createSession, hdraining, hblack, hasSession, himsi]
  · simp [createSession, hdraining, hblack, hasSession, himsi, UnorderedMap.tryEmplace,
      writeAction, hwrites, created, wrote]

/-! ## The methods as runs of the ledger

The states of above, read as steps of the ledger. `deleteSession` by itself is none: its caller
counts, and only then the books balance again. -/

/-- The writer of such a manager does not throw. -/
theorem Keeps.writes (h : m.Keeps l) : m.Writes :=
  h.reliable _

/-- The manager's log after a `writeAction` is the ledger's after a mark. -/
theorem Keeps.entries_wrote (h : m.Keeps l) (imsi : Imsi) (mark : Mark) :
    (m.wrote imsi mark.action).cdrWriter.entries = (l.log ++ [(imsi, mark)]).map Ledger.entry := by
  simp [wrote, h.entries, Ledger.entry]

/-- A new session is a step of the ledger, -/
theorem Keeps.create (h : m.Keeps l) {imsi : Imsi} (himsi : imsi ∉ m.sessions) (now : Time) :
    ∃ l', l.step (.create imsi) = some l' ∧ (m.created imsi now).Keeps l' := by
  have hx : imsi ∉ l.active := by rwa [← h.active, UnorderedMap.mem_keySet]
  refine ⟨_, by simp [Ledger.step, hx]; rfl, ?_⟩
  exact {
    reliable := h.reliable
    rate := h.rate
    active := by rw [← h.active]; exact UnorderedMap.keySet_insert m.sessions imsi ⟨now⟩
    entries := h.entries_wrote imsi .created
    cached := rfl
    created := congrArg (· + 1) h.created
    rejected := h.rejected
    expired := h.expired
    terminated := h.terminated
    total := congrArg (· + 1) h.total }

/-- as is a rejection, -/
theorem Keeps.reject (h : m.Keeps l) (imsi : Imsi) :
    ∃ l', l.step (.reject imsi) = some l' ∧ (m.rejected imsi).Keeps l' :=
  ⟨_, rfl, {
    reliable := h.reliable
    rate := h.rate
    active := h.active
    entries := h.entries_wrote imsi .rejected
    cached := h.cached
    created := h.created
    rejected := congrArg (· + 1) h.rejected
    expired := h.expired
    terminated := h.terminated
    total := congrArg (· + 1) h.total }⟩

/-- `deleteSession`, before its caller counts the deletion. -/
theorem Keeps.delete (h : m.Keeps l) (imsi : Imsi) :
    (m.deleted imsi).Keeps
      { l with active := l.active.erase imsi, log := l.log ++ [(imsi, .deleted)] } where
  reliable := h.reliable
  rate := h.rate
  active := by rw [← h.active]; exact UnorderedMap.keySet_erase m.sessions imsi
  entries := h.entries_wrote imsi .deleted
  cached := rfl
  created := h.created
  rejected := h.rejected
  expired := h.expired
  terminated := h.terminated
  total := h.total

/-- a termination, -/
theorem Keeps.terminate (h : m.Keeps l) {imsi : Imsi} (himsi : imsi ∈ m.sessions) :
    ∃ l', l.step (.terminate imsi) = some l' ∧ (m.terminated imsi).Keeps l' := by
  have hx : imsi ∈ l.active := by rwa [← h.active, UnorderedMap.mem_keySet]
  have hdelete := h.delete imsi
  refine ⟨_, by simp [Ledger.step, hx]; rfl, ?_⟩
  exact { hdelete with terminated := congrArg (· + 1) hdelete.terminated }

/-- and an expiration. -/
theorem Keeps.expire (h : m.Keeps l) {imsi : Imsi} (himsi : imsi ∈ m.sessions) :
    ∃ l', l.step (.expire imsi) = some l' ∧ (m.expired imsi).Keeps l' := by
  have hx : imsi ∈ l.active := by rwa [← h.active, UnorderedMap.mem_keySet]
  have hdelete := h.delete imsi
  refine ⟨_, by simp [Ledger.step, hx]; rfl, ?_⟩
  exact { hdelete with expired := congrArg (· + 1) hdelete.expired }

/-- A change that the ledger does not see. -/
theorem Keeps.congr (h : m.Keeps l) (hcdr : m'.cdrWriter = m.cdrWriter)
    (hkeys : m'.sessions.keySet = m.sessions.keySet) (hrate : m'.shutdownRate = m.shutdownRate)
    (hstats : m'.stats = m.stats) : m'.Keeps l where
  reliable := hcdr ▸ h.reliable
  rate := hrate ▸ h.rate
  active := hkeys.trans h.active
  entries := hcdr ▸ h.entries
  cached := by
    rw [hstats, h.cached, ← UnorderedMap.card_keySet, ← UnorderedMap.card_keySet, hkeys]
  created := hstats ▸ h.created
  rejected := hstats ▸ h.rejected
  expired := hstats ▸ h.expired
  terminated := hstats ▸ h.terminated
  total := hstats ▸ h.total

/-! ## The two loops

`cleanTimeoutSessions` and `gracefulShutdown` delete in a loop. The first goes over the table as it
was, the second takes the first session until there is none. -/

/-- The clean-up loop expires sessions of the rest of the iteration. Induction on that rest: its
elements are in the table, and deleting one leaves the others there. -/
theorem cleanFrom_run (now : Time) (its : List SessionEntry) :
    ∀ {m : SessionManager} {l : Ledger Imsi}, m.Keeps l → (∀ it ∈ its, it ∈ m.sessions.entries) →
      its.NodupKeys →
      ∃ m' es l', (cleanFrom now its).run m = .ok () m' ∧ Run.exec Ledger.step l es = some l' ∧
        m'.Keeps l' := by
  induction its with
  | nil => exact fun {m l} h _ _ => ⟨m, [], l, rfl, rfl, h⟩
  | cons it its ih =>
    intro m l h hmem hnodup
    obtain ⟨hit, hnodup'⟩ := List.nodupKeys_cons.mp hnodup
    by_cases hage : now - it.2.createdTime ≥ seconds m.sessionTimeoutSec
    · have hin : it.1 ∈ m.sessions := UnorderedMap.mem_of_mem_entries (hmem it (by simp))
      obtain ⟨l₁, hl₁, h₁⟩ := h.expire hin
      have hrest : ∀ e ∈ its, e ∈ (m.expired it.1).sessions.entries := by
        intro e he
        refine UnorderedMap.mem_entries_erase (hmem e (by simp [he])) fun heq => hit ?_
        exact heq ▸ List.mem_map_of_mem he
      obtain ⟨m', es, l', hrun, hes, h'⟩ := ih h₁ hrest hnodup'
      refine ⟨m', .expire it.1 :: es, l', ?_, Run.exec_cons_eq_some.mpr ⟨l₁, hl₁, hes⟩, h'⟩
      -- `deleteSession` and the counter together are one event of the ledger
      have hexpire : countExpired.run (m.deleted it.1) = .ok () (m.expired it.1) := rfl
      simp [cleanFrom, hage, deleteSession_run h.writes, hexpire, hrun]
    · obtain ⟨m', es, l', hrun, hes, h'⟩ := ih h (fun e he => hmem e (by simp [he])) hnodup'
      exact ⟨m', es, l', by simp [cleanFrom, hage, hrun], hes, h'⟩

/-- A deletion by `shutdownSession`, also one that throws later, leaves one session less. -/
theorem shutdownSession_shrinks (hrun : shutdownSession.run m = .ok true m') :
    m'.sessions.size + 1 = m.sessions.size := by
  cases hentries : m.sessions.entries with
  | nil => simp [shutdownSession_run_empty hentries] at hrun
  | cons it rest =>
    have hin : it.1 ∈ m.sessions := UnorderedMap.mem_of_entries_eq_cons hentries
    by_cases hthrows : m.cdrWriter.throwsAt m.cdrWriter.calls = true
    · simp [shutdownSession, hentries, deleteSession, writeAction, hthrows] at hrun
    · simp [shutdownSession, hentries, deleteSession, writeAction, hthrows, countTerminated] at hrun
      subst hrun
      exact UnorderedMap.size_erase hin

/-- One iteration of the loop of `gracefulShutdown`. -/
theorem shutdownLoop_succ_run (pacing : Pacing → Pacing) (fuel : Nat) (p : Pacing) :
    (shutdownLoop pacing (fuel + 1) p).run m =
      match shutdownSession.run m with
      | .ok true m' => (shutdownLoop pacing fuel (pacing p)).run m'
      | .ok false m' => .ok () m'
      | .error e m' => .error e m' := by
  rw [shutdownLoop, EStateM.run_bind]
  cases shutdownSession.run m with
  | error e m' => rfl
  | ok sessionsAvailable m' => cases sessionsAvailable <;> rfl

/-- `size + 1` iterations are enough: more of them change nothing, whether or not the CDR writer
throws. -/
theorem shutdownLoop_fuel (pacing : Pacing → Pacing) (fuel : Nat) :
    ∀ {m : SessionManager} (p : Pacing), m.sessions.size < fuel →
      (shutdownLoop pacing (fuel + 1) p).run m = (shutdownLoop pacing fuel p).run m := by
  induction fuel with
  | zero => exact fun _ hfuel => absurd hfuel (Nat.not_lt_zero _)
  | succ fuel ih =>
    intro m p hfuel
    rw [shutdownLoop_succ_run, shutdownLoop_succ_run]
    cases hrun : shutdownSession.run m with
    | error e m' => rfl
    | ok sessionsAvailable m' =>
      cases sessionsAvailable with
      | false => rfl
      | true =>
        have hsize := shutdownSession_shrinks hrun
        exact ih (pacing p) (by omega)

/-- The shutdown loop terminates every session. Induction on the fuel: an iteration that does not
end the loop makes the table smaller. -/
theorem shutdownLoop_run (pacing : Pacing → Pacing) (fuel : Nat) :
    ∀ {m : SessionManager} {l : Ledger Imsi} (p : Pacing), m.Keeps l → m.sessions.size < fuel →
      ∃ m' es l', (shutdownLoop pacing fuel p).run m = .ok () m' ∧
        Run.exec Ledger.step l es = some l' ∧ m'.Keeps l' ∧ m'.sessions.entries = [] := by
  induction fuel with
  | zero => exact fun _ _ hfuel => absurd hfuel (Nat.not_lt_zero _)
  | succ fuel ih =>
    intro m l p h hfuel
    cases hentries : m.sessions.entries with
    | nil =>
      refine ⟨m, [], l, ?_, rfl, h, hentries⟩
      simp [shutdownLoop_succ_run, shutdownSession_run_empty hentries]
    | cons it rest =>
      -- the first session is terminated, which leaves one session less for the fuel
      have hin : it.1 ∈ m.sessions := UnorderedMap.mem_of_entries_eq_cons hentries
      obtain ⟨l₁, hl₁, h₁⟩ := h.terminate hin
      have hsize := UnorderedMap.size_erase hin
      obtain ⟨m', es, l', hrun, hes, h', hempty⟩ := ih (pacing p) h₁ (by
        show UnorderedMap.size (m.sessions.erase it.1) < fuel
        omega)
      refine ⟨m', .terminate it.1 :: es, l', ?_, Run.exec_cons_eq_some.mpr ⟨l₁, hl₁, hes⟩, h',
        hempty⟩
      simp [shutdownLoop_succ_run, shutdownSession_run h.writes hentries, hrun]

/-! ## Whole calls

From here on the manager is only seen through the ledger that it keeps. -/

/-- **Every call ends normally and is a run of the ledger.** -/
theorem perform_run (h : m.Keeps l) (c : SessionCall) :
    ∃ m' es l', (perform c).run m = .ok () m' ∧ Run.exec Ledger.step l es = some l' ∧
      m'.Keeps l' := by
  cases c with
  | createSession imsi now =>
    have hrun := createSession_run h.writes imsi now
    by_cases hdraining : m.draining = true
    · exact ⟨m, [], l, by simp [perform, hrun, hdraining], rfl, h⟩
    by_cases hblack : imsi ∈ m.blacklist
    · obtain ⟨l', hl', h'⟩ := h.reject imsi
      refine ⟨_, [.reject imsi], l', ?_, Run.exec_singleton hl', h'⟩
      simp [perform, hrun, hdraining, hblack]
    by_cases himsi : imsi ∈ m.sessions
    · exact ⟨m, [], l, by simp [perform, hrun, hdraining, hblack, himsi], rfl, h⟩
    · obtain ⟨l', hl', h'⟩ := h.create himsi now
      refine ⟨_, [.create imsi], l', ?_, Run.exec_singleton hl', h'⟩
      simp [perform, hrun, hdraining, hblack, himsi]
  | terminateSession imsi =>
    by_cases himsi : imsi ∈ m.sessions
    · obtain ⟨l', hl', h'⟩ := h.terminate himsi
      refine ⟨_, [.terminate imsi], l', ?_, Run.exec_singleton hl', h'⟩
      simp [perform, terminateSession_run h.writes himsi]
    · exact ⟨m, [], l, by simp [perform, terminateSession_run_none himsi], rfl, h⟩
  | shutdownSession =>
    cases hentries : m.sessions.entries with
    | nil => exact ⟨m, [], l, by simp [perform, shutdownSession_run_empty hentries], rfl, h⟩
    | cons it rest =>
      obtain ⟨l', hl', h'⟩ :=
        h.terminate (UnorderedMap.mem_of_mem_entries (e := it) (by simp [hentries]))
      refine ⟨_, [.terminate it.1], l', ?_, Run.exec_singleton hl', h'⟩
      simp [perform, shutdownSession_run h.writes hentries]
  | cleanTimeoutSessions now =>
    obtain ⟨m', es, l', hrun, hes, h'⟩ :=
      cleanFrom_run now m.sessions.entries h (fun _ hit => hit) m.sessions.nodupKeys
    exact ⟨m', es, l', by simp [perform, cleanTimeoutSessions, hrun], hes, h'⟩
  | gracefulShutdown clock =>
    have hdrain : Keeps { m with draining := true } l := h.congr rfl rfl rfl rfl
    have hrate : m.shutdownRate ≠ 0 := by have := h.rate; omega
    obtain ⟨m', es, l', hrun, hes, h', hempty⟩ :=
      shutdownLoop_run
        (pace clock m.sessionTimeoutSec (milliseconds ((1000 : Int).tdiv m.shutdownRate)) (clock 0))
        (m.sessions.size + 1) ⟨clock 0, false, 1, []⟩ hdrain (Nat.lt_succ_self _)
    have hcached : m'.stats.activeSessions = 0 := by
      rw [h'.cached, UnorderedMap.size, hempty, List.length_nil]
    -- the last assignment of the method stores the value that is already there
    have hdone : (if m'.sessions.entries = [] then { m' with stats.activeSessions := 0 } else m')
        = m' := by
      rw [if_pos hempty, ← hcached]
    refine ⟨m', es, l', ?_, hes, h'⟩
    simp [perform, SessionManager.gracefulShutdown, hrate, hrun, hdone]
  | addToBlacklist imsi =>
    by_cases hvalid : Validation.isValidImsi imsi = true
    · refine ⟨{ m with blacklist := insert imsi m.blacklist }, [], l, ?_, rfl,
        h.congr rfl rfl rfl rfl⟩
      simp [perform, SessionManager.addToBlacklist, hvalid]
    · exact ⟨m, [], l, by simp [perform, SessionManager.addToBlacklist, hvalid], rfl, h⟩
  | startDraining => exact ⟨{ m with draining := true }, [], l, rfl, rfl, h.congr rfl rfl rfl rfl⟩
  | rehash order =>
    refine ⟨{ m with sessions := m.sessions.reordered order }, [], l, rfl, rfl,
      h.congr rfl ?_ rfl rfl⟩
    exact UnorderedMap.keySet_reordered m.sessions order

/-- **Every step of the manager is a run of the ledger.** -/
theorem step_simulates (h : m.Keeps l) {c : SessionCall} (hstep : step m c = some m') :
    ∃ es l', Run.exec Ledger.step l es = some l' ∧ m'.Keeps l' := by
  obtain ⟨m'', es, l', hrun, hes, h'⟩ := perform_run h c
  simp only [step, hrun, Option.some.injEq] at hstep
  subst hstep
  exact ⟨es, l', hes, h'⟩

/-- The manager keeps a ledger that the ledger's own steps can reach. -/
def Ledgered (m : SessionManager) : Prop :=
  ∃ es l, Run.exec Ledger.step .empty es = some l ∧ m.Keeps l

/-- The ledger is empty at first. -/
theorem ledgered_constructed {w : CdrWriter} (hw : w.Reliable) (hnew : w.entries = [])
    (blacklist : Blacklist) (timeout : Int) {rate : Int}
    (hvalid : Validation.isValidGracefulShutdownRate rate = true) (now : Time) :
    (constructed w blacklist timeout rate now).Ledgered :=
  ⟨[], .empty, rfl, keeps_constructed hw hnew blacklist timeout (of_decide_eq_true hvalid) now⟩

/-- A manager with a ledger has a reliable writer. -/
theorem Ledgered.reliable (h : m.Ledgered) : m.cdrWriter.Reliable := by
  obtain ⟨es, l, hes, hkeeps⟩ := h
  exact hkeeps.reliable

/-- A method that one of the calls performs returns, and the manager still keeps a ledger. -/
theorem Ledgered.returns {α : Type} {method : Method α} {c : SessionCall}
    (hmethod : perform c = do let _ ← method) (h : m.Ledgered) :
    Effects.Returns method m fun _ m' => m'.Ledgered := by
  obtain ⟨es, l, hes, hkeeps⟩ := h
  obtain ⟨m', es', l', hrun, hes', hkeeps'⟩ := perform_run hkeeps c
  rw [hmethod, EStateM.run_bind] at hrun
  unfold Effects.Returns Effects.Ensures
  cases hcall : method.run m with
  | error e t => simp [hcall] at hrun
  | ok a t =>
    simp only [hcall] at hrun
    cases hrun
    exact ⟨es ++ es', l', Run.exec_append_eq_some.mpr ⟨l, hes, hes'⟩, hkeeps'⟩

end SessionManager
end Pgw
