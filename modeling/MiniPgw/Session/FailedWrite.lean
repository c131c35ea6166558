import MiniPgw.Session.Refinement

/-!
# The session manager when a record cannot be written

An operation of the manager writes at most one record, and `writeAction` may throw there. The
operations that create or delete a session change the table before they write and the counters
after it. `createSession` catches the exception and does not take the session back, the others do
not catch it. `After` lists what they leave behind. So an operation whose write throws has no effect
exactly when it would neither create nor delete a session (`atomic_iff`); the one write of this kind
is the record of a rejection.

## The architecture

* **`deleteSession_run_throws`**, **`createSession_run_throws`** and the like — where each method
  stands when its write throws.
* **`After`**, **`after_cases`** — a case for each way in which an operation can leave the
  manager, whether it returns or throws.
* **`after_of_changes`**, **`after_of_not_changes`** — the cases against `Changes`, for one
  operation.
* **`cleanTimeoutSessions_moves`** — the clean-up as a run of operations, so that the runs below
  are made of operations with one write at most.
* **`balance_move_iff`**, **`atomic_iff`** — the balance of the counters along a run of moves.
-/

namespace Pgw

open Effects

namespace SessionManager

variable {m m' : SessionManager}

/-- The operations that write at most one record. -/
inductive Operation where
  | createSession (imsi : Imsi) (now : Time)
  | terminateSession (imsi : Imsi)
  | shutdownSession
  /-- An iteration of the loop of `cleanTimeoutSessions`, at the element `it`. -/
  | cleanTimeoutSession (now : Time) (it : SessionEntry)

/-- The call of the manager; of the clean-up, the part for one session. -/
def operate : Operation → Method Unit
  | .createSession imsi now => do
    let _ ← SessionManager.createSession imsi now
  | .terminateSession imsi => do
    let _ ← SessionManager.terminateSession imsi
  | .shutdownSession => do
    let _ ← SessionManager.shutdownSession
  | .cleanTimeoutSession now it => cleanFrom now [it]

/-- The iterator of a clean-up points into the table. -/
def Legal (m : SessionManager) : Operation → Prop
  | .cleanTimeoutSession _ it => it ∈ m.sessions.entries
  | _ => True

instance (m : SessionManager) : (op : Operation) → Decidable (m.Legal op)
  | .cleanTimeoutSession _ it => inferInstanceAs (Decidable (it ∈ m.sessions.entries))
  | .createSession _ _ | .terminateSession _ | .shutdownSession =>
    inferInstanceAs (Decidable True)

/-- The operation creates or deletes a session in this state. -/
def Changes (m : SessionManager) : Operation → Prop
  | .createSession imsi _ => m.draining = false ∧ imsi ∉ m.blacklist ∧ imsi ∉ m.sessions
  | .terminateSession imsi => imsi ∈ m.sessions
  | .shutdownSession => m.sessions.entries ≠ []
  | .cleanTimeoutSession now it =>
    it.1 ∈ m.sessions ∧ now - it.2.createdTime ≥ seconds m.sessionTimeoutSec

/-- `createdSessions = active + expiredSessions + terminateSessions` -/
def CreatedBalance (m : SessionManager) : Prop :=
  m.stats.createdSessions
    = m.countActiveSession + m.stats.expiredSessions + m.stats.terminateSessions

/-- The manager `m'` after an operation on `m` that has had no effect. -/
structure Atomic (m m' : SessionManager) : Prop where
  sessions : m'.sessions = m.sessions
  stats : m'.stats = m.stats
  hasSession : ∀ imsi, m'.hasSession imsi = m.hasSession imsi
  balance : m.CreatedBalance → m'.CreatedBalance

/-- The state in which an operation leaves the manager, whether it returns or throws. -/
def after (m : SessionManager) (op : Operation) : SessionManager :=
  finalState ((operate op).run m)

/-- With the same table and the same counters nothing has happened. -/
theorem Atomic.of_same (hsessions : m'.sessions = m.sessions) (hstats : m'.stats = m.stats) :
    m.Atomic m' where
  sessions := hsessions
  stats := hstats
  hasSession := fun imsi => by rw [SessionManager.hasSession, SessionManager.hasSession, hsessions]
  balance := fun h => by
    rw [CreatedBalance, countActiveSession, hsessions, hstats]
    exact h

/-- Nothing has changed. -/
theorem Atomic.refl (m : SessionManager) : m.Atomic m :=
  .of_same rfl rfl

/-! ## A write that throws

`writeAction` is called after the table has been changed and before the counters are. When it
throws, the one has happened and the other has not. -/

/-- The manager after a `writeAction` that throws. -/
def failed (m : SessionManager) : SessionManager :=
  { m with cdrWriter.calls := m.cdrWriter.calls + 1 }

/-- The next write throws. -/
theorem throwsAt_of_not_writes (h : ¬ m.Writes) :
    m.cdrWriter.throwsAt m.cdrWriter.calls = true := by
  unfold Writes at h
  simpa using h

/-- A write that throws leaves no record, but it is counted as a call. -/
theorem writeAction_run_throws (h : ¬ m.Writes) (imsi : Imsi) (action : Bytes) :
    (writeAction imsi action).run m = .error .exception m.failed := by
  have hthrows : m.cdrWriter.throwsAt m.cdrWriter.calls = true := throwsAt_of_not_writes h
  simp [writeAction, hthrows, failed]

/-- The element is erased before the record is written, and stays so. -/
theorem deleteSession_run_throws (h : ¬ m.Writes) (it : SessionEntry) :
    (deleteSession it).run m
      = .error .exception { m.failed with sessions := m.sessions.erase it.1 } := by
  have hthrows : m.cdrWriter.throwsAt m.cdrWriter.calls = true := throwsAt_of_not_writes h
  simp [deleteSession, writeAction, hthrows, failed]

/-- What `createSession` does when its write throws. -/
theorem createSession_run_throws (h : ¬ m.Writes) (imsi : Imsi) (now : Time) :
    (createSession imsi now).run m =
      if m.draining then .ok .SERVICE_UNAVAILABLE m
      else if imsi ∈ m.blacklist then .error .exception m.failed
      else if imsi ∈ m.sessions then .ok .ALREADY_EXISTS m
      else .ok .ERROR { m.failed with sessions := m.sessions.insert imsi ⟨now⟩ } := by
  have hthrows : m.cdrWriter.throwsAt m.cdrWriter.calls = true := throwsAt_of_not_writes h
  by_cases hdraining : m.draining = true
  · simp [createSession, hdraining]
  by_cases hblack : imsi ∈ m.blacklist
  · simp [createSession, hdraining, hblack, writeAction_run_throws h]
  by_cases himsi : imsi ∈ m.sessions
  · simp [createSession, hdraining, hblack, hasSession, himsi]
  · simp [createSession, hdraining, hblack, hasSession, himsi, UnorderedMap.tryEmplace,
      writeAction, hthrows, failed]

/-- To erase a session makes the table smaller. -/
theorem size_erase_ne {imsi : Imsi} (himsi : imsi ∈ m.sessions) :
    UnorderedMap.size (m.sessions.erase imsi) ≠ m.sessions.size := by
  have hsize := UnorderedMap.size_erase himsi
  omega

/-- `terminateSession` has erased the session when its write throws, -/
theorem terminateSession_run_throws (h : ¬ m.Writes) {imsi : Imsi} (himsi : imsi ∈ m.sessions) :
    (terminateSession imsi).run m
      = .error .exception { m.failed with sessions := m.sessions.erase imsi } := by
  obtain ⟨data, hdata⟩ := Option.isSome_iff_exists.mp (AList.lookup_isSome.mpr himsi)
  simp [terminateSession, hdata, deleteSession_run_throws h]

/-- so has `shutdownSession`, -/
theorem shutdownSession_run_throws (h : ¬ m.Writes) {it : SessionEntry}
    {rest : List SessionEntry} (hbegin : m.sessions.entries = it :: rest) :
    shutdownSession.run m
      = .error .exception { m.failed with sessions := m.sessions.erase it.1 } := by
  simp [shutdownSession, hbegin, deleteSession_run_throws h]

/-- and so has the clean-up of an expired session. -/
theorem cleanFrom_run_throws (h : ¬ m.Writes) (now : Time) (it : SessionEntry) :
    (cleanFrom now [it]).run m =
      if now - it.2.createdTime ≥ seconds m.sessionTimeoutSec then
        .error .exception { m.failed with sessions := m.sessions.erase it.1 }
      else .ok () m := by
  by_cases hage : now - it.2.createdTime ≥ seconds m.sessionTimeoutSec
  · simp [cleanFrom, hage, deleteSession_run_throws h]
  · simp [cleanFrom, hage]

/-! ## What an operation leaves

`After` lists the outcomes, with and without the record. The balance is then a matter of arithmetic
in each of them. -/

/-- The iteration for a session that has expired. -/
theorem after_clean_of_writes (h : m.Writes) {now : Time} {it : SessionEntry}
    (hage : now - it.2.createdTime ≥ seconds m.sessionTimeoutSec) :
    m.after (.cleanTimeoutSession now it) = m.expired it.1 := by
  have hcount : countExpired.run (m.deleted it.1) = .ok () (m.expired it.1) := rfl
  simp [after, operate, cleanFrom, hage, deleteSession_run h, hcount]

/-- Every way in which an operation can leave the manager. -/
inductive After (m : SessionManager) : Operation → SessionManager → Prop where
  | unchanged {op : Operation} (hkept : ¬ m.Changes op) : After m op m
  | rejected {imsi : Imsi} {now : Time} (hblack : imsi ∈ m.blacklist) (hwrites : m.Writes) :
    After m (.createSession imsi now) (m.rejected imsi)
  | rejectedLost {imsi : Imsi} {now : Time} (hblack : imsi ∈ m.blacklist) (hthrows : ¬ m.Writes) :
    After m (.createSession imsi now) m.failed
  | created {imsi : Imsi} {now : Time} (himsi : imsi ∉ m.sessions) (hwrites : m.Writes) :
    After m (.createSession imsi now) (m.created imsi now)
  | createdLost {imsi : Imsi} {now : Time} (hchanges : m.Changes (.createSession imsi now))
    (hthrows : ¬ m.Writes) :
    After m (.createSession imsi now)
      { m.failed with sessions := m.sessions.insert imsi ⟨now⟩ }
  | terminated {op : Operation} {imsi : Imsi} (hchanges : m.Changes op)
    (himsi : imsi ∈ m.sessions) (hwrites : m.Writes) : After m op (m.terminated imsi)
  | terminatedLost {op : Operation} {imsi : Imsi} (hchanges : m.Changes op)
    (himsi : imsi ∈ m.sessions) (hthrows : ¬ m.Writes) :
    After m op { m.failed with sessions := m.sessions.erase imsi }
  | expired {now : Time} {it : SessionEntry} (hwrites : m.Writes) :
    After m (.cleanTimeoutSession now it) (m.expired it.1)
  | expiredLost {now : Time} {it : SessionEntry}
    (hage : now - it.2.createdTime ≥ seconds m.sessionTimeoutSec) (hthrows : ¬ m.Writes) :
    After m (.cleanTimeoutSession now it)
      { m.failed with sessions := m.sessions.erase it.1 }

/-- The ways of `createSession`. -/
theorem after_createSession (m : SessionManager) (imsi : Imsi) (now : Time) :
    After m (.createSession imsi now) (m.after (.createSession imsi now)) := by
  have hkept : m.draining = true ∨ imsi ∈ m.sessions → ¬ m.Changes (.createSession imsi now) := by
    rintro (hdraining | himsi) ⟨hnot, -, hnew⟩
    · exact absurd (hdraining.symm.trans hnot) (by decide)
    · exact hnew himsi
  by_cases hwrites : m.Writes
  · have hrun := createSession_run hwrites imsi now
    by_cases hdraining : m.draining = true
    · simpa [after, operate, hrun, hdraining] using After.unchanged (hkept (.inl hdraining))
    by_cases hblack : imsi ∈ m.blacklist
    · have hrejected : After m (.createSession imsi now) (m.rejected imsi) :=
        .rejected hblack hwrites
      simpa [after, operate, hrun, hdraining, hblack] using hrejected
    by_cases himsi : imsi ∈ m.sessions
    · simpa [after, operate, hrun, hdraining, hblack, himsi] using
        After.unchanged (hkept (.inr himsi))
    · have hcreated : After m (.createSession imsi now) (m.created imsi now) :=
        .created himsi hwrites
      simpa [after, operate, hrun, hdraining, hblack, himsi] using hcreated
  · have hrun := createSession_run_throws hwrites imsi now
    by_cases hdraining : m.draining = true
    · simpa [after, operate, hrun, hdraining] using After.unchanged (hkept (.inl hdraining))
    by_cases hblack : imsi ∈ m.blacklist
    · have hrejected : After m (.createSession imsi now) m.failed := .rejectedLost hblack hwrites
      simpa [after, operate, hrun, hdraining, hblack] using hrejected
    by_cases himsi : imsi ∈ m.sessions
    · simpa [after, operate, hrun, hdraining, hblack, himsi] using
        After.unchanged (hkept (.inr himsi))
    -- the session stays, and its record is missing
    · have hchanges : m.Changes (.createSession imsi now) :=
        ⟨Bool.eq_false_iff.mpr hdraining, hblack, himsi⟩
      simpa [after, operate, hrun, hdraining, hblack, himsi] using
        After.createdLost hchanges hwrites

/-- **Every operation, whether it returns or throws.** -/
theorem after_cases (m : SessionManager) (op : Operation) : After m op (m.after op) := by
  cases op with
  | createSession imsi now => exact after_createSession m imsi now
  | terminateSession imsi =>
    -- a call about no session changes nothing; one that erases may lose the record
    by_cases himsi : imsi ∈ m.sessions
    · have hchanges : m.Changes (.terminateSession imsi) := himsi
      by_cases hwrites : m.Writes
      · have hrun := terminateSession_run hwrites himsi
        simpa [after, operate, hrun] using After.terminated hchanges himsi hwrites
      · have hrun := terminateSession_run_throws hwrites himsi
        simpa [after, operate, hrun] using After.terminatedLost hchanges himsi hwrites
    · have hkept : ¬ m.Changes (.terminateSession imsi) := himsi
      simpa [after, operate, terminateSession_run_none himsi] using After.unchanged hkept
  -- the session at the front of the table, if there is one
  | shutdownSession =>
    cases hentries : m.sessions.entries with
    | nil =>
      have hkept : ¬ m.Changes .shutdownSession := fun hchanges => hchanges hentries
      simpa [after, operate, shutdownSession_run_empty hentries] using After.unchanged hkept
    | cons it rest =>
      have hin : it.1 ∈ m.sessions := UnorderedMap.mem_of_entries_eq_cons hentries
      have hchanges : m.Changes .shutdownSession := by simp [Changes, hentries]
      by_cases hwrites : m.Writes
      · have hrun := shutdownSession_run hwrites hentries
        simpa [after, operate, hrun] using After.terminated hchanges hin hwrites
      · have hrun := shutdownSession_run_throws hwrites hentries
        simpa [after, operate, hrun] using After.terminatedLost hchanges hin hwrites
  -- `it` is erased when it is as old as the timeout
  | cleanTimeoutSession now it =>
    by_cases hage : now - it.2.createdTime ≥ seconds m.sessionTimeoutSec
    · by_cases hwrites : m.Writes
      · rw [after_clean_of_writes hwrites hage]
        exact .expired hwrites
      · simpa [after, operate, cleanFrom_run_throws hwrites, hage] using
          After.expiredLost hage hwrites
    · have hkept : ¬ m.Changes (.cleanTimeoutSession now it) := fun hchanges => hage hchanges.2
      simpa [after, operate, cleanFrom, hage] using After.unchanged hkept

/-! ## Which operations have no effect

An operation that only rejects or finds nothing has nothing to lose; one that creates or deletes has
changed the table before its write throws. -/

/-- An operation that would create or delete a session has changed the table, and no counter. -/
theorem after_of_changes (h : ¬ m.Writes) {op : Operation} (hchanges : m.Changes op) :
    (m.after op).sessions.size ≠ m.sessions.size ∧ (m.after op).stats = m.stats := by
  have hcases := after_cases m op
  generalize m.after op = m' at hcases ⊢
  cases hcases with
  | unchanged hkept => exact absurd hchanges hkept
  | rejectedLost hblack _ => exact absurd hblack hchanges.2.1
  | @createdLost imsi now _ _ =>
    have hsize := UnorderedMap.size_insert hchanges.2.2 (SessionData.mk now)
    refine ⟨?_, rfl⟩
    show UnorderedMap.size (m.sessions.insert imsi ⟨now⟩) ≠ m.sessions.size
    omega
  | terminatedLost _ himsi _ => exact ⟨size_erase_ne himsi, rfl⟩
  | expiredLost _ _ => exact ⟨size_erase_ne hchanges.1, rfl⟩
  | rejected _ hwrites | created _ hwrites | terminated _ _ hwrites | expired hwrites =>
    exact absurd hwrites h

/-- The other operations have changed nothing. -/
theorem after_of_not_changes (h : ¬ m.Writes) {op : Operation} (hkept : ¬ m.Changes op) :
    (m.after op).sessions = m.sessions ∧ (m.after op).stats = m.stats := by
  have hcases := after_cases m op
  generalize m.after op = m' at hcases ⊢
  cases hcases with
  | unchanged _ => exact ⟨rfl, rfl⟩
  -- the record of a rejection is written before the counters change
  | rejectedLost _ _ => exact ⟨rfl, rfl⟩
  | createdLost hchanges _ => exact absurd hchanges hkept
  | terminatedLost hchanges _ _ => exact absurd hchanges hkept
  | expiredLost hage _ =>
    -- the element is not in the table
    exact ⟨UnorderedMap.erase_of_notMem fun hin => hkept ⟨hin, hage⟩, rfl⟩
  | rejected _ hwrites | created _ hwrites | terminated _ _ hwrites | expired hwrites =>
    exact absurd hwrites h

/-- An operation whose write throws has no effect exactly when it would neither create nor delete
a session. -/
theorem atomic_after_iff (h : ¬ m.Writes) (op : Operation) :
    m.Atomic (m.after op) ↔ ¬ m.Changes op := by
  constructor
  · intro hatomic hchanges
    have hsize := (after_of_changes h hchanges).1
    rw [hatomic.sessions] at hsize
    exact hsize rfl
  · intro hkept
    obtain ⟨hsessions, hstats⟩ := after_of_not_changes h hkept
    exact .of_same hsessions hstats

/-! ## Runs

A clean-up is cut into its iterations, since a write in the middle of it may throw. After each move
the balance holds exactly as long as no write has thrown in a change of the table. -/

/-- What changes a manager: an operation, or something that writes no record. -/
inductive Move where
  | operation (op : Operation)
  | addToBlacklist (imsi : Imsi)
  | startDraining
  /-- The table is iterated in another order from now on. -/
  | rehash (order : List SessionEntry)

/-- What a move leaves; it must be legal. -/
def move (m : SessionManager) : Move → Option SessionManager
  | .operation op => if m.Legal op then some (m.after op) else none
  | .addToBlacklist imsi => some (finalState ((SessionManager.addToBlacklist imsi).run m))
  | .startDraining => some (finalState (SessionManager.startDraining.run m))
  | .rehash order => some { m with sessions := m.sessions.reordered order }

/-- The loop of `cleanTimeoutSessions` goes on after an iteration that has returned. -/
theorem cleanFrom_cons_run (now : Time) (it : SessionEntry) (its : List SessionEntry) :
    (cleanFrom now (it :: its)).run m =
      match (cleanFrom now [it]).run m with
      | .ok _ m' => (cleanFrom now its).run m'
      | .error e m' => .error e m' := by
  by_cases hage : now - it.2.createdTime ≥ seconds m.sessionTimeoutSec
  · cases hdelete : (deleteSession it).run m with
    | ok _ m' => simp [cleanFrom, hage, hdelete, countExpired]
    | error e m' => simp [cleanFrom, hage, hdelete]
  · simp [cleanFrom, hage]

/-- An iteration keeps the elements with other keys. -/
theorem mem_entries_after_clean {now : Time} {it e : SessionEntry} (he : e ∈ m.sessions.entries)
    (hkey : e.1 ≠ it.1) : e ∈ (m.after (.cleanTimeoutSession now it)).sessions.entries := by
  have herased : e ∈ (m.sessions.erase it.1).entries := UnorderedMap.mem_entries_erase he hkey
  by_cases hage : now - it.2.createdTime ≥ seconds m.sessionTimeoutSec
  · by_cases hwrites : m.Writes
    · rw [after_clean_of_writes hwrites hage]
      exact herased
    · simpa [after, operate, cleanFrom_run_throws hwrites, hage] using herased
  · simpa [after, operate, cleanFrom, hage] using he

/-- **A clean-up is a run of its iterations,** up to the first write that throws. Induction on the
rest of the table. -/
theorem cleanFrom_moves (now : Time) (its : List SessionEntry) :
    ∀ {m : SessionManager}, (∀ it ∈ its, it ∈ m.sessions.entries) → its.NodupKeys →
      ∃ pre, pre <+: its ∧
        Run.exec move m (pre.map fun it => .operation (.cleanTimeoutSession now it))
          = some (finalState ((cleanFrom now its).run m)) := by
  induction its with
  | nil => exact fun {m} _ _ => ⟨[], List.prefix_refl [], rfl⟩
  | cons it its ih =>
    intro m hmem hnodup
    obtain ⟨hit, hnodup'⟩ := List.nodupKeys_cons.mp hnodup
    have hlegal : m.Legal (.cleanTimeoutSession now it) := hmem it (by simp)
    have hfirst : move m (.operation (.cleanTimeoutSession now it))
        = some (m.after (.cleanTimeoutSession now it)) := by
      rw [move, if_pos hlegal]
    rw [cleanFrom_cons_run]
    -- the iteration for `it`: a write that throws ends the clean-up there
    cases hrun : (cleanFrom now [it]).run m with
    | error e m' =>
      have hafter : m.after (.cleanTimeoutSession now it) = m' := by
        simp [after, operate, hrun]
      refine ⟨[it], List.cons_prefix_cons.mpr ⟨rfl, List.nil_prefix⟩, ?_⟩
      exact Run.exec_cons_eq_some.mpr ⟨_, hfirst, by rw [hafter]; rfl⟩
    | ok _ m' =>
      have hafter : m.after (.cleanTimeoutSession now it) = m' := by
        simp [after, operate, hrun]
      -- the rest is still in the table, `it` being another key
      have hrest : ∀ e ∈ its, e ∈ m'.sessions.entries := by
        intro e he
        rw [← hafter]
        refine mem_entries_after_clean (hmem e (by simp [he])) fun heq => hit ?_
        exact heq ▸ List.mem_map_of_mem he
      obtain ⟨pre, hpre, hexec⟩ := ih hrest hnodup'
      refine ⟨it :: pre, List.cons_prefix_cons.mpr ⟨rfl, hpre⟩, ?_⟩
      exact Run.exec_cons_eq_some.mpr ⟨_, hfirst, by rw [hafter]; exact hexec⟩

/-- `cleanTimeoutSessions` is a run of iterations over the table as it was at the start. -/
theorem cleanTimeoutSessions_moves (m : SessionManager) (now : Time) :
    ∃ pre, pre <+: m.sessions.entries ∧
      Run.exec move m (pre.map fun it => .operation (.cleanTimeoutSession now it))
        = some (finalState ((cleanTimeoutSessions now).run m)) :=
  cleanFrom_moves now m.sessions.entries (fun _ hit => hit) m.sessions.nodupKeys

/-- A write does not throw in an operation that creates or deletes a session. -/
def Spares (m : SessionManager) : Move → Prop
  | .operation op => m.Writes ∨ ¬ m.Changes op
  | _ => True

/-- A termination keeps the balance. -/
theorem balance_terminated (hbalance : m.CreatedBalance) {imsi : Imsi}
    (himsi : imsi ∈ m.sessions) : (m.terminated imsi).CreatedBalance := by
  have hb : m.stats.createdSessions
      = m.sessions.size + m.stats.expiredSessions + m.stats.terminateSessions := hbalance
  have hsize := UnorderedMap.size_erase himsi
  show m.stats.createdSessions = UnorderedMap.size (m.sessions.erase imsi)
    + m.stats.expiredSessions + (m.stats.terminateSessions + 1)
  omega

/-- An operation whose write does not throw keeps the balance. -/
theorem balance_of_writes (h : m.Writes) (hbalance : m.CreatedBalance) {op : Operation}
    (hlegal : m.Legal op) : (m.after op).CreatedBalance := by
  have hb : m.stats.createdSessions
      = m.sessions.size + m.stats.expiredSessions + m.stats.terminateSessions := hbalance
  have hcases := after_cases m op
  generalize m.after op = m' at hcases ⊢
  cases hcases with
  | unchanged _ => exact hbalance
  | rejected _ _ => exact hbalance
  | @created imsi now himsi _ =>
    -- a new session is counted once and stands in the table once
    have hsize := UnorderedMap.size_insert himsi (SessionData.mk now)
    show m.stats.createdSessions + 1 = UnorderedMap.size (m.sessions.insert imsi ⟨now⟩)
      + m.stats.expiredSessions + m.stats.terminateSessions
    omega
  | terminated _ himsi _ => exact balance_terminated hbalance himsi
  | @expired now it _ =>
    have hsize := UnorderedMap.size_erase (UnorderedMap.mem_of_mem_entries hlegal)
    show m.stats.createdSessions = UnorderedMap.size (m.sessions.erase it.1)
      + (m.stats.expiredSessions + 1) + m.stats.terminateSessions
    omega
  | rejectedLost _ hthrows | createdLost _ hthrows | terminatedLost _ _ hthrows
  | expiredLost _ hthrows => exact absurd h hthrows

/-- **A move keeps the balance exactly when it spares the table a write that throws.** -/
theorem balance_move_iff (hbalance : m.CreatedBalance) {mv : Move} (hmove : move m mv = some m') :
    m'.CreatedBalance ↔ m.Spares mv := by
  cases mv with
  | operation op =>
    obtain ⟨hlegal, hafter⟩ := Option.ite_none_right_eq_some.mp hmove
    cases hafter
    by_cases hwrites : m.Writes
    · exact iff_of_true (balance_of_writes hwrites hbalance hlegal) (.inl hwrites)
    by_cases hchanges : m.Changes op
    -- the table has changed and the counters have not
    · obtain ⟨hsize, hstats⟩ := after_of_changes hwrites hchanges
      refine iff_of_false (fun hafter => hsize ?_) fun hspares => ?_
      · rw [CreatedBalance, hstats, hbalance] at hafter
        have hsame : m.sessions.size = (m.after op).sessions.size := by
          simpa [countActiveSession] using hafter
        exact hsame.symm
      · exact hspares.elim hwrites fun hkept => hkept hchanges
    · exact iff_of_true (((atomic_after_iff hwrites op).mpr hchanges).balance hbalance)
        (.inr hchanges)
  | addToBlacklist imsi =>
    refine iff_of_true ?_ trivial
    cases hmove
    by_cases hvalid : Validation.isValidImsi imsi = true
    · simp only [SessionManager.addToBlacklist, hvalid, if_true]
      exact hbalance
    · simpa [SessionManager.addToBlacklist, hvalid] using hbalance
  | startDraining =>
    cases hmove
    exact iff_of_true hbalance trivial
  | rehash order =>
    cases hmove
    refine iff_of_true ?_ trivial
    show m.stats.createdSessions = UnorderedMap.size (m.sessions.reordered order)
      + m.stats.expiredSessions + m.stats.terminateSessions
    rw [UnorderedMap.size_reordered]
    exact hbalance

/-- **Operations are atomic exactly when no write throws in a creation or a deletion.** In any state
an operation whose write throws has no effect if and only if it would neither create nor delete a
session; and in a run with any pattern of writes that throw, the created sessions are accounted for
in all reached states if and only if no operation of the run has created or deleted a session in
spite of a write that throws. -/
theorem atomic_iff {w : CdrWriter} {blacklist : Blacklist} {timeout rate : Int} {now : Time}
    {moves : List Move}
    (hrun : Run.exec move (constructed w blacklist timeout rate now) moves = some m) :
    (∀ (u : SessionManager) op, ¬ u.Writes → (u.Atomic (u.after op) ↔ ¬ u.Changes op)) ∧
      ((∀ pre u, pre <+: moves →
          Run.exec move (constructed w blacklist timeout rate now) pre = some u →
          u.CreatedBalance) ↔
        Run.Along move Spares (constructed w blacklist timeout rate now) moves) :=
  ⟨fun _ op h => atomic_after_iff h op,
    Run.prefixes_iff_along (fun _ _ _ _ hb hspares hmove => (balance_move_iff hb hmove).mpr hspares)
      (fun _ hb => hb) (fun _ _ _ _ hb hmove hb' => (balance_move_iff hb hmove).mp hb') rfl hrun⟩

/-- A writer whose first call throws, and no other. -/
def failsOnce : CdrWriter := ⟨[], 0, fun n => n = 0⟩

/-- A blacklisted subscriber is turned away without a record; another one gets a session. -/
def rejectedMoves : List Move :=
  [.operation (.createSession (ascii "001010123456789") 0),
    .operation (.createSession (ascii "001010123456780") 1), .operation .shutdownSession]

/-- The first write throws, and the writes after it do not. -/
theorem atomic_rejectedMoves :
    let m₀ := constructed failsOnce {ascii "001010123456789"} 30 10 0
    m₀.Atomic (m₀.after (.createSession (ascii "001010123456789") 0)) ∧
      ∀ pre u, pre <+: rejectedMoves → Run.exec move m₀ pre = some u → u.CreatedBalance := by
  intro m₀
  have hrun : Run.exec move m₀ rejectedMoves = some _ := rfl
  obtain ⟨hatomic, hbalance⟩ := atomic_iff hrun
  have hblack : ¬ m₀.Changes (.createSession (ascii "001010123456789") 0) := by
    rintro ⟨-, hblack, -⟩
    exact hblack (by decide)
  refine ⟨(hatomic m₀ _ ?_).mpr hblack, hbalance.mpr ⟨.inr hblack, fun t ht => ?_⟩⟩
  · unfold Writes
    decide
  · cases ht
    exact ⟨.inl rfl, fun t ht => by cases ht; exact ⟨.inl rfl, fun _ _ => trivial⟩⟩

/-- A session whose record cannot be written is reported as an error, and is there. -/
theorem not_atomic_createSession :
    let m₀ := constructed failsOnce ∅ 30 10 0
    let imsi := ascii "001010123456789"
    ∃ m', (SessionManager.createSession imsi 0).run m₀ = .ok .ERROR m' ∧
      m₀.hasSession imsi = false ∧ m'.hasSession imsi = true ∧ ¬ m'.CreatedBalance ∧
      ¬ m₀.Atomic (m₀.after (.createSession imsi 0)) := by
  intro m₀ imsi
  have hwrites : ¬ m₀.Writes := by
    unfold Writes
    decide
  refine ⟨_, rfl, rfl, rfl, ?_, fun hatomic => ?_⟩
  · unfold CreatedBalance
    decide
  · exact (atomic_after_iff hwrites _).mp hatomic ⟨rfl, by decide, by decide⟩

end SessionManager
end Pgw
