import MiniPgw.Session.FailedWrite
import MiniPgw.Session.Records

/-!
# The log as it would be had no write thrown

`writeAction` may throw at any of its calls, and the methods of the manager go on or end in
different ways when it does. What the calls were made with is a log all the same
(`Attempted`): it is that of a ledger which the manager keeps with its table, whatever throws, and
the real log has its entries but for those whose call threw. So `OnlyWritesLost` holds in every
state that a run of calls reaches: every record that is missing is one of a call that threw.

The counters are those of the real log: each is counted up behind the write.

## The architecture

* **`atCalls`** — which entries of a list of calls are those of the calls with a property.
* **`Attempted`** — the ledger of all calls next to the real log and counters.
* **`Attempted.threw`**, **`Attempted.wrote`** — one call of `writeAction`, in its two ways to
  end; `Attempted.delete`, `Attempted.create` and `Attempted.reject` are the events of the ledger.
* **`attempted_after`** — an operation, by the cases of `After`; **`attempted_step`** is a call of
  the manager as a run of operations.
* **`Attempted.onlyWritesLost`** — the laws of the ledger, read off for the log that is there.
-/

namespace Pgw

open Effects

/-! ## Calls with a number

`throwsAt` is asked with the number of the call, so the log can be computed from the list of all
calls: it has those whose numbers do not throw. -/

/-- The entries of those calls of `writeAction` whose number has the property `p`, where `attempted`
has the entries of all calls. -/
def atCalls (p : ℕ → Bool) (attempted : List CdrEntry) : List CdrEntry :=
  (attempted.zipIdx.filter fun e => p e.2).map Prod.fst

theorem atCalls_snoc (p : ℕ → Bool) (attempted : List CdrEntry) (entry : CdrEntry) :
    atCalls p (attempted ++ [entry])
      = atCalls p attempted ++ if p attempted.length then [entry] else [] := by
  rw [atCalls, List.zipIdx_append, List.filter_append, List.map_append, Nat.zero_add]
  cases hp : p attempted.length <;> simp [atCalls, hp]

/-- Every call has the property or has it not. -/
theorem count_atCalls (p : ℕ → Bool) (attempted : List CdrEntry) (entry : CdrEntry) :
    attempted.count entry
      = (atCalls (fun n => !p n) attempted).count entry + (atCalls p attempted).count entry := by
  induction attempted using List.reverseRecOn with
  | nil => rfl
  | append_singleton attempted last ih =>
    rw [atCalls_snoc, atCalls_snoc, List.count_append, List.count_append, List.count_append, ih]
    cases p attempted.length with
    | true =>
      simp only [Bool.not_true, Bool.false_eq_true, if_false, if_true, List.count_nil]
      omega
    | false =>
      simp only [Bool.not_false, Bool.false_eq_true, if_false, if_true, List.count_nil]
      omega

namespace SessionManager

variable {m m' : SessionManager} {l l' : Ledger Imsi}

/-! ## A ledger of the calls

The ledger has a mark for each call, returned or not. Table and log are tied to it separately, the
log through `atCalls`. -/

/-- `l` is the ledger of the table and of all calls of `writeAction`, whether or not they threw. The
counters are those of the log. -/
structure Attempted (m : SessionManager) (l : Ledger Imsi) : Prop where
  active : m.sessions.keySet = l.active
  calls : l.log.length = m.cdrWriter.calls
  entries : m.cdrWriter.entries
    = atCalls (fun n => !m.cdrWriter.throwsAt n) (l.log.map Ledger.entry)
  created : m.stats.createdSessions = m.recorded ICdrWriter.SESSION_CREATED
  rejected : m.stats.rejectedSessions = m.recorded ICdrWriter.SESSION_REJECTED
  deleted : m.stats.expiredSessions + m.stats.terminateSessions
    = m.recorded ICdrWriter.SESSION_DELETED
  total : m.stats.totalSessions = m.stats.createdSessions + m.stats.rejectedSessions

theorem attempted_constructed {w : CdrWriter} (hnew : w.entries = []) (hcalls : w.calls = 0)
    (blacklist : Blacklist) (timeout rate : Int) (now : Time) :
    (constructed w blacklist timeout rate now).Attempted .empty where
  active := rfl
  calls := hcalls.symm
  entries := hnew
  created := by simp [recorded, constructed, hnew]
  rejected := by simp [recorded, constructed, hnew]
  deleted := by simp [recorded, constructed, hnew]
  total := rfl

/-- A change that neither the ledger nor the counters see. -/
theorem Attempted.congr (h : m.Attempted l) (hcdr : m'.cdrWriter = m.cdrWriter)
    (hkeys : m'.sessions.keySet = m.sessions.keySet)
    (hstats : m'.stats = { m.stats with activeSessions := m'.stats.activeSessions }) :
    m'.Attempted l where
  active := hkeys.trans h.active
  calls := hcdr ▸ h.calls
  entries := hcdr ▸ h.entries
  created := by
    rw [recorded, hcdr, hstats]
    exact h.created
  rejected := by
    rw [recorded, hcdr, hstats]
    exact h.rejected
  deleted := by
    rw [recorded, hcdr, hstats]
    exact h.deleted
  total := by
    rw [hstats]
    exact h.total

theorem recorded_wrote (m : SessionManager) (imsi : Imsi) (action action' : Bytes) :
    (m.wrote imsi action).recorded action'
      = m.recorded action' + if action = action' then 1 else 0 := by
  simp [recorded, wrote, List.countP_append, List.countP_singleton]

/-- **A call that throws:** one more mark in the ledger, and none in the log. -/
theorem Attempted.threw (h : m.Attempted l) (hthrows : ¬ m.Writes) (mark : Mark) {imsi : Imsi}
    (hlog : l'.log = l.log ++ [(imsi, mark)]) {sessions : Sessions}
    (hkeys : sessions.keySet = l'.active) :
    Attempted { m.failed with sessions := sessions } l' where
  active := hkeys
  calls := by
    rw [hlog, List.length_append, h.calls]
    rfl
  entries := by
    show m.cdrWriter.entries = atCalls (fun n => !m.cdrWriter.throwsAt n) (l'.log.map Ledger.entry)
    rw [hlog, List.map_append, List.map_singleton, atCalls_snoc, List.length_map, h.calls,
      throwsAt_of_not_writes hthrows, ← h.entries]
    simp
  created := h.created
  rejected := h.rejected
  deleted := h.deleted
  total := h.total

/-- **A call that returns:** the mark is in both, and has been counted. -/
theorem Attempted.wrote (h : m.Attempted l) (hwrites : m.Writes) (mark : Mark) {imsi : Imsi}
    (hlog : l'.log = l.log ++ [(imsi, mark)])
    (hcdr : m'.cdrWriter = (m.wrote imsi mark.action).cdrWriter)
    (hkeys : m'.sessions.keySet = l'.active)
    (hcreated : m'.stats.createdSessions
      = m.stats.createdSessions + if mark = .created then 1 else 0)
    (hrejected : m'.stats.rejectedSessions
      = m.stats.rejectedSessions + if mark = .rejected then 1 else 0)
    (hdeleted : m'.stats.expiredSessions + m'.stats.terminateSessions
      = m.stats.expiredSessions + m.stats.terminateSessions + if mark = .deleted then 1 else 0)
    (htotal : m'.stats.totalSessions = m.stats.totalSessions + if mark = .deleted then 0 else 1) :
    m'.Attempted l' := by
  -- the writer: one entry more, and one call more
  have hwriter : m'.cdrWriter = { m.cdrWriter with
      entries := m.cdrWriter.entries ++ [⟨imsi, mark.action⟩]
      calls := m.cdrWriter.calls + 1 } := hcdr
  -- only the number of the records of this kind goes up
  have hrecorded : ∀ mark' : Mark, m'.recorded mark'.action
      = m.recorded mark'.action + if mark = mark' then 1 else 0 := by
    intro mark'
    have hsame : m'.recorded mark'.action = (m.wrote imsi mark.action).recorded mark'.action := by
      rw [recorded, recorded, hcdr]
    rw [hsame, recorded_wrote]
    simp only [action_injective.eq_iff]
  -- the keys, the calls, the entries, and the four counters
  refine ⟨hkeys, ?_, ?_, ?_, ?_, ?_, ?_⟩
  · rw [hlog, List.length_append, h.calls, hwriter]
    rfl
  · have hreturns : m.cdrWriter.throwsAt m.cdrWriter.calls = false := hwrites
    rw [hwriter, hlog, List.map_append, List.map_singleton, atCalls_snoc, List.length_map, h.calls,
      ← h.entries, hreturns]
    rfl
  · rw [hcreated, h.created]
    exact (hrecorded .created).symm
  · rw [hrejected, h.rejected]
    exact (hrecorded .rejected).symm
  · rw [hdeleted, h.deleted]
    exact (hrecorded .deleted).symm
  · rw [htotal, h.total, hcreated, hrejected]
    -- a deletion is no attempt to create a session, so the total stands
    cases mark with
    | created => exact Nat.add_right_comm _ _ _
    | deleted => rfl
    | rejected => rfl

/-! ## Operations

Each operation erases or inserts first and writes second. Whatever the write does, the mark in the
ledger is the one that the table calls for. -/

/-- A session that is deleted, whether it expires or is terminated. The counters of the ledger are
not used, so both are the same event. -/
theorem Attempted.delete (h : m.Attempted l) {imsi : Imsi} (himsi : imsi ∈ m.sessions) :
    ∃ l', l.step (.terminate imsi) = some l' ∧
      (m.Writes → (m.terminated imsi).Attempted l' ∧ (m.expired imsi).Attempted l') ∧
      (¬ m.Writes → Attempted { m.failed with sessions := m.sessions.erase imsi } l') := by
  have hx : imsi ∈ l.active := by rwa [← h.active, UnorderedMap.mem_keySet]
  have hkeys : UnorderedMap.keySet (m.sessions.erase imsi) = l.active.erase imsi := by
    rw [← h.active]
    exact UnorderedMap.keySet_erase m.sessions imsi
  refine ⟨_, by simp [Ledger.step, hx]; rfl, fun hwrites => ⟨?_, ?_⟩, fun hthrows => ?_⟩
  · exact h.wrote hwrites .deleted rfl rfl hkeys rfl rfl (Nat.add_assoc _ _ 1).symm rfl
  · exact h.wrote hwrites .deleted rfl rfl hkeys rfl rfl (Nat.add_right_comm _ 1 _) rfl
  · exact h.threw hthrows .deleted rfl hkeys

theorem Attempted.reject (h : m.Attempted l) (imsi : Imsi) :
    ∃ l', l.step (.reject imsi) = some l' ∧
      (m.Writes → (m.rejected imsi).Attempted l') ∧ (¬ m.Writes → m.failed.Attempted l') := by
  refine ⟨_, rfl, fun hwrites => ?_, fun hthrows => ?_⟩
  · exact h.wrote hwrites .rejected rfl rfl h.active rfl rfl rfl rfl
  · exact h.threw hthrows .rejected rfl h.active

theorem Attempted.create (h : m.Attempted l) {imsi : Imsi} (himsi : imsi ∉ m.sessions)
    (now : Time) :
    ∃ l', l.step (.create imsi) = some l' ∧
      (m.Writes → (m.created imsi now).Attempted l') ∧
      (¬ m.Writes → Attempted { m.failed with sessions := m.sessions.insert imsi ⟨now⟩ } l') := by
  have hx : imsi ∉ l.active := by rwa [← h.active, UnorderedMap.mem_keySet]
  have hkeys : UnorderedMap.keySet (m.sessions.insert imsi ⟨now⟩) = insert imsi l.active := by
    rw [← h.active]
    exact UnorderedMap.keySet_insert m.sessions imsi ⟨now⟩
  refine ⟨_, by simp [Ledger.step, hx]; rfl, fun hwrites => ?_, fun hthrows => ?_⟩
  · exact h.wrote hwrites .created rfl rfl hkeys rfl rfl rfl rfl
  · exact h.threw hthrows .created rfl hkeys

/-- The manager `m'` keeps a ledger of its calls that goes on from `l`. -/
def Continued (l : Ledger Imsi) (m' : SessionManager) : Prop :=
  ∃ es l', Run.exec Ledger.step l es = some l' ∧ m'.Attempted l'

theorem continued_refl (h : m.Attempted l) : Continued l m :=
  ⟨[], l, rfl, h⟩

theorem continued_step {e : Ledger.Event Imsi} (hstep : l.step e = some l')
    (h : m.Attempted l') : Continued l m :=
  ⟨[e], l', Run.exec_singleton hstep, h⟩

/-- **An operation, whether it returns or throws,** writes into the ledger what it has done to the
table. -/
theorem attempted_after (h : m.Attempted l) (op : Operation) (hlegal : m.Legal op) :
    Continued l (m.after op) := by
  -- what happened is read off the state after the operation, the record written or lost
  have hcases := after_cases m op
  generalize m.after op = m' at hcases ⊢
  cases hcases with
  | unchanged _ => exact continued_refl h
  | @rejected imsi now _ hwrites =>
    obtain ⟨l', hl', hreturns, -⟩ := h.reject imsi
    exact continued_step hl' (hreturns hwrites)
  | @rejectedLost imsi now _ hthrows =>
    obtain ⟨l', hl', -, hlost⟩ := h.reject imsi
    exact continued_step hl' (hlost hthrows)
  | @created imsi now himsi hwrites =>
    obtain ⟨l', hl', hreturns, -⟩ := h.create himsi now
    exact continued_step hl' (hreturns hwrites)
  | @createdLost imsi now hchanges hthrows =>
    obtain ⟨l', hl', -, hlost⟩ := h.create hchanges.2.2 now
    exact continued_step hl' (hlost hthrows)
  | terminated _ himsi hwrites =>
    obtain ⟨l', hl', hreturns, -⟩ := h.delete himsi
    exact continued_step hl' (hreturns hwrites).1
  | terminatedLost _ himsi hthrows =>
    obtain ⟨l', hl', -, hlost⟩ := h.delete himsi
    exact continued_step hl' (hlost hthrows)
  -- the iteration for an entry of the table, which is there
  | expired hwrites =>
    obtain ⟨l', hl', hreturns, -⟩ := h.delete (UnorderedMap.mem_of_mem_entries hlegal)
    exact continued_step hl' (hreturns hwrites).2
  | expiredLost _ hthrows =>
    obtain ⟨l', hl', -, hlost⟩ := h.delete (UnorderedMap.mem_of_mem_entries hlegal)
    exact continued_step hl' (hlost hthrows)

theorem attempted_move (h : m.Attempted l) (mv : Move) (hmove : move m mv = some m') :
    Continued l m' := by
  cases mv with
  | operation op =>
    obtain ⟨hlegal, hafter⟩ := Option.ite_none_right_eq_some.mp hmove
    cases hafter
    exact attempted_after h op hlegal
  | addToBlacklist imsi =>
    cases hmove
    by_cases hvalid : Validation.isValidImsi imsi = true
    · simp only [SessionManager.addToBlacklist, hvalid, if_true]
      exact continued_refl (h.congr rfl rfl rfl)
    · simpa [SessionManager.addToBlacklist, hvalid] using continued_refl h
  | startDraining =>
    cases hmove
    exact continued_refl (h.congr rfl rfl rfl)
  | rehash order =>
    cases hmove
    exact continued_refl (h.congr rfl (UnorderedMap.keySet_reordered m.sessions order) rfl)

theorem attempted_moves (h : m.Attempted l) {moves : List Move}
    (hrun : Run.exec move m moves = some m') : Continued l m' :=
  Run.exec_simulation (fun _ _ mv _ h hmove => attempted_move h mv hmove) h hrun

/-! ## Calls

The loops of the clean-up and of `gracefulShutdown` are runs of operations that end with the first
write that throws. -/

/-- The loop of `gracefulShutdown` is a run of `shutdownSession`, up to the first write that throws.
Induction on the fuel. -/
theorem shutdownLoop_moves (pacing : Pacing → Pacing) (fuel : ℕ) :
    ∀ (m : SessionManager) (p : Pacing),
      ∃ moves, Run.exec move m moves = some (finalState ((shutdownLoop pacing fuel p).run m)) := by
  induction fuel with
  | zero => exact fun m _ => ⟨[], rfl⟩
  | succ fuel ih =>
    intro m p
    have hlegal : m.Legal .shutdownSession := trivial
    have hfirst : move m (.operation .shutdownSession) = some (m.after .shutdownSession) := by
      rw [move, if_pos hlegal]
    rw [shutdownLoop_succ_run]
    -- an exception ends the loop; else it goes on as long as there are sessions
    cases hrun : shutdownSession.run m with
    | error e t =>
      have hafter : m.after .shutdownSession = t := by simp [after, operate, hrun]
      exact ⟨[.operation .shutdownSession], Run.exec_singleton (hafter ▸ hfirst)⟩
    | ok sessionsAvailable t =>
      have hafter : m.after .shutdownSession = t := by simp [after, operate, hrun]
      cases sessionsAvailable with
      | false => exact ⟨[.operation .shutdownSession], Run.exec_singleton (hafter ▸ hfirst)⟩
      | true =>
        obtain ⟨moves, hmoves⟩ := ih t (pacing p)
        exact ⟨.operation .shutdownSession :: moves,
          Run.exec_cons_eq_some.mpr ⟨t, hafter ▸ hfirst, hmoves⟩⟩

/-- A step is the state in which the call leaves the manager. -/
theorem eq_finalState_of_step {c : SessionCall} (hstep : step m c = some m') :
    m' = finalState ((perform c).run m) := by
  unfold step at hstep
  cases hrun : (perform c).run m with
  | ok _ t =>
    rw [hrun] at hstep
    cases hstep
    rfl
  | error e t =>
    rw [hrun] at hstep
    cases e with
    | exception =>
      cases hstep
      rfl
    | undefined => cases hstep

/-- The result of a method does not matter for the state. -/
theorem finalState_discard {α : Type} (method : Method α) (m : SessionManager) :
    finalState ((do let _ ← method : Method Unit).run m) = finalState (method.run m) := by
  rw [EStateM.run_bind]
  cases method.run m <;> rfl

theorem attempted_gracefulShutdown (h : m.Attempted l) (clock : ℕ → Time) :
    Continued l (finalState ((gracefulShutdown clock).run m)) := by
  have hdrain : Attempted { m with draining := true } l := h.congr rfl rfl rfl
  by_cases hrate : m.shutdownRate = 0
  · simpa [gracefulShutdown, hrate] using continued_refl hdrain
  obtain ⟨moves, hmoves⟩ := shutdownLoop_moves
    (pace clock m.sessionTimeoutSec (milliseconds ((1000 : Int).tdiv m.shutdownRate)) (clock 0))
    (m.sessions.size + 1) { m with draining := true } ⟨clock 0, false, 1, []⟩
  obtain ⟨es, l', hes, h'⟩ := attempted_moves hdrain hmoves
  refine ⟨es, l', hes, ?_⟩
  cases hrun : (shutdownLoop
      (pace clock m.sessionTimeoutSec (milliseconds ((1000 : Int).tdiv m.shutdownRate)) (clock 0))
      (m.sessions.size + 1) ⟨clock 0, false, 1, []⟩).run { m with draining := true } with
  | error e t =>
    rw [hrun] at h'
    simpa [gracefulShutdown, hrate, hrun] using h'
  | ok _ t =>
    rw [hrun] at h'
    -- the last assignment is to the cached number of sessions
    by_cases hempty : t.sessions.entries = []
    · have hzero : Attempted { t with stats.activeSessions := 0 } l' := h'.congr rfl rfl rfl
      simpa [gracefulShutdown, hrate, hrun, hempty] using hzero
    · simpa [gracefulShutdown, hrate, hrun, hempty] using h'

/-- **A call of the manager, whether it returns or throws.** -/
theorem attempted_step (h : m.Attempted l) {c : SessionCall} (hstep : step m c = some m') :
    Continued l m' := by
  rw [eq_finalState_of_step hstep]
  cases c with
  | createSession imsi now => exact attempted_after h (.createSession imsi now) trivial
  | terminateSession imsi => exact attempted_after h (.terminateSession imsi) trivial
  | shutdownSession => exact attempted_after h .shutdownSession trivial
  | cleanTimeoutSessions now =>
    obtain ⟨pre, -, hmoves⟩ := cleanTimeoutSessions_moves m now
    exact attempted_moves h hmoves
  | gracefulShutdown clock => exact attempted_gracefulShutdown h clock
  | addToBlacklist imsi =>
    rw [perform, finalState_discard]
    exact attempted_move h (.addToBlacklist imsi) rfl
  | startDraining => exact attempted_move h .startDraining rfl
  | rehash order => exact attempted_move h (.rehash order) rfl

theorem attempted_exec (h : m.Attempted l) {calls : List SessionCall}
    (hrun : Run.exec step m calls = some m') : Continued l m' :=
  Run.exec_simulation (fun _ _ _ _ h hstep => attempted_step h hstep) h hrun

/-! ## What is missing from the log

A manager whose writer had never thrown would satisfy the laws of the log. It is built from the
ledger, and what it has more than the real one are the entries of the calls that threw. -/

/-- `attempted` has an entry for every call of `writeAction`, and tells exactly when an IMSI has a
session. The log is without the entries of the calls that threw, and agrees with the statistics. -/
structure OnlyWritesLost (m : SessionManager) (attempted : List CdrEntry) : Prop where
  calls : attempted.length = m.cdrWriter.calls
  log : m.cdrWriter.entries = atCalls (fun n => !m.cdrWriter.throwsAt n) attempted
  alternates : ∀ imsi, (historyOf attempted imsi).IsChain (· ≠ ·)
  startsCreated : ∀ imsi, ∀ action ∈ (historyOf attempted imsi).head?,
    action = ICdrWriter.SESSION_CREATED
  active : ∀ imsi, m.hasSession imsi = true ↔
    (historyOf attempted imsi).getLast? = some ICdrWriter.SESSION_CREATED
  /-- The records of an IMSI balance with those that are missing. -/
  balance : ∀ imsi, m.recordsOf imsi ICdrWriter.SESSION_CREATED
      + (atCalls m.cdrWriter.throwsAt attempted).count ⟨imsi, ICdrWriter.SESSION_CREATED⟩
    = m.recordsOf imsi ICdrWriter.SESSION_DELETED
      + (atCalls m.cdrWriter.throwsAt attempted).count ⟨imsi, ICdrWriter.SESSION_DELETED⟩
      + if m.hasSession imsi = true then 1 else 0
  createdRecords : ∀ now, m.recorded ICdrWriter.SESSION_CREATED
    = (m.getStatistics now).createdSessions
  deletedRecords : ∀ now, m.recorded ICdrWriter.SESSION_DELETED
    = (m.getStatistics now).expiredSessions + (m.getStatistics now).terminateSessions
  rejectedRecords : ∀ now, m.recorded ICdrWriter.SESSION_REJECTED
    = (m.getStatistics now).rejectedSessions
  total : ∀ now, (m.getStatistics now).totalSessions
    = (m.getStatistics now).createdSessions + (m.getStatistics now).rejectedSessions

/-- The manager that would keep the ledger `l` had no write thrown. -/
def unfailing (m : SessionManager) (l : Ledger Imsi) : SessionManager :=
  { m with
    cdrWriter := ⟨l.log.map Ledger.entry, l.log.length, fun _ => false⟩
    shutdownRate := 1
    stats := ⟨m.sessions.size, l.created, l.rejected, l.expired, l.terminated, l.total, 0⟩ }

theorem Attempted.unfailing_keeps (h : m.Attempted l) : (m.unfailing l).Keeps l where
  reliable := fun _ => rfl
  rate := Int.one_pos
  active := h.active
  entries := rfl
  cached := rfl
  created := rfl
  rejected := rfl
  expired := rfl
  terminated := rfl
  total := rfl

/-- **Only what a throwing call was given is missing.** The laws of the ledger hold for all
calls. -/
theorem Attempted.onlyWritesLost (h : m.Attempted l) {es : List (Ledger.Event Imsi)}
    (hes : Run.exec Ledger.step .empty es = some l) :
    m.OnlyWritesLost (l.log.map Ledger.entry) := by
  -- the laws of the log are those of the manager in which nothing was lost
  have hkeeps := h.unfailing_keeps
  have hhistory := historyMatches_of_keeps hkeeps (Ledger.consistent_exec hes)
    (Ledger.balanced_exec hes)
  have hbalance := records_balance ⟨es, l, hes, hkeeps⟩
  refine ⟨?_, h.entries, hhistory.alternates, hhistory.startsCreated, hhistory.active,
    fun imsi => ?_, fun _ => h.created.symm, fun _ => h.deleted.symm, fun _ => h.rejected.symm,
    fun _ => h.total⟩
  · rw [List.length_map, h.calls]
  · -- what has been attempted is in the log or missing
    have hparts : ∀ action, (l.log.map Ledger.entry).count ⟨imsi, action⟩
        = m.recordsOf imsi action
          + (atCalls m.cdrWriter.throwsAt (l.log.map Ledger.entry)).count ⟨imsi, action⟩ := by
      intro action
      rw [recordsOf, h.entries]
      exact count_atCalls _ _ _
    have himsi : (l.log.map Ledger.entry).count ⟨imsi, ICdrWriter.SESSION_CREATED⟩
        = (l.log.map Ledger.entry).count ⟨imsi, ICdrWriter.SESSION_DELETED⟩
          + if m.hasSession imsi = true then 1 else 0 := hbalance imsi
    rw [← hparts, ← hparts]
    exact himsi

/-- Later calls come behind the ones there have been. -/
theorem onlyWritesLost_of_continued {es : List (Ledger.Event Imsi)}
    (hes : Run.exec Ledger.step .empty es = some l) (h : Continued l m) :
    ∃ more, m.OnlyWritesLost (l.log.map Ledger.entry ++ more) := by
  obtain ⟨es', l', hes', h'⟩ := h
  obtain ⟨more, hmore⟩ := Ledger.log_prefix hes'
  have hall := h'.onlyWritesLost (Run.exec_append_eq_some.mpr ⟨l, hes, hes'⟩)
  rw [← hmore, List.map_append] at hall
  exact ⟨_, hall⟩

end SessionManager
end Pgw
