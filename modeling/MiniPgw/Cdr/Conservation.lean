import Mathlib.Data.Multiset.Count
import Mathlib.Algebra.Order.Group.Multiset
import MiniPgw.Cdr.Interface
import MiniPgw.Cdr.Ownership
import MiniPgw.Cdr.FlushRun

/-!
# Where the CDR entries are

`inventory w` counts every entry that the writer still has: in `m_buffer`, in the local queue of a
running `flush()`, or as a row of the table. The conservation law (`step_inventory`) says what one
step does to it, whatever SQLite answers: a `writeAction` adds its entry, and `lost` names
everything that a step takes away. There are three such steps: the swap after a failed `BEGIN`
destroys what was written to `m_buffer` in the meantime, and a transaction that is rolled back
takes its rows with it.

With `INSERT` and `COMMIT` succeeding only the swap is left, and a run conserves every entry
exactly when every swap meets an empty buffer (`nothingLost_iff`).

## The architecture

* **`inventory`**, **`lost`**, **`written`** — the account: what the writer has, what a step takes
  away and what it brings in.
* **`count_moved`**, **`count_setPhase`**, **`count_insertRow`** — how the count of one entry
  changes when a step replaces the buffer, the connection or one phase.
* **`step_inventory`** — the law for one step, with a case for each action.
* **`Faultfree`**, **`faultfree_step`** — what the runs of the second part keep; there the swap is
  the only step that can lose anything (`lost_eq_zero_iff`).
* **`accounted_of_along`** — the law for a run, by induction; **`finalFlush_of_accounted`** says
  what that means for the destructor's last `flush()`.
* **`nothingLost_iff`** — both directions from these, step by step along the run.
-/

namespace Pgw
namespace DatabaseCdrWriter

variable {ε : Type} {w w' : DatabaseCdrWriter ε}

/-- The entries of the rows that the connection sees. -/
def tableEntries (w : DatabaseCdrWriter ε) : List ε :=
  w.db.rows.map Row.entry

/-- The entries in the local queues of the running flushes. -/
def localQueues (w : DatabaseCdrWriter ε) : Multiset ε :=
  ((w.phase .background).toFlush : Multiset ε) + ((w.phase .eventLoop).toFlush : Multiset ε)

/-- Every entry the writer has, wherever it is. -/
def inventory (w : DatabaseCdrWriter ε) : Multiset ε :=
  (w.buffer : Multiset ε) + w.localQueues + (w.tableEntries : Multiset ε)

/-- The entries of the rows inserted in the open transaction. -/
def uncommittedEntries (w : DatabaseCdrWriter ε) : List ε :=
  (w.db.transaction.getD []).map Row.entry

/-- The entry that an action hands to the writer. -/
def written : WriterAction ε → Multiset ε
  | .writeAction entry => {entry}
  | _ => 0

/-- The entries that a step makes disappear. -/
def lost (w : DatabaseCdrWriter ε) : WriterAction ε → Multiset ε
  | .writeAction entry => if w.db.isConnected then 0 else {entry}
  | .putBack f => if (w.phase f).toFlush = [] then 0 else (w.buffer : Multiset ε)
  | .rollback _ true => (w.uncommittedEntries : Multiset ε)
  | .commit _ .failedRolledBack => (w.uncommittedEntries : Multiset ε)
  | _ => 0

section Counting

variable [DecidableEq ε]

theorem count_inventory (x : ε) : w.inventory.count x = w.buffer.count x
    + ((w.phase .background).toFlush.count x + (w.phase .eventLoop).toFlush.count x)
    + w.tableEntries.count x := by
  simp only [inventory, localQueues, Multiset.count_add, Multiset.coe_count]

/-- A step that replaces the buffer, the connection and one flusher's phase conserves the entry `x`
up to `lost` and `gained` if these three places do. -/
theorem count_moved {x : ε} {buffer : List ε} {db : Sqlite ε} {f : Flusher} {p : Phase ε}
    {lost gained : Nat}
    (hplaces : buffer.count x + p.toFlush.count x + (db.rows.map Row.entry).count x + lost
      = w.buffer.count x + (w.phase f).toFlush.count x + w.tableEntries.count x + gained) :
    ({ w with buffer := buffer, db := db }.setPhase f p).inventory.count x + lost
      = w.inventory.count x + gained := by
  cases f with
  | background =>
    simp only [count_inventory, tableEntries, setPhase_buffer, setPhase_db, setPhase_phase,
      Function.update_self, ne_eq, reduceCtorEq, not_false_eq_true, Function.update_of_ne]
      at hplaces ⊢
    omega
  | eventLoop =>
    simp only [count_inventory, tableEntries, setPhase_buffer, setPhase_db, setPhase_phase,
      Function.update_self, ne_eq, reduceCtorEq, not_false_eq_true, Function.update_of_ne]
      at hplaces ⊢
    omega

/-- A step that only moves a flusher to another phase with the same queue moves no entry. -/
theorem count_setPhase {x : ε} {f : Flusher} {p : Phase ε}
    (hqueue : p.toFlush = (w.phase f).toFlush) :
    (w.setPhase f p).inventory.count x + 0 = w.inventory.count x + 0 := by
  have hmoved : ({ w with buffer := w.buffer, db := w.db }.setPhase f p).inventory.count x + 0
      = w.inventory.count x + 0 := count_moved (by rw [hqueue]; rfl)
  exact hmoved

end Counting

/-- The entries of the rows after an `INSERT`, in a transaction or outside one. -/
theorem count_insertRow [DecidableEq ε] (x : ε) (db : Sqlite ε) (entry : ε) :
    ((db.insertRow entry).rows.map Row.entry).count x
      = (db.rows.map Row.entry).count x + [entry].count x := by
  unfold Sqlite.insertRow
  cases h : db.transaction with
  | none => simp [Sqlite.rows, h]
  | some inserted => simp [Sqlite.rows, h]; omega

/-- **The conservation law.** A step takes away exactly what `lost` says and adds exactly what is
written. -/
theorem step_inventory {a : WriterAction ε} (hstep : Step w a w') :
    w'.inventory + w.lost a = w.inventory + written a := by
  classical
  refine Multiset.ext.mpr fun x => ?_
  rw [Multiset.count_add, Multiset.count_add]
  cases hstep with
  | writeAction entry hfree =>
    by_cases hconn : w.db.isConnected = true
    · simp only [writeAction, hconn, if_true, lost, written, count_inventory, tableEntries,
        List.count_append, Multiset.count_zero, ← Multiset.coe_singleton, Multiset.coe_count]
      omega
    · simp [writeAction, lost, written, hconn]
  | callBackground hidle _ _ => exact count_setPhase (by rw [hidle]; rfl)
  | callEventLoop hfree =>
    exact count_setPhase (by rw [(eventLoopFree_iff.mp hfree).1]; rfl)
  | getRecentRecords hfree =>
    simp only [getRecentRecords]
    split
    -- `getRecentRecords` enters its own flush: no record moves
    · have hidle := (eventLoopFree_iff.mp hfree).1
      have hmove : (setPhase { w with reading := true } .eventLoop .entered).inventory.count x + 0
          = ({ w with reading := true } : DatabaseCdrWriter ε).inventory.count x + 0 :=
        count_setPhase (by rw [hidle]; rfl)
      exact hmove
    · rfl
  | takeBuffer f hphase =>
    simp only [takeBuffer]
    split
    · exact count_setPhase (by rw [hphase]; rfl)
    · refine count_moved ?_
      simp [hphase, Phase.toFlush, tableEntries, lost, written]
  | beginOk f q hphase hconn hnone =>
    refine count_moved ?_
    simp [hphase, Phase.toFlush, tableEntries, Sqlite.rows, hnone, lost, written]
  | beginFailed f q hphase => exact count_setPhase (by rw [hphase]; rfl)
  | putBack f q hphase =>
    refine count_moved ?_
    -- the swap: the batch goes into `m_buffer`, what was there goes with the local queue
    by_cases hq : q = []
    · simp [hphase, Phase.toFlush, tableEntries, lost, written, hq]
    · simp [hphase, Phase.toFlush, tableEntries, lost, written, hq]; omega
  | insertDone f entry q hphase =>
    refine count_moved ?_
    rw [count_insertRow, hphase]
    simp [Phase.toFlush, tableEntries, lost, written, List.count_cons]; omega
  | insertFailed f entry q hphase => exact count_setPhase (by rw [hphase]; rfl)
  | rollbackOk f q inserted hphase hopen =>
    refine count_moved ?_
    simp [hphase, Phase.toFlush, tableEntries, uncommittedEntries, Sqlite.rows, hopen, lost,
      written]
    omega
  | rollbackFailed f q hphase => exact count_setPhase (by rw [hphase]; rfl)
  | giveBack f q hphase =>
    refine count_moved ?_
    simp [hphase, Phase.toFlush, tableEntries, lost, written]
  | commitOk f inserted hphase hopen =>
    refine count_moved ?_
    simp [hphase, Phase.toFlush, tableEntries, Sqlite.rows, hopen, lost, written]
  | commitFailedOpen f hphase => exact count_setPhase (by rw [hphase]; rfl)
  | commitFailedRolledBack f inserted hphase hopen =>
    refine count_moved ?_
    simp [hphase, Phase.toFlush, tableEntries, uncommittedEntries, Sqlite.rows, hopen, lost,
      written]
    omega
  | select _ _ => rfl
  | setStop _ => rfl
  | exitLoop _ _ => rfl
  | tick seconds => rfl

/-! ## Runs in which every `INSERT` and every `COMMIT` succeeds

A failing `INSERT` pushes back what is left and forgets what it has popped, and a failing `COMMIT`
may drop the whole batch, so both are shut out here. What can still take entries away is the swap
that gives a batch back. -/

/-- The action is not a failing `INSERT` or `COMMIT`. -/
def Faultless : WriterAction ε → Prop
  | .insert _ done => done = true
  | .commit _ outcome => outcome = .ok
  | _ => True

/-- A batch that `flush()` gives back after a failed `BEGIN` meets an empty `m_buffer`. -/
def MeetsEmptyBuffer (w : DatabaseCdrWriter ε) (a : WriterAction ε) : Prop :=
  ∀ f, a = .putBack f → w.buffer = []

/-- The states of such runs: no failure is being handled, and a transaction is open only while a
flusher owns it. -/
structure Faultfree (w : DatabaseCdrWriter ε) : Prop extends w.Owned where
  noFailure : ∀ f q, w.phase f ≠ .insertFailed q ∧ w.phase f ≠ .rolledBack q
  owner : w.db.transaction ≠ none → ∃ f, (w.phase f).owns = true
  joined : w.loopExited = true → w.phase .background = .idle

theorem faultfree_constructed (committed : List (Row ε)) (now : Nat) :
    (constructed committed now).Faultfree where
  toOwned := owned_constructed committed now
  noFailure := fun _ _ => by simp [constructed]
  owner := fun h => absurd rfl h
  joined := fun _ => rfl

/-- One flusher goes to phase `p`. A transaction that is open afterwards must be its own, or have
been another flusher's before. -/
theorem Faultfree.move (h : w.Faultfree) (hown : w'.Owned) {f : Flusher} {p : Phase ε}
    (hphase : w'.phase = Function.update w.phase f p) (hloop : w'.loopExited = w.loopExited)
    (hp : ∀ q, p ≠ .insertFailed q ∧ p ≠ .rolledBack q)
    (hopen : w'.db.transaction ≠ none →
      p.owns = true ∨ w.db.transaction ≠ none ∧ (w.phase f).owns = false)
    (hjoin : f = .background → w.loopExited = false) : w'.Faultfree where
  toOwned := hown
  noFailure := fun g q => by
    by_cases hgf : g = f
    · subst hgf; simpa [hphase] using hp q
    · simpa [hphase, hgf] using h.noFailure g q
  owner := fun hne => by
    rcases hopen hne with hf | ⟨hwas, hf⟩
    · exact ⟨f, by simpa [hphase] using hf⟩
    · obtain ⟨g, hg⟩ := h.owner hwas
      -- the owner is another thread, and its phase is as before
      have hgf : g ≠ f := by rintro rfl; simp [hf] at hg
      exact ⟨g, by simpa [hphase, hgf] using hg⟩
  joined := fun hexit => by
    have hne : Flusher.background ≠ f := by
      rintro rfl
      simp [hloop, hjoin rfl] at hexit
    simpa [hphase, hne] using h.joined (hloop ▸ hexit)

/-- The background flusher is at work, so its loop has not been left. -/
theorem Faultfree.running (h : w.Faultfree) {f : Flusher} {p : Phase ε} (hphase : w.phase f = p)
    (hp : p ≠ .idle) : f = .background → w.loopExited = false := by
  rintro rfl
  by_contra hexit
  exact hp (hphase.symm.trans (h.joined (by simpa using hexit)))

/-- **Faultless steps keep `Faultfree`.** -/
theorem faultfree_step (h : w.Faultfree) {a : WriterAction ε} (ha : Faultless a)
    (hstep : Step w a w') : w'.Faultfree := by
  have hown : w'.Owned := owned_step h.toOwned hstep
  cases hstep with
  | writeAction entry hfree =>
    have hphase : (w.writeAction entry).phase = w.phase := by
      simp only [writeAction]; split <;> rfl
    have hdb : (w.writeAction entry).db = w.db := by simp only [writeAction]; split <;> rfl
    have hloop : (w.writeAction entry).loopExited = w.loopExited := by
      simp only [writeAction]; split <;> rfl
    exact ⟨hown, by rw [hphase]; exact h.noFailure, by rw [hphase, hdb]; exact h.owner,
      by rw [hphase, hloop]; exact h.joined⟩
  | callBackground hidle hstop hloop =>
    exact h.move hown rfl rfl (by simp) (fun hne => .inr ⟨hne, by simp [hidle, Phase.owns]⟩)
      (fun _ => hloop)
  | callEventLoop hfree =>
    have hidle := (eventLoopFree_iff.mp hfree).1
    exact h.move hown rfl rfl (by simp) (fun hne => .inr ⟨hne, by simp [hidle, Phase.owns]⟩)
      (fun h => by cases h)
  | getRecentRecords hfree =>
    have hidle := (eventLoopFree_iff.mp hfree).1
    simp only [getRecentRecords, h.connected, if_true] at hown ⊢
    exact h.move hown rfl rfl (by simp) (fun hne => .inr ⟨hne, by simp [hidle, Phase.owns]⟩)
      (fun h => by cases h)
  | takeBuffer f hphase =>
    have hrun := h.running hphase (by simp)
    have hf : (w.phase f).owns = false := by simp [hphase, Phase.owns]
    simp only [takeBuffer] at hown ⊢
    split at hown
    · next hb =>
      simp only [hb, if_true]
      exact h.move hown rfl rfl (by simp) (fun hne => .inr ⟨hne, hf⟩) hrun
    · next hb =>
      simp only [hb, if_false]
      exact h.move hown rfl rfl (by simp) (fun hne => .inr ⟨hne, hf⟩) hrun
  | beginOk f q hphase hconn hnone =>
    exact h.move hown rfl rfl (by simp) (fun _ => .inl rfl) (h.running hphase (by simp))
  | beginFailed f q hphase =>
    exact h.move hown rfl rfl (by simp) (fun hne => .inr ⟨hne, by simp [hphase, Phase.owns]⟩)
      (h.running hphase (by simp))
  | putBack f q hphase =>
    exact h.move hown rfl rfl (by simp) (fun hne => .inr ⟨hne, by simp [hphase, Phase.owns]⟩)
      (h.running hphase (by simp))
  | insertDone f entry q hphase =>
    exact h.move hown rfl rfl (by simp) (fun _ => .inl rfl) (h.running hphase (by simp))
  | insertFailed f entry q hphase => simp [Faultless] at ha
  -- no `INSERT` has failed, so there is nothing to roll back or to give back
  | rollbackOk f q inserted hphase hopen => exact absurd hphase (h.noFailure f q).1
  | rollbackFailed f q hphase => exact absurd hphase (h.noFailure f q).1
  | giveBack f q hphase => exact absurd hphase (h.noFailure f q).2
  | commitOk f inserted hphase hopen =>
    exact h.move hown rfl rfl (by simp) (fun hne => absurd rfl hne) (h.running hphase (by simp))
  | commitFailedOpen f hphase => simp [Faultless] at ha
  | commitFailedRolledBack f inserted hphase hopen => simp [Faultless] at ha
  | select _ _ => exact ⟨hown, h.noFailure, h.owner, h.joined⟩
  | setStop _ => exact ⟨hown, h.noFailure, h.owner, h.joined⟩
  | exitLoop hidle _ => exact ⟨hown, h.noFailure, h.owner, fun _ => hidle⟩
  | tick seconds => exact ⟨hown, h.noFailure, h.owner, h.joined⟩

/-- In such a run the swap is the only step that can lose anything. -/
theorem lost_eq_zero_iff (h : w.Faultfree) {a : WriterAction ε} (ha : Faultless a)
    (hstep : Step w a w') : w.lost a = 0 ↔ w.MeetsEmptyBuffer a := by
  cases hstep with
  | writeAction entry hfree => simp [lost, h.connected, MeetsEmptyBuffer]
  | putBack f q hphase =>
    have hq : q ≠ [] := by
      simpa [hphase, Phase.toFlush] using h.batch f (by simp [hphase, Phase.waits])
    simp [lost, hphase, Phase.toFlush, hq, MeetsEmptyBuffer]
  | rollbackOk f q inserted hphase hopen => exact absurd hphase (h.noFailure f q).1
  | commitFailedRolledBack f inserted hphase hopen => simp [Faultless] at ha
  | _ => simp [lost, MeetsEmptyBuffer]

/-! ## Whole runs

The conservation law of one step, summed up over a run: what was in the table at first and what was
written is in exactly one place, as long as no swap meets a buffer that has been written to
meanwhile. -/

/-- The entries handed to `writeAction` in a run, in order. -/
def writes (as : List (WriterAction ε)) : List ε :=
  as.flatMap fun
    | .writeAction entry => [entry]
    | _ => []

@[simp] theorem writes_append (as bs : List (WriterAction ε)) :
    writes (as ++ bs) = writes as ++ writes bs :=
  List.flatMap_append

theorem sum_written (as : List (WriterAction ε)) :
    (as.map written).sum = (writes as : Multiset ε) := by
  induction as with
  | nil => rfl
  | cons a as ih =>
    rw [List.map_cons, List.sum_cons, ih]
    cases a <;> simp [written, writes]

/-- Every entry of the table before the run or written in it is in exactly one place: `m_buffer`,
the local queue of a running flush, or the table. -/
def Accounted (prior : List (Row ε)) (as : List (WriterAction ε)) (w : DatabaseCdrWriter ε) :
    Prop :=
  w.inventory = (prior.map Row.entry : Multiset ε) + (writes as : Multiset ε)

/-- Once the background thread is joined, a final `flush()` commits every written entry. -/
def FinalFlushCommitsAll (prior : List (Row ε)) (as : List (WriterAction ε))
    (w : DatabaseCdrWriter ε) : Prop :=
  w.loopExited = true → w.eventLoopFree = true →
    ∃ w', Run.exec step w (.callFlush .eventLoop :: flushScript .eventLoop w.buffer.length)
        = some w' ∧ w'.db.transaction = none ∧
      (w'.db.committed.map Row.entry : Multiset ε)
        = (prior.map Row.entry : Multiset ε) + (writes as : Multiset ε)

/-- No record is lost in any state that the run `as` reaches. -/
def NothingLost (prior : List (Row ε)) (now : Nat) (as : List (WriterAction ε)) : Prop :=
  ∀ pre w, pre <+: as → Run.exec step (constructed prior now) pre = some w →
    Accounted prior pre w ∧ FinalFlushCommitsAll prior pre w

theorem faultfree_reachable {prior : List (Row ε)} {now : Nat} {as : List (WriterAction ε)}
    (hok : ∀ a ∈ as, Faultless a) (hrun : Run.exec step (constructed prior now) as = some w) :
    w.Faultfree :=
  Run.exec_invariant_along (fun _ _ _ h ha hs => faultfree_step h ha (step_cases hs))
    (faultfree_constructed prior now) (Run.along_of_forall (fun a ha _ => hok a ha) _) hrun

/-- The run rule of the conservation law: what every step conserves, the run conserves. -/
theorem accounted_of_along {prior : List (Row ε)} {now : Nat} {as : List (WriterAction ε)}
    (hok : ∀ a ∈ as, Faultless a)
    (hswap : Run.Along step MeetsEmptyBuffer (constructed prior now) as)
    (hrun : Run.exec step (constructed prior now) as = some w) : Accounted prior as w := by
  have hal := (Run.along_of_forall (fun a ha _ => hok a ha) (constructed prior now)).and hswap
  have hsum := Run.exec_sum (fun _ _ _ h ha hs => faultfree_step h ha.1 (step_cases hs))
    (fun s a t h ha hs => by
      have hlost := (lost_eq_zero_iff h ha.1 (step_cases hs)).mpr ha.2
      have hstep := step_inventory (step_cases hs)
      rw [hlost, add_zero] at hstep
      exact hstep)
    (faultfree_constructed prior now) hal hrun
  rw [Accounted, hsum, sum_written]
  simp [inventory, localQueues, tableEntries, constructed, Phase.toFlush, Sqlite.rows]

/-- When every entry is accounted for, the destructor's final `flush()` commits all of them: with
the background thread joined no queue is left, and the buffer goes to the table as a whole. -/
theorem finalFlush_of_accounted {prior : List (Row ε)} {as : List (WriterAction ε)}
    (h : w.Faultfree) (hacc : Accounted prior as w) : FinalFlushCommitsAll prior as w := by
  intro hexit hfree
  have hidle : ∀ f, w.phase f = .idle := by
    intro f
    cases f with
    | background => exact h.joined hexit
    | eventLoop => exact (eventLoopFree_iff.mp hfree).1
  have hnone : w.db.transaction = none := by
    by_contra hopen
    obtain ⟨f, hf⟩ := h.owner hopen
    simp [hidle f, Phase.owns] at hf
  have hcall : step w (.callFlush .eventLoop) = some (w.setPhase .eventLoop .entered) := by
    simp [step, hfree]
  have hflush := exec_flushScript (w := w.setPhase .eventLoop .entered) (f := .eventLoop)
    (by simp) h.connected hnone
  refine ⟨_, Run.exec_cons_eq_some.mpr ⟨_, hcall, hflush⟩, hnone, ?_⟩
  rw [← hacc]
  simp [inventory, localQueues, tableEntries, hidle, Phase.toFlush, Sqlite.rows, hnone]
  exact List.perm_append_comm

/-- A state that is accounted for before and after a step has lost nothing in it. -/
theorem meetsEmptyBuffer_of_accounted {prior : List (Row ε)} {as : List (WriterAction ε)}
    {a : WriterAction ε} (h : w.Faultfree) (ha : Faultless a) (hstep : Step w a w')
    (hbefore : Accounted prior as w) (hafter : Accounted prior (as ++ [a]) w') :
    w.MeetsEmptyBuffer a := by
  have hwrites : (writes (as ++ [a]) : Multiset ε) = (writes as : Multiset ε) + written a := by
    rw [← sum_written, ← sum_written]
    simp
  have hlaw := step_inventory hstep
  rw [hafter, hbefore, hwrites, ← add_assoc, add_eq_left] at hlaw
  exact (lost_eq_zero_iff h ha hstep).mp hlaw

/-- **No record is lost exactly when every swap meets an empty buffer.** For every run in which
`INSERT` and `COMMIT` succeed, any interleaving of the writer and the two flushers: all reached
states account for every record, and a final flush commits them all, if and only if `m_buffer` is
empty whenever `flush()` gives a batch back after a failed `BEGIN`. -/
theorem nothingLost_iff {prior : List (Row ε)} {now : Nat} {as : List (WriterAction ε)}
    {w : DatabaseCdrWriter ε} (hok : ∀ a ∈ as, Faultless a)
    (hrun : Run.exec step (constructed prior now) as = some w) :
    NothingLost prior now as ↔ Run.Along step MeetsEmptyBuffer (constructed prior now) as := by
  constructor
  · intro hkept
    refine Run.along_of_steps hrun fun pre a post u v has hu hstep _ => ?_
    have hpre : pre <+: as := ⟨a :: post, has.symm⟩
    have hnext : pre ++ [a] <+: as := ⟨post, by rw [has]; simp⟩
    have hoku := faultfree_reachable (fun b hb => hok b (hpre.subset hb)) hu
    exact meetsEmptyBuffer_of_accounted hoku (hok a (by rw [has]; simp)) (step_cases hstep)
      (hkept pre u hpre hu).1 (hkept (pre ++ [a]) v hnext (Run.exec_concat hu hstep)).1
  · intro hswap pre u hpre hu
    have hokpre : ∀ a ∈ pre, Faultless a := fun a ha => hok a (hpre.subset ha)
    have hacc := accounted_of_along hokpre (hswap.front hpre) hu
    exact ⟨hacc, finalFlush_of_accounted (faultfree_reachable hokpre hu) hacc⟩

/-- Three records of one subscriber. -/
def created : CdrEntry := ⟨ascii "001010123456789", ICdrWriter.SESSION_CREATED⟩
def deleted : CdrEntry := ⟨ascii "001010123456789", ICdrWriter.SESSION_DELETED⟩
def rejected : CdrEntry := ⟨ascii "001010123456789", ICdrWriter.SESSION_REJECTED⟩

/-- A run whose first flush finds the database busy and gives its batch back to an empty buffer. -/
def busyRun : List (WriterAction CdrEntry) :=
  [.writeAction created, .callFlush .background, .takeBuffer .background,
    .begin .background false, .putBack .background, .callFlush .background,
    .takeBuffer .background, .begin .background true, .insert .background true,
    .commit .background .ok]

theorem nothingLost_busyRun : NothingLost [] 0 busyRun :=
  (nothingLost_iff (by simp [busyRun, Faultless]) rfl).mpr (by
    simp [busyRun, Run.Along, MeetsEmptyBuffer, step, eventLoopFree, Phase.isIdle, constructed,
      writeAction, takeBuffer, putBack])

/-- The background flusher has taken `created` when the event loop flushes `deleted` in
`getRecentRecords`; its own `BEGIN` fails inside that transaction. Before it gives `created` back,
the event loop writes `rejected`. -/
def overlappingRun : List (WriterAction CdrEntry) :=
  [.writeAction created, .callFlush .background, .takeBuffer .background,
    .writeAction deleted, .getRecentRecords, .takeBuffer .eventLoop, .begin .eventLoop true,
    .begin .background false, .insert .eventLoop true, .commit .eventLoop .ok, .select,
    .writeAction rejected, .putBack .background]

/-- No SQLite call but the nested `BEGIN` fails in `overlappingRun`, and `rejected` is lost. -/
theorem overlappingRun_loses_record :
    (∃ w, Run.exec step (constructed [] 0) overlappingRun = some w ∧
      w.buffer = [created] ∧ w.tableEntries = [deleted] ∧ w.localQueues = 0) ∧
    (∀ a ∈ overlappingRun, Faultless a) ∧ ¬ NothingLost [] 0 overlappingRun := by
  refine ⟨⟨_, rfl, rfl, rfl, rfl⟩, by simp [overlappingRun, Faultless], fun hkept => ?_⟩
  have hacc := (hkept overlappingRun _ (List.prefix_refl _) rfl).1
  have hcard := congrArg Multiset.card hacc
  exact absurd hcard (by decide)

end DatabaseCdrWriter
end Pgw
