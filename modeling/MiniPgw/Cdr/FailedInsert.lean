import MiniPgw.Lib.Words
import MiniPgw.Cdr.Conservation

/-!
# A `flush()` whose `INSERT` fails

`flush()` pops every entry once its `INSERT` is done. When the insert at position `k` fails, the
`ROLLBACK` discards the `k` rows inserted so far and the remaining entries are pushed to the back
of `m_buffer`, behind what was written in the meantime. So a batch `b` and the entries `w` written
while the flush runs leave `w ++ b.drop k` (`exec_failedInsert`), and the flush is undone only if
nothing was popped and the order does not matter (`undone_iff`).

## The architecture

* **`Standing`** — what is known of the writer at a moment of the flush; `Standing.quiet` carries
  it over any steps outside of `flush()`, in which the buffer grows by what is written.
* **`exec_takeBegin`**, **`Standing.inserts`**, **`Standing.insertFails`** — the three parts of
  the failing flush, each with other steps in between; the middle one is an induction on `k`.
* **`exec_failedInsert`** — the parts put together.
* **`undone_iff`** — compares the buffer that is left with the one an undone flush would leave.
-/

namespace Pgw

/-- The steps of a `flush()` and the calls of one. -/
def WriterAction.ofFlush {ε : Type} : WriterAction ε → Bool
  | .callFlush _ => true
  | .getRecentRecords => true
  | .takeBuffer _ => true
  | .begin _ _ => true
  | .putBack _ => true
  | .insert _ _ => true
  | .rollback _ _ => true
  | .giveBack _ => true
  | .commit _ _ => true
  | _ => false

namespace DatabaseCdrWriter

variable {ε : Type} {w w' : DatabaseCdrWriter ε} {f : Flusher} {p : Phase ε} {isOpen : Bool}
  {committed : List (Row ε)} {buffer : List ε}

/-- Thread `f` stands at phase `p` of its flush; whether a transaction is open, the committed rows
and `m_buffer` are known. -/
structure Standing (w : DatabaseCdrWriter ε) (f : Flusher) (p : Phase ε) (isOpen : Bool)
    (committed : List (Row ε)) (buffer : List ε) : Prop where
  phase : w.phase f = p
  connected : w.db.isConnected = true
  transaction : w.db.transaction.isSome = isOpen
  committed : w.db.committed = committed
  buffer : w.buffer = buffer

/-- While no flush takes a step, the buffer grows by what is written and nothing else changes. -/
theorem Standing.quiet_step (h : w.Standing f p isOpen committed buffer) {a : WriterAction ε}
    (ha : a.ofFlush = false) (hstep : Step w a w') :
    w'.Standing f p isOpen committed (buffer ++ writes [a]) := by
  cases hstep with
  | writeAction entry _ =>
    simp only [writeAction, h.connected, if_true]
    exact ⟨h.phase, h.connected, h.transaction, h.committed, by simp [writes, h.buffer]⟩
  | select _ _ =>
    exact ⟨h.phase, h.connected, h.transaction, h.committed, by simp [writes, h.buffer]⟩
  | setStop _ =>
    exact ⟨h.phase, h.connected, h.transaction, h.committed, by simp [writes, h.buffer]⟩
  | exitLoop _ _ =>
    exact ⟨h.phase, h.connected, h.transaction, h.committed, by simp [writes, h.buffer]⟩
  | tick seconds =>
    exact ⟨h.phase, h.connected, h.transaction, h.committed, by simp [writes, h.buffer]⟩
  | _ => cases ha

theorem Standing.quiet (h : w.Standing f p isOpen committed buffer) {as : List (WriterAction ε)}
    (hquiet : ∀ a ∈ as, a.ofFlush = false) (hrun : Run.exec step w as = some w') :
    w'.Standing f p isOpen committed (buffer ++ writes as) := by
  induction as generalizing w buffer with
  | nil =>
    cases hrun
    simpa [writes] using h
  | cons a as ih =>
    obtain ⟨u, hu, hrest⟩ := Run.exec_cons_eq_some.mp hrun
    have hnext := h.quiet_step (hquiet a (by simp)) (step_cases hu)
    have hlast := ih hnext (fun b hb => hquiet b (by simp [hb])) hrest
    rw [List.append_assoc, ← writes_append] at hlast
    exact hlast

/-- No step closes the connection. -/
theorem step_isConnected {a : WriterAction ε} (hstep : Step w a w') :
    w'.db.isConnected = w.db.isConnected := by
  cases hstep with
  | writeAction entry _ => simp only [writeAction]; split <;> rfl
  | getRecentRecords _ => simp only [getRecentRecords]; split <;> rfl
  | takeBuffer f _ => simp only [takeBuffer]; split <;> rfl
  | insertDone f entry q _ => simp only [afterCall_db, Sqlite.insertRow]; split <;> rfl
  | _ => rfl

theorem exec_isConnected {as : List (WriterAction ε)} (hrun : Run.exec step w as = some w') :
    w'.db.isConnected = w.db.isConnected := by
  have hinv : ∀ u (a : WriterAction ε) v, u.db.isConnected = w.db.isConnected →
      step u a = some v → v.db.isConnected = w.db.isConnected :=
    fun u a v hu hs => (step_isConnected (step_cases hs)).trans hu
  exact Run.exec_invariant hinv rfl hrun

/-! ## The failing flush among other steps

The batch is the failing flush's own until it is given back. The steps of the other thread in
between can only add to the buffer, since a flush of theirs would find the transaction open. -/

/-- What `f` does in a `flush()` from its `BEGIN` to its `ROLLBACK`, when the `INSERT` at position
`k` of the batch fails. -/
def failingInserts (f : Flusher) (k : Nat) : List (WriterAction ε) :=
  .begin f true :: (List.replicate k (.insert f true) ++ [.insert f false, .rollback f true])

/-- The `k` inserts that succeed, with other steps in between. Induction on `k`. -/
theorem Standing.inserts {k : Nat} {tail : List (WriterAction ε)} :
    ∀ {w : DatabaseCdrWriter ε} {q buffer : List ε} {as : List (WriterAction ε)},
      w.Standing f (.inserting q) true committed buffer →
      as.filter WriterAction.ofFlush = List.replicate k (.insert f true) ++ tail →
      Run.exec step w as = some w' →
      ∃ before after v, as = before ++ after ∧ after.filter WriterAction.ofFlush = tail ∧
        k ≤ q.length ∧ Run.exec step v after = some w' ∧
        v.Standing f (.inserting (q.drop k)) true committed (buffer ++ writes before) := by
  induction k with
  | zero =>
    intro w q buffer as h hscript hrun
    exact ⟨[], as, w, rfl, hscript, Nat.zero_le _, hrun, by simpa [writes] using h⟩
  | succ k ih =>
    intro w q buffer as h hscript hrun
    rw [List.replicate_succ, List.cons_append] at hscript
    obtain ⟨others, rest, u, v, rfl, hquiet, hu, hv, hrest, hfilter⟩ :=
      Run.exec_filter_cons hscript hrun
    have hstand := h.quiet hquiet hu
    cases step_cases hv with
    | insertDone _ entry q' hphase =>
      obtain rfl : q = entry :: q' := by simpa [hstand.phase] using hphase
      obtain ⟨inserted, hopen⟩ := Option.isSome_iff_exists.mp hstand.transaction
      -- the row goes into the open transaction, and the queue is one entry shorter
      have hnext : (u.afterCall f (u.db.insertRow entry) (.inserting q')).Standing f
          (.inserting q') true committed (buffer ++ writes others) := by
        refine ⟨by simp, ?_, ?_, ?_, hstand.buffer⟩
        · simp [Sqlite.insertRow, hopen, hstand.connected]
        · simp [Sqlite.insertRow, hopen]
        · simp [Sqlite.insertRow, hopen, hstand.committed]
      obtain ⟨before, after, z, rfl, hafter, hlen, hz, hlast⟩ := ih hnext hfilter hrest
      refine ⟨others ++ .insert f true :: before, after, z, by simp, hafter, by simp [hlen], hz, ?_⟩
      have hw : writes (others ++ .insert f true :: before) = writes others ++ writes before := by
        simp [writes]
      rw [hw, ← List.append_assoc]
      simpa using hlast

/-- Taking the buffer and a successful `BEGIN`: the batch was not empty, no transaction was open,
and the inserts begin with the whole batch. -/
theorem exec_takeBegin {during : List (WriterAction ε)} {tail : List (WriterAction ε)}
    (hscript : during.filter WriterAction.ofFlush = .begin f true :: tail)
    (hrun : Run.exec step w (.takeBuffer f :: during) = some w') :
    w.db.transaction = none ∧
      ∃ before after v, during = before ++ after ∧ after.filter WriterAction.ofFlush = tail ∧
        Run.exec step v after = some w' ∧
        v.Standing f (.inserting w.buffer) true w.db.committed (writes before) := by
  obtain ⟨w₁, htake, hduring⟩ := Run.exec_cons_eq_some.mp hrun
  obtain ⟨others, rest, u, v, rfl, hquiet, hu, hbegin, hrest, hfilter⟩ :=
    Run.exec_filter_cons hscript hduring
  cases step_cases hbegin with
  | beginOk _ q hq hconn hnone =>
    have hconn₁ : w₁.db.isConnected = true := (exec_isConnected hu).symm.trans hconn
    cases step_cases htake with
    | takeBuffer _ hphase =>
      by_cases hb : w.buffer = []
      · -- with an empty buffer `flush()` has returned: there is no `BEGIN`
        have hidle : (w.takeBuffer f).Standing f .idle (w.takeBuffer f).db.transaction.isSome
            (w.takeBuffer f).db.committed (w.takeBuffer f).buffer :=
          ⟨by simp [takeBuffer, hb], hconn₁, rfl, rfl, rfl⟩
        have hstill := (hidle.quiet hquiet hu).phase
        simp [hq] at hstill
      -- the batch is the whole buffer, and `BEGIN` needs a closed transaction
      · have htaken : (w.takeBuffer f).Standing f (.taken w.buffer) w.db.transaction.isSome
            w.db.committed [] := by
          refine ⟨?_, hconn₁, ?_, ?_, ?_⟩ <;> simp [takeBuffer, hb]
        have hstand := htaken.quiet hquiet hu
        have hclosed : w.db.transaction = none := by
          have hsame := hstand.transaction
          rw [hnone] at hsame
          simpa using hsame.symm
        obtain rfl : w.buffer = q := by simpa [hstand.phase] using hq
        refine ⟨hclosed, others ++ [.begin f true], rest, _, by simp, hfilter, hrest, ?_⟩
        have hw : writes (others ++ [.begin f true]) = writes others := by simp [writes]
        rw [hw]
        exact ⟨by simp, hconn, rfl, hstand.committed, by simpa using hstand.buffer⟩

/-- The failing `INSERT` and the `ROLLBACK`: the queue is the same, the transaction is closed. -/
theorem Standing.insertFails {q : List ε} {as : List (WriterAction ε)}
    (h : w.Standing f (.inserting q) true committed buffer)
    (hscript : as.filter WriterAction.ofFlush = [.insert f false, .rollback f true])
    (hrun : Run.exec step w as = some w') :
    q ≠ [] ∧ w'.Standing f (.rolledBack q) false committed (buffer ++ writes as) := by
  -- the failed insert, and before it only steps of the others
  obtain ⟨as₁, rest, u₁, v₁, rfl, hquiet₁, hu₁, hinsert, hrest, hscript'⟩ :=
    Run.exec_filter_cons hscript hrun
  -- the rollback, and around it only steps of the others
  obtain ⟨as₂, as₃, u₂, v₂, rfl, hquiet₂, hu₂, hrollback, hlast, hnil⟩ :=
    Run.exec_filter_cons hscript' hrest
  have hquiet₃ : ∀ a ∈ as₃, a.ofFlush = false := by simpa using hnil
  have h₁ := h.quiet hquiet₁ hu₁
  cases step_cases hinsert with
  | insertFailed _ entry q' hphase =>
    obtain rfl : q = entry :: q' := by simpa [h₁.phase] using hphase
    have hfailed : (u₁.setPhase f (.insertFailed (entry :: q'))).Standing f
        (.insertFailed (entry :: q')) true committed (buffer ++ writes as₁) :=
      ⟨by simp, h₁.connected, h₁.transaction, h₁.committed, h₁.buffer⟩
    have h₂ := hfailed.quiet hquiet₂ hu₂
    cases step_cases hrollback with
    | rollbackOk _ q'' inserted hphase' hopen =>
      obtain rfl : entry :: q' = q'' := by simpa [h₂.phase] using hphase'
      have hrolled : (u₂.afterCall f { u₂.db with transaction := none }
          (.rolledBack (entry :: q'))).Standing f (.rolledBack (entry :: q')) false committed
          (buffer ++ writes as₁ ++ writes as₂) :=
        ⟨by simp, h₂.connected, rfl, h₂.committed, h₂.buffer⟩
      refine ⟨by simp, ?_⟩
      have hw : writes (as₁ ++ .insert f false :: (as₂ ++ .rollback f true :: as₃))
          = writes as₁ ++ writes as₂ ++ writes as₃ := by
        simp [writes]
      rw [hw, ← List.append_assoc, ← List.append_assoc]
      exact hrolled.quiet hquiet₃ hlast

/-- **Where a failed `INSERT` leaves the writer.** The batch `w.buffer` is taken, the `INSERT` at
position `k` fails and the rest is given back: the first `k` entries are gone, and the rest stands
behind what was written while the flush ran. -/
theorem exec_failedInsert {k : Nat} {during : List (WriterAction ε)}
    (hscript : during.filter WriterAction.ofFlush = failingInserts f k)
    (hrun : Run.exec step w (.takeBuffer f :: (during ++ [.giveBack f])) = some w') :
    k < w.buffer.length ∧ w.db.transaction = none ∧
      w'.Standing f .idle false w.db.committed (writes during ++ w.buffer.drop k) := by
  rw [← List.cons_append] at hrun
  obtain ⟨v, hflush, hlast⟩ := Run.exec_append_eq_some.mp hrun
  obtain ⟨hclosed, before, after, u, rfl, hscript', hafter, hstand⟩ := exec_takeBegin hscript hflush
  obtain ⟨before', after', u', rfl, hscript'', hlen, hafter', hstand'⟩ :=
    hstand.inserts hscript' hafter
  obtain ⟨hdrop, hrolled⟩ := hstand'.insertFails hscript'' hafter'
  -- an insert can only fail while the queue is not empty
  have hk : k < w.buffer.length := by
    by_contra hge
    exact hdrop (List.drop_eq_nil_of_le (Nat.le_of_not_lt hge))
  obtain ⟨v', hgive, hnil⟩ := Run.exec_cons_eq_some.mp hlast
  cases hnil
  cases step_cases hgive with
  | giveBack _ q hphase =>
    obtain rfl : w.buffer.drop k = q := by simpa [hrolled.phase] using hphase
    refine ⟨hk, hclosed, by simp [giveBack], hrolled.connected, hrolled.transaction,
      hrolled.committed, ?_⟩
    simp [giveBack, hrolled.buffer]

/-! ## When the flush is undone

What is put back is the rest of the queue, behind what was written in the meantime; the entries that
were popped before the failing one are in the rolled-back transaction and nowhere else. -/

/-- A flush that took its batch in state `before` has been undone in state `after`, with the
entries `w` written in between: the table is as it was, `m_buffer` is the batch followed by `w`,
and a `flush()` called next in which nothing fails commits exactly these. -/
structure Undone (before after : DatabaseCdrWriter ε) (w : List ε) : Prop where
  table : after.db.rows = before.db.rows
  buffer : after.buffer = before.buffer ++ w
  nextFlush : ∀ g called, step after (.callFlush g) = some called →
    ∃ flushed, Run.exec step called (flushScript g after.buffer.length) = some flushed ∧
      flushed.db.transaction = none ∧
      flushed.db.committed = before.db.rows ++ rowsOf after.db (before.buffer ++ w)

/-- With the transaction closed, a flush that finds the batch in `m_buffer` commits it. -/
theorem undone_of_buffer {entries : List ε} (hclosed : w.db.transaction = none)
    (h : w'.Standing f .idle false w.db.committed (w.buffer ++ entries)) :
    Undone w w' entries := by
  have hnone : w'.db.transaction = none := by simpa using h.transaction
  refine ⟨by simp [Sqlite.rows, hclosed, hnone, h.committed], h.buffer, fun g called hcall => ?_⟩
  have hentered : called = w'.setPhase g .entered := by
    cases step_cases hcall <;> rfl
  subst hentered
  refine ⟨_, exec_flushScript (by simp) h.connected hnone, hnone, ?_⟩
  simp [Sqlite.rows, hclosed, h.committed, h.buffer]

/-- **When a failed `INSERT` undoes the flush.** For every batch, every failure position `k` and
everything written while the flush runs: the flush is undone exactly when its first `INSERT` is
the failing one and the batch and the new entries are repetitions of one list, so that their order
does not matter (in particular, when nothing was written). -/
theorem undone_iff {k : Nat} {during : List (WriterAction ε)}
    (hscript : during.filter WriterAction.ofFlush = failingInserts f k)
    (hrun : Run.exec step w (.takeBuffer f :: (during ++ [.giveBack f])) = some w') :
    Undone w w' (writes during) ↔
      k = 0 ∧ ∃ z i j, w.buffer = Words.repeated i z ∧ writes during = Words.repeated j z := by
  obtain ⟨hk, hclosed, hstand⟩ := exec_failedInsert hscript hrun
  rw [← Words.commute_iff_repetitions]
  constructor
  · intro hundone
    have hbuffer := hstand.buffer.symm.trans hundone.buffer
    -- an entry already popped is missing from the buffer, so none has been
    have hlen := congrArg List.length hbuffer
    simp only [List.length_append, List.length_drop] at hlen
    have hk0 : k = 0 := by omega
    subst hk0
    exact ⟨rfl, by simpa using hbuffer.symm⟩
  · rintro ⟨rfl, hcomm⟩
    have hbuffer : w'.Standing f .idle false w.db.committed (w.buffer ++ writes during) := by
      rw [hcomm]
      simpa using hstand
    exact undone_of_buffer hclosed hbuffer

/-- Two records are in the buffer and the background thread has called `flush()`. -/
def flushingTwo : DatabaseCdrWriter CdrEntry :=
  { constructed [] 0 with buffer := [created, deleted] }.setPhase .background .entered

/-- The first `INSERT` fails and nothing is written meanwhile: the flush is undone. -/
theorem undone_firstInsert :
    ∃ after, Run.exec step flushingTwo
        (.takeBuffer .background :: (failingInserts .background 0 ++ [.giveBack .background]))
          = some after ∧ Undone flushingTwo after [] := by
  have hscript : (failingInserts .background 0).filter WriterAction.ofFlush
      = (failingInserts .background 0 : List (WriterAction CdrEntry)) := rfl
  refine ⟨_, rfl, (undone_iff hscript rfl).mpr ?_⟩
  exact ⟨rfl, [created, deleted], 1, 0, rfl, rfl⟩

/-- The second `INSERT` fails, and a record is written meanwhile. -/
def secondInsertFails : List (WriterAction CdrEntry) :=
  [.begin .background true, .insert .background true, .writeAction rejected,
    .insert .background false, .rollback .background true]

/-- The first of the two records is neither in the table nor in the buffer afterwards, and the
second stands behind the newer one. -/
theorem secondInsertFails_loses_record :
    Run.exec step (constructed [] 0)
        [.writeAction created, .writeAction deleted, .callFlush .background] = some flushingTwo ∧
    secondInsertFails.filter WriterAction.ofFlush = failingInserts .background 1 ∧
    ∃ after, Run.exec step flushingTwo
        (.takeBuffer .background :: (secondInsertFails ++ [.giveBack .background])) = some after ∧
      after.buffer = [rejected, deleted] ∧ after.tableEntries = [] ∧
      ¬ Undone flushingTwo after (writes secondInsertFails) := by
  refine ⟨rfl, rfl, _, rfl, rfl, rfl, fun hundone => ?_⟩
  exact absurd hundone.buffer (by decide)

end DatabaseCdrWriter
end Pgw
