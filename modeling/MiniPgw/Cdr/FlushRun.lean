import MiniPgw.Cdr.DatabaseCdrWriter

/-!
# One `flush()` that nothing disturbs

`flushScript f n` are the steps of a `flush()` of `n` entries in which every SQLite call succeeds.
`exec_flushScript` computes where it leads: from any state whose connection has no open
transaction, the whole buffer becomes committed rows.
-/

namespace Pgw
namespace DatabaseCdrWriter

variable {ε : Type} {w : DatabaseCdrWriter ε}

/-- The steps of a `flush()` by `f` that takes `n` entries, every SQLite call succeeding. With an
empty buffer it returns after the first locked section. -/
def flushScript (f : Flusher) (n : Nat) : List (WriterAction ε) :=
  .takeBuffer f ::
    if n = 0 then []
    else .begin f true :: (List.replicate n (.insert f true) ++ [.commit f .ok])

/-- The rows that inserting `entries` now adds. -/
def rowsOf (db : Sqlite ε) (entries : List ε) : List (Row ε) :=
  entries.map fun entry => ⟨entry, db.now⟩

@[simp] theorem map_entry_rowsOf (db : Sqlite ε) (entries : List ε) :
    (rowsOf db entries).map Row.entry = entries := by
  simp [rowsOf, Function.comp_def]

@[simp] theorem afterCall_afterCall (w : DatabaseCdrWriter ε) (f : Flusher) (db db' : Sqlite ε)
    (p p' : Phase ε) : (w.afterCall f db p).afterCall f db' p' = w.afterCall f db' p' := by
  simp [afterCall, setPhase]

/-- Inserting the whole queue. Induction on the queue. -/
theorem exec_inserts (f : Flusher) (q : List ε) :
    ∀ (w : DatabaseCdrWriter ε) (inserted : List (Row ε)), w.phase f = .inserting q →
      w.db.transaction = some inserted →
      Run.exec step w (List.replicate q.length (.insert f true))
        = some (w.afterCall f { w.db with transaction := some (inserted ++ rowsOf w.db q) }
            (.inserting [])) := by
  induction q with
  | nil =>
    intro w inserted hphase hopen
    have hsame : w.afterCall f { w.db with transaction := some (inserted ++ rowsOf w.db []) }
        (.inserting []) = w := by
      simp [afterCall, setPhase, rowsOf, ← hphase, ← hopen]
    simp [hsame]
  | cons entry q ih =>
    intro w inserted hphase hopen
    -- one insert puts the row of the first entry into the open transaction
    have hstep : step w (.insert f true)
        = some (w.afterCall f (w.db.insertRow entry) (.inserting q)) := by
      simp [step, hphase]
    have hrow : w.db.insertRow entry
        = { w.db with transaction := some (inserted ++ [⟨entry, w.db.now⟩]) } := by
      simp [Sqlite.insertRow, hopen]
    rw [List.length_cons, List.replicate_succ, Run.exec_cons_eq_some]
    refine ⟨_, hstep, ?_⟩
    rw [hrow, ih _ (inserted ++ [⟨entry, w.db.now⟩]) (by simp) (by simp)]
    simp [rowsOf]

/-- **An undisturbed `flush()` commits the buffer.** -/
theorem exec_flushScript {f : Flusher} (hphase : w.phase f = .entered)
    (hconn : w.db.isConnected = true) (hnone : w.db.transaction = none) :
    Run.exec step w (flushScript f w.buffer.length)
      = some ({ w with
          buffer := []
          db := { w.db with committed := w.db.committed ++ rowsOf w.db w.buffer } }.setPhase f
            .idle) := by
  by_cases hbuf : w.buffer = []
  · simp [flushScript, hbuf, Run.exec, step, hphase, takeBuffer, rowsOf]
    simp [setPhase, hbuf]
  · have hlen : w.buffer.length ≠ 0 := fun h => hbuf (List.length_eq_zero_iff.mp h)
    -- the batch `b` is taken, and the transaction begun
    set b := w.buffer with hb
    have htake : step w (.takeBuffer f) = some ({ w with buffer := [] }.setPhase f (.taken b)) := by
      simp [step, hphase, takeBuffer, hb ▸ hbuf, hb]
    set w₁ := { w with buffer := [] }.setPhase f (.taken b) with hw₁
    have hbegin : step w₁ (.begin f true)
        = some (w₁.afterCall f { w.db with transaction := some [] } (.inserting b)) := by
      simp [step, hw₁, Sqlite.beginImmediate, hconn, hnone]
    set w₂ := w₁.afterCall f { w.db with transaction := some [] } (.inserting b) with hw₂
    -- its rows are inserted and committed
    have hins : Run.exec step w₂ (List.replicate b.length (.insert f true))
        = some (w₂.afterCall f
            { w.db with transaction := some (rowsOf w.db b) } (.inserting [])) := by
      rw [exec_inserts f b w₂ [] (by simp [hw₂]) (by simp [hw₂])]
      simp [hw₂, rowsOf]
    have hcommit : step (w₂.afterCall f { w.db with transaction := some (rowsOf w.db b) }
        (.inserting [])) (.commit f .ok)
        = some (w₂.afterCall f
            { w.db with committed := w.db.committed ++ rowsOf w.db b, transaction := none }
              .idle) := by
      simp [step, Sqlite.commit]
    simp only [flushScript, hlen, if_false]
    refine Run.exec_cons_eq_some.mpr ⟨w₁, htake, Run.exec_cons_eq_some.mpr ⟨w₂, hbegin, ?_⟩⟩
    refine Run.exec_append_eq_some.mpr ⟨_, hins, Run.exec_cons_eq_some.mpr ⟨_, hcommit, ?_⟩⟩
    simp [hw₂, hw₁, afterCall, setPhase, ← hnone]

end DatabaseCdrWriter
end Pgw
