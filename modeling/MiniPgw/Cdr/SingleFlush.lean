import MiniPgw.Cdr.BackEnds
import MiniPgw.Cdr.Destructor

/-!
# One flush at a time

Both threads call `flush()`, but the event-loop thread only in `getRecentRecords`, and in the
destructor when it has joined the other one. As long as nobody reads, no flush begins while another
one is running.

**`table_inOrder`** — then, if no SQLite call fails, the table has at every moment the first of the
records that have been written, in their order.

## The architecture

* **`FlushesLast`**, **`flushesLast_step`** — in a run without readers the event-loop thread is
  outside of `flush()` until it has joined the other thread, and that one has then left its loop.
* **`FlushesLast.allIdle`** — so whoever may call `flush()` finds no flush running.
* **`oneFlush_of_step`**, **`oneFlush_along`** — the condition of `BackEnds.sequential_run`, for a
  step and along the run; `table_inOrder` is that lemma on these runs.
-/

namespace Pgw
namespace FlushThreads

open DatabaseCdrWriter Monitor

variable {ε : Type} {u v : Monitor.State (FlushThreads ε)}

/-- The event-loop thread flushes only when the background thread has been joined. -/
structure FlushesLast (u : Monitor.State (FlushThreads ε)) : Prop extends Placed u where
  outside : u.shared.destructor ≠ .joined → u.shared.writer.phase .eventLoop = .idle

theorem flushesLast_started (prior : List (Row ε)) (now clock : ℕ) :
    FlushesLast (started prior now clock) :=
  ⟨placed_started prior now clock, fun _ => rfl⟩

/-- A step inside `flush()` is made by a flush that is running. -/
theorem busy_of_inFlush {w w' : DatabaseCdrWriter ε} {a : WriterAction ε} {f : Flusher}
    (hflusher : a.inFlush = some f) (hstep : w.step a = some w') : w.phase f ≠ .idle := by
  cases DatabaseCdrWriter.step_cases hstep with
  | takeBuffer g hphase => cases hflusher; simp [hphase]
  | beginOk g q hphase _ _ => cases hflusher; simp [hphase]
  | beginFailed g q hphase => cases hflusher; simp [hphase]
  | putBack g q hphase => cases hflusher; simp [hphase]
  | insertDone g entry q hphase => cases hflusher; simp [hphase]
  | insertFailed g entry q hphase => cases hflusher; simp [hphase]
  | rollbackOk g q _ hphase _ => cases hflusher; simp [hphase]
  | rollbackFailed g q hphase => cases hflusher; simp [hphase]
  | giveBack g q hphase => cases hflusher; simp [hphase]
  | commitOk g _ hphase _ => cases hflusher; simp [hphase]
  | commitFailedOpen g hphase => cases hflusher; simp [hphase]
  | commitFailedRolledBack g _ hphase _ => cases hflusher; simp [hphase]
  | _ => cases hflusher

/-- The calls of the event-loop thread, when it does not read. -/
theorem call_of_may {s : FlushThreads ε} {a : WriterAction ε} (hmay : s.eventLoopMay a = true)
    (hread : a ≠ .getRecentRecords) (hnot : s.destructor ≠ .joined)
    (hidle : s.writer.phase .eventLoop = .idle) {w : DatabaseCdrWriter ε}
    (hstep : s.writer.step a = some w) : w.phase .eventLoop = .idle := by
  rcases may_cases hmay with ⟨-, hcall | hflusher⟩ | ⟨hjoined, -⟩
  · have hnone : a.inFlush ≠ some .eventLoop ∧ a ≠ .callFlush .eventLoop := by
      cases a <;> simp_all [WriterAction.isCall, WriterAction.inFlush]
    exact (phase_of_step hstep hnone.1 hnone.2 (.inr hread)).trans hidle
  · exact absurd hidle (busy_of_inFlush hflusher hstep)
  · exact absurd hjoined hnot

theorem flushesLast_step (h : FlushesLast u) {e : Event (ThreadAction ε)}
    (hread : e ≠ .act (.eventLoop .getRecentRecords))
    (hstep : (flushThreads ε).step u e = some v) : FlushesLast v := by
  refine ⟨placed_step h.toPlaced hstep, ?_⟩
  cases Monitor.step_cases hstep with
  | act a shared place hact hmoves => ?_
  | _ => exact h.outside
  intro hnot
  -- the steps of the writer that are none of the event loop's flush
  have hother : ∀ {a : WriterAction ε} {w : DatabaseCdrWriter ε}, u.shared.writer.step a = some w →
      a.inFlush ≠ some .eventLoop → a ≠ .callFlush .eventLoop → a ≠ .getRecentRecords →
      u.shared.destructor ≠ .joined → w.phase .eventLoop = .idle := by
    intro a w hw hflusher hcall hreads hbefore
    exact (phase_of_step hw hflusher hcall (.inr hreads)).trans (h.outside hbefore)
  cases act_cases hact with
  | exitTop w hloop hstop hw =>
    exact hother hw (by simp [WriterAction.inFlush]) (by simp) (by simp) hnot
  | testStop hloop hstop => exact h.outside hnot
  | lock hloop => exact h.outside hnot
  | unlock hloop => exact h.outside hnot
  | exitCheck w hloop hstop hw =>
    exact hother hw (by simp [WriterAction.inFlush]) (by simp) (by simp) hnot
  | check w hloop hstop hw =>
    exact hother hw (by simp [WriterAction.inFlush]) (by simp) (by simp) hnot
  | flushStep b w hloop hflusher hw =>
    have hb : b ≠ .callFlush .eventLoop ∧ b ≠ .getRecentRecords := by
      cases b <;> simp_all [WriterAction.inFlush]
    exact hother hw (by simp [hflusher]) hb.1 hb.2 hnot
  | flushReturned hloop hidle => exact h.outside hnot
  | eventLoop b w hmay hw =>
    have hb : b ≠ .getRecentRecords := fun hb => hread (by rw [hb])
    exact call_of_may hmay hb hnot (h.outside hnot) hw
  | stop w hdestructor hw =>
    exact hother hw (by simp [WriterAction.inFlush]) (by simp) (by simp) (by simp [hdestructor])
  | notifyOne hdestructor => exact h.outside (by simp [hdestructor])
  | join w hdestructor hloop hw => exact absurd rfl hnot
  | tick seconds w hw =>
    exact hother hw (by simp [WriterAction.inFlush]) (by simp) (by simp) hnot

/-- Outside `flush()` on one thread and before the join on the other one, nothing is flushing. -/
theorem FlushesLast.allIdle (h : FlushesLast u) (hloop : u.shared.loop ≠ .flushing)
    (hnot : u.shared.destructor ≠ .joined) (f : Flusher) : u.shared.writer.phase f = .idle := by
  cases f with
  | background => exact h.idle hloop
  | eventLoop => exact h.outside hnot

/-- **No flush begins while another one is running.** -/
theorem oneFlush_of_step (h : FlushesLast u) {e : Event (ThreadAction ε)}
    (hread : e ≠ .act (.eventLoop .getRecentRecords))
    (hstep : (flushThreads ε).step u e = some v) :
    Run.Along DatabaseCdrWriter.step OneFlush u.shared.writer (writerActions u e) := by
  -- an action that neither calls `flush` nor reads opens no flush
  have hone : ∀ {a : WriterAction ε}, (∀ f, a ≠ .callFlush f) → a ≠ .getRecentRecords →
      Run.Along DatabaseCdrWriter.step OneFlush u.shared.writer [a] := by
    intro a hcall hreads
    refine ⟨fun hbegins => ?_, fun _ _ => trivial⟩
    rcases hbegins with ⟨f, hf⟩ | hf
    · exact absurd hf (hcall f)
    · exact absurd hf hreads
  cases Monitor.step_cases hstep with
  | act a shared place hact hmoves => ?_
  | _ => exact trivial
  cases act_cases hact with
  | exitTop w hloop hstop hw =>
    rw [writerActions, if_pos hstop]
    exact hone (by simp) (by simp)
  | testStop hloop hstop =>
    rw [writerActions, if_neg (by simp [hstop])]
    trivial
  | exitCheck w hloop hstop hw =>
    rw [writerActions, if_pos hstop]
    exact hone (by simp) (by simp)
  | check w hloop hstop hw =>
    -- the loop thread is at its check, so the destructor has not got past `join`
    have hnot : u.shared.destructor ≠ .joined := by
      intro hjoined
      have hexited := h.joined hjoined
      rw [hloop] at hexited
      cases hexited
    rw [writerActions, if_neg (by simp [hstop])]
    exact ⟨fun _ => h.allIdle (by simp [hloop]) hnot, fun _ _ => trivial⟩
  | flushStep b w hloop hflusher hw =>
    exact hone (fun f hf => by rw [hf] at hflusher; cases hflusher)
      fun hf => by rw [hf] at hflusher; cases hflusher
  | eventLoop b w hmay hw =>
    -- the event loop is kept from calling `flush` by `may`
    have hcalls : ∀ f, b ≠ .callFlush f := by
      intro f hf
      rw [hf] at hmay
      rcases may_cases hmay with ⟨-, hcall | hflusher⟩ | ⟨-, hflusher⟩
      · cases hcall
      · cases hflusher
      · cases hflusher
    exact hone hcalls fun hb => hread (by rw [hb])
  | stop w hdestructor hw => exact hone (by simp) (by simp)
  | join w hdestructor hloop hw =>
    -- `join` has waited for the thread, and the last flush finds both idle
    exact ⟨fun _ => h.allIdle (by simp [hloop]) (by simp [hdestructor]), fun _ _ => trivial⟩
  | tick seconds w hw => exact hone (by simp) (by simp)
  | _ => exact trivial

theorem oneFlush_along {prior : List (Row ε)} {now clock : ℕ} {es : List (Event (ThreadAction ε))}
    (hread : ∀ e ∈ es, e ≠ .act (.eventLoop .getRecentRecords))
    (hrun : Run.exec (flushThreads ε).step (started prior now clock) es = some v) :
    Run.Along DatabaseCdrWriter.step OneFlush (DatabaseCdrWriter.constructed prior now)
      (writerTrace (started prior now clock) es) := by
  have hstep : ∀ (x : Monitor.State (FlushThreads ε)) (e : Event (ThreadAction ε))
      (y : Monitor.State (FlushThreads ε)), FlushesLast x →
      e ≠ .act (.eventLoop .getRecentRecords) → (flushThreads ε).step x e = some y →
      FlushesLast y ∧
        Run.exec DatabaseCdrWriter.step
          ((fun u : Monitor.State (FlushThreads ε) => u.shared.writer) x)
          (writerActions x e) = some y.shared.writer ∧
        Run.Along DatabaseCdrWriter.step OneFlush x.shared.writer (writerActions x e) :=
    fun _ _ _ h hread hstep =>
      ⟨flushesLast_step h hread hstep, exec_writerActions hstep, oneFlush_of_step h hread hstep⟩
  exact Run.along_trace hstep (flushesLast_started prior now clock)
    (Run.along_of_forall (fun e he _ => hread e he) _) hrun

/-- **The table has the first of the records that have been written.** -/
theorem table_inOrder {now clock : ℕ} {es : List (Event (ThreadAction ε))}
    (hread : ∀ e ∈ es, e ≠ .act (.eventLoop .getRecentRecords))
    (hok : ∀ a ∈ writerTrace (started [] now clock) es, Succeeds a)
    (hrun : Run.exec (flushThreads ε).step (started [] now clock) es = some v) :
    v.shared.writer.tableEntries <+: es.flatMap calls := by
  obtain ⟨-, f, hf⟩ := sequential_run hok (oneFlush_along hread hrun) (writer_run hrun)
  have horder := hf.inOrder
  rw [writes_writerTrace hrun, List.append_assoc] at horder
  exact ⟨_, horder⟩

end FlushThreads
end Pgw
