import MiniPgw.Cdr.FlushLoop
import MiniPgw.Cdr.Order

/-!
# ~DatabaseCdrWriter — stopping the background thread and the last flush

The destructor sets `m_stop`, notifies, joins the background thread and calls `flush()` once more.
The flag is set without the mutex, so the notification can be lost: the thread may have found the
flag false and not be asleep yet.

* **`join_steps`** — `join` returns all the same: once `m_stop` is set the background thread has a
  bounded number of steps left, can always make one of them unless it sleeps, and does not sleep
  past `FLUSH_INTERVAL` from then;
* **`destructor_commits`** — if SQLite does not fail and no failed `flush()` drops entries, every
  entry of the run is a committed row when the destructor's `flush()` has returned.

## The architecture

* **`Placed`**, **`placed_step`** — where the two threads are, against the flags: a lemma for each
  kind of step of the background thread, and `Placed.other` for the other thread and the clock.
* **`rank`**, **`rank_step`** — a measure of what the background thread has left to do once
  `m_stop` is set; **`background_enabled`** says that it can always go on.
* **`Stopping`**, **`stopping_step`** — it does not sleep past the timeout of the wait it is in.
* **`LastFlush`**, **`lastFlush_step`** — the destructor's own `flush()`: after the join nobody
  else calls the writer, so the buffer and the local queue become rows.
-/

namespace Pgw
namespace FlushThreads

open DatabaseCdrWriter Monitor

variable {ε : Type} {w w' : DatabaseCdrWriter ε} {u v : Monitor.State (FlushThreads ε)}

/-! ## What the steps of the writer leave alone

The flags and the phase of a thread change in that thread's own steps only. What is proved about the
destructor below rests on these three frames. -/

/-- Only the destructor sets `m_stop`. -/
theorem stop_of_step {a : WriterAction ε} (hstep : w.step a = some w') (ha : a ≠ .setStop) :
    w'.stop = w.stop := by
  cases DatabaseCdrWriter.step_cases hstep with
  | setStop hfree => exact absurd rfl ha
  | writeAction entry hfree => unfold DatabaseCdrWriter.writeAction; split <;> rfl
  | takeBuffer f hphase => unfold takeBuffer; split <;> rfl
  | getRecentRecords hfree => unfold getRecentRecords; split <;> rfl
  | _ => rfl

/-- Only the thread of the writer leaves its loop. -/
theorem loopExited_of_step {a : WriterAction ε} (hstep : w.step a = some w')
    (ha : a ≠ .exitLoop) : w'.loopExited = w.loopExited := by
  cases DatabaseCdrWriter.step_cases hstep with
  | exitLoop hidle hstop => exact absurd rfl ha
  | writeAction entry hfree => unfold DatabaseCdrWriter.writeAction; split <;> rfl
  | takeBuffer f hphase => unfold takeBuffer; split <;> rfl
  | getRecentRecords hfree => unfold getRecentRecords; split <;> rfl
  | _ => rfl

/-- A flusher moves in its own steps only. -/
theorem phase_of_step {a : WriterAction ε} {f : Flusher} (hstep : w.step a = some w')
    (hflusher : a.inFlush ≠ some f) (hcall : a ≠ .callFlush f)
    (hread : f = .background ∨ a ≠ .getRecentRecords) : w'.phase f = w.phase f := by
  have hother : ∀ {g : Flusher} {p : Phase ε}, g ≠ f →
      Function.update w.phase g p f = w.phase f :=
    fun hg => Function.update_of_ne (Ne.symm hg) _ _
  -- every step is one inside a flush, the call of one, or leaves the phases alone
  cases DatabaseCdrWriter.step_cases hstep with
  | writeAction entry hfree => unfold DatabaseCdrWriter.writeAction; split <;> rfl
  | callBackground _ _ _ => exact hother fun h => hcall (by rw [h])
  | callEventLoop _ => exact hother fun h => hcall (by rw [h])
  | getRecentRecords hfree =>
    have hf : f = .background := hread.resolve_right fun h => h rfl
    subst hf
    have hne : Flusher.eventLoop ≠ .background := by simp
    unfold getRecentRecords
    split
    · rw [setPhase_phase]
      exact Function.update_of_ne (Ne.symm hne) _ _
    · rfl
  | takeBuffer g hphase =>
    have hg : g ≠ f := fun h => hflusher (by rw [h]; rfl)
    unfold takeBuffer
    split
    · exact hother hg
    · exact hother hg
  | beginOk g _ _ _ _ => exact hother fun h => hflusher (by rw [h]; rfl)
  | beginFailed g _ _ => exact hother fun h => hflusher (by rw [h]; rfl)
  | putBack g _ _ => exact hother fun h => hflusher (by rw [h]; rfl)
  | insertDone g _ _ _ => exact hother fun h => hflusher (by rw [h]; rfl)
  | insertFailed g _ _ _ => exact hother fun h => hflusher (by rw [h]; rfl)
  | rollbackOk g _ _ _ _ => exact hother fun h => hflusher (by rw [h]; rfl)
  | rollbackFailed g _ _ => exact hother fun h => hflusher (by rw [h]; rfl)
  | giveBack g _ _ => exact hother fun h => hflusher (by rw [h]; rfl)
  | commitOk g _ _ _ => exact hother fun h => hflusher (by rw [h]; rfl)
  | commitFailedOpen g _ => exact hother fun h => hflusher (by rw [h]; rfl)
  | commitFailedRolledBack g _ _ _ => exact hother fun h => hflusher (by rw [h]; rfl)
  | _ => rfl

/-! ## Where the threads are

The loop position, the place in `wait_for`, the phase of the flush and the two flags of the writer
say the same thing five times. `Placed` is how they agree. -/

/-- How the places of the two threads and the flags of the writer go together. -/
structure Placed (u : Monitor.State (FlushThreads ε)) : Prop where
  inCall : u.place = .outside ↔ u.shared.loop ≠ .waiting
  idle : u.shared.loop ≠ .flushing → u.shared.writer.phase .background = .idle
  stopped : u.shared.writer.stop = true ↔ u.shared.destructor ≠ .notCalled
  exited : u.shared.writer.loopExited = true ↔ u.shared.loop = .exited
  joined : u.shared.destructor = .joined → u.shared.loop = .exited

/-- At first nobody has called the destructor, and the thread is at the top of its loop. -/
theorem placed_started (prior : List (Row ε)) (now clock : ℕ) :
    Placed (started prior now clock) where
  inCall := by simp [started, constructed]
  idle := fun _ => rfl
  stopped := by simp [started, constructed, DatabaseCdrWriter.constructed]
  exited := by simp [started, constructed, DatabaseCdrWriter.constructed]
  joined := fun h => by cases h

/-- Another step of the thread in `wait_for`. -/
theorem Placed.wait (h : Placed u) {p : Place} (hin : u.place ≠ .outside) (hp : p ≠ .outside) :
    Placed { u with place := p } where
  inCall := iff_of_false hp fun hloop => hin (h.inCall.mpr hloop)
  idle := h.idle
  stopped := h.stopped
  exited := h.exited
  joined := h.joined

/-- A step of the event-loop thread or of SQLite's clock. -/
theorem Placed.other (h : Placed u) {place : Place} {a : WriterAction ε}
    (hplace : place = .outside ↔ u.place = .outside) (hstep : u.shared.writer.step a = some w)
    (hflusher : a.inFlush ≠ some .background) (hcall : a ≠ .callFlush .background)
    (hexit : a ≠ .exitLoop) {destructor : DestructorPosition}
    (hstop : w.stop = true ↔ destructor ≠ .notCalled)
    (hjoined : destructor = .joined → u.shared.loop = .exited) :
    Placed { u with
      shared := { u.shared with writer := w, destructor := destructor }, place := place } where
  inCall := hplace.trans h.inCall
  idle := fun hloop =>
    (phase_of_step hstep hflusher hcall (.inl rfl)).trans (h.idle hloop)
  stopped := hstop
  exited := by
    rw [loopExited_of_step hstep hexit]
    exact h.exited
  joined := hjoined

/-- `flushLoop` returns. -/
theorem Placed.exit (h : Placed u) (hstep : u.shared.writer.step .exitLoop = some w) :
    Placed { u with
      shared := { u.shared with writer := w, loop := .exited }, place := .outside } := by
  cases DatabaseCdrWriter.step_cases hstep with
  | exitLoop hidle _ => exact ⟨by simp, fun _ => hidle, h.stopped, by simp, fun _ => rfl⟩

/-- The background thread goes on in `flushLoop`, and the writer stays as it is. -/
theorem Placed.goOn (h : Placed u) (hout : u.shared.loop ≠ .exited) {loop : LoopPosition}
    (hloop : loop ≠ .exited) {place : Place} (hplace : place = .outside ↔ loop ≠ .waiting)
    (hidle : loop ≠ .flushing → u.shared.writer.phase .background = .idle) :
    Placed { u with shared := { u.shared with loop := loop }, place := place } where
  inCall := hplace
  idle := hidle
  stopped := h.stopped
  exited := iff_of_false (fun he => hout (h.exited.mp he)) hloop
  joined := fun hj => absurd (h.joined hj) hout

/-- The background thread calls `flush()`. -/
theorem Placed.callFlush (h : Placed u) (hout : u.shared.loop ≠ .exited)
    (hstep : u.shared.writer.step (.callFlush .background) = some w) :
    Placed { u with
      shared := { u.shared with writer := w, loop := .flushing }, place := .outside } where
  inCall := by simp
  idle := fun hl => absurd rfl hl
  stopped := by
    rw [stop_of_step hstep (by simp)]
    exact h.stopped
  exited := by
    rw [loopExited_of_step hstep (by simp)]
    exact iff_of_false (fun he => hout (h.exited.mp he)) (by simp)
  joined := fun hj => absurd (h.joined hj) hout

/-- A step of the background thread in `flush()`. -/
theorem Placed.flushStep (h : Placed u) (hloop : u.shared.loop = .flushing) {a : WriterAction ε}
    (hflusher : a.inFlush = some .background) (hstep : u.shared.writer.step a = some w) :
    Placed { u with shared := { u.shared with writer := w }, place := .outside } := by
  have ha : a ≠ .setStop ∧ a ≠ .exitLoop := by
    cases a <;> simp_all [WriterAction.inFlush]
  refine ⟨by simp [hloop], fun hl => absurd hloop hl, ?_, ?_, h.joined⟩
  · rw [stop_of_step hstep ha.1]
    exact h.stopped
  · rw [loopExited_of_step hstep ha.2]
    exact h.exited

/-- The calls of the event-loop thread. -/
theorem may_cases {s : FlushThreads ε} {a : WriterAction ε} (hmay : s.eventLoopMay a = true) :
    (s.destructor = .notCalled ∧ (a.isCall = true ∨ a.inFlush = some .eventLoop)) ∨
      (s.destructor = .joined ∧ a.inFlush = some .eventLoop) := by
  unfold eventLoopMay at hmay
  cases hdestructor : s.destructor with
  | notCalled => exact .inl ⟨rfl, by simpa [hdestructor] using hmay⟩
  | joined => exact .inr ⟨rfl, by simpa [hdestructor] using hmay⟩
  | stopped => rw [hdestructor] at hmay; cases hmay
  | notified => rw [hdestructor] at hmay; cases hmay

/-- The event loop makes no step of the other thread. -/
theorem ne_of_may {s : FlushThreads ε} {a : WriterAction ε} (hmay : s.eventLoopMay a = true) :
    a.inFlush ≠ some .background ∧ a ≠ .callFlush .background ∧ a ≠ .exitLoop ∧ a ≠ .setStop := by
  rcases may_cases hmay with ⟨-, hcall | hflusher⟩ | ⟨-, hflusher⟩
  · cases a <;> simp_all [WriterAction.isCall, WriterAction.inFlush]
  all_goals cases a <;> simp_all [WriterAction.inFlush]

/-- What an action of another thread does to the place of the background thread. -/
theorem place_of_moved {a : ThreadAction ε} {s : FlushThreads ε} {place : Place}
    (h : Moved (flushThreads ε) u a s place) (hkind : kind a = .locked ∨ kind a = .free) :
    place = u.place ∨ place = u.place.notified := by
  cases h with
  | quiet _ _ => exact .inl rfl
  | notify _ _ => exact .inr rfl
  | enter h _ => rcases hkind with hk | hk <;> exact absurd (h.symm.trans hk) (by simp)
  | leave h _ => rcases hkind with hk | hk <;> exact absurd (h.symm.trans hk) (by simp)
  | self h _ => rcases hkind with hk | hk <;> exact absurd (h.symm.trans hk) (by simp)

/-- A notification moves no thread into or out of the call of `wait_for`. -/
theorem outside_iff {place : Place} (h : place = u.place ∨ place = u.place.notified) :
    place = .outside ↔ u.place = .outside := by
  rcases h with rfl | rfl
  · exact Iff.rfl
  · exact Place.notified_eq_outside

/-- A step of the event loop either holds the mutex for its duration or does not need it. -/
theorem kind_eventLoop (a : WriterAction ε) :
    kind (.eventLoop a) = .locked ∨ kind (.eventLoop a) = .free := by
  show (if a.locks then Kind.locked else Kind.free) = .locked
    ∨ (if a.locks then Kind.locked else Kind.free) = .free
  cases a.locks with
  | true => exact .inl rfl
  | false => exact .inr rfl

/-- An action of the background thread outside the call. -/
theorem outside_of_self {a : ThreadAction ε} {s : FlushThreads ε} {place : Place}
    (h : Moved (flushThreads ε) u a s place) (hkind : kind a = .self) :
    u.place = .outside ∧ place = .outside := by
  cases h with
  | self _ hplace => exact ⟨hplace, rfl⟩
  | enter h _ => exact absurd (h.symm.trans hkind) (by simp)
  | leave h _ => exact absurd (h.symm.trans hkind) (by simp)
  | quiet h _ => rcases h with ⟨h, -⟩ | h <;> exact absurd (h.symm.trans hkind) (by simp)
  | notify h _ => rcases h with ⟨h, -⟩ | h <;> exact absurd (h.symm.trans hkind) (by simp)

/-- The background thread locks outside of the call, and tests its predicate next. -/
theorem testing_of_lock {s : FlushThreads ε} {place : Place}
    (h : Moved (flushThreads ε) u .lock s place) :
    u.place = .outside ∧ ∃ d, place = .testing d := by
  cases h with
  | enter _ hplace => exact ⟨hplace, _, rfl⟩
  | quiet h _ => rcases h with ⟨h, -⟩ | h <;> cases h
  | notify h _ => rcases h with ⟨h, -⟩ | h <;> cases h
  | leave h _ => cases h
  | self h _ => cases h

/-- It unlocks when `wait_for` has returned, and is outside then. -/
theorem outside_of_unlock {s : FlushThreads ε} {place : Place}
    (h : Moved (flushThreads ε) u .unlock s place) :
    u.place = .returned ∧ place = .outside := by
  cases h with
  | leave _ hplace => exact ⟨hplace, rfl⟩
  | quiet h _ => rcases h with ⟨h, -⟩ | h <;> cases h
  | notify h _ => rcases h with ⟨h, -⟩ | h <;> cases h
  | enter h _ => cases h
  | self h _ => cases h

/-- An action keeps them together. -/
theorem placed_act (h : Placed u) {a : ThreadAction ε} {shared : FlushThreads ε} {place : Place}
    (hact : Acts u.shared a shared) (hmoved : Moved (flushThreads ε) u a shared place) :
    Placed { u with shared := shared, place := place } := by
  cases hact with
  -- the background thread
  | exitTop w hloop hstop hw =>
    obtain ⟨-, rfl⟩ := outside_of_self hmoved rfl
    exact h.exit hw
  | exitCheck w hloop hstop hw =>
    obtain ⟨-, rfl⟩ := outside_of_self hmoved rfl
    exact h.exit hw
  | testStop hloop hstop =>
    obtain ⟨-, rfl⟩ := outside_of_self hmoved rfl
    exact h.goOn (by simp [hloop]) (by simp) (by simp) fun _ => h.idle (by simp [hloop])
  | lock hloop =>
    obtain ⟨-, d, rfl⟩ := testing_of_lock hmoved
    exact h.goOn (by simp [hloop]) (by simp) (by simp) fun _ => h.idle (by simp [hloop])
  | unlock hloop =>
    obtain ⟨-, rfl⟩ := outside_of_unlock hmoved
    exact h.goOn (by simp [hloop]) (by simp) (by simp) fun _ => h.idle (by simp [hloop])
  | check w hloop hstop hw =>
    obtain ⟨-, rfl⟩ := outside_of_self hmoved rfl
    exact h.callFlush (by simp [hloop]) hw
  | flushStep b w hloop hflusher hw =>
    obtain ⟨-, rfl⟩ := outside_of_self hmoved rfl
    exact h.flushStep hloop hflusher hw
  | flushReturned hloop hidle =>
    obtain ⟨-, rfl⟩ := outside_of_self hmoved rfl
    exact h.goOn (by simp [hloop]) (by simp) (by simp) fun _ => hidle
  -- the event-loop thread
  | eventLoop b w hmay hw =>
    obtain ⟨hflusher, hcall, hexit, hstop⟩ := ne_of_may hmay
    have hplace := outside_iff (place_of_moved hmoved (kind_eventLoop b))
    exact h.other hplace hw hflusher hcall hexit
      (by rw [stop_of_step hw hstop]; exact h.stopped) h.joined
  | stop w hdestructor hw =>
    have hplace := outside_iff (place_of_moved hmoved (.inr rfl))
    cases DatabaseCdrWriter.step_cases hw with
    | setStop hfree =>
      exact h.other hplace hw (by simp [WriterAction.inFlush]) (by simp) (by simp) (by simp)
        (by simp)
  | notifyOne hdestructor =>
    have hplace := outside_iff (place_of_moved hmoved (.inr rfl))
    exact ⟨hplace.trans h.inCall, h.idle,
      iff_of_true (h.stopped.mpr (by simp [hdestructor])) (by simp), h.exited, by simp⟩
  | join w hdestructor hloop hw =>
    have hplace := outside_iff (place_of_moved hmoved (.inr rfl))
    -- the thread is joined after `m_stop` was set
    have hstop : w.stop = true := by
      rw [stop_of_step hw (by simp)]
      exact h.stopped.mpr (by simp [hdestructor])
    exact h.other hplace hw (by simp [WriterAction.inFlush]) (by simp) (by simp)
      (iff_of_true hstop (by simp)) (fun _ => hloop)
  | tick seconds w hw =>
    have hplace := outside_iff (place_of_moved hmoved (.inr rfl))
    exact h.other hplace hw (by simp [WriterAction.inFlush]) (by simp) (by simp)
      (by rw [stop_of_step hw (by simp)]; exact h.stopped) h.joined

/-- **Every step keeps the places of the threads and the flags together.** -/
theorem placed_step (h : Placed u) {e : Event (ThreadAction ε)}
    (hstep : (flushThreads ε).step u e = some v) : Placed v := by
  cases Monitor.step_cases hstep with
  | testReady d hplace _ => exact h.wait (by simp [hplace]) (by simp)
  | testCommit d hplace _ => exact h.wait (by simp [hplace]) (by simp)
  | block d hplace => exact h.wait (by simp [hplace]) (by simp)
  | wake d hplace => exact h.wait (by simp [hplace]) (by simp)
  | timeout d hplace _ => exact h.wait (by simp [hplace]) (by simp)
  | relock d hplace => exact h.wait (by simp [hplace]) (by simp)
  | expire d hplace _ => exact h.wait (by simp [hplace]) (by simp)
  | tick n => exact ⟨h.inCall, h.idle, h.stopped, h.exited, h.joined⟩
  | act a shared place hact hmoves => exact placed_act h (act_cases hact) (moves_cases hmoves)

/-- So in every state of a run the place of the thread agrees with what the writer does. -/
theorem placed_reachable {prior : List (Row ε)} {now clock : ℕ}
    {es : List (Event (ThreadAction ε))}
    (hrun : Run.exec (flushThreads ε).step (started prior now clock) es = some v) : Placed v :=
  Run.exec_invariant (fun _ _ _ h hstep => placed_step h hstep)
    (placed_started prior now clock) hrun

/-! ## join returns

The destructor sets `m_stop` without the mutex, so its notification may be lost. What saves `join`
is the timeout of the wait: every step of the thread leads towards the end of `flushLoop`, and the
only sleep in between ends at its deadline. -/

/-- The steps of the background thread. -/
def isBackground : Event (ThreadAction ε) → Bool
  | .act .testStop => true
  | .act .lock => true
  | .act .unlock => true
  | .act .check => true
  | .act (.flushStep _) => true
  | .act .flushReturned => true
  | .act _ => false
  | .tick _ => false
  | _ => true

/-- How many steps `flush()` has left, at most. -/
def flushRank (w : DatabaseCdrWriter ε) : ℕ :=
  match w.phase .background with
  | .idle => 2
  | .entered => w.buffer.length + 7
  | .taken q => q.length + 6
  | .beginFailed _ => 3
  | .inserting q => q.length + 5
  | .insertFailed _ => 4
  | .rolledBack _ => 3

/-- How many steps the background thread has left once `m_stop` is set, at most. -/
def rank (u : Monitor.State (FlushThreads ε)) : ℕ :=
  match u.shared.loop with
  | .exited => 0
  | .top => 1
  | .checking => 1
  | .flushing => flushRank u.shared.writer
  | .waiting => u.place.rank + 1
  | .locking => 7

/-- The entries that the background thread may still have to insert. -/
def workload (w : DatabaseCdrWriter ε) : ℕ :=
  w.buffer.length + (w.phase .background).toFlush.length

/-- What is left to do is bounded by the workload. -/
theorem rank_le (u : Monitor.State (FlushThreads ε)) : rank u ≤ workload u.shared.writer + 7 := by
  unfold rank workload
  cases u.shared.loop with
  | flushing =>
    show flushRank u.shared.writer ≤ _
    unfold flushRank
    cases u.shared.writer.phase .background <;> (simp only [Phase.toFlush]; omega)
  | waiting =>
    show u.place.rank + 1 ≤ _
    cases u.place <;> (simp only [Place.rank]; omega)
  | _ => simp only; omega

/-- A `flush()` ranks above the top of the loop, to which it returns. -/
theorem flushRank_pos (w : DatabaseCdrWriter ε) : 1 < flushRank w := by
  unfold flushRank
  cases w.phase .background <;> simp only <;> omega

/-- A step of `flush()` brings it nearer to its end. -/
theorem flushRank_step {a : WriterAction ε} (hflusher : a.inFlush = some .background)
    (hstep : w.step a = some w') : flushRank w' < flushRank w := by
  cases DatabaseCdrWriter.step_cases hstep with
  | takeBuffer f hphase =>
    cases hflusher
    have hbefore : flushRank w = w.buffer.length + 7 := by simp [flushRank, hphase]
    rw [hbefore, takeBuffer]
    split
    · simp [flushRank]
    · simp [flushRank]
  | beginOk f q hphase _ _ => cases hflusher; simp [flushRank, hphase]
  | beginFailed f q hphase => cases hflusher; simp [flushRank, hphase]
  | putBack f q hphase => cases hflusher; simp [flushRank, hphase, putBack]
  | insertDone f entry q hphase => cases hflusher; simp [flushRank, hphase]
  | insertFailed f entry q hphase => cases hflusher; simp [flushRank, hphase]
  | rollbackOk f q _ hphase _ => cases hflusher; simp [flushRank, hphase]
  | rollbackFailed f q hphase => cases hflusher; simp [flushRank, hphase]
  | giveBack f q hphase => cases hflusher; simp [flushRank, hphase, giveBack]
  | commitOk f _ hphase _ => cases hflusher; simp [flushRank, hphase]
  | commitFailedOpen f hphase => cases hflusher; simp [flushRank, hphase]
  | commitFailedRolledBack f _ hphase _ => cases hflusher; simp [flushRank, hphase]
  | _ => cases hflusher

/-- In `flush()` there is always a next step: SQLite answers one way or another. -/
theorem flush_enabled (hbusy : w.phase .background ≠ .idle) :
    ∃ a : WriterAction ε, a.inFlush = some .background ∧ (w.step a).isSome := by
  cases hphase : w.phase .background with
  | idle => exact absurd hphase hbusy
  | entered => exact ⟨.takeBuffer .background, rfl, by simp [DatabaseCdrWriter.step, hphase]⟩
  | taken q => exact ⟨.begin .background false, rfl, by simp [DatabaseCdrWriter.step, hphase]⟩
  | beginFailed q => exact ⟨.putBack .background, rfl, by simp [DatabaseCdrWriter.step, hphase]⟩
  | insertFailed q =>
    exact ⟨.rollback .background false, rfl, by simp [DatabaseCdrWriter.step, hphase]⟩
  | rolledBack q => exact ⟨.giveBack .background, rfl, by simp [DatabaseCdrWriter.step, hphase]⟩
  | inserting q =>
    cases q with
    | nil =>
      exact ⟨.commit .background .failedOpen, rfl, by simp [DatabaseCdrWriter.step, hphase]⟩
    | cons entry q =>
      exact ⟨.insert .background true, rfl, by simp [DatabaseCdrWriter.step, hphase]⟩

/-- `m_stop` has been set; the thread sleeps no longer than until `latest`. -/
structure Stopping (latest : ℕ) (u : Monitor.State (FlushThreads ε)) : Prop extends Placed u where
  stop : u.shared.writer.stop = true
  wakesUp : ∀ d, u.place.asleep = true → u.place.deadline = some d → d ≤ latest

/-- Once `m_stop` is set, the predicate of the `wait_for` holds. -/
theorem ready_of_stop {s : FlushThreads ε} (h : s.writer.stop = true) :
    (flushThreads ε).ready s = true := by
  show (s.writer.stop || decide (BATCH_SIZE ≤ s.writer.buffer.length)) = true
  rw [h, Bool.true_or]

/-- After `m_stop` is set the thread does not go to sleep again. -/
theorem stopping_step {latest : ℕ} (h : Stopping latest u) {e : Event (ThreadAction ε)}
    (hstep : (flushThreads ε).step u e = some v) : Stopping latest v := by
  have hplaced : Placed v := placed_step h.toPlaced hstep
  cases Monitor.step_cases hstep with
  | testReady d hplace _ => exact ⟨hplaced, h.stop, fun _ hasleep _ => by cases hasleep⟩
  | testCommit d hplace hready => rw [ready_of_stop h.stop] at hready; cases hready
  | block d hplace =>
    exact ⟨hplaced, h.stop, fun d' _ hd => h.wakesUp d' (by rw [hplace]; rfl)
      (by rw [hplace]; exact hd)⟩
  | wake d hplace => exact ⟨hplaced, h.stop, fun _ hasleep _ => by cases hasleep⟩
  | timeout d hplace _ => exact ⟨hplaced, h.stop, fun _ hasleep _ => by cases hasleep⟩
  | relock d hplace => exact ⟨hplaced, h.stop, fun _ hasleep _ => by cases hasleep⟩
  | expire d hplace _ => exact ⟨hplaced, h.stop, fun _ hasleep _ => by cases hasleep⟩
  | tick n => exact ⟨hplaced, h.stop, h.wakesUp⟩
  | act a shared place hact hmoves =>
    have hmoved := moves_cases hmoves
    have hstop : shared.writer.stop = true := by
      refine hplaced.stopped.mpr fun hnot => ?_
      -- the destructor's place never goes back
      have hcalled : u.shared.destructor ≠ .notCalled := h.stopped.mp h.stop
      cases act_cases hact with
      | stop w _ _ => cases hnot
      | notifyOne _ => cases hnot
      | join w _ _ _ => cases hnot
      | _ => exact hcalled hnot
    refine ⟨hplaced, hstop, fun d hasleep hd => h.wakesUp d (asleep_of_moved hmoved hasleep) ?_⟩
    cases hmoved with
    | enter _ _ => cases hasleep
    | leave _ _ => cases hasleep
    | self _ _ => cases hasleep
    | quiet _ _ => exact hd
    | notify _ _ => exact (Place.notified_deadline u.place).symm.trans hd

/-- **Once `m_stop` is set every step of the thread leads to its end**, and no other step leads away
from it. -/
theorem rank_step {latest : ℕ} (h : Stopping latest u) {e : Event (ThreadAction ε)}
    (hstep : (flushThreads ε).step u e = some v) :
    rank v + (if isBackground e then 1 else 0) ≤ rank u := by
  have hready := ready_of_stop h.stop
  -- inside `wait_for`
  have hwait : e.waits = true → rank v < rank u := by
    intro he
    obtain ⟨hshared, hrank, hin⟩ := wait_step hready he hstep
    have hv : v.shared.loop = .waiting := by
      by_contra hne
      exact hin ((placed_step h.toPlaced hstep).inCall.mpr hne)
    have hu : u.shared.loop = .waiting := by rw [← hshared]; exact hv
    have hrv : rank v = v.place.rank + 1 := by simp [rank, hv]
    have hru : rank u = u.place.rank + 1 := by simp [rank, hu]
    omega
  cases Monitor.step_cases hstep with
  | testReady d _ _ => exact hwait rfl
  | testCommit d _ _ => exact hwait rfl
  | block d _ => exact hwait rfl
  | wake d _ => exact hwait rfl
  | timeout d _ _ => exact hwait rfl
  | relock d _ => exact hwait rfl
  | expire d _ _ => exact hwait rfl
  | tick n => exact Nat.le_refl _
  | act a shared place hact hmoves =>
    have hmoved := moves_cases hmoves
    -- a step of another thread that leaves the writer's share alone
    have hnotify : ∀ {w : DatabaseCdrWriter ε} {dp : DestructorPosition},
        w.phase .background = u.shared.writer.phase .background →
        w.buffer = u.shared.writer.buffer → (place = u.place ∨ place = u.place.notified) →
        rank { u with
          shared := { u.shared with writer := w, destructor := dp }, place := place } ≤ rank u := by
      intro w dp hphase hbuffer hplace
      have hle : place.rank ≤ u.place.rank := by
        rcases hplace with rfl | rfl
        · exact Nat.le_refl _
        · exact Place.notified_rank_le _
      unfold rank flushRank
      cases u.shared.loop <;> simp only [hphase, hbuffer] <;> omega
    cases act_cases hact with
    | exitTop w hloop _ _ => simp [rank, hloop, isBackground]
    | exitCheck w hloop _ _ => simp [rank, hloop, isBackground]
    | testStop hloop hstop => rw [h.stop] at hstop; cases hstop
    | check w hloop hstop _ => rw [h.stop] at hstop; cases hstop
    | lock hloop =>
      obtain ⟨-, d, rfl⟩ := testing_of_lock hmoved
      simp [rank, hloop, isBackground, Place.rank]
    | unlock hloop =>
      obtain ⟨hplace, rfl⟩ := outside_of_unlock hmoved
      simp [rank, hloop, isBackground, hplace, Place.rank]
    | flushStep b w hloop hflusher hw =>
      have hlt := flushRank_step hflusher hw
      have hrv : rank { u with shared := { u.shared with writer := w }, place := place }
          = flushRank w := by simp [rank, hloop]
      have hru : rank u = flushRank u.shared.writer := by simp [rank, hloop]
      show rank _ + 1 ≤ _
      rw [hrv, hru]
      omega
    | flushReturned hloop hidle =>
      have hpos := flushRank_pos u.shared.writer
      have hru : rank u = flushRank u.shared.writer := by simp [rank, hloop]
      show 1 + 1 ≤ _
      rw [hru]
      omega
    -- the event-loop thread waits in `join`, or the background thread is gone
    | eventLoop b w hmay hw =>
      have hcalled : u.shared.destructor ≠ .notCalled := h.stopped.mp h.stop
      have hexited : u.shared.loop = .exited := by
        rcases may_cases hmay with ⟨hnot, -⟩ | ⟨hjoined, -⟩
        · exact absurd hnot hcalled
        · exact h.joined hjoined
      simp [rank, hexited, isBackground]
    | stop w hdestructor _ => exact absurd hdestructor (h.stopped.mp h.stop)
    | notifyOne hdestructor => exact hnotify rfl rfl (place_of_moved hmoved (.inr rfl))
    | join w hdestructor hloop _ => simp [rank, hloop, isBackground]
    | tick seconds w hw =>
      cases DatabaseCdrWriter.step_cases hw with
      | tick _ => exact hnotify rfl rfl (place_of_moved hmoved (.inr rfl))

/-- The background thread can make a step that no spurious wake-up is needed for. -/
theorem background_enabled {latest : ℕ} (h : Stopping latest u) (hloop : u.shared.loop ≠ .exited) :
    (∃ e : Event (ThreadAction ε), isBackground e = true ∧ e ≠ .wake ∧
        ((flushThreads ε).step u e).isSome) ∨
      ∃ d, u.place = .blocked d ∧ u.clock < d := by
  -- an action that only the thread's place allows is taken outside of the wait
  have hself : ∀ {a : ThreadAction ε}, kind a = .self → u.shared.loop ≠ .waiting →
      (u.shared.act a).isSome → ((flushThreads ε).step u (.act a)).isSome := by
    intro a hkind hne hact
    obtain ⟨s, hs⟩ := Option.isSome_iff_exists.mp hact
    have hplace : u.place = .outside := h.inCall.mpr hne
    have hkind' : (flushThreads ε).kind a = .self := hkind
    have hact' : (flushThreads ε).act u.shared a = some s := hs
    simp [Monitor.step, hact', moves, hkind', hplace]
  -- by the place of the loop: each has an action of its own
  cases hu : u.shared.loop with
  | exited => exact absurd hu hloop
  | top =>
    refine .inl ⟨.act .testStop, rfl, by simp, hself rfl (by simp [hu]) ?_⟩
    simp [act, hu, h.stop, does, DatabaseCdrWriter.step, h.idle (by simp [hu]), Phase.isIdle]
  | checking =>
    refine .inl ⟨.act .check, rfl, by simp, hself rfl (by simp [hu]) ?_⟩
    simp [act, hu, h.stop, does, DatabaseCdrWriter.step, h.idle (by simp [hu]), Phase.isIdle]
  | flushing =>
    -- `flush` returns, or its next step is enabled
    by_cases hidle : u.shared.writer.phase .background = .idle
    · refine .inl ⟨.act .flushReturned, rfl, by simp, hself rfl (by simp [hu]) ?_⟩
      simp [act, hu, hidle, Phase.isIdle]
    · obtain ⟨a, hflusher, hstep⟩ := flush_enabled hidle
      refine .inl ⟨.act (.flushStep a), rfl, by simp, hself rfl (by simp [hu]) ?_⟩
      simpa [act, hu, hflusher, does] using hstep
  | locking =>
    have hplace : u.place = .outside := h.inCall.mpr (by simp [hu])
    refine .inl ⟨.act .lock, rfl, by simp, ?_⟩
    simp [Monitor.step, flushThreads, act, hu, moves, kind, hplace]
  | waiting =>
    have hin : u.place ≠ .outside := fun hout => h.inCall.mp hout hu
    -- the wait is over, or goes on by itself, or sleeps until the deadline
    by_cases hret : u.place = .returned
    · refine .inl ⟨.act .unlock, rfl, by simp, ?_⟩
      simp [Monitor.step, flushThreads, act, hu, moves, kind, hret]
    · rcases wait_enabled (m := flushThreads ε) hin hret with ⟨e, he, hne, hstep⟩ | hblocked
      · refine .inl ⟨e, ?_, hne, hstep⟩
        cases e with
        | act a => cases he
        | tick n => cases he
        | _ => rfl
      · exact .inr hblocked

/-- The steps of the thread, counted one by one. -/
theorem sum_background (es : List (Event (ThreadAction ε))) :
    (es.map fun e => if isBackground e then 1 else 0).sum = es.countP isBackground := by
  induction es with
  | nil => rfl
  | cons e es ih => rw [List.map_cons, List.sum_cons, ih, List.countP_cons, Nat.add_comm]

/-- **`join` returns.** From any moment after `m_stop` is set: the background thread makes at most
as many steps more as it has entries to insert, and seven; and as long as `flushLoop` has not
returned it can make one, unless it sleeps, which it does not after `FLUSH_INTERVAL`. -/
theorem join_steps {prior : List (Row ε)} {now clock : ℕ} {es es' : List (Event (ThreadAction ε))}
    (hbefore : Run.exec (flushThreads ε).step (started prior now clock) es = some u)
    (hstop : u.shared.writer.stop = true)
    (hafter : Run.exec (flushThreads ε).step u es' = some v) :
    es'.countP isBackground ≤ workload u.shared.writer + 7 ∧
      (v.shared.loop ≠ .exited →
        (∃ e : Event (ThreadAction ε), isBackground e = true ∧ e ≠ .wake ∧
          ((flushThreads ε).step v e).isSome) ∨
        ∃ d, v.place = .blocked d ∧ v.clock < d ∧ d ≤ u.clock + FLUSH_INTERVAL) := by
  have hpunctual : (flushThreads ε).Punctual u := deadline_le rfl hbefore
  -- `rank` bounds the steps that are left, and every step of the thread takes one off
  have hstart : Stopping (u.clock + FLUSH_INTERVAL) u :=
    ⟨placed_reachable hbefore, hstop, fun d _ hd => hpunctual d hd⟩
  have hkeep : ∀ n x e y, Stopping (u.clock + FLUSH_INTERVAL) x ∧ rank x + n ≤ rank u →
      (flushThreads ε).step x e = some y →
      Stopping (u.clock + FLUSH_INTERVAL) y ∧
        rank y + (n + if isBackground e then 1 else 0) ≤ rank u := by
    intro n x e y hx hstep
    have hrank := rank_step hx.1 hstep
    exact ⟨stopping_step hx.1 hstep, by omega⟩
  obtain ⟨hstopping, hcount⟩ := Run.exec_invariant_sum hkeep
    ⟨hstart, Nat.le_of_eq (Nat.add_zero _)⟩ hafter
  rw [Nat.zero_add, sum_background] at hcount
  have hle := rank_le u
  refine ⟨by omega, fun hloop => ?_⟩
  -- the thread sleeps at most until the deadline of the wait that it is in
  rcases background_enabled hstopping hloop with henabled | ⟨d, hplace, hclock⟩
  · exact .inl henabled
  · exact .inr ⟨d, hplace, hclock, hstopping.wakesUp d (by rw [hplace]; rfl) (by rw [hplace]; rfl)⟩

/-- The thread has found `m_stop` false when the destructor sets it and notifies: it goes to sleep
with the notification gone. -/
def lostNotification : List (Event (ThreadAction Unit)) :=
  [.act .testStop, .act .lock, .test, .act .stop, .act .notifyOne, .block]

/-- It wakes up by the timer, and `join` returns. -/
def timedOut : List (Event (ThreadAction Unit)) :=
  [.tick FLUSH_INTERVAL, .timeout, .relock true, .act .unlock, .act .check, .act .join]

/-- The notification comes before the thread waits, and is lost; the thread ends by its timeout,
within the bound. -/
theorem join_steps_lostNotification : ∃ u v,
    Run.exec (flushThreads Unit).step (started [] 0 0) lostNotification = some u ∧
      u.place.asleep = true ∧ Run.exec (flushThreads Unit).step u timedOut = some v ∧
      v.shared.destructor = .joined ∧ timedOut.countP isBackground
        ≤ workload u.shared.writer + 7 := by
  have hbefore : Run.exec (flushThreads Unit).step (started [] 0 0) lostNotification = some _ := rfl
  refine ⟨_, _, hbefore, rfl, rfl, rfl, ?_⟩
  exact (join_steps hbefore rfl
    (show Run.exec (flushThreads Unit).step _ timedOut = some _ from rfl)).1

/-! ## The last flush

When the thread has been joined nobody else can write or flush. The last `flush()` takes what is in
the buffer, and unless its `BEGIN` fails it leaves the buffer empty. -/

/-- The `BEGIN` of the destructor's `flush()` does not fail. -/
def LastBeginSucceeds (u : Monitor.State (FlushThreads ε)) (e : Event (ThreadAction ε)) : Prop :=
  u.shared.destructor = .joined → e ≠ .act (.eventLoop (.begin .eventLoop false))

/-- What the destructor leaves: its `flush()` has not taken the buffer yet, or has emptied it. -/
structure LastFlush (u : Monitor.State (FlushThreads ε)) : Prop extends Placed u where
  faultfree : u.shared.writer.Faultfree
  emptied : u.shared.destructor = .joined →
    u.shared.writer.reading = false ∧ (u.shared.writer.phase .eventLoop = .entered ∨
      u.shared.writer.buffer = [] ∧
        ∀ q, u.shared.writer.phase .eventLoop ≠ .beginFailed q)

/-- One step of the destructor's `flush()`. -/
theorem emptied_step (hok : w.Faultfree) {a : WriterAction ε}
    (hflusher : a.inFlush = some .eventLoop)
    (hfaultless : Faultless a) (hbegin : a ≠ .begin .eventLoop false)
    (h : w.reading = false ∧ (w.phase .eventLoop = .entered ∨
      w.buffer = [] ∧ ∀ q, w.phase .eventLoop ≠ .beginFailed q))
    (hstep : w.step a = some w') :
    w'.reading = false ∧ (w'.phase .eventLoop = .entered ∨
      w'.buffer = [] ∧ ∀ q, w'.phase .eventLoop ≠ .beginFailed q) := by
  obtain ⟨hreading, hemptied⟩ := h
  -- past the first section of `flush()` the buffer is empty
  have hempty : w.phase .eventLoop ≠ .entered → w.buffer = [] := by
    intro hne
    exact (hemptied.resolve_left hne).1
  cases DatabaseCdrWriter.step_cases hstep with
  | takeBuffer f hphase =>
    cases hflusher
    unfold takeBuffer
    split
    · next hbuffer => exact ⟨hreading, .inr ⟨hbuffer, fun q => by simp⟩⟩
    · exact ⟨hreading, .inr ⟨rfl, fun q => by simp⟩⟩
  | beginOk f q hphase _ _ =>
    cases hflusher
    exact ⟨hreading, .inr ⟨hempty (by simp [hphase]), fun q => by simp⟩⟩
  | beginFailed f q hphase =>
    cases hflusher
    exact absurd rfl hbegin
  | putBack f q hphase =>
    cases hflusher
    rcases hemptied with hentered | ⟨-, hnot⟩
    · rw [hphase] at hentered; cases hentered
    · exact absurd hphase (hnot q)
  | insertDone f entry q hphase =>
    cases hflusher
    exact ⟨hreading, .inr ⟨hempty (by simp [hphase]), fun q => by simp⟩⟩
  | insertFailed f entry q hphase => cases hfaultless
  | rollbackOk f q _ hphase _ => exact absurd hphase (hok.noFailure f q).1
  | rollbackFailed f q hphase => exact absurd hphase (hok.noFailure f q).1
  | giveBack f q hphase => exact absurd hphase (hok.noFailure f q).2
  | commitOk f _ hphase _ =>
    cases hflusher
    exact ⟨hreading, .inr ⟨hempty (by simp [hphase]), fun q => by simp⟩⟩
  | commitFailedOpen f hphase => cases hfaultless
  | commitFailedRolledBack f _ hphase _ => cases hfaultless
  | _ => cases hflusher

/-- One step keeps `LastFlush`: once the thread is joined, only the `flush()` of the destructor and
the clock go on. -/
theorem lastFlush_step (h : LastFlush u) {e : Event (ThreadAction ε)}
    (hok : ∀ a ∈ writerActions u e, Faultless a) (hbegin : LastBeginSucceeds u e)
    (hstep : (flushThreads ε).step u e = some v) : LastFlush v := by
  have hplaced : Placed v := placed_step h.toPlaced hstep
  have hfaultfree : v.shared.writer.Faultfree :=
    Run.exec_invariant_along (fun _ _ _ hw ha hs =>
      faultfree_step hw ha (DatabaseCdrWriter.step_cases hs))
      h.faultfree (Run.along_of_forall (fun a ha _ => hok a ha) _) (exec_writerActions hstep)
  refine ⟨hplaced, hfaultfree, ?_⟩
  cases Monitor.step_cases hstep with
  | act a shared place hact hmoves => ?_
  | _ => exact h.emptied
  intro hjoined
  -- once joined, only the last `flush()` and the clock go on
  have hgone : ∀ {p : LoopPosition}, u.shared.loop = p → p ≠ .exited →
      u.shared.destructor = .joined → False := by
    intro p hloop hp hj
    exact hp (hloop.symm.trans (h.joined hj))
  cases act_cases hact with
  | exitTop w hloop _ _ => exact (hgone hloop (by simp) hjoined).elim
  | testStop hloop _ => exact (hgone hloop (by simp) hjoined).elim
  | lock hloop => exact (hgone hloop (by simp) hjoined).elim
  | unlock hloop => exact (hgone hloop (by simp) hjoined).elim
  | exitCheck w hloop _ _ => exact (hgone hloop (by simp) hjoined).elim
  | check w hloop _ _ => exact (hgone hloop (by simp) hjoined).elim
  | flushStep b w hloop _ _ => exact (hgone hloop (by simp) hjoined).elim
  | flushReturned hloop _ => exact (hgone hloop (by simp) hjoined).elim
  | stop w _ _ => cases hjoined
  | notifyOne _ => cases hjoined
  | eventLoop b w hmay hw =>
    rcases may_cases hmay with ⟨hnot, -⟩ | ⟨hj, hflusher⟩
    · rw [show u.shared.destructor = .joined from hjoined] at hnot
      cases hnot
    · have hb : b ≠ .begin .eventLoop false := fun hb => hbegin hj (by rw [hb])
      exact emptied_step h.faultfree hflusher (hok b (by simp [writerActions])) hb (h.emptied hj) hw
  | join w _ _ hw =>
    cases DatabaseCdrWriter.step_cases hw with
    | callEventLoop hfree =>
      exact ⟨(eventLoopFree_iff.mp hfree).2, .inl (by simp)⟩
  | tick seconds w hw =>
    cases DatabaseCdrWriter.step_cases hw with
    | tick _ => exact h.emptied hjoined

/-- Once the destructor's `flush()` has returned, the writer has nothing but committed rows. -/
theorem inventory_of_joined {prior : List (Row ε)} {now clock : ℕ}
    {es : List (Event (ThreadAction ε))}
    (hrun : Run.exec (flushThreads ε).step (started prior now clock) es = some v)
    (hok : ∀ a ∈ writerTrace (started prior now clock) es, Faultless a)
    (hbegin : Run.Along (flushThreads ε).step LastBeginSucceeds (started prior now clock) es)
    (hjoined : v.shared.destructor = .joined)
    (hreturned : v.shared.writer.phase .eventLoop = .idle) :
    v.shared.writer.db.transaction = none ∧
      v.shared.writer.inventory
        = (v.shared.writer.db.committed.map Row.entry : Multiset ε) := by
  have hlast : LastFlush v :=
    Run.exec_invariant_along
      (fun _ _ _ h hP hstep => lastFlush_step h hP.1 hP.2 hstep)
      ⟨placed_started prior now clock, faultfree_constructed prior now, fun h => by cases h⟩
      ((Run.along_of_trace hok).and hbegin) hrun
  -- both flushers are idle: the thread is joined, and the destructor's own `flush()` has returned
  have hidle : ∀ f, v.shared.writer.phase f = .idle := by
    intro f
    cases f with
    | background => exact hlast.idle (by simp [hlast.joined hjoined])
    | eventLoop => exact hreturned
  -- that `flush()` has taken what was left
  have hbuffer : v.shared.writer.buffer = [] := by
    rcases (hlast.emptied hjoined).2 with hentered | ⟨hempty, -⟩
    · rw [hreturned] at hentered; cases hentered
    · exact hempty
  -- a transaction would belong to one of the two
  have hnone : v.shared.writer.db.transaction = none := by
    by_contra hopen
    obtain ⟨f, hf⟩ := hlast.faultfree.owner hopen
    simp [hidle f, Phase.owns] at hf
  refine ⟨hnone, ?_⟩
  simp [inventory, localQueues, tableEntries, hidle, hbuffer, Phase.toFlush, Sqlite.rows, hnone]

/-- **The destructor leaves nothing behind.** If no `INSERT` and no `COMMIT` of the run fails, a
batch given back after a failed `BEGIN` always meets an empty buffer, and the `BEGIN` of the
destructor's `flush()` succeeds, then every entry is a committed row when that `flush()` has
returned. -/
theorem destructor_commits {prior : List (Row ε)} {now clock : ℕ}
    {es : List (Event (ThreadAction ε))}
    (hrun : Run.exec (flushThreads ε).step (started prior now clock) es = some v)
    (hok : ∀ a ∈ writerTrace (started prior now clock) es, Faultless a)
    (hswap : Run.Along DatabaseCdrWriter.step MeetsEmptyBuffer
      (DatabaseCdrWriter.constructed prior now) (writerTrace (started prior now clock) es))
    (hbegin : Run.Along (flushThreads ε).step LastBeginSucceeds (started prior now clock) es)
    (hjoined : v.shared.destructor = .joined)
    (hreturned : v.shared.writer.phase .eventLoop = .idle) :
    v.shared.writer.db.transaction = none ∧
      (v.shared.writer.db.committed.map Row.entry : Multiset ε)
        = (prior.map Row.entry : Multiset ε) + (es.flatMap calls : Multiset ε) := by
  obtain ⟨hnone, hinventory⟩ := inventory_of_joined hrun hok hbegin hjoined hreturned
  have hacc := accounted_of_along hok hswap (writer_run hrun)
  rw [Accounted, writes_writerTrace hrun] at hacc
  exact ⟨hnone, hinventory.symm.trans hacc⟩

/-- A record is written, and the destructor's `flush()` stores it. -/
def closedRun : List (Event (ThreadAction Unit)) :=
  [.act .testStop, .act .lock, .test, .block, .act (.eventLoop (.writeAction ())), .act .stop,
    .act .notifyOne, .relock false, .test, .act .unlock, .act .check, .act .join,
    .act (.eventLoop (.takeBuffer .eventLoop)), .act (.eventLoop (.begin .eventLoop true)),
    .act (.eventLoop (.insert .eventLoop true)), .act (.eventLoop (.commit .eventLoop .ok))]

/-- One record, written before the destructor: its row is in the table when the destructor returns.
-/
theorem destructor_commits_closedRun : ∃ v,
    Run.exec (flushThreads Unit).step (started [] 0 0) closedRun = some v ∧
      (v.shared.writer.db.committed.map Row.entry : Multiset Unit) = {()} := by
  have hrun : Run.exec (flushThreads Unit).step (started [] 0 0) closedRun = some _ := rfl
  have htrace : writerTrace (started [] 0 0) closedRun
      = [.writeAction (), .setStop, .exitLoop, .callFlush .eventLoop, .takeBuffer .eventLoop,
        .begin .eventLoop true, .insert .eventLoop true, .commit .eventLoop .ok] := rfl
  have hcommits := destructor_commits hrun (by rw [htrace]; simp [Faultless])
    (by rw [htrace]; exact Run.along_of_forall (by simp [MeetsEmptyBuffer]) _)
    (Run.along_of_forall (by simp [closedRun, LastBeginSucceeds]) _) rfl rfl
  exact ⟨_, hrun, hcommits.2⟩

end FlushThreads
end Pgw
