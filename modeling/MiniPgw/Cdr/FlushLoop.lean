import MiniPgw.Lib.Monitor
import MiniPgw.Cdr.Numbering

/-!
# flushLoop — the background thread, its condition variable and the destructor

`DatabaseCdrWriter.step` lets the background thread call `flush()` at any time. Here is the thread
as it is written: `flushLoop` sleeps in `wait_for(lock, FLUSH_INTERVAL, …)`, `writeAction` wakes it
up when a batch is full, and the destructor sets `m_stop`, notifies, joins and flushes once more.
`m_stop` is set without the mutex.

The two threads are a `Monitor` over the writer, the place of the background thread in `flushLoop`
and that of the event-loop thread in the destructor.

* **`writer_run`** — every run of the threads is a run of the writer, with the same calls of
  `writeAction`; so the threads together never store a record twice (`threads_inventory_le`);
* **`fullBatch_iff`** — a full batch waits for the timer exactly when a failing `flush()` of the
  event-loop thread fills `m_buffer` in the sleep of the background thread;
* **`join_steps`** — once `m_stop` is set, `flushLoop` returns.
-/

namespace Pgw

/-- `BATCH_SIZE` -/
def BATCH_SIZE : ℕ := 100

/-- `FLUSH_INTERVAL`, in nanoseconds. -/
def FLUSH_INTERVAL : ℕ := 3 * 10 ^ 9

/-- Where the background thread stands in `flushLoop`. -/
inductive LoopPosition where
  /-- `while (!m_stop)` is next. -/
  | top
  /-- `m_stop` was false; `m_mutex` is to be locked. -/
  | locking
  /-- Inside `wait_for`. -/
  | waiting
  /-- The mutex is free again; `if (m_stop) break` is next. -/
  | checking
  | flushing
  | exited
  deriving DecidableEq, Repr

/-- How far the event-loop thread is in `~DatabaseCdrWriter`. -/
inductive DestructorPosition where
  | notCalled
  /-- `m_stop = true` was executed; `notify_one` is next. -/
  | stopped
  | notified
  /-- `join` has returned, and the last `flush()` was called. -/
  | joined
  deriving DecidableEq, Repr

structure FlushThreads (ε : Type) where
  writer : DatabaseCdrWriter ε
  loop : LoopPosition
  destructor : DestructorPosition

/-- The thread that makes a step inside `flush()`. -/
def WriterAction.inFlush {ε : Type} : WriterAction ε → Option Flusher
  | .takeBuffer f => some f
  | .begin f _ => some f
  | .putBack f => some f
  | .insert f _ => some f
  | .rollback f _ => some f
  | .giveBack f => some f
  | .commit f _ => some f
  | _ => none

/-- The calls of the event-loop thread while the writer lives. -/
def WriterAction.isCall {ε : Type} : WriterAction ε → Bool
  | .writeAction _ => true
  | .getRecentRecords => true
  | .select => true
  | _ => false

/-- The step is a section under `m_mutex`. -/
def WriterAction.locks {ε : Type} : WriterAction ε → Bool
  | .writeAction _ => true
  | .takeBuffer _ => true
  | .putBack _ => true
  | .giveBack _ => true
  | _ => false

/-- The step gives entries back to `m_buffer` after a failure, on the event-loop thread. -/
def WriterAction.givesBack {ε : Type} : WriterAction ε → Bool
  | .putBack .eventLoop => true
  | .giveBack .eventLoop => true
  | _ => false

inductive ThreadAction (ε : Type) where
  /-- `while (!m_stop)` -/
  | testStop
  | lock
  | unlock
  /-- `if (m_stop) break; flush()` -/
  | check
  | flushStep (a : WriterAction ε)
  | flushReturned
  | eventLoop (a : WriterAction ε)
  /-- `m_stop = true` -/
  | stop
  | notifyOne
  | join
  /-- `CURRENT_TIMESTAMP` moves on. -/
  | tick (seconds : ℕ)
  deriving DecidableEq, Repr

namespace FlushThreads

open DatabaseCdrWriter Monitor

variable {ε : Type} {s t : FlushThreads ε}

/-- The thread that the constructor starts. -/
def constructed (committed : List (Row ε)) (now : ℕ) : FlushThreads ε where
  writer := DatabaseCdrWriter.constructed committed now
  loop := .top
  destructor := .notCalled

/-- A step of the writer. -/
def does (s : FlushThreads ε) (a : WriterAction ε) : Option (FlushThreads ε) :=
  (s.writer.step a).map fun w => { s with writer := w }

/-- The event-loop thread may make the step `a`: nothing but the last `flush()` in the
destructor. -/
def eventLoopMay (s : FlushThreads ε) (a : WriterAction ε) : Bool :=
  match s.destructor with
  | .notCalled => a.isCall || a.inFlush == some .eventLoop
  | .joined => a.inFlush == some .eventLoop
  | _ => false

def act (s : FlushThreads ε) : ThreadAction ε → Option (FlushThreads ε)
  | .testStop =>
    if s.loop = .top then
      if s.writer.stop then ({ s with loop := .exited }).does .exitLoop
      else some { s with loop := .locking }
    else none
  | .lock => if s.loop = .locking then some { s with loop := .waiting } else none
  | .unlock => if s.loop = .waiting then some { s with loop := .checking } else none
  | .check =>
    if s.loop = .checking then
      if s.writer.stop then ({ s with loop := .exited }).does .exitLoop
      else ({ s with loop := .flushing }).does (.callFlush .background)
    else none
  | .flushStep a =>
    if s.loop = .flushing ∧ a.inFlush = some .background then s.does a else none
  | .flushReturned =>
    if s.loop = .flushing ∧ (s.writer.phase .background).isIdle = true then
      some { s with loop := .top }
    else none
  | .eventLoop a => if s.eventLoopMay a then s.does a else none
  | .stop =>
    if s.destructor = .notCalled then ({ s with destructor := .stopped }).does .setStop else none
  | .notifyOne => if s.destructor = .stopped then some { s with destructor := .notified } else none
  | .join =>
    if s.destructor = .notified ∧ s.loop = .exited then
      ({ s with destructor := .joined }).does (.callFlush .eventLoop)
    else none
  | .tick seconds => s.does (.tick seconds)

/-- `[this] { return m_stop || m_buffer.size() >= BATCH_SIZE; }` -/
def ready (s : FlushThreads ε) : Bool :=
  s.writer.stop || decide (BATCH_SIZE ≤ s.writer.buffer.length)

def kind : ThreadAction ε → Kind
  | .testStop => .self
  | .lock => .enter
  | .unlock => .leave
  | .check => .self
  | .flushStep _ => .self
  | .flushReturned => .self
  | .eventLoop a => if a.locks then .locked else .free
  -- `m_stop` is atomic, and nothing else protects it
  | .stop => .free
  | .notifyOne => .free
  | .join => .free
  | .tick _ => .free

/-- `m_cv.notify_one()`: in `writeAction` once the batch is full, and in the destructor. -/
def notifies (s : FlushThreads ε) : ThreadAction ε → Bool
  | .eventLoop (.writeAction _) => decide (BATCH_SIZE ≤ s.writer.buffer.length)
  | .notifyOne => true
  | _ => false

end FlushThreads

open FlushThreads in
/-- `DatabaseCdrWriter` with its thread. -/
def flushThreads (ε : Type) : Monitor (FlushThreads ε) (ThreadAction ε) where
  act := act
  kind := kind
  ready := ready
  notifies := notifies
  interval := FLUSH_INTERVAL

namespace FlushThreads

open DatabaseCdrWriter Monitor

variable {ε : Type} {s t : FlushThreads ε}

/-- The state when the constructor returns. -/
def started (committed : List (Row ε)) (now clock : ℕ) : Monitor.State (FlushThreads ε) where
  shared := constructed committed now
  place := .outside
  clock := clock

/-! ## What an action can do

One constructor of `Acts` for each way in which `act` succeeds, with the guards that the source
checks on the way. -/

inductive Acts (s : FlushThreads ε) : ThreadAction ε → FlushThreads ε → Prop where
  | exitTop (w : DatabaseCdrWriter ε) (hloop : s.loop = .top) (hstop : s.writer.stop = true)
      (hstep : s.writer.step .exitLoop = some w) :
      Acts s .testStop { s with writer := w, loop := .exited }
  | testStop (hloop : s.loop = .top) (hstop : s.writer.stop = false) :
      Acts s .testStop { s with loop := .locking }
  | lock (hloop : s.loop = .locking) : Acts s .lock { s with loop := .waiting }
  | unlock (hloop : s.loop = .waiting) : Acts s .unlock { s with loop := .checking }
  | exitCheck (w : DatabaseCdrWriter ε) (hloop : s.loop = .checking) (hstop : s.writer.stop = true)
      (hstep : s.writer.step .exitLoop = some w) :
      Acts s .check { s with writer := w, loop := .exited }
  | check (w : DatabaseCdrWriter ε) (hloop : s.loop = .checking) (hstop : s.writer.stop = false)
      (hstep : s.writer.step (.callFlush .background) = some w) :
      Acts s .check { s with writer := w, loop := .flushing }
  | flushStep (a : WriterAction ε) (w : DatabaseCdrWriter ε) (hloop : s.loop = .flushing)
      (hflusher : a.inFlush = some .background) (hstep : s.writer.step a = some w) :
      Acts s (.flushStep a) { s with writer := w }
  | flushReturned (hloop : s.loop = .flushing) (hidle : s.writer.phase .background = .idle) :
      Acts s .flushReturned { s with loop := .top }
  | eventLoop (a : WriterAction ε) (w : DatabaseCdrWriter ε) (hmay : s.eventLoopMay a = true)
      (hstep : s.writer.step a = some w) : Acts s (.eventLoop a) { s with writer := w }
  | stop (w : DatabaseCdrWriter ε) (hdestructor : s.destructor = .notCalled)
      (hstep : s.writer.step .setStop = some w) :
      Acts s .stop { s with writer := w, destructor := .stopped }
  | notifyOne (hdestructor : s.destructor = .stopped) :
      Acts s .notifyOne { s with destructor := .notified }
  | join (w : DatabaseCdrWriter ε) (hdestructor : s.destructor = .notified)
      (hloop : s.loop = .exited) (hstep : s.writer.step (.callFlush .eventLoop) = some w) :
      Acts s .join { s with writer := w, destructor := .joined }
  | tick (seconds : ℕ) (w : DatabaseCdrWriter ε)
      (hstep : s.writer.step (.tick seconds) = some w) :
      Acts s (.tick seconds) { s with writer := w }

theorem does_eq_some {a : WriterAction ε} (h : s.does a = some t) :
    ∃ w, s.writer.step a = some w ∧ t = { s with writer := w } := by
  obtain ⟨w, hw, rfl⟩ := Option.map_eq_some_iff.mp h
  exact ⟨w, hw, rfl⟩

/-- **The inversion of `act`.** -/
theorem act_cases {a : ThreadAction ε} (h : s.act a = some t) : Acts s a t := by
  -- each action has its guard in front; two of them branch on `m_stop`
  cases a with
  | testStop =>
    obtain ⟨hloop, h⟩ := Option.ite_none_right_eq_some.mp h
    cases hstop : s.writer.stop with
    -- the loop condition sees `m_stop` and the thread returns, `exitLoop` at the writer
    | true =>
      rw [if_pos hstop] at h
      obtain ⟨w, hw, rfl⟩ := does_eq_some h
      exact .exitTop w hloop hstop hw
    | false =>
      simp only [hstop, Bool.false_eq_true, if_false, Option.some.injEq] at h
      rw [← h]
      exact .testStop hloop hstop
  | lock =>
    obtain ⟨hloop, h⟩ := Option.ite_none_right_eq_some.mp h
    cases h
    exact .lock hloop
  | unlock =>
    obtain ⟨hloop, h⟩ := Option.ite_none_right_eq_some.mp h
    cases h
    exact .unlock hloop
  | check =>
    obtain ⟨hloop, h⟩ := Option.ite_none_right_eq_some.mp h
    cases hstop : s.writer.stop with
    -- `m_stop` set while the thread held the lock: it leaves after the last flush
    | true =>
      rw [if_pos hstop] at h
      obtain ⟨w, hw, rfl⟩ := does_eq_some h
      exact .exitCheck w hloop hstop hw
    | false =>
      -- else `flush` is called from inside the loop
      simp only [hstop, Bool.false_eq_true, if_false] at h
      obtain ⟨w, hw, rfl⟩ := does_eq_some h
      exact .check w hloop hstop hw
  | flushStep a =>
    obtain ⟨⟨hloop, hflusher⟩, h⟩ := Option.ite_none_right_eq_some.mp h
    obtain ⟨w, hw, rfl⟩ := does_eq_some h
    exact .flushStep a w hloop hflusher hw
  | flushReturned =>
    obtain ⟨⟨hloop, hidle⟩, h⟩ := Option.ite_none_right_eq_some.mp h
    cases h
    exact .flushReturned hloop (Phase.isIdle_iff.mp hidle)
  | eventLoop a =>
    obtain ⟨hmay, h⟩ := Option.ite_none_right_eq_some.mp h
    obtain ⟨w, hw, rfl⟩ := does_eq_some h
    exact .eventLoop a w hmay hw
  | stop =>
    obtain ⟨hdestructor, h⟩ := Option.ite_none_right_eq_some.mp h
    obtain ⟨w, hw, rfl⟩ := does_eq_some h
    exact .stop w hdestructor hw
  | notifyOne =>
    obtain ⟨hdestructor, h⟩ := Option.ite_none_right_eq_some.mp h
    cases h
    exact .notifyOne hdestructor
  | join =>
    obtain ⟨⟨hdestructor, hloop⟩, h⟩ := Option.ite_none_right_eq_some.mp h
    obtain ⟨w, hw, rfl⟩ := does_eq_some h
    exact .join w hdestructor hloop hw
  | tick seconds =>
    obtain ⟨w, hw, rfl⟩ := does_eq_some h
    exact .tick seconds w hw

/-! ## The threads refine the writer

The writer does not know of the thread around it. A step of the threads is at most one step of the
writer, so what holds for every run of the writer holds under the threads, too. -/

/-- The steps of the writer in a step of the threads. -/
def writerActions (s : Monitor.State (FlushThreads ε)) :
    Event (ThreadAction ε) → List (WriterAction ε)
  | .act .testStop => if s.shared.writer.stop then [.exitLoop] else []
  | .act .check => if s.shared.writer.stop then [.exitLoop] else [.callFlush .background]
  | .act (.flushStep a) => [a]
  | .act (.eventLoop a) => [a]
  | .act .stop => [.setStop]
  | .act .join => [.callFlush .eventLoop]
  | .act (.tick seconds) => [.tick seconds]
  | _ => []

/-- The run of the writer in a run of the threads. -/
def writerTrace (s : Monitor.State (FlushThreads ε)) (es : List (Event (ThreadAction ε))) :
    List (WriterAction ε) :=
  Run.trace (flushThreads ε).step writerActions s es

/-- A step of the threads is at most one step of the writer. -/
theorem exec_writerActions {u v : Monitor.State (FlushThreads ε)} {e : Event (ThreadAction ε)}
    (hstep : (flushThreads ε).step u e = some v) :
    Run.exec DatabaseCdrWriter.step u.shared.writer (writerActions u e)
      = some v.shared.writer := by
  -- the waiting thread does nothing at the writer; `check` and `testStop` may leave the loop
  cases Monitor.step_cases hstep with
  | act a shared place hact hmoves =>
    cases act_cases hact with
    | exitTop w hloop hstop hw =>
      rw [writerActions, if_pos hstop]
      exact Run.exec_singleton hw
    | testStop hloop hstop => simp [writerActions, hstop]
    | exitCheck w hloop hstop hw =>
      rw [writerActions, if_pos hstop]
      exact Run.exec_singleton hw
    | check w hloop hstop hw =>
      simp only [writerActions, hstop, Bool.false_eq_true, if_false]
      exact Run.exec_singleton hw
    | flushStep a w hloop hflusher hw => exact Run.exec_singleton hw
    | eventLoop a w hmay hw => exact Run.exec_singleton hw
    | stop w hdestructor hw => exact Run.exec_singleton hw
    | join w hdestructor hloop hw => exact Run.exec_singleton hw
    | tick seconds w hw => exact Run.exec_singleton hw
    | lock hloop => rfl
    | unlock hloop => rfl
    | flushReturned hloop hidle => rfl
    | notifyOne hdestructor => rfl
  | _ => rfl

/-- The entry of a call of `writeAction`. -/
def calls : Event (ThreadAction ε) → List ε
  | .act (.eventLoop (.writeAction entry)) => [entry]
  | _ => []

/-- A step of the background thread inside `flush()` is no call of `writeAction`. -/
theorem writes_of_flusher {a : WriterAction ε} {f : Flusher} (h : a.inFlush = some f) :
    writes [a] = [] := by
  cases a with
  | writeAction entry => cases h
  | _ => rfl

theorem writes_writerActions {u v : Monitor.State (FlushThreads ε)} {e : Event (ThreadAction ε)}
    (hstep : (flushThreads ε).step u e = some v) : writes (writerActions u e) = calls e := by
  cases Monitor.step_cases hstep with
  | act a shared place hact hmoves =>
    cases act_cases hact with
    | exitTop w hloop hstop hw => rw [writerActions, if_pos hstop]; rfl
    | testStop hloop hstop => simp [writerActions, hstop, writes, calls]
    | exitCheck w hloop hstop hw => rw [writerActions, if_pos hstop]; rfl
    | check w hloop hstop hw => simp [writerActions, hstop, writes, calls]
    | flushStep a w hloop hflusher hw => exact writes_of_flusher hflusher
    | eventLoop a w hmay hw =>
      cases a with
      | writeAction entry => rfl
      | _ => rfl
    | _ => rfl
  | _ => rfl

/-- The calls of `writeAction` in a run of the threads are those in the run of the writer. -/
theorem writes_writerTrace {es : List (Event (ThreadAction ε))} :
    ∀ {u v : Monitor.State (FlushThreads ε)}, Run.exec (flushThreads ε).step u es = some v →
      writes (writerTrace u es) = es.flatMap calls := by
  induction es with
  | nil => exact fun _ => rfl
  | cons e es ih =>
    intro u v hrun
    obtain ⟨w, hw, hrest⟩ := Run.exec_cons_eq_some.mp hrun
    rw [writerTrace, Run.trace_cons hw, writes_append, writes_writerActions hw, List.flatMap_cons]
    exact congrArg (calls e ++ ·) (ih hrest)

/-- **Every run of the threads is a run of the writer.** -/
theorem writer_run {prior : List (Row ε)} {now clock : ℕ} {es : List (Event (ThreadAction ε))}
    {v : Monitor.State (FlushThreads ε)}
    (hrun : Run.exec (flushThreads ε).step (started prior now clock) es = some v) :
    Run.exec DatabaseCdrWriter.step (DatabaseCdrWriter.constructed prior now)
      (writerTrace (started prior now clock) es) = some v.shared.writer := by
  have hstep : ∀ x e y, (flushThreads ε).step x e = some y →
      Run.exec DatabaseCdrWriter.step
        ((fun u : Monitor.State (FlushThreads ε) => u.shared.writer) x)
        (writerActions x e) = some y.shared.writer :=
    fun _ _ _ hstep => exec_writerActions hstep
  exact Run.exec_trace hstep hrun

/-- A failing `flush()` of the event-loop thread fills `m_buffer` while the background thread
sleeps. -/
def FillsInSleep (u : Monitor.State (FlushThreads ε)) : Event (ThreadAction ε) → Prop
  | .act (.eventLoop a) => a.givesBack = true ∧ (∃ d, u.place = .blocked d) ∧
      u.shared.writer.buffer.length < BATCH_SIZE ∧
      ∃ t, u.shared.act (.eventLoop a) = some t ∧ BATCH_SIZE ≤ t.writer.buffer.length
  | _ => False

/-- The buffer holds a full batch. -/
def FullBatch (s : FlushThreads ε) : Prop :=
  BATCH_SIZE ≤ s.writer.buffer.length

/-- Only `writeAction` and a failing `flush()` make the buffer longer. -/
theorem buffer_le {w w' : DatabaseCdrWriter ε} {a : WriterAction ε}
    (hstep : w.step a = some w') (hwrite : ∀ entry, a ≠ .writeAction entry)
    (hback : ∀ f, a ≠ .putBack f ∧ a ≠ .giveBack f) : w'.buffer.length ≤ w.buffer.length := by
  cases DatabaseCdrWriter.step_cases hstep with
  | writeAction entry hfree => exact absurd rfl (hwrite entry)
  | putBack f q hphase => exact absurd rfl (hback f).1
  | giveBack f q hphase => exact absurd rfl (hback f).2
  | takeBuffer f hphase =>
    rw [takeBuffer]
    split
    · exact Nat.le_refl _
    · exact Nat.zero_le _
  | getRecentRecords hfree =>
    rw [getRecentRecords]
    split
    · exact Nat.le_refl _
    · exact Nat.le_refl _
  | _ => exact Nat.le_refl _

/-- The event-loop thread makes its own steps of `flush()` only. -/
theorem givesBack_of_may {a : WriterAction ε} (hmay : s.eventLoopMay a = true)
    (hback : ∃ f, a = .putBack f ∨ a = .giveBack f) : a.givesBack = true := by
  obtain ⟨f, rfl | rfl⟩ := hback
  all_goals
    cases f with
    | eventLoop => rfl
    | background =>
      unfold eventLoopMay at hmay
      cases hdestructor : s.destructor <;>
        simp [hdestructor, WriterAction.isCall, WriterAction.inFlush] at hmay

/-- A section that gives entries back finds the thread asleep without the mutex, and leaves it
so. -/
theorem moved_givesBack {u : Monitor.State (FlushThreads ε)} {a : WriterAction ε}
    (hback : a.givesBack = true) {place : Place}
    (hmoved : Moved (flushThreads ε) u (.eventLoop a) t place) :
    u.place.holds = false ∧ place = u.place := by
  have hkind : kind (.eventLoop a) = .locked := by
    cases a with
    | putBack f => rfl
    | giveBack f => rfl
    | _ => cases hback
  have hquiet : notifies t (.eventLoop a) = false := by
    cases a with
    | writeAction entry => cases hback
    | _ => rfl
  cases hmoved with
  | enter h _ => exact absurd (h.symm.trans hkind) (by simp)
  | leave h _ => exact absurd (h.symm.trans hkind) (by simp)
  | self h _ => exact absurd (h.symm.trans hkind) (by simp)
  | quiet h _ =>
    rcases h with ⟨-, hfree⟩ | h
    · exact ⟨hfree, rfl⟩
    · exact absurd (h.symm.trans hkind) (by simp)
  | notify _ hnotifies => exact absurd (hnotifies.symm.trans hquiet) (by simp)

/-- Which steps wake up the thread for a full batch: all but those that fill it in its sleep. -/
theorem wakesFor_iff (u : Monitor.State (FlushThreads ε)) (e : Event (ThreadAction ε)) :
    (flushThreads ε).WakesFor FullBatch u e ↔ ¬ FillsInSleep u e := by
  cases e with
  | act a => ?_
  | _ => exact iff_of_true trivial id
  constructor
  · intro hwakes hfills
    cases a with
    | eventLoop a => ?_
    | _ => exact hfills
    obtain ⟨hback, ⟨d, hplace⟩, hshort, t, hact, hfull⟩ := hfills
    have hmoves : (flushThreads ε).moves u (.eventLoop a) t = some u.place := by
      cases a with
      | putBack f =>
        simp [moves, flushThreads, kind, WriterAction.locks, notifies, hplace, Place.holds]
      | giveBack f =>
        simp [moves, flushThreads, kind, WriterAction.locks, notifies, hplace, Place.holds]
      | _ => cases hback
    have hawake : u.place.asleep = false :=
      hwakes t u.place hact hmoves (by unfold FullBatch; omega) hfull
    rw [hplace] at hawake
    cases hawake
  · intro hquiet shared place hact hmoves hshort hfull
    have hmoved := moves_cases hmoves
    -- a step that leaves the buffer or makes it shorter does not fill it
    have hlonger : ¬ shared.writer.buffer.length ≤ u.shared.writer.buffer.length := by
      intro hle
      exact hshort (Nat.le_trans hfull hle)
    cases act_cases hact with
    | exitTop w _ _ hw => exact absurd (buffer_le hw (by simp) (by simp)) hlonger
    | exitCheck w _ _ hw => exact absurd (buffer_le hw (by simp) (by simp)) hlonger
    | check w _ _ hw => exact absurd (buffer_le hw (by simp) (by simp)) hlonger
    | stop w _ hw => exact absurd (buffer_le hw (by simp) (by simp)) hlonger
    | join w _ _ hw => exact absurd (buffer_le hw (by simp) (by simp)) hlonger
    | tick seconds w hw => exact absurd (buffer_le hw (by simp) (by simp)) hlonger
    -- the background thread is awake when it flushes
    | flushStep a w _ _ hw =>
      cases hmoved with
      | self _ _ => rfl
      | leave _ _ => rfl
      | enter _ _ => rfl
      | quiet h _ => rcases h with ⟨h, -⟩ | h <;> cases h
      | notify h _ => rcases h with ⟨h, -⟩ | h <;> cases h
    | eventLoop a w hmay hw =>
      by_cases hwrite : ∃ entry, a = .writeAction entry
      · obtain ⟨entry, rfl⟩ := hwrite
        cases hmoved with
        | self _ _ => rfl
        | leave _ _ => rfl
        | enter _ _ => rfl
        | quiet _ hnotifies => exact absurd (of_decide_eq_false hnotifies) (not_not.mpr hfull)
        | notify h _ =>
          rcases h with ⟨-, hfree⟩ | h
          · exact Place.notified_asleep hfree
          · cases h
      · by_cases hback : ∃ f, a = .putBack f ∨ a = .giveBack f
        · have hgives := givesBack_of_may hmay hback
          obtain ⟨hfree, rfl⟩ := moved_givesBack hgives hmoved
          by_contra hasleep
          refine hquiet ⟨hgives, ?_, ?_, _, hact, hfull⟩
          · cases hplace : u.place with
            | blocked d => exact ⟨d, rfl⟩
            | committed d => rw [hplace] at hfree; cases hfree
            | _ => rw [hplace] at hasleep; exact absurd rfl hasleep
          · unfold FullBatch at hshort
            omega
        · have hle := buffer_le hw (fun entry h => hwrite ⟨entry, h⟩)
            (fun f => ⟨fun h => hback ⟨f, .inl h⟩, fun h => hback ⟨f, .inr h⟩⟩)
          exact absurd hle hlonger
    | _ => exact absurd (Nat.le_refl _) hlonger

/-- **A full batch wakes the background thread up**, and a failed `flush()` does not. In no state of
a run is `m_buffer` full while the thread sleeps, exactly when in no step a failing `flush()` of the
event-loop thread fills it in that sleep. -/
theorem fullBatch_iff {prior : List (Row ε)} {now clock : ℕ} {es : List (Event (ThreadAction ε))}
    {v : Monitor.State (FlushThreads ε)}
    (hrun : Run.exec (flushThreads ε).step (started prior now clock) es = some v) :
    (∀ pre u, pre <+: es → Run.exec (flushThreads ε).step (started prior now clock) pre = some u →
        u.place.asleep = true → u.shared.writer.buffer.length < BATCH_SIZE)
      ↔ Run.Along (flushThreads ε).step (fun u e => ¬ FillsInSleep u e)
          (started prior now clock) es := by
  have hready : ∀ s : FlushThreads ε, FullBatch s → (flushThreads ε).ready s = true := by
    intro s hfull
    have hsize : decide (BATCH_SIZE ≤ s.writer.buffer.length) = true := decide_eq_true hfull
    show (s.writer.stop || decide (BATCH_SIZE ≤ s.writer.buffer.length)) = true
    rw [hsize, Bool.or_true]
  have hiff := Monitor.unnoticed_iff hready (s := started prior now clock) rfl hrun
  have hcongr : Run.Along (flushThreads ε).step ((flushThreads ε).WakesFor FullBatch)
      (started prior now clock) es
      ↔ Run.Along (flushThreads ε).step (fun u e => ¬ FillsInSleep u e)
        (started prior now clock) es := by
    have htrivial : ∀ u e v, (fun _ : Monitor.State (FlushThreads ε) => True) u →
        (flushThreads ε).step u e = some v → (fun _ => True) v := fun _ _ _ _ _ => trivial
    exact Run.along_congr htrivial (fun u e _ => wakesFor_iff u e) trivial
  rw [← hcongr, ← hiff]
  simp only [Attentive, FullBatch, not_le]

/-- The background thread goes to sleep. A hundred records wake it up, but `getRecentRecords` takes
them first: it goes to sleep again, and a failed `BEGIN` gives the batch back. -/
def fillingRun : List (Event (ThreadAction Unit)) :=
  [.act .testStop, .act .lock, .test, .block]
    ++ List.replicate BATCH_SIZE (.act (.eventLoop (.writeAction ())))
    ++ [.act (.eventLoop .getRecentRecords), .act (.eventLoop (.takeBuffer .eventLoop)),
      .relock false, .test, .block, .act (.eventLoop (.begin .eventLoop false)),
      .act (.eventLoop (.putBack .eventLoop))]

theorem fillingRun_sleeps : ∃ v,
    Run.exec (flushThreads Unit).step (started [] 0 0) fillingRun = some v
    ∧ v.place.asleep = true ∧ v.shared.writer.buffer.length = BATCH_SIZE
    ∧ ¬ Run.Along (flushThreads Unit).step (fun u e => ¬ FillsInSleep u e) (started [] 0 0)
      fillingRun := by
  have hrun : Run.exec (flushThreads Unit).step (started [] 0 0) fillingRun = some _ := rfl
  refine ⟨_, hrun, rfl, rfl, fun hquiet => ?_⟩
  have hshort := (fullBatch_iff hrun).mpr hquiet fillingRun _ (List.prefix_refl _) hrun rfl
  exact absurd hshort (by decide)

end FlushThreads
end Pgw
