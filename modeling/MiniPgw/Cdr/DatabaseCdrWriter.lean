import Mathlib.Logic.Function.Basic
import MiniPgw.Lib.Run

/-!
# DatabaseCdrWriter — the buffered CDR writer and its two flushers

`DatabaseCdrWriter` collects CDR entries in `m_buffer` and moves them to SQLite with `flush()`,
which runs on two threads: the background thread of `flushLoop`, and the event-loop thread inside
`getRecentRecords` (and once more in the destructor). Both use one connection.

The model is a step function. An atomic step is a section under `m_mutex` or one SQLite call
together with the bookkeeping of the local queue that follows it; `Phase` is the place where a
`flush()` stands between two such steps. What SQLite answers is part of the step, and the
connection state `Sqlite` decides which answers are possible.

The entry type `ε` is a parameter: the writer only moves entries around. Taking
`ε := Nat × CdrEntry` numbers the calls of `writeAction`.
-/

namespace Pgw

/-! ## The connection

One connection for both threads, as `DatabaseManager` hands it out. Its transaction is the
connection's, not the thread's: a statement of the other thread in between takes part in it. -/

/-- A row of `cdr_records`. The `id` column is the position of the row in the table: rows are only
ever appended, and `AUTOINCREMENT` counts up. -/
structure Row (ε : Type) where
  entry : ε
  /-- `DEFAULT CURRENT_TIMESTAMP`, in seconds. -/
  timestamp : Nat
  deriving DecidableEq, Repr

/-- The SQLite connection of `DatabaseManager`. -/
structure Sqlite (ε : Type) where
  /-- `m_db != nullptr` -/
  isConnected : Bool
  /-- What `CURRENT_TIMESTAMP` reads. -/
  now : Nat
  committed : List (Row ε)
  /-- The rows inserted since `BEGIN IMMEDIATE`, while a transaction is open. -/
  transaction : Option (List (Row ε))

namespace Sqlite

variable {ε : Type}

/-- The rows that the connection sees: the committed ones and those of its open transaction. -/
def rows (db : Sqlite ε) : List (Row ε) :=
  db.committed ++ db.transaction.getD []

/-- A successful `BEGIN IMMEDIATE`; impossible inside an open transaction. -/
def beginImmediate (db : Sqlite ε) : Option (Sqlite ε) :=
  if db.isConnected ∧ db.transaction.isNone then some { db with transaction := some [] } else none

/-- A successful `INSERT`. Outside a transaction it commits at once. -/
def insertRow (db : Sqlite ε) (entry : ε) : Sqlite ε :=
  match db.transaction with
  | some inserted => { db with transaction := some (inserted ++ [⟨entry, db.now⟩]) }
  | none => { db with committed := db.committed ++ [⟨entry, db.now⟩] }

/-- A successful `ROLLBACK`: it needs an open transaction and discards its rows. -/
def rollback (db : Sqlite ε) : Option (Sqlite ε) :=
  match db.transaction with
  | some _ => some { db with transaction := none }
  | none => none

/-- A successful `COMMIT`: it needs an open transaction. -/
def commit (db : Sqlite ε) : Option (Sqlite ε) :=
  match db.transaction with
  | some inserted => some { db with committed := db.committed ++ inserted, transaction := none }
  | none => none

/-- `ROLLBACK` needs a transaction, and drops what was inserted in it. -/
theorem rollback_eq_some {db db' : Sqlite ε} : db.rollback = some db' ↔
    ∃ inserted, db.transaction = some inserted ∧ { db with transaction := none } = db' := by
  cases h : db.transaction <;> simp [rollback, h]

/-- `COMMIT` needs one too, and makes its rows permanent. -/
theorem commit_eq_some {db db' : Sqlite ε} : db.commit = some db' ↔
    ∃ inserted, db.transaction = some inserted ∧
      { db with committed := db.committed ++ inserted, transaction := none } = db' := by
  cases h : db.transaction <;> simp [commit, h]

end Sqlite

/-! ## The writer

The two threads interleave at the ends of the locked sections and at the calls of SQLite. A phase
says where a thread stands in between, with the local queue that it carries along. -/

/-- The two threads that run `flush()`. -/
inductive Flusher where
  | background
  | eventLoop
  deriving DecidableEq, Repr

/-- Where a thread stands in `flush()`, with the local queue `toFlush` once it has one. -/
inductive Phase (ε : Type) where
  | idle
  /-- `flush()` has been called; the buffer is not taken yet. -/
  | entered
  | taken (toFlush : List ε)
  /-- `BEGIN IMMEDIATE` failed; the queue is to be given back. -/
  | beginFailed (toFlush : List ε)
  | inserting (toFlush : List ε)
  /-- An `INSERT` failed; `ROLLBACK` is next. -/
  | insertFailed (toFlush : List ε)
  /-- `ROLLBACK` was executed; the rest of the queue is to be given back. -/
  | rolledBack (toFlush : List ε)
  deriving DecidableEq, Repr

/-- The local queue of a running `flush()`. -/
def Phase.toFlush {ε : Type} : Phase ε → List ε
  | .idle => []
  | .entered => []
  | .taken q => q
  | .beginFailed q => q
  | .inserting q => q
  | .insertFailed q => q
  | .rolledBack q => q

/-- Nobody is in this flush. -/
def Phase.isIdle {ε : Type} : Phase ε → Bool
  | .idle => true
  | _ => false

/-- `isIdle` as an equation. -/
theorem Phase.isIdle_iff {ε : Type} {p : Phase ε} : p.isIdle = true ↔ p = .idle := by
  cases p <;> simp [Phase.isIdle]

structure DatabaseCdrWriter (ε : Type) where
  db : Sqlite ε
  /-- `m_buffer` -/
  buffer : List ε
  /-- `m_stop` -/
  stop : Bool
  /-- `flushLoop` has returned. -/
  loopExited : Bool
  /-- The event-loop thread is inside `getRecentRecords`. -/
  reading : Bool
  phase : Flusher → Phase ε

/-- How a `COMMIT` ends. A failing one leaves the transaction open (`SQLITE_BUSY`) or rolls it
back. -/
inductive CommitOutcome where
  | ok
  | failedOpen
  | failedRolledBack
  deriving DecidableEq, Repr

inductive WriterAction (ε : Type) where
  | writeAction (entry : ε)
  | callFlush (f : Flusher)
  | getRecentRecords
  | takeBuffer (f : Flusher)
  | begin (f : Flusher) (succeeds : Bool)
  | putBack (f : Flusher)
  | insert (f : Flusher) (done : Bool)
  | rollback (f : Flusher) (succeeds : Bool)
  | giveBack (f : Flusher)
  | commit (f : Flusher) (outcome : CommitOutcome)
  | select
  | setStop
  | exitLoop
  | tick (seconds : Nat)
  deriving DecidableEq, Repr

namespace DatabaseCdrWriter

variable {ε : Type}

/-- The writer that the constructor leaves: it throws unless the database is connected. -/
def constructed (committed : List (Row ε)) (now : Nat) : DatabaseCdrWriter ε where
  db := { isConnected := true, now := now, committed := committed, transaction := none }
  buffer := []
  stop := false
  loopExited := false
  reading := false
  phase := fun _ => .idle

/-- The flush `f` is now in the phase `p`. -/
def setPhase (w : DatabaseCdrWriter ε) (f : Flusher) (p : Phase ε) : DatabaseCdrWriter ε :=
  { w with phase := Function.update w.phase f p }

@[simp] theorem setPhase_db (w : DatabaseCdrWriter ε) (f : Flusher) (p : Phase ε) :
    (w.setPhase f p).db = w.db := rfl

@[simp] theorem setPhase_buffer (w : DatabaseCdrWriter ε) (f : Flusher) (p : Phase ε) :
    (w.setPhase f p).buffer = w.buffer := rfl

@[simp] theorem setPhase_phase (w : DatabaseCdrWriter ε) (f : Flusher) (p : Phase ε) :
    (w.setPhase f p).phase = Function.update w.phase f p := rfl

@[simp] theorem setPhase_stop (w : DatabaseCdrWriter ε) (f : Flusher) (p : Phase ε) :
    (w.setPhase f p).stop = w.stop := rfl

@[simp] theorem setPhase_loopExited (w : DatabaseCdrWriter ε) (f : Flusher) (p : Phase ε) :
    (w.setPhase f p).loopExited = w.loopExited := rfl

@[simp] theorem setPhase_reading (w : DatabaseCdrWriter ε) (f : Flusher) (p : Phase ε) :
    (w.setPhase f p).reading = w.reading := rfl

/-- The event-loop thread is not inside another call of the writer. -/
def eventLoopFree (w : DatabaseCdrWriter ε) : Bool :=
  (w.phase .eventLoop).isIdle && !w.reading

/-- The event loop calls the writer when it is neither in a flush nor before a `SELECT`. -/
theorem eventLoopFree_iff {w : DatabaseCdrWriter ε} :
    w.eventLoopFree = true ↔ w.phase .eventLoop = .idle ∧ w.reading = false := by
  simp [eventLoopFree, Phase.isIdle_iff]

/-- `writeAction`: called on the event-loop thread. -/
def writeAction (w : DatabaseCdrWriter ε) (entry : ε) : DatabaseCdrWriter ε :=
  if w.db.isConnected then { w with buffer := w.buffer ++ [entry] } else w

/-- `getRecentRecords` up to its call of `flush()`. -/
def getRecentRecords (w : DatabaseCdrWriter ε) : DatabaseCdrWriter ε :=
  if w.db.isConnected then { w with reading := true }.setPhase .eventLoop .entered else w

/-- The first locked section of `flush()`: `toFlush.swap(m_buffer)`. -/
def takeBuffer (w : DatabaseCdrWriter ε) (f : Flusher) : DatabaseCdrWriter ε :=
  if w.buffer = [] then w.setPhase f .idle
  else { w with buffer := [] }.setPhase f (.taken w.buffer)

/-- `flush()` after a failed `BEGIN`: `if (!toFlush.empty()) toFlush.swap(m_buffer)`. What the
swap moves into the local queue is destroyed when `flush()` returns. -/
def putBack (w : DatabaseCdrWriter ε) (f : Flusher) (toFlush : List ε) : DatabaseCdrWriter ε :=
  { w with buffer := if toFlush = [] then w.buffer else toFlush }.setPhase f .idle

/-- `flush()` after a failed `INSERT`: the remaining entries are pushed into `m_buffer`. -/
def giveBack (w : DatabaseCdrWriter ε) (f : Flusher) (toFlush : List ε) : DatabaseCdrWriter ε :=
  { w with buffer := w.buffer ++ toFlush }.setPhase f .idle

/-- Thread `f` goes on to phase `p` after a call that left the connection as `db`. -/
def afterCall (w : DatabaseCdrWriter ε) (f : Flusher) (db : Sqlite ε) (p : Phase ε) :
    DatabaseCdrWriter ε :=
  { w with db := db }.setPhase f p

@[simp] theorem afterCall_db (w : DatabaseCdrWriter ε) (f : Flusher) (db : Sqlite ε)
    (p : Phase ε) : (w.afterCall f db p).db = db := rfl

@[simp] theorem afterCall_buffer (w : DatabaseCdrWriter ε) (f : Flusher) (db : Sqlite ε)
    (p : Phase ε) : (w.afterCall f db p).buffer = w.buffer := rfl

@[simp] theorem afterCall_phase (w : DatabaseCdrWriter ε) (f : Flusher) (db : Sqlite ε)
    (p : Phase ε) : (w.afterCall f db p).phase = Function.update w.phase f p := rfl

/-- One atomic step; `none` when the action cannot happen in this state. -/
def step (w : DatabaseCdrWriter ε) : WriterAction ε → Option (DatabaseCdrWriter ε)
  | .writeAction entry => if w.eventLoopFree then some (w.writeAction entry) else none
  -- `flushLoop` calls `flush()` only after `if (m_stop) break`
  | .callFlush .background =>
    if (w.phase .background).isIdle ∧ w.stop = false ∧ w.loopExited = false then
      some (w.setPhase .background .entered)
    else none
  | .callFlush .eventLoop =>
    if w.eventLoopFree then some (w.setPhase .eventLoop .entered) else none
  | .getRecentRecords => if w.eventLoopFree then some w.getRecentRecords else none
  | .takeBuffer f =>
    match w.phase f with
    | .entered => some (w.takeBuffer f)
    | _ => none
  | .begin f succeeds =>
    match w.phase f, succeeds with
    | .taken q, true => w.db.beginImmediate.map fun db => w.afterCall f db (.inserting q)
    | .taken q, false => some (w.setPhase f (.beginFailed q))
    | _, _ => none
  | .putBack f =>
    match w.phase f with
    | .beginFailed q => some (w.putBack f q)
    | _ => none
  | .insert f done =>
    match w.phase f, done with
    | .inserting (entry :: q), true => some (w.afterCall f (w.db.insertRow entry) (.inserting q))
    | .inserting (entry :: q), false => some (w.setPhase f (.insertFailed (entry :: q)))
    | _, _ => none
  -- the result of `execute(SQL_ROLLBACK)` is not looked at
  | .rollback f succeeds =>
    match w.phase f, succeeds with
    | .insertFailed q, true => w.db.rollback.map fun db => w.afterCall f db (.rolledBack q)
    | .insertFailed q, false => some (w.setPhase f (.rolledBack q))
    | _, _ => none
  | .giveBack f =>
    match w.phase f with
    | .rolledBack q => some (w.giveBack f q)
    | _ => none
  | .commit f outcome =>
    match w.phase f, outcome with
    | .inserting [], .ok => w.db.commit.map fun db => w.afterCall f db .idle
    -- `flush()` only logs the failure and returns
    | .inserting [], .failedOpen => some (w.setPhase f .idle)
    | .inserting [], .failedRolledBack => w.db.rollback.map fun db => w.afterCall f db .idle
    | _, _ => none
  -- the `SELECT` of `getRecentRecords`, once its `flush()` has returned
  | .select =>
    if (w.phase .eventLoop).isIdle ∧ w.reading = true then some { w with reading := false }
    else none
  | .setStop => if w.eventLoopFree then some { w with stop := true } else none
  | .exitLoop =>
    if (w.phase .background).isIdle ∧ w.stop = true then some { w with loopExited := true }
    else none
  | .tick seconds => some { w with db := { w.db with now := w.db.now + seconds } }

/-! ## What a step can do

`Step` lists the transitions of `step` with their guards; proofs about runs split on it and never
unfold `step`. -/

inductive Step (w : DatabaseCdrWriter ε) : WriterAction ε → DatabaseCdrWriter ε → Prop where
  | writeAction (entry : ε) (hfree : w.eventLoopFree = true) :
      Step w (.writeAction entry) (w.writeAction entry)
  | callBackground (hidle : w.phase .background = .idle) (hstop : w.stop = false)
      (hloop : w.loopExited = false) :
      Step w (.callFlush .background) (w.setPhase .background .entered)
  | callEventLoop (hfree : w.eventLoopFree = true) :
      Step w (.callFlush .eventLoop) (w.setPhase .eventLoop .entered)
  | getRecentRecords (hfree : w.eventLoopFree = true) :
      Step w .getRecentRecords w.getRecentRecords
  | takeBuffer (f : Flusher) (hphase : w.phase f = .entered) :
      Step w (.takeBuffer f) (w.takeBuffer f)
  | beginOk (f : Flusher) (q : List ε) (hphase : w.phase f = .taken q)
      (hconn : w.db.isConnected = true) (hnone : w.db.transaction = none) :
      Step w (.begin f true)
        (w.afterCall f { w.db with transaction := some [] } (.inserting q))
  | beginFailed (f : Flusher) (q : List ε) (hphase : w.phase f = .taken q) :
      Step w (.begin f false) (w.setPhase f (.beginFailed q))
  | putBack (f : Flusher) (q : List ε) (hphase : w.phase f = .beginFailed q) :
      Step w (.putBack f) (w.putBack f q)
  | insertDone (f : Flusher) (entry : ε) (q : List ε)
      (hphase : w.phase f = .inserting (entry :: q)) :
      Step w (.insert f true) (w.afterCall f (w.db.insertRow entry) (.inserting q))
  | insertFailed (f : Flusher) (entry : ε) (q : List ε)
      (hphase : w.phase f = .inserting (entry :: q)) :
      Step w (.insert f false) (w.setPhase f (.insertFailed (entry :: q)))
  | rollbackOk (f : Flusher) (q : List ε) (inserted : List (Row ε))
      (hphase : w.phase f = .insertFailed q) (hopen : w.db.transaction = some inserted) :
      Step w (.rollback f true) (w.afterCall f { w.db with transaction := none } (.rolledBack q))
  | rollbackFailed (f : Flusher) (q : List ε) (hphase : w.phase f = .insertFailed q) :
      Step w (.rollback f false) (w.setPhase f (.rolledBack q))
  | giveBack (f : Flusher) (q : List ε) (hphase : w.phase f = .rolledBack q) :
      Step w (.giveBack f) (w.giveBack f q)
  | commitOk (f : Flusher) (inserted : List (Row ε)) (hphase : w.phase f = .inserting [])
      (hopen : w.db.transaction = some inserted) :
      Step w (.commit f .ok)
        (w.afterCall f
          { w.db with committed := w.db.committed ++ inserted, transaction := none } .idle)
  | commitFailedOpen (f : Flusher) (hphase : w.phase f = .inserting []) :
      Step w (.commit f .failedOpen) (w.setPhase f .idle)
  | commitFailedRolledBack (f : Flusher) (inserted : List (Row ε))
      (hphase : w.phase f = .inserting []) (hopen : w.db.transaction = some inserted) :
      Step w (.commit f .failedRolledBack)
        (w.afterCall f { w.db with transaction := none } .idle)
  | select (hidle : w.phase .eventLoop = .idle) (hreading : w.reading = true) :
      Step w .select { w with reading := false }
  | setStop (hfree : w.eventLoopFree = true) : Step w .setStop { w with stop := true }
  | exitLoop (hidle : w.phase .background = .idle) (hstop : w.stop = true) :
      Step w .exitLoop { w with loopExited := true }
  | tick (seconds : Nat) :
      Step w (.tick seconds) { w with db := { w.db with now := w.db.now + seconds } }

/-- **The inversion of `step`.** -/
theorem step_cases {w w' : DatabaseCdrWriter ε} {a : WriterAction ε} (h : step w a = some w') :
    Step w a w' := by
  -- one constructor of `Step` for each branch of `step` that returns; the others are refused
  cases a with
  | writeAction entry =>
    simp only [step] at h
    split at h
    · next hfree => cases h; exact .writeAction entry hfree
    · cases h
  | callFlush f =>
    cases f with
    | background =>
      simp only [step] at h
      split at h
      · next hg => cases h; exact .callBackground (Phase.isIdle_iff.mp hg.1) hg.2.1 hg.2.2
      · cases h
    | eventLoop =>
      simp only [step] at h
      split at h
      · next hfree => cases h; exact .callEventLoop hfree
      · cases h
  | getRecentRecords =>
    simp only [step] at h
    split at h
    · next hfree => cases h; exact .getRecentRecords hfree
    · cases h
  | takeBuffer f =>
    simp only [step] at h
    split at h
    · next hphase => cases h; exact .takeBuffer f hphase
    · cases h
  | begin f succeeds =>
    simp only [step] at h
    split at h
    · -- `BEGIN IMMEDIATE` needs the connection and no transaction of the other flush
      next q hphase =>
      obtain ⟨db, hdb, rfl⟩ := Option.map_eq_some_iff.mp h
      simp only [Sqlite.beginImmediate, Option.isNone_iff_eq_none, Option.ite_none_right_eq_some,
        Option.some.injEq] at hdb
      obtain ⟨⟨hconn, hnone⟩, rfl⟩ := hdb
      exact .beginOk f q hphase hconn hnone
    · next q hphase => cases h; exact .beginFailed f q hphase
    · cases h
  | putBack f =>
    simp only [step] at h
    split at h
    · next q hphase => cases h; exact .putBack f q hphase
    · cases h
  | insert f done =>
    simp only [step] at h
    split at h
    · -- the row is inserted, or the loop over the batch is left for `ROLLBACK`
      next entry q hphase => cases h; exact .insertDone f entry q hphase
    · next entry q hphase => cases h; exact .insertFailed f entry q hphase
    · cases h
  | rollback f succeeds =>
    simp only [step] at h
    split at h
    · next q hphase =>
      obtain ⟨db, hdb, rfl⟩ := Option.map_eq_some_iff.mp h
      obtain ⟨inserted, hopen, rfl⟩ := Sqlite.rollback_eq_some.mp hdb
      exact .rollbackOk f q inserted hphase hopen
    · next q hphase => cases h; exact .rollbackFailed f q hphase
    · cases h
  | giveBack f =>
    simp only [step] at h
    split at h
    · next q hphase => cases h; exact .giveBack f q hphase
    · cases h
  | commit f outcome =>
    simp only [step] at h
    split at h
    · -- `COMMIT`: done, failed with the transaction open, or failed and rolled back by SQLite
      next hphase =>
      obtain ⟨db, hdb, rfl⟩ := Option.map_eq_some_iff.mp h
      obtain ⟨inserted, hopen, rfl⟩ := Sqlite.commit_eq_some.mp hdb
      exact .commitOk f inserted hphase hopen
    · next hphase => cases h; exact .commitFailedOpen f hphase
    · next hphase =>
      obtain ⟨db, hdb, rfl⟩ := Option.map_eq_some_iff.mp h
      obtain ⟨inserted, hopen, rfl⟩ := Sqlite.rollback_eq_some.mp hdb
      exact .commitFailedRolledBack f inserted hphase hopen
    · cases h
  | select =>
    simp only [step] at h
    split at h
    · next hg => cases h; exact .select (Phase.isIdle_iff.mp hg.1) hg.2
    · cases h
  | setStop =>
    simp only [step] at h
    split at h
    · next hfree => cases h; exact .setStop hfree
    · cases h
  | exitLoop =>
    simp only [step] at h
    split at h
    · next hg => cases h; exact .exitLoop (Phase.isIdle_iff.mp hg.1) hg.2
    · cases h
  | tick seconds => cases h; exact .tick seconds

end DatabaseCdrWriter
end Pgw
