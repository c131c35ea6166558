import Mathlib.Data.List.Nodup
import MiniPgw.Cdr.Conservation

/-!
# Numbered records

Two calls of `writeAction` may hand over the same entry, so the entries alone do not tell which
call a stored row comes from. The writer only moves entries around, whatever they are: `step_map`
says that it commutes with every renaming of the entries. So every run is the image of a run of
the same writer over numbered entries (`exec_number`), in which the rows that the table had before
the run and the calls of `writeAction` carry the numbers `0, 1, 2, …` in their order.

In the numbered run a call is one number, and the conservation law says that no number occurs
twice: **`stored_once`**.

## The architecture

* **`map`** — a renaming of the entries, for the rows, the phases, the connection and the writer,
  with one lemma for each operation of SQLite and each projection.
* **`step_map`** — a step commutes with the renaming, with a case for each action.
* **`exec_number`** — the calls of a run are numbered, and forgetting the numbers gives the run
  back.
* **`history`** — all numbers in order; **`nodup_history`** says that they are different.
* **`stored_once`** — by `inventory_le` the writer never has more of a number than the history,
  and that is one.
-/

namespace Pgw

variable {ε δ : Type}

/-! ## Renaming the entries

The writer is generic in its entries and only moves them around. Renaming them before a step or
after it comes to the same. -/

/-- A row with a renamed entry. SQLite has set the timestamp, which stays. -/
def Row.map (f : ε → δ) (row : Row ε) : Row δ where
  entry := f row.entry
  timestamp := row.timestamp

/-- The same table and the same transaction, over renamed entries. -/
def Sqlite.map (f : ε → δ) (db : Sqlite ε) : Sqlite δ where
  isConnected := db.isConnected
  now := db.now
  committed := db.committed.map (Row.map f)
  transaction := db.transaction.map (List.map (Row.map f))

/-- A flush in the same place, with renamed entries in its local queue. -/
def Phase.map (f : ε → δ) : Phase ε → Phase δ
  | .idle => .idle
  | .entered => .entered
  | .taken q => .taken (q.map f)
  | .beginFailed q => .beginFailed (q.map f)
  | .inserting q => .inserting (q.map f)
  | .insertFailed q => .insertFailed (q.map f)
  | .rolledBack q => .rolledBack (q.map f)

/-- Only `writeAction` carries an entry. -/
def WriterAction.map (f : ε → δ) : WriterAction ε → WriterAction δ
  | .writeAction entry => .writeAction (f entry)
  | .callFlush g => .callFlush g
  | .getRecentRecords => .getRecentRecords
  | .takeBuffer g => .takeBuffer g
  | .begin g succeeds => .begin g succeeds
  | .putBack g => .putBack g
  | .insert g done => .insert g done
  | .rollback g succeeds => .rollback g succeeds
  | .giveBack g => .giveBack g
  | .commit g outcome => .commit g outcome
  | .select => .select
  | .setStop => .setStop
  | .exitLoop => .exitLoop
  | .tick seconds => .tick seconds

@[simp] theorem Row.map_entry (f : ε → δ) (row : Row ε) : (row.map f).entry = f row.entry := rfl

/-- What a flush has still in its hands is renamed with it, -/
theorem Phase.toFlush_map (f : ε → δ) (p : Phase ε) : (p.map f).toFlush = p.toFlush.map f := by
  cases p <;> rfl

/-- and whether there is a flush at all does not depend on the entries. -/
theorem Phase.isIdle_map (f : ε → δ) (p : Phase ε) : (p.map f).isIdle = p.isIdle := by
  cases p <;> rfl

/-- The statements of a flush commute with a renaming: `BEGIN IMMEDIATE`, -/
theorem Sqlite.beginImmediate_map (f : ε → δ) (db : Sqlite ε) :
    (db.map f).beginImmediate = db.beginImmediate.map (Sqlite.map f) := by
  cases h : db.transaction <;> simp [Sqlite.beginImmediate, Sqlite.map, h]

/-- `INSERT`, which takes the renamed entry, -/
theorem Sqlite.insertRow_map (f : ε → δ) (db : Sqlite ε) (entry : ε) :
    (db.map f).insertRow (f entry) = (db.insertRow entry).map f := by
  cases h : db.transaction <;> simp [Sqlite.insertRow, Sqlite.map, Row.map, h]

/-- `ROLLBACK`, -/
theorem Sqlite.rollback_map (f : ε → δ) (db : Sqlite ε) :
    (db.map f).rollback = db.rollback.map (Sqlite.map f) := by
  cases h : db.transaction <;> simp [Sqlite.rollback, Sqlite.map, h]

/-- and `COMMIT`, which appends the renamed rows. -/
theorem Sqlite.commit_map (f : ε → δ) (db : Sqlite ε) :
    (db.map f).commit = db.commit.map (Sqlite.map f) := by
  cases h : db.transaction <;> simp [Sqlite.commit, Sqlite.map, h]

/-- So does what a `SELECT` on the connection would see. -/
theorem Sqlite.rows_map (f : ε → δ) (db : Sqlite ε) :
    (db.map f).rows = db.rows.map (Row.map f) := by
  cases h : db.transaction <;> simp [Sqlite.rows, Sqlite.map, h]

namespace DatabaseCdrWriter

/-- The whole writer over renamed entries: the buffer, the table and both flushes; the flags stay.
-/
def map (f : ε → δ) (w : DatabaseCdrWriter ε) : DatabaseCdrWriter δ where
  db := w.db.map f
  buffer := w.buffer.map f
  stop := w.stop
  loopExited := w.loopExited
  reading := w.reading
  phase := fun g => (w.phase g).map f

@[simp] theorem map_phase (f : ε → δ) (w : DatabaseCdrWriter ε) (g : Flusher) :
    (w.map f).phase g = (w.phase g).map f := rfl

@[simp] theorem map_stop (f : ε → δ) (w : DatabaseCdrWriter ε) : (w.map f).stop = w.stop := rfl

@[simp] theorem map_loopExited (f : ε → δ) (w : DatabaseCdrWriter ε) :
    (w.map f).loopExited = w.loopExited := rfl

@[simp] theorem map_reading (f : ε → δ) (w : DatabaseCdrWriter ε) :
    (w.map f).reading = w.reading := rfl

/-- A new writer has nothing to rename but the rows that were there before it. -/
theorem constructed_map (f : ε → δ) (committed : List (Row ε)) (now : Nat) :
    (constructed committed now).map f = constructed (committed.map (Row.map f)) now := rfl

/-- A flush may be moved on before or after the renaming. -/
theorem setPhase_map (f : ε → δ) (w : DatabaseCdrWriter ε) (g : Flusher) (p : Phase ε) :
    (w.setPhase g p).map f = (w.map f).setPhase g (p.map f) := by
  have hphase : (fun k => (Function.update w.phase g p k).map f)
      = Function.update (fun k => (w.phase k).map f) g (p.map f) := by
    funext k
    by_cases hk : k = g
    · subst hk; simp
    · simp [hk]
  simp only [setPhase, map, hphase]

/-- The same when SQLite has been called. -/
theorem afterCall_map (f : ε → δ) (w : DatabaseCdrWriter ε) (g : Flusher) (db : Sqlite ε)
    (p : Phase ε) : (w.afterCall g db p).map f = (w.map f).afterCall g (db.map f) (p.map f) :=
  setPhase_map f { w with db := db } g p

/-- Whether the event loop may call the writer does not depend on the entries. -/
theorem eventLoopFree_map (f : ε → δ) (w : DatabaseCdrWriter ε) :
    (w.map f).eventLoopFree = w.eventLoopFree := by
  simp only [eventLoopFree, map, Phase.isIdle_map]

/-- `writeAction` appends the renamed entry to the buffer, or drops it when there is no connection.
-/
theorem writeAction_map (f : ε → δ) (w : DatabaseCdrWriter ε) (entry : ε) :
    (w.map f).writeAction (f entry) = (w.writeAction entry).map f := by
  by_cases h : w.db.isConnected = true <;> simp [writeAction, map, Sqlite.map, h]

/-- `getRecentRecords` flushes and reads whatever the entries are. -/
theorem getRecentRecords_map (f : ε → δ) (w : DatabaseCdrWriter ε) :
    (w.map f).getRecentRecords = w.getRecentRecords.map f := by
  by_cases h : w.db.isConnected = true
  · have hmap : (w.map f).db.isConnected = true := h
    simp only [getRecentRecords, h, hmap, if_true, setPhase_map]
    rfl
  · have hmap : ¬ (w.map f).db.isConnected = true := h
    simp only [getRecentRecords, h, hmap]
    rfl

/-- `swap` looks only at whether the buffer is empty, and a renaming does not change that. -/
theorem takeBuffer_map (f : ε → δ) (w : DatabaseCdrWriter ε) (g : Flusher) :
    (w.map f).takeBuffer g = (w.takeBuffer g).map f := by
  by_cases h : w.buffer = []
  · have hmap : (w.map f).buffer = [] := by simp [map, h]
    simp only [takeBuffer, h, hmap, if_true, setPhase_map]
    rfl
  · have hmap : (w.map f).buffer ≠ [] := by simp [map, h]
    simp only [takeBuffer, h, hmap, if_false, setPhase_map]
    rfl

/-- The swap that returns the queue after a failed `BEGIN`, -/
theorem putBack_map (f : ε → δ) (w : DatabaseCdrWriter ε) (g : Flusher) (q : List ε) :
    (w.map f).putBack g (q.map f) = (w.putBack g q).map f := by
  by_cases h : q = []
  · rw [h, putBack, putBack, setPhase_map]
    rfl
  · have hmap : q.map f ≠ [] := by simp [h]
    rw [putBack, putBack, setPhase_map, if_neg h, if_neg hmap]
    rfl

/-- and the insertion in front of the buffer after a rollback. -/
theorem giveBack_map (f : ε → δ) (w : DatabaseCdrWriter ε) (g : Flusher) (q : List ε) :
    (w.map f).giveBack g (q.map f) = (w.giveBack g q).map f := by
  rw [giveBack, giveBack, setPhase_map]
  simp only [map, List.map_append]
  rfl

/-! ### The steps

One lemma for each kind of step that depends on the phase of its flusher and on what SQLite
answers. -/

/-- `flush` is entered by the thread of the writer or by the event loop, each under conditions that
do not look at the entries. -/
theorem step_callFlush_map (f : ε → δ) (w : DatabaseCdrWriter ε) (g : Flusher) :
    step (w.map f) (.callFlush g) = (step w (.callFlush g)).map (map f) := by
  cases g with
  | background =>
    simp only [step, map_phase, Phase.isIdle_map, map_stop, map_loopExited]
    split
    · rw [Option.map_some, setPhase_map]; rfl
    · rfl
  | eventLoop =>
    simp only [step, eventLoopFree_map]
    split
    · rw [Option.map_some, setPhase_map]; rfl
    · rfl

/-- Whether `BEGIN` succeeds is an input of the step, -/
theorem step_begin_map (f : ε → δ) (w : DatabaseCdrWriter ε) (g : Flusher) (succeeds : Bool) :
    step (w.map f) (.begin g succeeds) = (step w (.begin g succeeds)).map (map f) := by
  have hbegin : (w.map f).db.beginImmediate = w.db.beginImmediate.map (Sqlite.map f) :=
    Sqlite.beginImmediate_map f w.db
  simp only [step, map_phase, hbegin]
  cases w.phase g with
  | taken q =>
    cases succeeds with
    | true => simp [Phase.map, Function.comp_def, afterCall_map]
    | false => simp [Phase.map, setPhase_map]
  | _ => rfl

/-- as is whether an `INSERT` is done: with the head of the queue, or with none left, -/
theorem step_insert_map (f : ε → δ) (w : DatabaseCdrWriter ε) (g : Flusher) (done : Bool) :
    step (w.map f) (.insert g done) = (step w (.insert g done)).map (map f) := by
  simp only [step, map_phase]
  cases w.phase g with
  | inserting q =>
    cases q with
    | nil => cases done <;> rfl
    | cons entry q =>
      have hrow : (w.map f).db.insertRow (f entry) = (w.db.insertRow entry).map f :=
        Sqlite.insertRow_map f w.db entry
      cases done with
      | true => simp [Phase.map, hrow, afterCall_map]
      | false => simp [Phase.map, setPhase_map]
  | _ => cases done <;> rfl

/-- as is whether the `ROLLBACK` succeeds, -/
theorem step_rollback_map (f : ε → δ) (w : DatabaseCdrWriter ε) (g : Flusher) (succeeds : Bool) :
    step (w.map f) (.rollback g succeeds) = (step w (.rollback g succeeds)).map (map f) := by
  have hback : (w.map f).db.rollback = w.db.rollback.map (Sqlite.map f) :=
    Sqlite.rollback_map f w.db
  simp only [step, map_phase, hback]
  cases w.phase g with
  | insertFailed q =>
    cases succeeds with
    | true => simp [Phase.map, Function.comp_def, afterCall_map]
    | false => simp [Phase.map, setPhase_map]
  | _ => rfl

/-- and what comes of the `COMMIT`, which can leave the transaction open, roll it back or close it.
-/
theorem step_commit_map (f : ε → δ) (w : DatabaseCdrWriter ε) (g : Flusher)
    (outcome : CommitOutcome) :
    step (w.map f) (.commit g outcome) = (step w (.commit g outcome)).map (map f) := by
  have hcommit : (w.map f).db.commit = w.db.commit.map (Sqlite.map f) :=
    Sqlite.commit_map f w.db
  have hback : (w.map f).db.rollback = w.db.rollback.map (Sqlite.map f) :=
    Sqlite.rollback_map f w.db
  simp only [step, map_phase, hcommit, hback]
  cases w.phase g with
  | inserting q =>
    cases q with
    | nil =>
      cases outcome with
      | ok => simp [Phase.map, Function.comp_def, afterCall_map]
      | failedOpen => simp [Phase.map, setPhase_map]
      | failedRolledBack => simp [Phase.map, Function.comp_def, afterCall_map]
    | cons entry q => cases outcome <;> rfl
  | _ => cases outcome <;> rfl

/-- **The writer does not look at the entries.** It takes the same steps whatever they are. -/
theorem step_map (f : ε → δ) (w : DatabaseCdrWriter ε) (a : WriterAction ε) :
    step (w.map f) (a.map f) = (step w a).map (map f) := by
  -- each step looks at the flags, the phases and whether a queue is empty
  cases a with
  | writeAction entry =>
    simp only [WriterAction.map, step, eventLoopFree_map, writeAction_map]
    split <;> rfl
  | callFlush g => exact step_callFlush_map f w g
  | getRecentRecords =>
    simp only [WriterAction.map, step, eventLoopFree_map, getRecentRecords_map]
    split <;> rfl
  | takeBuffer g =>
    simp only [WriterAction.map, step, map_phase, takeBuffer_map]
    cases w.phase g <;> rfl
  | begin g succeeds => exact step_begin_map f w g succeeds
  | putBack g =>
    simp only [WriterAction.map, step, map_phase]
    cases w.phase g with
    | beginFailed q => simp [Phase.map, putBack_map]
    | _ => rfl
  | insert g done => exact step_insert_map f w g done
  | rollback g succeeds => exact step_rollback_map f w g succeeds
  | giveBack g =>
    simp only [WriterAction.map, step, map_phase]
    cases w.phase g with
    | rolledBack q => simp [Phase.map, giveBack_map]
    | _ => rfl
  | commit g outcome => exact step_commit_map f w g outcome
  | select =>
    simp only [WriterAction.map, step, map_phase, Phase.isIdle_map, map_reading]
    split <;> rfl
  | setStop =>
    simp only [WriterAction.map, step, eventLoopFree_map]
    split <;> rfl
  | exitLoop =>
    simp only [WriterAction.map, step, map_phase, Phase.isIdle_map, map_stop]
    split <;> rfl
  | tick seconds => rfl

/-- Everything that the writer has stored or still holds is renamed. -/
theorem inventory_map (f : ε → δ) (w : DatabaseCdrWriter ε) :
    (w.map f).inventory = w.inventory.map f := by
  have hbuffer : (w.map f).buffer = w.buffer.map f := rfl
  have hrows : (w.map f).db.rows = w.db.rows.map (Row.map f) := Sqlite.rows_map f w.db
  simp [inventory, localQueues, tableEntries, Phase.toFlush_map, hbuffer, hrows,
    Function.comp_def]

/-! ## Numbering the calls

A run over equal entries is the image of one over entries with a number each. There the entries are
different, and "twice" can be said. -/

/-- The rows of the table before the run, numbered from 0. -/
def numberRows (prior : List (Row ε)) : List (Row (ε × Nat)) :=
  prior.zipIdx.map fun p => p.1.map (·, p.2)

/-- The actions, their calls of `writeAction` numbered from `n`. -/
def number (n : Nat) : List (WriterAction ε) → List (WriterAction (ε × Nat))
  | [] => []
  | a :: as => a.map (·, n) :: number (n + (writes [a]).length) as

/-- The rows of the table before the run and the entries handed to `writeAction`, numbered in the
order of the table and of the calls. -/
def history (prior : List (Row ε)) (as : List (WriterAction ε)) : List (ε × Nat) :=
  (prior.map Row.entry ++ writes as).zipIdx

/-- The run `as` of the writer over numbered entries. -/
def numberedRun (prior : List (Row ε)) (now : Nat) (as : List (WriterAction ε)) :
    Option (DatabaseCdrWriter (ε × Nat)) :=
  Run.exec step (constructed (numberRows prior) now) (number prior.length as)

/-- Without their numbers, the rows are those that were there. -/
theorem map_fst_numberRows (prior : List (Row ε)) :
    (numberRows prior).map (Row.map Prod.fst) = prior := by
  have hrow : ∀ p : Row ε × Nat, (p.1.map (·, p.2)).map Prod.fst = p.1 := fun _ => rfl
  rw [numberRows, List.map_map]
  simp only [Function.comp_def, hrow]
  exact List.zipIdx_map_fst 0 prior

/-- The entries of the numbered rows carry the numbers from 0 on. -/
theorem map_entry_numberRows (prior : List (Row ε)) :
    (numberRows prior).map Row.entry = (prior.map Row.entry).zipIdx := by
  rw [numberRows, List.map_map, List.zipIdx_map]
  rfl

/-- Without its number, a call is the call that was made; -/
theorem map_fst_action (n : Nat) (a : WriterAction ε) :
    (a.map (·, n)).map Prod.fst = a := by
  cases a <;> rfl

/-- so the numbered run is a run of the original actions. -/
theorem map_fst_number (as : List (WriterAction ε)) :
    ∀ n, (number n as).map (WriterAction.map Prod.fst) = as := by
  induction as with
  | nil => exact fun _ => rfl
  | cons a as ih =>
    intro n
    rw [number, List.map_cons, ih, map_fst_action]

/-- The numbered calls hand over the entries in their order, with consecutive numbers. -/
theorem writes_number (as : List (WriterAction ε)) :
    ∀ n, writes (number n as) = (writes as).zipIdx n := by
  induction as with
  | nil => exact fun _ => rfl
  | cons a as ih =>
    intro n
    have hfirst : writes [a.map (·, n)] = (writes [a]).zipIdx n := by cases a <;> rfl
    have hsplit : writes (a :: as) = writes [a] ++ writes as := writes_append [a] as
    have hnumber : writes (number n (a :: as))
        = writes [a.map (·, n)] ++ writes (number (n + (writes [a]).length) as) :=
      writes_append [a.map (·, n)] _
    rw [hnumber, hfirst, ih, hsplit, List.zipIdx_append]

/-- The second part of a run goes on with the number that the first part has come to. -/
theorem number_append (as bs : List (WriterAction ε)) :
    ∀ n, number n (as ++ bs) = number n as ++ number (n + (writes as).length) bs := by
  induction as with
  | nil => exact fun _ => rfl
  | cons a as ih =>
    intro n
    have hsplit : writes (a :: as) = writes [a] ++ writes as := writes_append [a] as
    rw [List.cons_append, number, number, ih, hsplit, List.length_append, Nat.add_assoc,
      List.cons_append]

/-- **Every run is the image of its numbered run.** -/
theorem exec_number (prior : List (Row ε)) (now : Nat) (as : List (WriterAction ε)) :
    Run.exec step (constructed prior now) as
      = (numberedRun prior now as).map (map Prod.fst) := by
  have hmap := Run.exec_map (map Prod.fst) (WriterAction.map Prod.fst) (step_map Prod.fst)
    (number prior.length as) (constructed (numberRows prior) now)
  rw [constructed_map, map_fst_numberRows, map_fst_number] at hmap
  exact hmap

/-- The history lists the numbers of the table first, then those of the calls. -/
theorem history_eq (prior : List (Row ε)) (as : List (WriterAction ε)) :
    history prior as
      = (numberRows prior).map Row.entry ++ writes (number prior.length as) := by
  rw [history, List.zipIdx_append, map_entry_numberRows, writes_number, List.length_map,
    Nat.zero_add]

/-- The history is in the order of its numbers. -/
theorem pairwise_history (prior : List (Row ε)) (as : List (WriterAction ε)) :
    (history prior as).Pairwise fun a b => a.2 < b.2 := by
  have hsorted : ((history prior as).map Prod.snd).Pairwise (· < ·) := by
    rw [history, List.zipIdx_map_snd]
    exact List.pairwise_lt_range'
  exact List.pairwise_map.mp hsorted

/-- The numbers of the history are different. -/
theorem nodup_history (prior : List (Row ε)) (as : List (WriterAction ε)) :
    ((history prior as).map Prod.snd).Nodup := by
  exact (List.pairwise_map.mpr (pairwise_history prior as)).imp Nat.ne_of_lt

/-- The next action of a numbered run: its call gets the next number. -/
theorem numberedRun_concat {prior : List (Row ε)} {now : Nat} {as : List (WriterAction ε)}
    {a : WriterAction ε} {t : DatabaseCdrWriter (ε × Nat)} :
    numberedRun prior now (as ++ [a]) = some t ↔ ∃ s, numberedRun prior now as = some s ∧
      step s (a.map (·, (prior.length + (writes as).length))) = some t := by
  unfold numberedRun
  rw [number_append, Run.exec_append_eq_some]
  simp only [number, Run.exec_cons_eq_some, Run.exec_nil, Option.some.injEq, exists_eq_right]

/-! ## No record is stored twice

The inventory of the numbered run never has more of a number than its history has, which is one. -/

/-- A step never makes the inventory larger than by what is written. -/
theorem inventory_step_le (m : Multiset ε) (w : DatabaseCdrWriter ε) (a : WriterAction ε)
    (w' : DatabaseCdrWriter ε) (hw : w.inventory ≤ m) (hstep : step w a = some w') :
    w'.inventory ≤ m + written a := by
  have hlaw := step_inventory (step_cases hstep)
  calc w'.inventory ≤ w'.inventory + w.lost a := Multiset.le_add_right _ _
    _ = w.inventory + written a := hlaw
    _ ≤ m + written a := Multiset.add_le_add_right hw

/-- A run never has more of an entry than the table had before it and was written in it: a step
only moves entries or loses them. -/
theorem inventory_le {prior : List (Row ε)} {now : Nat} {as : List (WriterAction ε)}
    {w : DatabaseCdrWriter ε} (hrun : Run.exec step (constructed prior now) as = some w) :
    w.inventory ≤ ((prior.map Row.entry ++ writes as : List ε) : Multiset ε) := by
  have hstart : (constructed prior now).inventory ≤ (prior.map Row.entry : Multiset ε) := by
    simp [inventory, localQueues, tableEntries, constructed, Phase.toFlush, Sqlite.rows]
  have hend := Run.exec_invariant_sum inventory_step_le hstart hrun
  rw [sum_written] at hend
  exact hend

/-- What a numbered run has is part of its history. -/
theorem numberedRun_inventory_le {prior : List (Row ε)} {now : Nat}
    {as : List (WriterAction ε)} {t : DatabaseCdrWriter (ε × Nat)}
    (ht : numberedRun prior now as = some t) :
    t.inventory ≤ (history prior as : Multiset (ε × Nat)) := by
  rw [history_eq]
  exact inventory_le ht

/-- **No record is stored twice.** In every state that a run reaches, whatever fails in it, the
numbered run has each number at most once among `m_buffer`, the local queues of the running
flushes and the rows of the table, and with it the entry of that row or call. -/
theorem stored_once {prior : List (Row ε)} {now : Nat} {as : List (WriterAction ε)}
    {w : DatabaseCdrWriter ε} (hrun : Run.exec step (constructed prior now) as = some w) :
    ∃ t, numberedRun prior now as = some t ∧ t.map Prod.fst = w ∧
      (t.inventory.map Prod.snd).Nodup ∧ ∀ x ∈ t.inventory, x ∈ history prior as := by
  rw [exec_number] at hrun
  obtain ⟨t, ht, hmap⟩ := Option.map_eq_some_iff.mp hrun
  have hle := numberedRun_inventory_le ht
  refine ⟨t, ht, hmap, ?_, fun x hx => Multiset.mem_coe.mp (Multiset.mem_of_le hle hx)⟩
  exact Multiset.nodup_of_le (Multiset.map_le_map hle) (nodup_history prior as)

/-- The same entry is written twice. The second `INSERT` fails, and so does the `ROLLBACK`: the
first row stays in the open transaction, and the second entry goes back into `m_buffer`. -/
def stuckRun : List (WriterAction CdrEntry) :=
  [.writeAction created, .writeAction created, .callFlush .background, .takeBuffer .background,
    .begin .background true, .insert .background true, .insert .background false,
    .rollback .background false, .giveBack .background]

/-- A transaction that stays open takes in the records of two flushes, and neither of them twice. -/
theorem stored_once_stuckRun :
    ∃ w t, Run.exec step (constructed [] 0) stuckRun = some w ∧ w.inventory = {created, created} ∧
      numberedRun [] 0 stuckRun = some t ∧ t.map Prod.fst = w ∧
      (t.inventory.map Prod.snd).Nodup ∧ ∀ x ∈ t.inventory, x ∈ history [] stuckRun := by
  have hrun : Run.exec step (constructed [] 0) stuckRun = some _ := rfl
  obtain ⟨t, ht⟩ := stored_once hrun
  exact ⟨_, t, hrun, rfl, ht⟩

end DatabaseCdrWriter
end Pgw
