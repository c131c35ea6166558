import MiniPgw.Cdr.Order

/-!
# What the readers of the database see

`getRecentRecords` flushes `m_buffer` before its `SELECT`, so that a reader should see what was
written before. Its own flush covers only what is in `m_buffer` at that moment: a batch that the
background flush has taken, or one that was given back after a failed `BEGIN`, is not in the table
yet.

`readersSeeWrites_iff` says exactly when a `SELECT` misses nothing: `NothingWaits`, a condition on
the buffers in front of it.

## The architecture

* **`Reads`**, **`recordOfRow`** — a `SELECT` as a relation: rows of one second come in any order.
* **`reading_step`**, **`exists_call_of_reading`** — a state inside `getRecentRecords` goes back
  to the call, and between the two nothing is written.
* **`inventory_of_idle`** — there every record outside the table is in `m_buffer` or in the hands
  of the background flush.
* **`readersSeeWrites_iff`** — by the accounts of `Conservation`, so a record that is missing in
  the table is in one of these two places.
-/

namespace Pgw

/-! ## The calls that only read

`getRecentRecords` and `getRecordCount` change nothing but what their `flush()` changes. -/

/-- The rows that `SELECT ... ORDER BY timestamp DESC LIMIT limit` may return. SQLite leaves open in
which order rows of one timestamp come. -/
def Sqlite.Selects {ε : Type} (db : Sqlite ε) (limit : Nat) (rows : List (Row ε)) : Prop :=
  ∃ sorted : List (Row ε), sorted.Perm db.rows ∧
    sorted.Pairwise (fun a b => b.timestamp ≤ a.timestamp) ∧ rows = sorted.take limit

/-- A `std::string` that goes through a `const char*`. -/
def cString (s : Bytes) : Bytes :=
  s.takeWhile (· ≠ 0)

namespace DatabaseCdrWriter

/-- A row as `getRecentRecords` returns it; `datetime` is the text of a timestamp. -/
def recordOfRow (datetime : Nat → Bytes) (row : Row CdrEntry) : CdrRecord :=
  ⟨cString row.entry.imsi, cString row.entry.action, datetime row.timestamp⟩

/-- What the `SELECT` of `getRecentRecords(limit)` may read in this state. -/
def Reads (w : DatabaseCdrWriter CdrEntry) (datetime : Nat → Bytes) (limit : Nat)
    (records : List CdrRecord) : Prop :=
  ∃ rows, w.db.Selects (min limit ICdrWriter.READ_CDR_LIMIT) rows ∧
    records = rows.map (recordOfRow datetime)

/-- `getRecordCount`: `std::stoi` of the answer to `SELECT COUNT(*)` throws where it is no `int`. -/
def getRecordCount {ε : Type} (w : DatabaseCdrWriter ε) : Option Int :=
  if w.db.isConnected then
    if w.db.rows.length < 2 ^ 31 then some w.db.rows.length else none
  else none

/-! ## Reading and writing

A record that was written may still be on its way when the `SELECT` is made: in the buffer, or in
the local queue of the other thread's flush. -/

variable {ε : Type} {w w' : DatabaseCdrWriter ε} {prior : List (Row ε)} {now : Nat}
variable {as : List (WriterAction ε)}

/-- Every record whose `writeAction` returned before a call of `getRecentRecords` is among the rows
that this call's `SELECT` sees, as are the rows from before the run. -/
def ReadersSeeWrites (prior : List (Row ε)) (now : Nat) (as : List (WriterAction ε)) : Prop :=
  ∀ front during u, front ++ .getRecentRecords :: (during ++ [.select]) <+: as →
    (∀ a ∈ during, a ≠ .select) →
    Run.exec step (constructed prior now) (front ++ .getRecentRecords :: during) = some u →
    (prior.map Row.entry : Multiset ε) + (writes front : Multiset ε) ≤ (u.tableEntries : Multiset ε)

/-- At every `SELECT`, `m_buffer` is empty and the background flush has no record left to insert;
and until then every batch that was given back met an empty buffer. -/
def NothingWaits (prior : List (Row ε)) (now : Nat) (as : List (WriterAction ε)) : Prop :=
  ∀ pre u, pre ++ [.select] <+: as → Run.exec step (constructed prior now) pre = some u →
    Run.Along step MeetsEmptyBuffer (constructed prior now) pre ∧ u.buffer = [] ∧
      (u.phase .background).toFlush = []

/-- A state inside `getRecentRecords` is reached by its call or by a step inside it, and the latter
is neither a `SELECT` nor a write. -/
theorem reading_step {a : WriterAction ε} (hstep : Step w a w') (hreading : w'.reading = true) :
    a = .getRecentRecords ∨ w.reading = true ∧ a ≠ .select ∧ writes [a] = [] := by
  cases hstep with
  | getRecentRecords hfree => exact .inl rfl
  | writeAction entry hfree =>
    have hfalse : (w.writeAction entry).reading = false := by
      rw [writeAction]
      split <;> exact (eventLoopFree_iff.mp hfree).2
    rw [hfalse] at hreading
    cases hreading
  | select hidle hread => cases hreading
  | takeBuffer f hphase =>
    refine .inr ⟨?_, by simp, rfl⟩
    rw [← hreading, takeBuffer]
    split <;> rfl
  | _ => exact .inr ⟨hreading, by simp, rfl⟩

/-- A run into `getRecentRecords` ends with that call and steps inside it. -/
theorem exists_call_of_reading (hrun : Run.exec step (constructed prior now) as = some w)
    (hreading : w.reading = true) :
    ∃ front during, as = front ++ .getRecentRecords :: during ∧ (∀ a ∈ during, a ≠ .select) ∧
      writes as = writes front := by
  induction as using List.reverseRecOn generalizing w with
  | nil =>
    cases hrun
    cases hreading
  | append_singleton as a ih =>
    obtain ⟨u, hu, hlast⟩ := Run.exec_append_eq_some.mp hrun
    obtain ⟨v, hv, hend⟩ := Run.exec_cons_eq_some.mp hlast
    cases hend
    rcases reading_step (step_cases hv) hreading with rfl | ⟨hread, hne, hnone⟩
    · exact ⟨as, [], rfl, by simp, by simp [writes]⟩
    · obtain ⟨front, during, rfl, hduring, hwrites⟩ := ih hu hread
      refine ⟨front, during ++ [a], by simp, fun b hb => ?_, ?_⟩
      · rcases List.mem_append.mp hb with hb | hb
        · exact hduring b hb
        · rw [List.mem_singleton.mp hb]
          exact hne
      · rw [writes_append, hwrites, hnone, List.append_nil]

/-! ## Accounts

The conservation law read from the end of a run: what is not in the table is in one of the two
places above. -/

/-- A state that accounts for every record was reached through such states. -/
theorem accounted_front {bs : List (WriterAction ε)} {u : DatabaseCdrWriter ε}
    (hu : Run.exec step (constructed prior now) as = some u)
    (hw : Run.exec step u bs = some w) (hacc : Accounted prior (as ++ bs) w) :
    Accounted prior as u := by
  have hle := inventory_le hu
  have hmore : w.inventory ≤ u.inventory + (bs.map written).sum :=
    Run.exec_invariant_sum inventory_step_le le_rfl hw
  rw [Accounted, writes_append, ← Multiset.coe_add] at hacc
  rw [hacc, sum_written, ← add_assoc] at hmore
  rw [← Multiset.coe_add] at hle
  exact le_antisymm hle (le_of_add_le_add_right hmore)

/-- In a run that accounts for every record, every batch that was given back met an empty buffer. -/
theorem along_of_accounted (hok : ∀ a ∈ as, Faultless a)
    (hrun : Run.exec step (constructed prior now) as = some w) (hacc : Accounted prior as w) :
    Run.Along step MeetsEmptyBuffer (constructed prior now) as := by
  refine Run.along_of_steps hrun fun pre a post u v has hu hv hpost => ?_
  have hafter : Accounted prior (pre ++ [a]) v := by
    apply accounted_front (Run.exec_concat hu hv) hpost
    rw [List.append_assoc, List.singleton_append, ← has]
    exact hacc
  have hbefore := accounted_front hu (Run.exec_singleton hv) hafter
  have hoku := faultfree_reachable (fun b hb => hok b (by rw [has]; simp [hb])) hu
  exact meetsEmptyBuffer_of_accounted hoku (hok a (by rw [has]; simp))
    (step_cases hv) hbefore hafter

/-- Inside `getRecentRecords` the records outside the table are in `m_buffer` or with the background
flush. -/
theorem inventory_of_idle (hidle : w.phase .eventLoop = .idle) :
    w.inventory = (w.buffer : Multiset ε) + ((w.phase .background).toFlush : Multiset ε) +
      (w.tableEntries : Multiset ε) := by
  rw [inventory, localQueues, hidle]
  simp [Phase.toFlush]

/-- **Readers see their own writes exactly when nothing waits.** For every interleaving of the event
loop and the background flush in which `INSERT` and `COMMIT` succeed. -/
theorem readersSeeWrites_iff (hok : ∀ a ∈ as, Faultless a)
    (hrun : Run.exec step (constructed prior now) as = some w) :
    ReadersSeeWrites prior now as ↔ NothingWaits prior now as := by
  have hselect : ∀ pre u, pre ++ [.select] <+: as →
      Run.exec step (constructed prior now) pre = some u →
      u.phase .eventLoop = .idle ∧ u.reading = true := by
    intro pre u hpre hu
    obtain ⟨v, hv⟩ := Run.exec_prefix hpre hrun
    obtain ⟨u', hu', hlast⟩ := Run.exec_append_eq_some.mp hv
    obtain rfl : u' = u := Option.some.inj (hu'.symm.trans hu)
    obtain ⟨v', hv', -⟩ := Run.exec_cons_eq_some.mp hlast
    cases step_cases hv' with
    | select hidle hreading => exact ⟨hidle, hreading⟩
  constructor
  · intro hsee pre u hpre hu
    obtain ⟨hidle, hreading⟩ := hselect pre u hpre hu
    have hokpre : ∀ a ∈ pre, Faultless a := fun a ha => hok a (hpre.subset (by simp [ha]))
    obtain ⟨front, during, rfl, hduring, hwrites⟩ := exists_call_of_reading hu hreading
    have hle := hsee front during u (by simpa using hpre) hduring hu
    have htotal := inventory_le hu
    rw [hwrites, ← Multiset.coe_add] at htotal
    -- the table already has everything that can be anywhere
    have hcard := Multiset.card_le_card (htotal.trans hle)
    rw [inventory_of_idle hidle] at hcard
    simp only [Multiset.card_add, Multiset.coe_card] at hcard
    have hbuffer : u.buffer = [] := List.length_eq_zero_iff.mp (by omega)
    have hqueue : (u.phase .background).toFlush = [] := List.length_eq_zero_iff.mp (by omega)
    have hacc : Accounted prior (front ++ .getRecentRecords :: during) u := by
      rw [Accounted, hwrites]
      refine le_antisymm htotal (hle.trans ?_)
      rw [inventory_of_idle hidle]
      exact Multiset.le_add_left _ _
    exact ⟨along_of_accounted hokpre hu hacc, hbuffer, hqueue⟩
  · intro hnothing front during u hpre hduring hu
    have hpre' : (front ++ .getRecentRecords :: during) ++ [.select] <+: as := by simpa using hpre
    obtain ⟨halong, hbuffer, hqueue⟩ := hnothing _ u hpre' hu
    have hokpre : ∀ a ∈ front ++ .getRecentRecords :: during, Faultless a :=
      fun a ha => hok a (hpre'.subset (List.mem_append_left _ ha))
    have hacc := accounted_of_along hokpre halong hu
    rw [Accounted, inventory_of_idle (hselect _ u hpre' hu).1, hbuffer, hqueue] at hacc
    simp only [Multiset.coe_nil, zero_add] at hacc
    rw [hacc, writes_append, ← Multiset.coe_add]
    exact add_le_add_right (Multiset.le_add_right _ _) _

/-- The reader's own flush commits what was written. -/
def settledRun : List (WriterAction CdrEntry) :=
  [.writeAction created, .getRecentRecords, .takeBuffer .eventLoop, .begin .eventLoop true,
    .insert .eventLoop true, .commit .eventLoop .ok, .select]

theorem nothingWaits_settledRun : NothingWaits [] 0 settledRun := by
  intro pre u hpre hu
  simp only [settledRun, append_singleton_prefix_cons, reduceCtorEq, and_false, false_or,
    and_true, List.prefix_nil, List.append_eq_nil_iff, List.cons_ne_self, exists_false,
    or_false] at hpre
  -- the one prefix that ends before the `SELECT`
  obtain ⟨_, rfl, _, rfl, _, rfl, _, rfl, _, rfl, _, rfl, rfl⟩ := hpre
  obtain rfl := Option.some.inj hu
  exact ⟨by simp [Run.Along, MeetsEmptyBuffer], rfl, rfl⟩

theorem readersSeeWrites_settledRun : ReadersSeeWrites [] 0 settledRun :=
  (readersSeeWrites_iff (by simp [settledRun, Faultless]) rfl).mpr nothingWaits_settledRun

/-- The background flush has taken the record when `getRecentRecords` looks into `m_buffer`. -/
def staleRun : List (WriterAction CdrEntry) :=
  [.writeAction created, .callFlush .background, .takeBuffer .background, .getRecentRecords,
    .takeBuffer .eventLoop, .select]

/-- Nothing fails in `staleRun`, and its `SELECT` sees no row. -/
theorem staleRun_misses_record :
    (∃ w, Run.exec step (constructed [] 0) staleRun = some w ∧ w.tableEntries = []) ∧
      (∀ a ∈ staleRun, Faultless a) ∧ (∀ f, .begin f false ∉ staleRun) ∧
      ¬ ReadersSeeWrites [] 0 staleRun := by
  refine ⟨⟨_, rfl, rfl⟩, by simp [staleRun, Faultless], by simp [staleRun], fun hsee => ?_⟩
  have hrows := hsee [.writeAction created, .callFlush .background, .takeBuffer .background]
    [.takeBuffer .eventLoop] _ (List.prefix_refl _) (by simp) rfl
  have hcard := Multiset.card_le_card hrows
  exact absurd hcard (by decide)

end DatabaseCdrWriter
end Pgw
