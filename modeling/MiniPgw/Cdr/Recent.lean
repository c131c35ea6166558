import MiniPgw.Cdr.BackEnds

/-!
# Are recent records the most recent?

`SQL_RECENT_CDR` sorts by timestamp only. A batch is inserted at once, mostly within one second, so
its rows may come in any order, and at the limit any of them may be left out.

`returnsRecent_iff` names the tables for which this makes no difference: `TiesLookAlike`.

## The architecture

* **`Sqlite.Chronological`**, **`chronological_step`**, **`chronological_run`** — the rows of the
  table are in the order of their timestamps, whatever fails and however flushes overlap.
* **`returnsRecent_iff_sorts`** — so the answers are the sorts of a list that is sorted already,
  and they differ in the order of equal timestamps only.
* **`returnsRecent_iff`** — which of these sorts agree with the last entries.
-/

namespace Pgw

/-! ## Timestamps

SQLite orders by the timestamp, whole seconds from its own clock. Rows that are inserted later have
no smaller one as long as this clock does not go back. -/

/-- Later rows have no earlier timestamp, and none comes from the future. -/
structure Sqlite.Chronological {ε : Type} (db : Sqlite ε) : Prop where
  increasing : db.rows.Pairwise fun a b => a.timestamp ≤ b.timestamp
  past : ∀ row ∈ db.rows, row.timestamp ≤ db.now

namespace Sqlite

variable {ε : Type} {db db' : Sqlite ε}

/-- Rows may go, and time may pass. -/
theorem Chronological.mono (h : db.Chronological) (hrows : db'.rows.Sublist db.rows)
    (hnow : db.now ≤ db'.now) : db'.Chronological where
  increasing := h.increasing.sublist hrows
  past := fun row hrow => (h.past row (hrows.subset hrow)).trans hnow

theorem rows_insertRow (db : Sqlite ε) (entry : ε) :
    (db.insertRow entry).rows = db.rows ++ [⟨entry, db.now⟩] := by
  unfold insertRow
  cases htransaction : db.transaction with
  | none => simp [rows, htransaction]
  | some inserted => simp [rows, htransaction]

theorem now_insertRow (db : Sqlite ε) (entry : ε) : (db.insertRow entry).now = db.now := by
  unfold insertRow
  cases db.transaction <;> rfl

theorem Chronological.insertRow (h : db.Chronological) (entry : ε) :
    (db.insertRow entry).Chronological where
  increasing := by
    rw [rows_insertRow, List.pairwise_append]
    refine ⟨h.increasing, List.pairwise_singleton _ _, fun row hrow last hlast => ?_⟩
    rw [List.mem_singleton.mp hlast]
    exact h.past row hrow
  past := by
    intro row hrow
    rw [now_insertRow]
    rw [rows_insertRow] at hrow
    rcases List.mem_append.mp hrow with hrow | hrow
    · exact h.past row hrow
    · rw [List.mem_singleton.mp hrow]

end Sqlite

namespace DatabaseCdrWriter

section
variable {ε : Type} {w w' : DatabaseCdrWriter ε} {a : WriterAction ε}

/-- A step inserts a row, or leaves at most the rows that were there. -/
theorem rows_step (hstep : Step w a w') : (∃ entry, w'.db = w.db.insertRow entry) ∨
    w'.db.rows.Sublist w.db.rows ∧ w.db.now ≤ w'.db.now := by
  cases hstep with
  | insertDone f entry q hphase => exact .inl ⟨entry, rfl⟩
  | writeAction entry hfree =>
    refine .inr ?_
    unfold writeAction
    split <;> exact ⟨List.Sublist.refl _, le_rfl⟩
  | getRecentRecords hfree =>
    refine .inr ?_
    unfold getRecentRecords
    split <;> exact ⟨List.Sublist.refl _, le_rfl⟩
  | takeBuffer f hphase =>
    refine .inr ?_
    unfold takeBuffer
    split <;> exact ⟨List.Sublist.refl _, le_rfl⟩
  | beginOk f q hphase hconn hnone =>
    refine .inr ⟨?_, le_rfl⟩
    show (w.db.committed ++ []).Sublist (w.db.committed ++ w.db.transaction.getD [])
    rw [hnone]
    exact List.Sublist.refl _
  -- a rollback takes back the rows of the transaction
  | rollbackOk f q inserted hphase hopen =>
    refine .inr ⟨?_, le_rfl⟩
    show (w.db.committed ++ []).Sublist (w.db.committed ++ w.db.transaction.getD [])
    rw [List.append_nil]
    exact List.sublist_append_left _ _
  -- a commit only moves them
  | commitOk f inserted hphase hopen =>
    refine .inr ⟨?_, le_rfl⟩
    show (w.db.committed ++ inserted ++ []).Sublist (w.db.committed ++ w.db.transaction.getD [])
    rw [hopen, List.append_nil]
    exact List.Sublist.refl _
  | commitFailedRolledBack f inserted hphase hopen =>
    refine .inr ⟨?_, le_rfl⟩
    show (w.db.committed ++ []).Sublist (w.db.committed ++ w.db.transaction.getD [])
    rw [List.append_nil]
    exact List.sublist_append_left _ _
  | tick seconds => exact .inr ⟨List.Sublist.refl _, Nat.le_add_right _ _⟩
  | _ => exact .inr ⟨List.Sublist.refl _, le_rfl⟩

theorem chronological_step (h : w.db.Chronological) (hstep : Step w a w') :
    w'.db.Chronological := by
  rcases rows_step hstep with ⟨entry, hdb⟩ | ⟨hrows, hnow⟩
  · rw [hdb]
    exact h.insertRow entry
  · exact h.mono hrows hnow

/-- **The table is in the order of its timestamps**, whatever fails and however flushes overlap. -/
theorem chronological_run {now : Nat} {as : List (WriterAction ε)}
    (hrun : Run.exec step (constructed [] now) as = some w) : w.db.Chronological := by
  have hstart : (constructed ([] : List (Row ε)) now).db.Chronological :=
    ⟨List.Pairwise.nil, fun row hrow => by cases hrow⟩
  have hkeep : ∀ (s : DatabaseCdrWriter ε) a t, s.db.Chronological → step s a = some t →
      t.db.Chronological := fun s a t h hstep => chronological_step h (step_cases hstep)
  exact Run.exec_invariant hkeep hstart hrun

end

/-! ## The answer

The window of the `SELECT` is as long as the limit permits, and its rows are as recent as any row
outside. -/

open BackEnds

/-- Whatever order SQLite chooses, `getRecentRecords(limit)` returns the last of `entries`, the
newest first. -/
def ReturnsRecent (w : DatabaseCdrWriter CdrEntry) (limit : Nat) (entries : List CdrEntry) : Prop :=
  ∀ datetime records, w.Reads datetime limit records →
    records.map pair = (entries.reverse.take (min limit ICdrWriter.READ_CDR_LIMIT)).map
      fun entry => (entry.imsi, entry.action)

/-- Rows of one second read alike where one of them is among the newest `k`; and these read as they
were written. -/
def TiesLookAlike (rows : List (Row CdrEntry)) (k : Nat) : Prop :=
  ∀ a ∈ rows.reverse.take k, ∀ b ∈ rows, b.timestamp = a.timestamp →
    databasePair b.entry = (a.entry.imsi, a.entry.action)

instance (rows : List (Row CdrEntry)) (k : Nat) : Decidable (TiesLookAlike rows k) :=
  inferInstanceAs (Decidable (∀ a ∈ rows.reverse.take k, ∀ b ∈ rows, _ → _))

/-- The answers, as the results of a sort. -/
theorem returnsRecent_iff_sorts {w : DatabaseCdrWriter CdrEntry} {limit : Nat} :
    w.ReturnsRecent limit (w.db.rows.map Row.entry) ↔
      ∀ sorted, OrderBy.Sorts Row.timestamp w.db.rows sorted →
        (sorted.take (min limit ICdrWriter.READ_CDR_LIMIT)).map
            (fun row => databasePair row.entry) =
          (w.db.rows.reverse.take (min limit ICdrWriter.READ_CDR_LIMIT)).map
            fun row => (row.entry.imsi, row.entry.action) := by
  -- the expected answer is the front of the rows from the newest on
  have hwanted : ((w.db.rows.map Row.entry).reverse.take (min limit ICdrWriter.READ_CDR_LIMIT)).map
        (fun entry => (entry.imsi, entry.action)) =
      (w.db.rows.reverse.take (min limit ICdrWriter.READ_CDR_LIMIT)).map
        fun row => (row.entry.imsi, row.entry.action) := by
    rw [← List.map_reverse, ← List.map_take, List.map_map]
    rfl
  unfold ReturnsRecent
  rw [hwanted]
  constructor
  · intro h sorted hsorted
    have hreads : w.Reads (fun _ => []) limit
        ((sorted.take (min limit ICdrWriter.READ_CDR_LIMIT)).map (recordOfRow fun _ => [])) :=
      ⟨_, selects_iff_sorts.mpr ⟨sorted, hsorted, rfl⟩, rfl⟩
    rw [← h _ _ hreads, List.map_map]
    rfl
  · rintro h datetime records ⟨rows, hselect, rfl⟩
    obtain ⟨sorted, hsorted, rfl⟩ := selects_iff_sorts.mp hselect
    rw [← h sorted hsorted, List.map_map]
    rfl

/-- **When the answer is right.** On runs in which no SQLite call fails and no two flushes
overlap. -/
theorem returnsRecent_iff {now limit : Nat} {as : List (WriterAction CdrEntry)}
    {w w' : DatabaseCdrWriter CdrEntry} (hok : ∀ a ∈ as, Succeeds a)
    (hone : Run.Along step OneFlush (constructed [] now) as)
    (hrun : Run.exec step (constructed [] now) as = some w) (hselect : w.step .select = some w')
    (hidle : w.phase .background = .idle) :
    w.ReturnsRecent limit (writes as) ↔
      TiesLookAlike w.db.rows (min limit ICdrWriter.READ_CDR_LIMIT) := by
  cases step_cases hselect with
  | select hidle' hreading =>
    have hall : ∀ f, w.phase f = .idle := by
      intro f
      cases f with
      | background => exact hidle
      | eventLoop => exact hidle'
    rw [← rows_of_select hok hone hrun hall hreading, returnsRecent_iff_sorts]
    exact OrderBy.forall_sorts_take_map_iff (chronological_run hrun).increasing _ _ _

theorem returnsRecent_secondRead : ∃ w w',
    Run.exec step (constructed [] 7) secondRead = some w ∧ w.step .select = some w' ∧
      w.ReturnsRecent 10 [created, deleted] := by
  have hrun : Run.exec step (constructed [] 7) secondRead = some _ := rfl
  have hok : ∀ a ∈ secondRead, Succeeds a := by
    simp [secondRead, firstRead, Succeeds]
  have hone : Run.Along step OneFlush (constructed [] 7) secondRead := by
    simp [secondRead, firstRead, Run.Along, OneFlush, constructed, step, eventLoopFree,
      Phase.isIdle, writeAction, getRecentRecords, takeBuffer, Sqlite.beginImmediate,
      Sqlite.insertRow, Sqlite.commit]
  refine ⟨_, _, hrun, rfl, (returnsRecent_iff hok hone hrun rfl rfl).mpr ?_⟩
  show TiesLookAlike [⟨created, 7⟩, ⟨deleted, 8⟩] 10
  decide

/-- Two entries, flushed within one second by the reader. -/
def sameSecondRead : List (WriterAction CdrEntry) :=
  [.writeAction created, .writeAction deleted, .getRecentRecords, .takeBuffer .eventLoop,
    .begin .eventLoop true, .insert .eventLoop true, .insert .eventLoop true,
    .commit .eventLoop .ok]

/-- SQLite may return the older entry first, and with `LIMIT 1` it alone. -/
theorem sameSecondRead_returns_older : ∃ w w',
    (∀ a ∈ sameSecondRead, Succeeds a) ∧
      Run.Along step OneFlush (constructed [] 7) sameSecondRead ∧
      Run.exec step (constructed [] 7) sameSecondRead = some w ∧ w.step .select = some w' ∧
      w.phase .background = .idle ∧
      w.Reads (fun _ => []) 1 [⟨created.imsi, created.action, []⟩] ∧
      ¬ w.ReturnsRecent 1 (writes sameSecondRead) := by
  have hrun : Run.exec step (constructed [] 7) sameSecondRead = some _ := rfl
  have hreads : (Run.exec step (constructed [] 7) sameSecondRead).elim False fun w =>
      w.Reads (fun _ => []) 1 [⟨created.imsi, created.action, []⟩] := by
    refine ⟨[⟨created, 7⟩], ⟨[⟨created, 7⟩, ⟨deleted, 7⟩], List.Perm.refl _, by simp, rfl⟩, rfl⟩
  refine ⟨_, _, ?_, ?_, hrun, rfl, rfl, hreads, fun h => ?_⟩
  · simp [sameSecondRead, Succeeds]
  · simp [sameSecondRead, Run.Along, OneFlush, constructed, step, eventLoopFree,
      Phase.isIdle, writeAction, getRecentRecords, takeBuffer, Sqlite.beginImmediate,
      Sqlite.insertRow, Sqlite.commit]
  · exact absurd (h _ _ hreads) (by decide)

end DatabaseCdrWriter
end Pgw
