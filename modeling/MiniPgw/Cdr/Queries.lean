import MiniPgw.Cdr.FileLog
import MiniPgw.Cdr.Readers

/-!
# The queries of DatabaseCdrWriter and how they fail

`getRecordCount` asks through `DatabaseManager::queryValue`, whose `return nullptr` is a
`std::optional<std::string>`: it constructs a string from a null pointer, and that throws.
`getRecentRecords` prepares its statement itself.

`failsSoftly_iff` says for which answers of SQLite both queries return as they should.

## The architecture

* **`DatabaseManager`**, **`Answers`** — SQLite as the outcomes of its calls: a statement that is
  not prepared, columns that are null.
* **`stoi_of_digits`**, **`stoi_decimal`** — `std::stoi` on the text of a count, the only text
  that SQLite gives for it.
* **`getRecordCount_run`**, **`getRecordCount_run_unprepared`**, **`getRecentRecords_run`** — one
  lemma for each query and each way in which it can end.
* **`failsSoftly_iff`** — put together from these.
* **`getRecordCount_table`**, **`getRecentRecords_table`**, **`flush_exec`** — the same functions
  on a table that answers are those of the writer's transition system.
-/

namespace Pgw

/-! ## DatabaseManager

SQLite is given by what its calls return. Only the queries look at the rows, so a statement is the
list of rows that it will deliver. -/

/-- A prepared statement, as the rows that its steps return before one returns none. A column is
what `sqlite3_column_text` points to. -/
abbrev Statement := List (List (Option Bytes))

structure DatabaseManager where
  /-- `m_db != nullptr` -/
  isConnected : Bool
  /-- `sqlite3_prepare_v2`; `none` when it fails. -/
  prepare : Bytes → Option Statement

namespace DatabaseManager

/-- `sqlite3_column_text`, as the text that a `const char*` ends. -/
def columnText (row : List (Option Bytes)) (i : Nat) : Option Bytes :=
  (row.getD i none).map cString

def prepareStatement (db : DatabaseManager) (sql : Bytes) : Option Statement :=
  if !db.isConnected then none
  else db.prepare sql

def queryValue (db : DatabaseManager) (sql : Bytes) : Except Fault (Option Bytes) :=
  -- `return nullptr`, twice
  if !db.isConnected then throw .exception
  else
    match db.prepareStatement sql with
    | none => throw .exception
    | some (row :: _) => pure (columnText row 0)
    | some [] => pure none

end DatabaseManager

/-! ## std::stoi

`getRecordCount` reads the text of a count with `std::stoi`, which throws on what is no number and
on what does not fit. -/

/-- `std::isspace` in the C locale. -/
def isspace (c : UInt8) : Bool :=
  c = 32 || 9 ≤ c && c ≤ 13

def digitsValue (digits : Bytes) : Nat :=
  digits.foldl (fun n c => 10 * n + (c.toNat - 48)) 0

/-- `std::stoi` throws when there is no number and when the number is no `int`. -/
def stoi (text : Bytes) : Except Fault Int :=
  let (negative, rest) :=
    match text.dropWhile isspace with
    | 45 :: rest => (true, rest)
    | 43 :: rest => (false, rest)
    | rest => (false, rest)
  let digits := rest.takeWhile Validation.isdigit
  if digits = [] then throw .exception
  else
    let value : Int := if negative then -digitsValue digits else digitsValue digits
    if -2 ^ 31 ≤ value ∧ value < 2 ^ 31 then pure value else throw .exception

/-! ## The queries of the writer

The methods as they call SQLite, failures included. `flush` is sequential here: the interleaving
with the other thread is the subject of the model of the writer. -/

namespace CdrQueries

def SQL_RECENT_CDR : Bytes :=
  ascii "SELECT imsi, action, timestamp FROM cdr_records ORDER BY timestamp DESC LIMIT ?"

def SQL_COUNT : Bytes :=
  ascii "SELECT COUNT(*) FROM cdr_records"

def getRecordCount (db : DatabaseManager) : Except Fault (Option Int) :=
  if !db.isConnected then pure none
  else do
    let val ← db.queryValue SQL_COUNT
    match val with
    | none => pure none
    | some text => tryCatch (do return some (← stoi text)) fun _ => pure none

/-- How the calls of a `flush()` to SQLite end. -/
structure FlushAnswers where
  begins : Bool
  /-- Whether the `i`-th `INSERT` succeeds. -/
  inserts : Nat → Bool
  commits : Bool

/-- The entries that are not inserted, from the `i`-th `INSERT` on. -/
def notInserted (inserts : Nat → Bool) : Nat → List CdrEntry → List CdrEntry
  | _, [] => []
  | i, entry :: toFlush =>
    if inserts i then notInserted inserts (i + 1) toFlush else entry :: toFlush

/-- What `flush()` leaves in `m_buffer` when no other thread is there. -/
def flush (buffer : List CdrEntry) (answers : FlushAnswers) : List CdrEntry :=
  if buffer = [] then buffer
  else if !answers.begins then buffer
  -- a failed `COMMIT` is only logged
  else notInserted answers.inserts 0 buffer

/-- `std::string::operator=` for a `const char*`; a null pointer is undefined behaviour. -/
def assign : Option Bytes → Except Fault Bytes
  | some text => pure text
  | none => throw .undefined

/-- `while (sqlite3_step(stmt) == SQLITE_ROW)` -/
def readRows : Statement → Except Fault (List CdrRecord)
  | [] => pure []
  | row :: stmt => do
    let imsi ← assign (DatabaseManager.columnText row 0)
    let action ← assign (DatabaseManager.columnText row 1)
    let timestamp ← assign (DatabaseManager.columnText row 2)
    let result ← readRows stmt
    pure (⟨imsi, action, timestamp⟩ :: result)

/-- The records, and what is left in `m_buffer`. The limit is bound to the statement, so it is part
of what `db` answers. -/
def getRecentRecords (db : DatabaseManager) (buffer : List CdrEntry) (answers : FlushAnswers) :
    Except Fault (List CdrRecord × List CdrEntry) :=
  if !db.isConnected then pure ([], buffer)
  else
    let buffer := flush buffer answers
    match db.prepareStatement SQL_RECENT_CDR with
    | none => pure ([], buffer)
    | some stmt => do
      let result ← readRows stmt
      pure (result, buffer)

/-! ## What SQLite may answer

`Answers` has an outcome for every call that the two queries make, and failing softly is asked for
under all of them. -/

/-- The outcomes of the calls of both queries. -/
structure Answers where
  isConnected : Bool
  /-- Whether `SQL_COUNT` can be prepared, and the count in its row if a step returns one. -/
  count : Option (Option Nat)
  /-- Whether `SQL_RECENT_CDR` can be prepared, and the rows it returns. -/
  recent : Option (List CdrRecord)

/-- The manager on a connection that answers so. -/
def Answers.manager (a : Answers) : DatabaseManager where
  isConnected := a.isConnected
  prepare := fun sql =>
    if sql = SQL_COUNT then a.count.map fun row => row.toList.map fun n => [some (Tm.decimal n)]
    else if sql = SQL_RECENT_CDR then
      a.recent.map fun rows => rows.map fun row =>
        [some row.imsi, some row.action, some row.timestamp]
    else none

/-- The count that `getRecordCount` should return. -/
def Answers.expectedCount (a : Answers) : Option Int :=
  if a.isConnected then
    match a.count with
    | some (some n) => if n < 2 ^ 31 then some n else none
    | some none => none
    | none => none
  else none

/-- The records that `getRecentRecords` should return: the texts of the rows. -/
def Answers.expectedRecords (a : Answers) : List CdrRecord :=
  if a.isConnected then
    (a.recent.getD []).map fun row => ⟨cString row.imsi, cString row.action, cString row.timestamp⟩
  else []

/-- Neither query throws, and both return what SQLite has delivered. -/
def FailsSoftly (a : Answers) : Prop :=
  getRecordCount a.manager = .ok a.expectedCount ∧
    ∀ buffer answers, ∃ buffer',
      getRecentRecords a.manager buffer answers = .ok (a.expectedRecords, buffer')

/-! ## The text of a count

SQLite writes a count in decimal. Reading it back is the identity as long as it is an `int`. -/

theorem digitsValue_decimal (n : Nat) : digitsValue (Tm.decimal n) = n := by
  unfold digitsValue Tm.decimal
  rw [List.foldl_map]
  have hdigits : (Nat.toDigits 10 n).foldl
      (fun n c => 10 * n + ((UInt8.ofNat c.toNat).toNat - 48)) 0 =
        Nat.ofDigitChars 10 (Nat.toDigits 10 n) 0 := by
    rw [Nat.ofDigitChars_eq_foldl]
    refine List.foldl_ext _ _ _ fun m c hc => ?_
    have hdigit := Nat.isDigit_of_mem_toDigits (by decide) (by decide) hc
    rw [Char.isDigit_iff_toNat] at hdigit
    have hhigh : c.toNat ≤ 57 := hdigit.2
    rw [UInt8.toNat_ofNat_of_lt' (show c.toNat < 256 by omega)]
    rfl
  rw [hdigits, Nat.ofDigitChars_ten_toDigits]

theorem isdigit_of_mem_decimal {n : Nat} {c : UInt8} (hc : c ∈ Tm.decimal n) :
    Validation.isdigit c = true := by
  have hdigit := Tm.digit_of_mem_decimal hc
  unfold Validation.isdigit
  rw [Bool.and_eq_true, decide_eq_true_eq, decide_eq_true_eq, UInt8.le_iff_toNat_le,
    UInt8.le_iff_toNat_le]
  exact hdigit

/-- A digit is neither a blank nor a sign. -/
theorem digit_cases {c : UInt8} (h : Validation.isdigit c = true) :
    isspace c = false ∧ c ≠ 45 ∧ c ≠ 43 ∧ c ≠ 0 := by
  unfold Validation.isdigit at h
  unfold isspace
  grind

/-- `std::stoi` of a text of digits. -/
theorem stoi_of_digits {text : Bytes} (hne : text ≠ [])
    (hdigits : ∀ c ∈ text, Validation.isdigit c = true) :
    stoi text =
      if digitsValue text < 2 ^ 31 then .ok (digitsValue text : Int) else .error .exception := by
  obtain ⟨c, rest, rfl⟩ := List.exists_cons_of_ne_nil hne
  obtain ⟨hspace, hminus, hplus, -⟩ := digit_cases (hdigits c List.mem_cons_self)
  -- the text begins with a digit: no blank to skip and no sign
  have hdrop : (c :: rest).dropWhile isspace = c :: rest := by
    rw [List.dropWhile_cons, if_neg (by simp [hspace])]
  have hall : (c :: rest).takeWhile Validation.isdigit = c :: rest :=
    List.takeWhile_eq_self_iff.mpr hdigits
  unfold stoi
  rw [hdrop]
  split
  next negative rest' hsign =>
    split at hsign
    · next hcons => exact absurd (List.cons.inj hcons).1 hminus
    · next hcons => exact absurd (List.cons.inj hcons).1 hplus
    · cases hsign
      dsimp only
      rw [hall, if_neg hne]
      simp only [Bool.false_eq_true, if_false]
      by_cases hsmall : digitsValue (c :: rest) < 2 ^ 31
      · rw [if_pos (by omega), if_pos hsmall]
        rfl
      · rw [if_neg (by omega), if_neg hsmall]
        rfl

/-- `std::stoi` of a count. -/
theorem stoi_decimal (n : Nat) :
    stoi (Tm.decimal n) = if n < 2 ^ 31 then .ok (n : Int) else .error .exception := by
  have h := stoi_of_digits (Tm.decimal_ne_nil n) fun c hc => isdigit_of_mem_decimal hc
  rw [digitsValue_decimal] at h
  exact h

/-! ## The queries

Each query is run once, on every outcome. The one call outside of a `try` is the `queryValue` of the
count. -/

/-- The count, when the statement can be prepared. -/
theorem getRecordCount_run {a : Answers} (hcount : a.isConnected = false ∨ a.count.isSome = true) :
    getRecordCount a.manager = .ok a.expectedCount := by
  obtain ⟨isConnected, count, recent⟩ := a
  cases isConnected with
  | false => rfl
  | true =>
    cases count with
    | none => simp at hcount
    | some row =>
      cases row with
      | none => rfl
      | some n =>
        -- a decimal has no zero byte, so that SQLite returns it whole
        have htext : cString (Tm.decimal n) = Tm.decimal n := by
          refine List.takeWhile_eq_self_iff.mpr fun c hc => decide_eq_true ?_
          exact (digit_cases (isdigit_of_mem_decimal hc)).2.2.2
        have hquery : (Answers.manager ⟨true, some (some n), recent⟩).queryValue SQL_COUNT =
            .ok (some (Tm.decimal n)) :=
          congrArg (fun text => Except.ok (some text)) htext
        have hunfold : getRecordCount (Answers.manager ⟨true, some (some n), recent⟩) =
            tryCatch (do return some (← stoi (Tm.decimal n))) fun _ => pure none := by
          show (do
            let val ← (Answers.manager ⟨true, some (some n), recent⟩).queryValue SQL_COUNT
            match val with
            | none => pure none
            | some text => tryCatch (do return some (← stoi text)) fun _ => pure none) = _
          rw [hquery]
          rfl
        rw [hunfold, stoi_decimal]
        show _ = Except.ok (if n < 2 ^ 31 then some (n : Int) else none)
        split <;> rfl

/-- Without a statement `queryValue` throws, outside of the `try` of `getRecordCount`. -/
theorem getRecordCount_run_unprepared {a : Answers} (hconn : a.isConnected = true)
    (hcount : a.count = none) : getRecordCount a.manager = .error .exception := by
  obtain ⟨isConnected, count, recent⟩ := a
  cases hconn
  cases hcount
  rfl

theorem readRows_run (rows : List CdrRecord) :
    readRows (rows.map fun row => [some row.imsi, some row.action, some row.timestamp]) =
      .ok (rows.map fun row => ⟨cString row.imsi, cString row.action, cString row.timestamp⟩) := by
  induction rows with
  | nil => rfl
  | cons row rows ih =>
    rw [List.map_cons, List.map_cons, readRows, ih]
    rfl

/-- `getRecentRecords` never throws, whatever SQLite answers. -/
theorem getRecentRecords_run (a : Answers) (buffer : List CdrEntry) (answers : FlushAnswers) :
    ∃ buffer', getRecentRecords a.manager buffer answers = .ok (a.expectedRecords, buffer') := by
  obtain ⟨isConnected, count, recent⟩ := a
  cases isConnected with
  | false => exact ⟨buffer, rfl⟩
  | true =>
    refine ⟨flush buffer answers, ?_⟩
    cases recent with
    | none => rfl
    | some rows =>
      show (do
        let result ← readRows (rows.map fun row : CdrRecord =>
          [some row.imsi, some row.action, some row.timestamp])
        pure (result, flush buffer answers)) = _
      rw [readRows_run]
      rfl

/-- **When the queries fail softly**: the connection is not open, or the statement of the count can
be prepared. -/
theorem failsSoftly_iff (a : Answers) :
    FailsSoftly a ↔ a.isConnected = false ∨ a.count.isSome = true := by
  constructor
  · rintro ⟨hcount, -⟩
    by_contra hnot
    rw [not_or, Bool.not_eq_false, Option.not_isSome_iff_eq_none] at hnot
    rw [getRecordCount_run_unprepared hnot.1 hnot.2] at hcount
    cases hcount
  · exact fun h => ⟨getRecordCount_run h, getRecentRecords_run a⟩

/-- The database is locked or out of memory when the count is asked for. -/
def unprepared : Answers :=
  ⟨true, none, none⟩

theorem unprepared_throws : getRecordCount unprepared.manager = .error .exception ∧
    unprepared.expectedCount = none ∧ ¬ FailsSoftly unprepared :=
  ⟨rfl, rfl, fun h => by cases h.1⟩

/-! ## The queries of the writer on a table

On answers that come from a table, the queries are the operations of the writer of
`DatabaseCdrWriter`, and a `flush()` that nobody disturbs is a run of its steps. -/

/-- On a table that answers, the count is the one of `DatabaseCdrWriter`. -/
theorem getRecordCount_table {ε : Type} (w : DatabaseCdrWriter ε)
    (recent : Option (List CdrRecord)) :
    getRecordCount (Answers.manager ⟨w.db.isConnected, some (some w.db.rows.length), recent⟩) =
      .ok w.getRecordCount :=
  getRecordCount_run (.inr rfl)

/-- On the rows of a `SELECT`, the records are those that the writer may read. -/
theorem getRecentRecords_table {w : DatabaseCdrWriter CdrEntry} {datetime : Nat → Bytes}
    {limit : Nat}
    {rows : List (Row CdrEntry)} {count : Option (Option Nat)}
    (hselect : w.db.Selects (min limit ICdrWriter.READ_CDR_LIMIT) rows) (buffer : List CdrEntry)
    (answers : FlushAnswers) :
    ∃ records buffer', getRecentRecords (Answers.manager ⟨true, count, some (rows.map fun row =>
        ⟨row.entry.imsi, row.entry.action, datetime row.timestamp⟩)⟩) buffer answers =
          .ok (records, buffer') ∧ w.Reads (fun t => cString (datetime t)) limit records := by
  obtain ⟨buffer', hrun⟩ := getRecentRecords_run ⟨true, count, some (rows.map fun row =>
    ⟨row.entry.imsi, row.entry.action, datetime row.timestamp⟩)⟩ buffer answers
  refine ⟨_, buffer', hrun, rows, hselect, ?_⟩
  show ((rows.map _).map _ : List CdrRecord) = _
  rw [List.map_map]
  rfl

section
open DatabaseCdrWriter

/-- The `INSERT`s of a flush, and what follows them. Induction on the local queue. -/
theorem insert_exec (answers : FlushAnswers) (q : List CdrEntry) :
    ∀ {w : DatabaseCdrWriter CdrEntry} {inserted : List (Row CdrEntry)} (i : Nat),
      w.phase .eventLoop = .inserting q → w.db.transaction = some inserted → w.buffer = [] →
        ∃ as w', Run.exec step w as = some w' ∧ w'.phase .eventLoop = .idle ∧
          w'.buffer = notInserted answers.inserts i q := by
  induction q with
  | nil =>
    intro w inserted i hphase hopen hbuffer
    -- the queue is empty, and whatever COMMIT does nothing returns to the buffer
    cases hcommits : answers.commits with
    | true =>
      have hstep : step w (.commit .eventLoop .ok) = some (w.afterCall .eventLoop
          { w.db with committed := w.db.committed ++ inserted, transaction := none } .idle) := by
        simp [step, hphase, Sqlite.commit, hopen]
      exact ⟨_, _, Run.exec_singleton hstep, by simp, hbuffer⟩
    | false =>
      have hstep : step w (.commit .eventLoop .failedOpen)
          = some (w.setPhase .eventLoop .idle) := by
        simp [step, hphase]
      exact ⟨_, _, Run.exec_singleton hstep, by simp, hbuffer⟩
  | cons entry q ih =>
    intro w inserted i hphase hopen hbuffer
    by_cases hdone : answers.inserts i = true
    · have hstep : step w (.insert .eventLoop true) =
          some (w.afterCall .eventLoop (w.db.insertRow entry) (.inserting q)) := by
        simp [step, hphase]
      have hopen' : (w.afterCall .eventLoop (w.db.insertRow entry) (.inserting q)).db.transaction =
          some (inserted ++ [⟨entry, w.db.now⟩]) := by
        simp [Sqlite.insertRow, hopen]
      obtain ⟨as, w', hrun, hidle, hrest⟩ := ih (i + 1) (by simp) hopen' hbuffer
      refine ⟨.insert .eventLoop true :: as, w', ?_, hidle, ?_⟩
      · exact Run.exec_cons_eq_some.mpr ⟨_, hstep, hrun⟩
      rw [hrest, notInserted, if_pos hdone]
    -- the failed insert is rolled back, and the rest of the queue given back
    · refine ⟨[.insert .eventLoop false, .rollback .eventLoop true, .giveBack .eventLoop], _,
        by simp [Run.exec, step, hphase, Sqlite.rollback, hopen]; rfl, by simp [giveBack], ?_⟩
      rw [notInserted, if_neg hdone]
      show w.buffer ++ entry :: q = entry :: q
      rw [hbuffer]
      rfl

/-- **A `flush()` alone is a run of the writer's flush.** -/
theorem flush_exec {w : DatabaseCdrWriter CdrEntry} (answers : FlushAnswers)
    (hphase : w.phase .eventLoop = .entered) (hconn : w.db.isConnected = true)
    (hnotx : w.db.transaction = none) :
    ∃ as w', Run.exec step w as = some w' ∧ w'.phase .eventLoop = .idle ∧
      w'.buffer = flush w.buffer answers := by
  have htake : step w (.takeBuffer .eventLoop) = some (w.takeBuffer .eventLoop) := by
    simp [step, hphase]
  -- an empty buffer: `flush()` returns at once
  by_cases hempty : w.buffer = []
  · refine ⟨[.takeBuffer .eventLoop], _, Run.exec_singleton htake, ?_, ?_⟩
    · simp [takeBuffer, hempty]
    · simp [takeBuffer, hempty, flush]
  · have htaken : w.takeBuffer .eventLoop =
        { w with buffer := [] }.setPhase .eventLoop (.taken w.buffer) := if_neg hempty
    rw [htaken] at htake
    -- `BEGIN` succeeds and the batch is inserted, or its records go back into the buffer
    by_cases hbegins : answers.begins = true
    · have hbegin : step ({ w with buffer := [] }.setPhase .eventLoop (.taken w.buffer))
          (.begin .eventLoop true) = some (({ w with buffer := [] }.setPhase .eventLoop
            (.taken w.buffer)).afterCall .eventLoop { w.db with transaction := some [] }
            (.inserting w.buffer)) := by
        simp [step, Sqlite.beginImmediate, hconn, hnotx]
      obtain ⟨as, w', hrun, hidle, hrest⟩ := insert_exec answers w.buffer
        (w := (({ w with buffer := [] }.setPhase .eventLoop (.taken w.buffer)).afterCall .eventLoop
          { w.db with transaction := some [] } (.inserting w.buffer))) 0 (by simp) rfl rfl
      refine ⟨.takeBuffer .eventLoop :: .begin .eventLoop true :: as, w', ?_, hidle, ?_⟩
      · exact Run.exec_cons_eq_some.mpr ⟨_, htake, Run.exec_cons_eq_some.mpr ⟨_, hbegin, hrun⟩⟩
      · rw [hrest, flush, if_neg hempty, if_neg (by simp [hbegins])]
    · refine ⟨[.takeBuffer .eventLoop, .begin .eventLoop false, .putBack .eventLoop], _,
        Run.exec_cons_eq_some.mpr ⟨_, htake, by simp [Run.exec, step]; rfl⟩, by simp [putBack], ?_⟩
      simp [putBack, flush, hempty, hbegins]

end
end CdrQueries
end Pgw
