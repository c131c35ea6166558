import Mathlib.Data.List.Perm.Basic
import MiniPgw.Lib.OrderBy
import MiniPgw.Cdr.FileLog
import MiniPgw.Cdr.Readers

/-!
# The two back ends

`Server::initializeCdrWriter` falls back to the file when there is no database, so both writers
should answer `getRecentRecords` alike. The database sorts by timestamp, the newest row first; the
file walks its index forward, the oldest line first. Both clamp the limit and take the same window.

`interchangeable_iff` compares them on runs in which nothing fails and no two flushes overlap: they
agree exactly on windows that read the same in both directions.

## The architecture

* **`FlushesIn`**, **`flushesIn_step`**, **`sequential_run`** — the database without overlapping
  flushes: table, local queue and buffer hold the entries in the order of the calls.
* **`selects_eq`** — with strictly increasing timestamps the answer of the `SELECT` is determined.
* **`Kept`**, **`kept_of_eq`**, **`kept_of_agree`** — which fields come out of both back ends as
  they were written; where the two answers agree, every field in them is such a one.
* **`agree_iff`** — one window against its reverse.
* **`interchangeable_iff`** — the answer of the database (`map_pair_of_reads`) against the one of
  the file (`reads_back` in `FileLog`), and their counts (`count_eq_iff`).
-/

namespace Pgw

/-! ## A database run without overlapping flushes

With one flush at a time and no failing call there is one order of all entries: those in the table,
those in the local queue of the flush, and those in `m_buffer` behind them. Every step keeps it, so
a `SELECT` after a flush sees what was written, in the order in which it was written. -/

namespace DatabaseCdrWriter

/-- No SQLite call fails. -/
def Succeeds {ε : Type} : WriterAction ε → Prop
  | .begin _ succeeds => succeeds = true
  | .insert _ done => done = true
  | .rollback _ succeeds => succeeds = true
  | .commit _ outcome => outcome = .ok
  | _ => True

/-- A `flush()` begins only when none is running. -/
def OneFlush {ε : Type} (w : DatabaseCdrWriter ε) (a : WriterAction ε) : Prop :=
  (∃ f, a = .callFlush f) ∨ a = .getRecentRecords → ∀ f, w.phase f = .idle

variable {ε : Type} {w w' : DatabaseCdrWriter ε} {now : Nat} {as : List (WriterAction ε)}

/-- A call that succeeds is no failed `INSERT` and no failed `COMMIT`. -/
theorem faultless_of_succeeds {a : WriterAction ε} (ha : Succeeds a) : Faultless a := by
  cases a <;> first | exact ha | trivial

/-- Only `f` may be flushing, and the table, its local queue and `m_buffer` hold `entries`, in this
order. -/
structure FlushesIn (entries : List ε) (f : Flusher) (w : DatabaseCdrWriter ε) : Prop where
  others : ∀ g, g ≠ f → w.phase g = .idle
  inOrder : w.tableEntries ++ (w.phase f).toFlush ++ w.buffer = entries
  begun : ∀ q, w.phase f ≠ .beginFailed q
  /-- The flush of a reader takes all there is. -/
  taken : w.reading = true → w.phase .eventLoop ≠ .entered → w.buffer = []

/-- A new writer holds no entries, and either flusher may be the one. -/
theorem flushesIn_constructed (now : Nat) (f : Flusher) :
    (constructed ([] : List (Row ε)) now).FlushesIn [] f where
  others := fun _ _ => rfl
  inOrder := rfl
  begun := by simp [constructed]
  taken := fun h => by cases h

section
variable {entries : List ε} {f g : Flusher} {p : Phase ε}

/-- When no flush is running, either flusher may be the one. -/
theorem FlushesIn.swap (h : w.FlushesIn entries f) (hidle : ∀ k, w.phase k = .idle)
    (g : Flusher) : w.FlushesIn entries g where
  others := fun k _ => hidle k
  inOrder := by
    have horder := h.inOrder
    rw [hidle f] at horder
    rw [hidle g]
    exact horder
  begun := by simp [hidle g]
  taken := h.taken

/-- A flusher at work is the one. -/
theorem FlushesIn.at_work (h : w.FlushesIn entries f) (hphase : w.phase g = p)
    (hp : p ≠ .idle) : w.FlushesIn entries g := by
  have hg : g = f := by
    by_contra hne
    exact hp (hphase.symm.trans (h.others g hne))
  rw [hg]
  exact h

/-- The flusher goes to phase `p`, and entries move from its queue into the table at most. -/
theorem FlushesIn.move (h : w.FlushesIn entries f)
    (hphase : w'.phase = Function.update w.phase f p) (hold : w.phase f ≠ .entered)
    (horder : w'.tableEntries ++ p.toFlush = w.tableEntries ++ (w.phase f).toFlush)
    (hbegun : ∀ q, p ≠ .beginFailed q) (hbuffer : w'.buffer = w.buffer)
    (hreading : w'.reading = w.reading) : w'.FlushesIn entries f where
  others := fun g hg => by
    rw [hphase, Function.update_of_ne hg]
    exact h.others g hg
  inOrder := by
    rw [hphase, Function.update_self, horder, hbuffer]
    exact h.inOrder
  begun := by
    rw [hphase, Function.update_self]
    exact hbegun
  taken := fun hread hentered => by
    rw [hbuffer]
    apply h.taken (hreading ▸ hread)
    by_cases hf : .eventLoop = f
    · rw [hf]
      exact hold
    · rw [hphase, Function.update_of_ne hf] at hentered
      exact hentered

/-- Nothing but flags changes. -/
theorem FlushesIn.congr (h : w.FlushesIn entries f) (hdb : w'.db.rows = w.db.rows)
    (hphase : w'.phase = w.phase) (hbuffer : w'.buffer = w.buffer)
    (hreading : w'.reading = true → w.reading = true) : w'.FlushesIn entries f where
  others := by rw [hphase]; exact h.others
  inOrder := by
    rw [tableEntries, hdb, hphase, hbuffer]
    exact h.inOrder
  begun := by rw [hphase]; exact h.begun
  taken := fun hread => by
    rw [hphase, hbuffer]
    exact h.taken (hreading hread)

/-- The first locked section of a flush. -/
theorem FlushesIn.takeBuffer (h : w.FlushesIn entries f) (hphase : w.phase f = .entered) :
    (w.takeBuffer f).FlushesIn entries f := by
  have horder := h.inOrder
  rw [hphase] at horder
  rw [DatabaseCdrWriter.takeBuffer]
  split
  · next hempty =>
    refine ⟨fun g hg => ?_, ?_, by simp, fun _ _ => hempty⟩
    · rw [setPhase_phase, Function.update_of_ne hg]
      exact h.others g hg
    · rw [setPhase_phase, Function.update_self]
      exact horder
  · refine ⟨fun g hg => ?_, ?_, by simp, fun _ _ => rfl⟩
    · rw [setPhase_phase, Function.update_of_ne hg]
      exact h.others g hg
    · rw [setPhase_phase, Function.update_self]
      show w.tableEntries ++ w.buffer ++ [] = entries
      simpa [Phase.toFlush] using horder

end

/-- **One step of such a run** adds what is written at the end. -/
theorem flushesIn_step {entries : List ε} {f : Flusher} (h : w.FlushesIn entries f)
    (hok : w.Faultfree) {a : WriterAction ε} (ha : Succeeds a) (hone : OneFlush w a)
    (hstep : Step w a w') : ∃ g, w'.FlushesIn (entries ++ writes [a]) g := by
  by_cases hwrites : ∃ entry, a = .writeAction entry
  -- the only step that appends an entry, at the end of the buffer
  · obtain ⟨entry, rfl⟩ := hwrites
    cases hstep with
    | writeAction entry hfree =>
      refine ⟨f, ?_⟩
      rw [writeAction, if_pos hok.connected]
      refine ⟨h.others, ?_, h.begun, fun hreading => ?_⟩
      · show w.tableEntries ++ (w.phase f).toFlush ++ (w.buffer ++ [entry]) = entries ++ [entry]
        rw [← List.append_assoc, h.inOrder]
      · rw [(eventLoopFree_iff.mp hfree).2] at hreading
        cases hreading
  -- every other step moves entries between the buffer, the queue and the table
  have hnone : entries ++ writes [a] = entries := by
    cases a with
    | writeAction entry => exact absurd ⟨entry, rfl⟩ hwrites
    | _ => exact List.append_nil _
  rw [hnone]
  cases hstep with
  | writeAction entry hfree => exact absurd ⟨entry, rfl⟩ hwrites
  | callBackground hidle _ _ =>
    have hall := hone (.inl ⟨.background, rfl⟩)
    refine ⟨.background, (h.swap hall .background).move rfl (by simp [hidle]) ?_ (by simp) rfl rfl⟩
    rw [hidle]
    rfl
  | callEventLoop hfree =>
    have hidle := (eventLoopFree_iff.mp hfree).1
    have hall := hone (.inl ⟨.eventLoop, rfl⟩)
    refine ⟨.eventLoop, (h.swap hall .eventLoop).move rfl (by simp [hidle]) ?_ (by simp) rfl rfl⟩
    rw [hidle]
    rfl
  | getRecentRecords hfree =>
    have hidle := (eventLoopFree_iff.mp hfree).1
    have hall := hone (.inr rfl)
    -- the reader flushes first, on the thread of the event loop
    have hread : w.FlushesIn entries .eventLoop := h.swap hall .eventLoop
    rw [getRecentRecords, if_pos hok.connected]
    refine ⟨.eventLoop, fun g hg => ?_, ?_, by simp, fun _ hentered => absurd (by simp) hentered⟩
    · rw [setPhase_phase, Function.update_of_ne hg]
      exact hall g
    · have horder := hread.inOrder
      rw [hidle] at horder
      rw [setPhase_phase, Function.update_self]
      exact horder
  | takeBuffer f hphase => exact ⟨f, (h.at_work hphase (by simp)).takeBuffer hphase⟩
  | beginOk f q hphase hconn hnotx =>
    refine ⟨f, (h.at_work hphase (by simp)).move rfl (by simp [hphase]) ?_ (by simp) rfl rfl⟩
    rw [hphase]
    simp [tableEntries, Sqlite.rows, hnotx, Phase.toFlush]
  | beginFailed f q hphase => simp [Succeeds] at ha
  | putBack f q hphase => exact absurd hphase ((h.at_work hphase (by simp)).begun q)
  | insertDone f entry q hphase =>
    obtain ⟨inserted, hopen, -⟩ := hok.opened f (by simp [hphase, Phase.owns])
    refine ⟨f, (h.at_work hphase (by simp)).move rfl (by simp [hphase]) ?_ (by simp) rfl rfl⟩
    rw [hphase]
    simp [tableEntries, Sqlite.rows, Sqlite.insertRow, hopen, Phase.toFlush]
  | insertFailed f entry q hphase => simp [Succeeds] at ha
  | rollbackOk f q inserted hphase hopen => exact absurd hphase (hok.noFailure f q).1
  | rollbackFailed f q hphase => simp [Succeeds] at ha
  | giveBack f q hphase => exact absurd hphase (hok.noFailure f q).2
  | commitOk f inserted hphase hopen =>
    refine ⟨f, (h.at_work hphase (by simp)).move rfl (by simp [hphase]) ?_ (by simp) rfl rfl⟩
    rw [hphase]
    simp [tableEntries, Sqlite.rows, hopen, Phase.toFlush]
  | commitFailedOpen f hphase => simp [Succeeds] at ha
  | commitFailedRolledBack f inserted hphase hopen => simp [Succeeds] at ha
  | select hidle hreading => exact ⟨f, h.congr rfl rfl rfl (fun hread => by cases hread)⟩
  | setStop hfree => exact ⟨f, h.congr rfl rfl rfl id⟩
  | exitLoop hidle hstop => exact ⟨f, h.congr rfl rfl rfl id⟩
  | tick seconds => exact ⟨f, h.congr rfl rfl rfl id⟩

/-- The states of such runs after the steps `done`. -/
def Sequential (done : List (WriterAction ε)) (w : DatabaseCdrWriter ε) : Prop :=
  w.Faultfree ∧ ∃ f, w.FlushesIn (writes done) f

/-- When every call succeeds and each flush ends before the next one begins, the table and the
buffer have the entries in the order of the calls. -/
theorem sequential_run (hok : ∀ a ∈ as, Succeeds a)
    (hone : Run.Along step OneFlush (constructed [] now) as)
    (hrun : Run.exec step (constructed [] now) as = some w) : Sequential as w := by
  have hstep : ∀ (done : List (WriterAction ε)) (s : DatabaseCdrWriter ε) (a : WriterAction ε)
      (t : DatabaseCdrWriter ε), Sequential done s → Succeeds a ∧ OneFlush s a →
      step s a = some t → Sequential (done ++ [a]) t := by
    intro done s a t hs ha h
    obtain ⟨f, hf⟩ := hs.2
    refine ⟨faultfree_step hs.1 (faultless_of_succeeds ha.1) (step_cases h), ?_⟩
    rw [writes_append]
    exact flushesIn_step hf hs.1 ha.1 ha.2 (step_cases h)
  have hstart : Sequential [] (constructed ([] : List (Row ε)) now) :=
    ⟨faultfree_constructed [] now, .background, flushesIn_constructed now .background⟩
  have halong : Run.Along step _ (constructed [] now) as :=
    (Run.along_of_forall (fun a ha _ => hok a ha) _).and hone
  exact Run.exec_invariant_history hstep hstart halong hrun

/-- **What a reader's `SELECT` sees in such a run**: all that was written, in order. -/
theorem rows_of_select (hok : ∀ a ∈ as, Succeeds a)
    (hone : Run.Along step OneFlush (constructed [] now) as)
    (hrun : Run.exec step (constructed [] now) as = some w)
    (hidle : ∀ f, w.phase f = .idle) (hreading : w.reading = true) :
    w.db.rows.map Row.entry = writes as := by
  obtain ⟨-, f, hf⟩ := sequential_run hok hone hrun
  have horder := hf.inOrder
  rw [hidle f, hf.taken hreading (by simp [hidle]), List.append_nil] at horder
  rw [← horder]
  exact (List.append_nil _).symm

/-- `SELECT ... ORDER BY timestamp DESC LIMIT limit` as a sort. -/
theorem selects_iff_sorts {db : Sqlite ε} {limit : Nat} {rows : List (Row ε)} :
    db.Selects limit rows ↔
    ∃ sorted, OrderBy.Sorts Row.timestamp db.rows sorted ∧ rows = sorted.take limit := by
  constructor
  · rintro ⟨sorted, hperm, hdescending, hrows⟩
    exact ⟨sorted, ⟨hperm, hdescending⟩, hrows⟩
  · rintro ⟨sorted, hsorts, hrows⟩
    exact ⟨sorted, hsorts.perm, hsorts.descending, hrows⟩

/-- With strictly increasing timestamps a `SELECT` can only answer with the newest rows, the newest
first. -/
theorem selects_eq {db : Sqlite ε} {limit : Nat} {rows : List (Row ε)}
    (hlater : db.rows.Pairwise fun a b => a.timestamp < b.timestamp)
    (hselect : db.Selects limit rows) : rows = db.rows.reverse.take limit := by
  obtain ⟨sorted, hsorts, rfl⟩ := selects_iff_sorts.mp hselect
  have hnodup : (db.rows.map Row.timestamp).Nodup :=
    (List.pairwise_map.mpr hlater).imp ne_of_lt
  have hties : ∀ a ∈ db.rows.reverse.take limit, ∀ b ∈ db.rows,
      b.timestamp = a.timestamp → id b = id a := by
    intro a ha b hb htime
    exact List.inj_on_of_nodup_map hnodup hb (List.mem_reverse.mp (List.mem_of_mem_take ha)) htime
  have h := (OrderBy.forall_sorts_take_map_iff (hlater.imp le_of_lt) limit id id).mpr hties
    sorted hsorts
  rwa [List.map_id, List.map_id] at h

end DatabaseCdrWriter
/-! ## Fields that both back ends keep

The file cuts a field at its first separator and trims it; the binding of SQLite ends at the first
NUL. A field comes out of both as the same text exactly when neither happens. -/

namespace FileCdrWriter

open TextStream

/-- The parts after the first one leave the IMSI alone. -/
theorem parseParts_two_imsi (record : CdrRecord) (ss : Bytes) :
    (parseParts 2 record ss).imsi = record.imsi := by
  cases h : getline 44 ss with
  | none => simp [parseParts, h]
  | some split =>
    cases h' : getline 44 split.2 with
    | none => simp [parseParts, h, h', setPart]
    | some split' => simp [parseParts, h, h', setPart]

/-- The last part leaves the action alone. -/
theorem parseParts_one_action (record : CdrRecord) (ss : Bytes) :
    (parseParts 1 record ss).action = record.action := by
  cases h : getline 44 ss with
  | none => simp [parseParts, h]
  | some split => simp [parseParts, h, setPart]

/-- The first field is what stands before the first comma, trimmed; -/
theorem parseLine_imsi (line : Bytes) :
    (parseLine line).imsi = trim isBlank (line.takeWhile (· ≠ 44)) := by
  by_cases hne : line = []
  · rw [hne]
    rfl
  · rw [parseLine, parseParts, getline_of_ne_nil hne]
    exact parseParts_two_imsi _ _

/-- the second is what stands between the first comma and the next, trimmed. -/
theorem parseLine_action {imsi rest : Bytes} (himsi : 44 ∉ imsi) :
    (parseLine (imsi ++ 44 :: rest)).action = trim isBlank (rest.takeWhile (· ≠ 44)) := by
  rw [parseLine, parseParts, getline_append_delim himsi]
  show (parseParts 2 _ rest).action = _
  by_cases hne : rest = []
  · rw [hne]
    rfl
  · rw [parseParts, getline_of_ne_nil hne]
    exact parseParts_one_action _ _

/-- The first part of the first line, as the parser takes it. -/
def firstPart (s : Bytes) : Bytes :=
  trim isBlank ((s.takeWhile (· ≠ 10)).takeWhile (· ≠ 44))

/-- It has no separator, and no blank at either end. -/
theorem firstPart_plain_trimmed (s : Bytes) :
    (∀ c ∈ firstPart s, Tm.isPlain c = true) ∧ Trimmed isBlank (firstPart s) := by
  refine ⟨fun c hc => ?_, trimmed_trim _ _⟩
  have hpart := trim_subset _ _ hc
  have hline := (List.takeWhile_prefix _).subset hpart
  have hcomma : c ≠ 44 := fun h => notMem_takeWhile_ne _ (h ▸ hpart)
  have hnewline : c ≠ 10 := fun h => notMem_takeWhile_ne _ (h ▸ hline)
  simp [Tm.isPlain, hcomma, hnewline]

/-- A NUL in front of every comma and newline is still there after parsing. -/
theorem nul_mem_firstPart {front s : Bytes} (hplain : ∀ c ∈ front ++ cString s, Tm.isPlain c = true)
    (hnul : 0 ∈ s) (more : Bytes) : 0 ∈ firstPart (front ++ s ++ more) := by
  obtain ⟨text, tail, rfl, htext⟩ := List.eq_append_cons_of_mem hnul
  have hc : cString (text ++ 0 :: tail) = text := by
    unfold cString
    rw [List.takeWhile_append_of_pos (all_ne_of_notMem htext)]
    simp
  rw [hc] at hplain
  have hhead : ∀ c ∈ front ++ text ++ [0], Tm.isPlain c = true := by
    intro c hmem
    rcases List.mem_append.mp hmem with hmem | hmem
    · exact hplain c hmem
    · rw [List.mem_singleton.mp hmem]
      rfl
  have hsep := notMem_of_isPlain hhead
  have hsplit : front ++ (text ++ 0 :: tail) ++ more
      = (front ++ text ++ [0]) ++ (tail ++ more) := by
    simp
  rw [firstPart, hsplit, List.takeWhile_append_of_pos (all_ne_of_notMem hsep.1),
    List.takeWhile_append_of_pos (all_ne_of_notMem hsep.2)]
  exact mem_trim (by simp) rfl

/-- What the parser makes of a field, as far as it depends on the field only. -/
theorem readBack_imsi (e : CdrEntry × Tm) :
    ∃ more, (readBack e).imsi = firstPart ([] ++ e.1.imsi ++ more) := by
  refine ⟨44 :: 32 :: (e.1.action ++ 44 :: 32 :: e.2.stamp) ++ [10], ?_⟩
  rw [readBack, parseLine_imsi, lineOf_eq, firstPart, List.nil_append, List.append_assoc]

/-- The action that is read back stops at the first separator in it. -/
theorem readBack_action {e : CdrEntry × Tm} (himsi : ∀ c ∈ e.1.imsi, Tm.isPlain c = true) :
    ∃ more, (readBack e).action = firstPart ([32] ++ e.1.action ++ more) := by
  refine ⟨44 :: 32 :: e.2.stamp ++ [10], ?_⟩
  have hsep := notMem_of_isPlain himsi
  have hline : lineOf e.1 e.2 = e.1.imsi ++ 44 ::
      (([32] ++ e.1.action) ++ (44 :: 32 :: e.2.stamp ++ [10])) := by
    rw [lineOf_eq]
    simp
  rw [readBack, hline, List.takeWhile_append_of_pos (all_ne_of_notMem hsep.1)]
  simp only [List.takeWhile_cons]
  rw [if_pos (by decide), parseLine_action hsep.2]
  rfl

/-- A field that neither back end changes: no comma, no newline, no NUL, no blank at either end. -/
def Kept (field : Bytes) : Prop :=
  (∀ c ∈ field, Tm.isPlain c = true ∧ c ≠ 0) ∧ Trimmed isBlank field

instance (field : Bytes) : Decidable (Kept field) :=
  decidable_of_iff ((field.all fun c => Tm.isPlain c && c != 0) = true ∧ Trimmed isBlank field)
    (by simp [Kept])

/-- What SQLite binds ends before the first NUL. -/
theorem nul_notMem_cString (s : Bytes) : 0 ∉ cString s :=
  notMem_takeWhile_ne s

/-- A field without a NUL is bound as it is. -/
theorem cString_of_kept {field : Bytes} (h : Kept field) : cString field = field := by
  apply List.takeWhile_eq_self_iff.mpr
  exact fun c hc => decide_eq_true (h.1 c hc).2

/-- A field that comes out of both back ends as something that either could return is kept. -/
theorem kept_of_eq {front field more s t : Bytes} (hfront : ∀ c ∈ front, Tm.isPlain c = true)
    (hdatabase : cString field = firstPart s)
    (hfile : firstPart (front ++ field ++ more) = cString t) : Kept field := by
  obtain ⟨hplain, htrimmed⟩ := firstPart_plain_trimmed s
  rw [← hdatabase] at hplain htrimmed
  have hnul : 0 ∉ field := by
    intro hmem
    apply nul_notMem_cString t
    rw [← hfile]
    apply nul_mem_firstPart _ hmem
    intro c hc
    rcases List.mem_append.mp hc with hc | hc
    · exact hfront c hc
    · exact hplain c hc
  have hsame : cString field = field :=
    List.takeWhile_eq_self_iff.mpr (all_ne_of_notMem hnul)
  rw [hsame] at hplain htrimmed
  refine ⟨fun c hc => ⟨hplain c hc, ?_⟩, htrimmed⟩
  rintro rfl
  exact hnul hc

end FileCdrWriter
/-! ## The two answers

The database answers the newest first, the file the oldest first. The two answers are compared entry
by entry in the window that both read, and then their lengths. -/

namespace BackEnds

open DatabaseCdrWriter FileCdrWriter

/-- What the readers compare. -/
def pair (record : CdrRecord) : Bytes × Bytes :=
  (record.imsi, record.action)

/-- Both back ends return the fields as they were written. -/
def KeptFields (entry : CdrEntry) : Prop :=
  Kept entry.imsi ∧ Kept entry.action

instance (entry : CdrEntry) : Decidable (KeptFields entry) :=
  inferInstanceAs (Decidable (_ ∧ _))

/-- The fields as the database returns them. -/
def databasePair (entry : CdrEntry) : Bytes × Bytes :=
  (cString entry.imsi, cString entry.action)

/-- The database keeps the fields of such an entry, -/
theorem databasePair_of_kept {entry : CdrEntry} (h : KeptFields entry) :
    databasePair entry = (entry.imsi, entry.action) := by
  rw [databasePair, cString_of_kept h.1, cString_of_kept h.2]

/-- and so does the file. -/
theorem filePair_of_kept {e : CdrEntry × Tm} (h : KeptFields e.1) :
    pair (readBack e) = (e.1.imsi, e.1.action) := by
  have hplain : PlainFields e.1 := ⟨fun c hc => (h.1.1 c hc).1, fun c hc => (h.2.1 c hc).1⟩
  rw [(readBack_eq_recordOf_iff hplain).mpr ⟨h.1.2, h.2.2⟩]
  rfl

/-- If the answers agree in opposite directions, every field of the window is kept. -/
theorem kept_of_agree {window : List (CdrEntry × Tm)}
    (h : (window.map fun e => databasePair e.1).reverse = window.map fun e => pair (readBack e))
    {e : CdrEntry × Tm} (he : e ∈ window) : KeptFields e.1 := by
  have hdatabase (e) (he : e ∈ window) : ∃ e' ∈ window, pair (readBack e') = databasePair e.1 := by
    have hmem : databasePair e.1 ∈ (window.map fun e => databasePair e.1).reverse :=
      List.mem_reverse.mpr (List.mem_map.mpr ⟨e, he, rfl⟩)
    rw [h] at hmem
    exact List.mem_map.mp hmem
  have hfile (e) (he : e ∈ window) : ∃ e' ∈ window, databasePair e'.1 = pair (readBack e) := by
    have hmem : pair (readBack e) ∈ window.map fun e => pair (readBack e) :=
      List.mem_map.mpr ⟨e, he, rfl⟩
    rw [← h] at hmem
    exact List.mem_map.mp (List.mem_reverse.mp hmem)
  have himsi (e) (he : e ∈ window) : Kept e.1.imsi := by
    obtain ⟨e', he', hd⟩ := hdatabase e he
    obtain ⟨e'', he'', hf⟩ := hfile e he
    obtain ⟨more', hmore'⟩ := readBack_imsi e'
    obtain ⟨more, hmore⟩ := readBack_imsi e
    have hd1 : (readBack e').imsi = cString e.1.imsi := congrArg Prod.fst hd
    have hf1 : cString e''.1.imsi = (readBack e).imsi := congrArg Prod.fst hf
    exact kept_of_eq (by simp) (hd1.symm.trans hmore') (hmore.symm.trans hf1.symm)
  -- with the IMSIs kept, the second part of a line is its action
  obtain ⟨e', he', hd⟩ := hdatabase e he
  obtain ⟨e'', he'', hf⟩ := hfile e he
  obtain ⟨more', hmore'⟩ := readBack_action fun c hc => ((himsi e' he').1 c hc).1
  obtain ⟨more, hmore⟩ := readBack_action fun c hc => ((himsi e he).1 c hc).1
  have hd2 : (readBack e').action = cString e.1.action := congrArg Prod.snd hd
  have hf2 : cString e''.1.action = (readBack e).action := congrArg Prod.snd hf
  have hfront : ∀ c ∈ ([32] : Bytes), Tm.isPlain c = true := List.all_eq_true.mp (by decide)
  exact ⟨himsi e he, kept_of_eq hfront (hd2.symm.trans hmore') (hmore.symm.trans hf2.symm)⟩

/-- **One window, read in opposite directions.** -/
theorem agree_iff (window : List (CdrEntry × Tm)) :
    ((window.map fun e => databasePair e.1).reverse = window.map fun e => pair (readBack e)) ↔
      (window.map Prod.fst).reverse = window.map Prod.fst ∧
        ∀ entry ∈ window.map Prod.fst, KeptFields entry := by
  -- for kept fields both back ends show the fields that were written
  have hwritten (hkept : ∀ e ∈ window, KeptFields e.1) :
      window.map (fun e => databasePair e.1) =
          (window.map Prod.fst).map (fun entry => (entry.imsi, entry.action)) ∧
        window.map (fun e => pair (readBack e)) =
          (window.map Prod.fst).map (fun entry => (entry.imsi, entry.action)) := by
    rw [List.map_map]
    exact ⟨List.map_congr_left fun e he => databasePair_of_kept (hkept e he),
      List.map_congr_left fun e he => filePair_of_kept (hkept e he)⟩
  have hinj : Function.Injective fun entry : CdrEntry => (entry.imsi, entry.action) := by
    rintro ⟨imsi, action⟩ ⟨imsi', action'⟩ h
    cases h
    rfl
  constructor
  · intro h
    have hkept : ∀ e ∈ window, KeptFields e.1 := fun e he => kept_of_agree h he
    obtain ⟨hdatabase, hfile⟩ := hwritten hkept
    rw [hdatabase, hfile, ← List.map_reverse] at h
    refine ⟨List.map_injective_iff.mpr hinj h, fun entry hentry => ?_⟩
    obtain ⟨e, he, rfl⟩ := List.mem_map.mp hentry
    exact hkept e he
  · rintro ⟨hpalindrome, hkept⟩
    obtain ⟨hdatabase, hfile⟩ := hwritten fun e he => hkept e.1 (List.mem_map_of_mem he)
    rw [hdatabase, hfile, ← List.map_reverse, hpalindrome]

/-- The database's answer, from the window of what was written. -/
theorem map_pair_of_reads {w : DatabaseCdrWriter CdrEntry} {datetime : Nat → Bytes} {limit : Nat}
    {records : List CdrRecord}
    (hlater : w.db.rows.Pairwise fun a b => a.timestamp < b.timestamp)
    (hreads : w.Reads datetime limit records) :
    records.map pair = (((w.db.rows.map Row.entry).rtake
      (min limit ICdrWriter.READ_CDR_LIMIT)).map databasePair).reverse := by
  obtain ⟨rows, hselect, rfl⟩ := hreads
  rw [selects_eq hlater hselect, ← List.map_reverse, List.rtake_eq_reverse_take_reverse,
    List.reverse_reverse, List.map_map, ← List.map_reverse, ← List.map_take, List.map_map]
  rfl

/-- The two counts, of `n` records. -/
theorem count_eq_iff {w : DatabaseCdrWriter CdrEntry} {file : FileCdrWriter} {n : Nat}
    (hconn : w.db.isConnected = true) (hrows : w.db.rows.length = n)
    (hfile : file.recordCount = n) :
    w.getRecordCount = file.getRecordCount ↔ n < 2 ^ 31 := by
  rw [DatabaseCdrWriter.getRecordCount, if_pos hconn, FileCdrWriter.getRecordCount, hrows, hfile]
  constructor
  · intro h
    by_contra hlarge
    rw [if_neg hlarge] at h
    cases h
  · intro hsmall
    rw [if_pos hsmall, (toInt_natCast_eq_iff n).mpr hsmall]

/-- **When the back ends are interchangeable.** On runs in which no SQLite call fails, no two
flushes overlap and every row gets a later timestamp than the one before it, the two back ends
answer alike exactly when the window is a palindrome of entries with kept fields and the count is
an `int`. -/
theorem interchangeable_iff {now limit : Nat} {as : List (WriterAction CdrEntry)}
    {w w' : DatabaseCdrWriter CdrEntry} {calls : List Call} {datetime : Nat → Bytes}
    {records : List CdrRecord} (hok : ∀ a ∈ as, Succeeds a)
    (hone : Run.Along DatabaseCdrWriter.step OneFlush (constructed [] now) as)
    (hrun : Run.exec DatabaseCdrWriter.step (constructed [] now) as = some w)
    (hselect : w.step .select = some w') (hidle : w.phase .background = .idle)
    (hlater : w.db.rows.Pairwise fun a b => a.timestamp < b.timestamp)
    (hreads : w.Reads datetime limit records) (hcalls : (written calls).map Prod.fst = writes as) :
    let file := ((construct [] true true).run calls).getRecentRecords limit
    let window := (writes as).rtake (min limit ICdrWriter.READ_CDR_LIMIT)
    (records.map pair = file.1.map pair ∧ w'.getRecordCount = file.2.getRecordCount) ↔
      (window.reverse = window ∧ ∀ entry ∈ window, KeptFields entry) ∧
        (writes as).length < 2 ^ 31 := by
  intro file window
  obtain ⟨hfile, hlogs⟩ := (logs_run [] calls).getRecentRecords limit
  cases step_cases hselect with
  | select hidle' hreading =>
    have hall : ∀ f, w.phase f = .idle := by
      intro f
      cases f with
      | background => exact hidle
      | eventLoop => exact hidle'
    have hrows := rows_of_select hok hone hrun hall hreading
    have hconn : w.db.isConnected = true := (sequential_run hok hone hrun).1.connected
    -- both back ends answer from the same window of the calls
    have hwindow : ((written calls).rtake (min limit ICdrWriter.READ_CDR_LIMIT)).map Prod.fst =
        window := by
      show _ = (writes as).rtake _
      rw [← hcalls, List.rtake, List.rtake, List.map_drop, List.length_map]
    have hcount : w.db.rows.length = (writes as).length := by
      rw [← hrows, List.length_map]
    have hfileCount : file.2.recordCount = (writes as).length := by
      rw [hlogs.recordCount, ← hcalls, List.length_map]
    have hdatabase : records.map pair =
        (((written calls).rtake (min limit ICdrWriter.READ_CDR_LIMIT)).map
          fun e => databasePair e.1).reverse := by
      rw [map_pair_of_reads hlater hreads, hrows]
      show (window.map databasePair).reverse = _
      rw [← hwindow, List.map_map]
      rfl
    have hpairs := agree_iff ((written calls).rtake (min limit ICdrWriter.READ_CDR_LIMIT))
    rw [hwindow] at hpairs
    refine and_congr ?_ (count_eq_iff hconn hcount hfileCount)
    rw [hdatabase, hfile, List.map_map]
    exact hpairs

/-- One entry, flushed by the reader. -/
def firstRead : List (WriterAction CdrEntry) :=
  [.writeAction created, .getRecentRecords, .takeBuffer .eventLoop, .begin .eventLoop true,
    .insert .eventLoop true, .commit .eventLoop .ok]

/-- The same entry for the file. -/
def firstCalls : List Call :=
  [.writeAction created ⟨1, 2, 3, 4, 5, 126, 6⟩]

/-- The `SELECT` of the witness finds the one row. -/
theorem firstRead_reads {w : DatabaseCdrWriter CdrEntry}
    (hrun : Run.exec DatabaseCdrWriter.step (constructed [] 7) firstRead = some w) :
    w.Reads (fun _ => []) 10 [⟨created.imsi, created.action, []⟩] := by
  obtain rfl := Option.some.inj hrun
  exact ⟨[⟨created, 7⟩], ⟨[⟨created, 7⟩], List.Perm.refl _, by simp, rfl⟩, rfl⟩

/-- One entry, written to both back-ends and read back from both. -/
theorem interchangeable_firstRead :
    ∃ w w' records, Run.exec DatabaseCdrWriter.step (constructed [] 7) firstRead = some w ∧
      w.step .select = some w' ∧ w.Reads (fun _ => []) 10 records ∧ records.length = 1 ∧
      let file := ((construct [] true true).run firstCalls).getRecentRecords 10
      records.map pair = file.1.map pair ∧ w'.getRecordCount = file.2.getRecordCount := by
  have hrun : Run.exec DatabaseCdrWriter.step (constructed [] 7) firstRead = some _ := rfl
  refine ⟨_, _, _, hrun, rfl, firstRead_reads hrun, rfl, ?_⟩
  refine (interchangeable_iff ?_ ?_ hrun rfl rfl ?_ (firstRead_reads hrun) rfl).mpr
    ⟨⟨rfl, ?_⟩, by decide⟩
  · simp [firstRead, Succeeds]
  · simp [firstRead, Run.Along, OneFlush, constructed, DatabaseCdrWriter.step, eventLoopFree,
      Phase.isIdle, DatabaseCdrWriter.writeAction]
  · exact List.pairwise_singleton _ _
  · decide

/-- A second entry, a second later, and another read. -/
def secondRead : List (WriterAction CdrEntry) :=
  firstRead ++ [.select, .tick 1, .writeAction deleted, .getRecentRecords, .takeBuffer .eventLoop,
    .begin .eventLoop true, .insert .eventLoop true, .commit .eventLoop .ok]

/-- The same two calls for the file. -/
def secondCalls : List Call :=
  firstCalls ++ [.getRecentRecords 10, .writeAction deleted ⟨2, 2, 3, 4, 5, 126, 6⟩]

/-- The `SELECT` finds both rows, the latest first. -/
theorem secondRead_reads {w : DatabaseCdrWriter CdrEntry}
    (hrun : Run.exec DatabaseCdrWriter.step (constructed [] 7) secondRead = some w) :
    w.Reads (fun _ => []) 10
      [⟨deleted.imsi, deleted.action, []⟩, ⟨created.imsi, created.action, []⟩] := by
  obtain rfl := Option.some.inj hrun
  exact ⟨[⟨deleted, 8⟩, ⟨created, 7⟩],
    ⟨[⟨deleted, 8⟩, ⟨created, 7⟩], List.Perm.swap _ _ _, by simp, rfl⟩, rfl⟩

/-- The database answers with the deletion first, the file with the creation. -/
theorem secondRead_differs :
    ∃ w w' records, (∀ a ∈ secondRead, Succeeds a) ∧
      Run.Along DatabaseCdrWriter.step OneFlush (constructed [] 7) secondRead ∧
      Run.exec DatabaseCdrWriter.step (constructed [] 7) secondRead = some w ∧
      w.step .select = some w' ∧ w.phase .background = .idle ∧
      (w.db.rows.Pairwise fun a b => a.timestamp < b.timestamp) ∧
      w.Reads (fun _ => []) 10 records ∧ (written secondCalls).map Prod.fst = writes secondRead ∧
      records.map pair ≠
        (((construct [] true true).run secondCalls).getRecentRecords 10).1.map pair := by
  have hrun : Run.exec DatabaseCdrWriter.step (constructed [] 7) secondRead = some _ := rfl
  refine ⟨_, _, _, ?_, ?_, hrun, rfl, rfl, ?_, secondRead_reads hrun, rfl, by decide⟩
  · simp [secondRead, firstRead, Succeeds]
  · simp [secondRead, firstRead, Run.Along, OneFlush, constructed, DatabaseCdrWriter.step,
      eventLoopFree, Phase.isIdle, DatabaseCdrWriter.writeAction,
      DatabaseCdrWriter.getRecentRecords, takeBuffer, Sqlite.beginImmediate, Sqlite.insertRow,
      Sqlite.commit]
  · show List.Pairwise _ [(⟨created, 7⟩ : Row CdrEntry), ⟨deleted, 8⟩]
    simp

end BackEnds
end Pgw
