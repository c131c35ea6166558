import MiniPgw.Cdr.FileCdrWriter

/-!
# FileCdrWriter — what is read back

The line of an entry decides what is read back for it (`readBack`), whatever stands around it in
the file: the time text ends the line, and the positions in `m_index` point at the lines of the
entries (`Logs`). A call keeps `Logs`, so every state of a lifetime reads back its last entries.

* **`reads_back`** — within one lifetime, clean entries are read back as they were written;
* **`survives_iff`** — when the entries of earlier lifetimes are found again: only if there are
  none.

## The architecture

* **`isPlain_of_mem_stamp`**, **`trimmed_stamp`** — the time text brings in no separator and no
  outer blank.
* **`parseLine_fields`**, **`readBack_plain`** — the comma parser on the line of an entry.
* **`StandsAt`**, **`getline_of_standsAt`** — reading at a position depends on the line that
  stands there only, and appending moves no line.
* **`Logs`**, **`Logs.step`**, **`logs_run`** — the positions of a lifetime, for one call and for
  all.
* **`reads_back`**, **`survives_iff`** — the invariant at the end of a lifetime, and of several.
-/

namespace Pgw

/-! ## The time text

`parseLine` and `getline` cut at commas and newlines, so the time text must have neither. It is made
of names, numbers, blanks and colons. -/

namespace Tm

/-- Neither a newline nor a comma. -/
def isPlain (c : UInt8) : Bool :=
  c ≠ 10 && c ≠ 44

/-- The characters of a number are the digits from `'0'` to `'9'`. -/
theorem digit_of_mem_decimal {n : Nat} {c : UInt8} (hc : c ∈ decimal n) :
    48 ≤ c.toNat ∧ c.toNat ≤ 57 := by
  obtain ⟨d, hd, rfl⟩ := List.mem_map.mp hc
  have hdigit := Nat.isDigit_of_mem_toDigits (by decide) (by decide) hd
  rw [Char.isDigit_iff_toNat] at hdigit
  have hlow : 48 ≤ d.toNat := hdigit.1
  have hhigh : d.toNat ≤ 57 := hdigit.2
  rw [UInt8.toNat_ofNat_of_lt' (show d.toNat < 256 by omega)]
  exact ⟨hlow, hhigh⟩

/-- A number has at least one digit, so the year ends the time text. -/
theorem decimal_ne_nil (n : Nat) : decimal n ≠ [] := by
  unfold decimal
  rw [Ne, List.map_eq_nil_iff]
  exact Nat.toDigits_ne_nil

/-- No digit is a separator. -/
theorem isPlain_of_mem_decimal {n : Nat} {c : UInt8} (hc : c ∈ decimal n) : isPlain c = true := by
  have hdigit := digit_of_mem_decimal hc
  have hnewline : c ≠ 10 := by
    rintro rfl
    exact absurd hdigit (by decide)
  have hcomma : c ≠ 44 := by
    rintro rfl
    exact absurd hdigit (by decide)
  simp [isPlain, hnewline, hcomma]

/-- A padded number is as plain as what it is padded with. -/
theorem isPlain_of_mem_padded {width n : Nat} {fill c : UInt8} (hfill : isPlain fill = true)
    (hc : c ∈ padded width fill n) : isPlain c = true := by
  rcases List.mem_append.mp hc with hc | hc
  · rw [List.eq_of_mem_replicate hc]
    exact hfill
  · exact isPlain_of_mem_decimal hc

/-- A name out of a table in which every name is fine, as is the one for a missing entry. -/
theorem getD_of_forall {P : Bytes → Prop} {names : List Bytes} {other : Bytes} (n : Nat)
    (hnames : ∀ name ∈ names, P name) (hother : P other) : P (names.getD n other) := by
  rw [List.getD_eq_getElem?_getD]
  cases h : names[n]? with
  | none => exact hother
  | some name => exact hnames name (List.mem_of_getElem? h)

/-- The names in a table are checked by evaluation. -/
theorem forall_isPlain {names : List Bytes}
    (h : names.all (fun name => name.all isPlain) = true) :
    ∀ name ∈ names, ∀ c ∈ name, isPlain c = true :=
  fun name hname => List.all_eq_true.mp (List.all_eq_true.mp h name hname)

/-- **The time text has no separator**: neither the names, nor the numbers, nor what stands between
them. -/
theorem isPlain_of_mem_stamp {t : Tm} {c : UInt8} (hc : c ∈ t.stamp) : isPlain c = true := by
  have hdays : ∀ name ∈ dayNames, ∀ c ∈ name, isPlain c = true :=
    forall_isPlain (by decide)
  have hmonths : ∀ name ∈ monthNames, ∀ c ∈ name, isPlain c = true :=
    forall_isPlain (by decide)
  have hother : ∀ c ∈ ascii "???", isPlain c = true := List.all_eq_true.mp (by decide)
  have hday := getD_of_forall t.wday hdays hother
  have hmonth := getD_of_forall t.mon hmonths hother
  have hblank : ∀ c ∈ ascii " ", isPlain c = true := List.all_eq_true.mp (by decide)
  have hcolon : ∀ c ∈ ascii ":", isPlain c = true := List.all_eq_true.mp (by decide)
  -- one case for each part of the stamp
  simp only [stamp, List.mem_append] at hc
  rcases hc with ((((((((((hc | hc) | hc) | hc) | hc) | hc) | hc) | hc) | hc) | hc) | hc) | hc
  · exact hday c hc
  · exact hblank c hc
  · exact hmonth c hc
  · exact isPlain_of_mem_padded (by decide) hc
  · exact hblank c hc
  · exact isPlain_of_mem_padded (by decide) hc
  · exact hcolon c hc
  · exact isPlain_of_mem_padded (by decide) hc
  · exact hcolon c hc
  · exact isPlain_of_mem_padded (by decide) hc
  · exact hblank c hc
  · exact isPlain_of_mem_decimal hc

end Tm

namespace FileCdrWriter

open TextStream

/-- No digit is a blank or a tab. -/
theorem not_isBlank_of_mem_decimal {n : Nat} {c : UInt8} (hc : c ∈ Tm.decimal n) :
    isBlank c = false := by
  have hdigit := Tm.digit_of_mem_decimal hc
  have hspace : c ≠ 32 := by
    rintro rfl
    exact absurd hdigit (by decide)
  have htab : c ≠ 9 := by
    rintro rfl
    exact absurd hdigit (by decide)
  simp [isBlank, hspace, htab]

/-- The time text begins with the name of a day and ends with the year, so that nothing is cut off
around it. -/
theorem trimmed_stamp (t : Tm) : Trimmed isBlank t.stamp := by
  constructor
  · -- the text begins with the name of the day
    have hdays : ∀ name ∈ Tm.dayNames, ∃ c ∈ name.head?, isBlank c = false := by decide
    have hother : ∃ c ∈ (ascii "???").head?, isBlank c = false := by decide
    obtain ⟨d, hd, hblank⟩ := Tm.getD_of_forall t.wday hdays hother
    intro c hc
    have hhead : d ∈ t.stamp.head? := by
      simp only [Tm.stamp, List.append_assoc]
      exact List.mem_head?_append_of_mem_head? hd
    rw [Option.mem_unique hc hhead]
    exact hblank
  · -- and ends with the year
    intro c hc
    unfold Tm.stamp at hc
    rw [List.getLast?_append_of_ne_nil _ (Tm.decimal_ne_nil _)] at hc
    exact not_isBlank_of_mem_decimal (List.mem_of_getLast? hc)

/-! ## One line

What a reader gets for an entry is its line up to the first newline, parsed. For fields without
separators this is a matter of trimming only. -/

/-- An entry as a reader should see it. -/
def recordOf (e : CdrEntry × Tm) : CdrRecord :=
  ⟨e.1.imsi, e.1.action, e.2.stamp⟩

/-- What a reader gets for an entry: its line up to the first newline, parsed. -/
def readBack (e : CdrEntry × Tm) : CdrRecord :=
  parseLine ((lineOf e.1 e.2).takeWhile (· ≠ 10))

/-- No comma and no newline. -/
def PlainFields (entry : CdrEntry) : Prop :=
  (∀ c ∈ entry.imsi, Tm.isPlain c = true) ∧ ∀ c ∈ entry.action, Tm.isPlain c = true

/-- No leading and no trailing blank or tab. -/
def TrimmedFields (entry : CdrEntry) : Prop :=
  Trimmed isBlank entry.imsi ∧ Trimmed isBlank entry.action

instance (entry : CdrEntry) : Decidable (PlainFields entry) :=
  decidable_of_iff (entry.imsi.all Tm.isPlain = true ∧ entry.action.all Tm.isPlain = true)
    (and_congr List.all_eq_true List.all_eq_true)

instance (entry : CdrEntry) : Decidable (TrimmedFields entry) :=
  inferInstanceAs (Decidable (_ ∧ _))

/-- The line of an entry: its three fields with commas and blanks between them, and a newline. -/
theorem lineOf_eq (entry : CdrEntry) (now : Tm) :
    lineOf entry now =
      (entry.imsi ++ 44 :: 32 :: (entry.action ++ 44 :: 32 :: now.stamp)) ++ [10] := by
  have hsep : ascii ", " = [44, 32] := rfl
  have hend : ascii "\n" = [10] := rfl
  simp [lineOf, Tm.asctime, hsep, hend]

/-- The line ends, so `getline` stops in it at the latest. -/
theorem newline_mem_lineOf (entry : CdrEntry) (now : Tm) : 10 ∈ lineOf entry now := by
  rw [lineOf_eq]
  simp

/-- A plain field contains neither of the two separators. -/
theorem notMem_of_isPlain {s : Bytes} (h : ∀ c ∈ s, Tm.isPlain c = true) : 10 ∉ s ∧ 44 ∉ s :=
  ⟨fun hmem => absurd (h 10 hmem) (by decide), fun hmem => absurd (h 44 hmem) (by decide)⟩

/-- The line of an entry without separators, up to its newline. -/
theorem takeWhile_lineOf {entry : CdrEntry} (hplain : PlainFields entry) (now : Tm) :
    (lineOf entry now).takeWhile (· ≠ 10) =
      entry.imsi ++ 44 :: 32 :: (entry.action ++ 44 :: 32 :: now.stamp) := by
  have himsi := (notMem_of_isPlain hplain.1).1
  have haction := (notMem_of_isPlain hplain.2).1
  have hstamp := (notMem_of_isPlain fun c => Tm.isPlain_of_mem_stamp (t := now)).1
  have hline : 10 ∉ entry.imsi ++ 44 :: 32 :: (entry.action ++ 44 :: 32 :: now.stamp) := by
    simp [himsi, haction, hstamp]
  rw [lineOf_eq, List.takeWhile_append_of_pos (all_ne_of_notMem hline)]
  simp

/-- **The comma parser** on the three fields of an entry. -/
theorem parseLine_fields {imsi action time : Bytes} (himsi : 44 ∉ imsi) (haction : 44 ∉ action)
    (htime : 44 ∉ time) :
    parseLine (imsi ++ 44 :: 32 :: (action ++ 44 :: 32 :: time)) =
      ⟨trim isBlank imsi, trim isBlank action, trim isBlank time⟩ := by
  have hblank (s : Bytes) : trim isBlank (32 :: s) = trim isBlank s := by
    have hspace : ∀ c ∈ ([32] : Bytes), isBlank c = true := List.all_eq_true.mp (by decide)
    exact trim_append_of_blank hspace s
  have haction' : 44 ∉ 32 :: action := by simp [haction]
  have htime' : 44 ∉ 32 :: time := by simp [htime]
  have hsecond := getline_append_delim haction' (32 :: time)
  rw [List.cons_append] at hsecond
  simp [parseLine, parseParts, getline_append_delim himsi, hsecond,
    getline_last htime' (List.cons_ne_nil _ _), setPart, hblank]

/-- An entry without separators is read back with the blanks around its fields cut off. -/
theorem readBack_plain {entry : CdrEntry} (hplain : PlainFields entry) (now : Tm) :
    readBack (entry, now) =
      ⟨trim isBlank entry.imsi, trim isBlank entry.action, now.stamp⟩ := by
  have hstamp := (notMem_of_isPlain fun c => Tm.isPlain_of_mem_stamp (t := now)).2
  unfold readBack
  rw [takeWhile_lineOf hplain, parseLine_fields (notMem_of_isPlain hplain.1).2
    (notMem_of_isPlain hplain.2).2 hstamp, trim_eq_self_iff.mpr (trimmed_stamp now)]

/-- An entry without separators is read back as it is exactly when nothing is cut off. -/
theorem readBack_eq_recordOf_iff {e : CdrEntry × Tm} (hplain : PlainFields e.1) :
    readBack e = recordOf e ↔ TrimmedFields e.1 := by
  rw [readBack_plain hplain e.2, recordOf, TrimmedFields, ← trim_eq_self_iff, ← trim_eq_self_iff]
  simp

/-! ## The positions

`m_index` holds the value of `tellp` before each line. Appending moves nothing, so a position
that was right stays right. -/

/-- The entry's line stands in the file at the position. -/
def StandsAt (content : Bytes) (position : Nat) (e : CdrEntry × Tm) : Prop :=
  lineOf e.1 e.2 <+: content.drop position

/-- Even an entry with empty fields has a line. -/
theorem lineOf_ne_nil (entry : CdrEntry) (now : Tm) : lineOf entry now ≠ [] :=
  List.ne_nil_of_mem (newline_mem_lineOf entry now)

/-- Appending to the file moves no line. -/
theorem StandsAt.append {content : Bytes} {position : Nat} {e : CdrEntry × Tm}
    (h : StandsAt content position e) (more : Bytes) : StandsAt (content ++ more) position e := by
  unfold StandsAt at h ⊢
  have hle : position ≤ content.length := by
    by_contra hlt
    rw [List.drop_eq_nil_of_le (by omega), List.prefix_nil] at h
    exact lineOf_ne_nil e.1 e.2 h
  rw [List.drop_append_of_le_length hle]
  exact h.trans (List.prefix_append _ _)

/-- A line that is appended stands where the file ended. -/
theorem standsAt_append (content : Bytes) (e : CdrEntry × Tm) :
    StandsAt (content ++ lineOf e.1 e.2) content.length e := by
  unfold StandsAt
  rw [List.drop_left]

/-- Reading at the position of a line gives the entry of that line, and nothing else matters. -/
theorem getline_of_standsAt {file : Bytes} {position : Nat} {e : CdrEntry × Tm}
    (h : StandsAt file position e) (s : ReadStream) :
    parseLine (((s.clear).seekg position).getline file).1 = readBack e := by
  obtain ⟨rest, hrest⟩ := h
  obtain ⟨tail, htail⟩ := getline_append_of_mem (newline_mem_lineOf e.1 e.2) rest
  simp [ReadStream.clear, ReadStream.seekg, ReadStream.getline, ← hrest, htail, readBack]

/-- The loop of `getRecentRecords` reads one entry for each position. -/
theorem readRecords_of_standsAt {file : Bytes} {positions : List Nat}
    {entries : List (CdrEntry × Tm)} (h : List.Forall₂ (StandsAt file) positions entries) :
    ∀ s : ReadStream, (readRecords file positions s).1 = entries.map readBack := by
  induction h with
  | nil => exact fun s => rfl
  | cons hat _ ih =>
    intro s
    rw [readRecords, List.map_cons]
    dsimp only
    rw [getline_of_standsAt hat, ih]

/-- No more entries than there are can be taken from the end. -/
theorem rtake_min_length {α : Type} (l : List α) (k : Nat) :
    l.rtake (min k l.length) = l.rtake k := by
  unfold List.rtake
  congr 1
  omega

/-- The more is taken from the end, the more there is. -/
theorem rtake_subset {α : Type} {l : List α} {j k : Nat} (hjk : j ≤ k) : l.rtake j ⊆ l.rtake k := by
  unfold List.rtake
  apply (List.drop_suffix_drop_left l _).subset
  omega

/-! ## A lifetime

`Logs` ties the positions to the content, which is the file and the buffer together. Each call keeps
it, and a read through it gives back the last entries. -/

/-- The writer's streams are open, and its positions are those of the lines of `entries`. -/
structure Logs (w : FileCdrWriter) (entries : List (CdrEntry × Tm)) : Prop where
  writeOpen : w.writeOpen = true
  readOpen : w.readOpen = true
  lines : List.Forall₂ (StandsAt w.content) w.index entries

/-- A new writer has written no entries, whatever the file had before. -/
theorem logs_construct (file : Bytes) : Logs (construct file true true) [] where
  writeOpen := rfl
  readOpen := rfl
  lines := List.Forall₂.nil

/-- A flush moves the buffer into the file, which together stay what they are, -/
theorem content_flush (w : FileCdrWriter) : w.flush.content = w.content :=
  List.append_nil _

/-- and so does the runtime when it writes a part of the buffer. -/
theorem content_drain (w : FileCdrWriter) (n : Nat) : (w.drain n).content = w.content := by
  show w.file ++ w.pending.take n ++ w.pending.drop n = w.file ++ w.pending
  rw [List.append_assoc, List.take_append_drop]

section
variable {w : FileCdrWriter} {entries : List (CdrEntry × Tm)}

/-- The writer counts the entries of its lifetime. -/
theorem Logs.recordCount (h : Logs w entries) : w.recordCount = entries.length := by
  rw [← w.indexed]
  exact h.lines.length_eq

/-- A new entry gets the position at which the content ended, and its line is appended there. -/
theorem Logs.writeAction (h : Logs w entries) (entry : CdrEntry) (now : Tm) :
    Logs (w.writeAction entry now) (entries ++ [(entry, now)]) := by
  unfold FileCdrWriter.writeAction
  rw [if_pos h.writeOpen]
  refine ⟨h.writeOpen, h.readOpen, ?_⟩
  show List.Forall₂ (StandsAt (w.file ++ (w.pending ++ lineOf entry now))) (w.index ++ [w.tellp])
    (entries ++ [(entry, now)])
  rw [← List.append_assoc]
  have hold := h.lines.imp fun _ _ hat => hat.append (lineOf entry now)
  have hnew := standsAt_append w.content (entry, now)
  exact List.rel_append hold (List.Forall₂.cons hnew List.Forall₂.nil)

/-- What moves from the buffer to the file does not move in the content. -/
theorem Logs.drain (h : Logs w entries) (n : Nat) : Logs (w.drain n) entries := by
  refine ⟨h.writeOpen, h.readOpen, ?_⟩
  rw [content_drain]
  exact h.lines

/-- **One read.** The last entries are read back, and the log stays. -/
theorem Logs.getRecentRecords (h : Logs w entries) (limit : Nat) :
    (w.getRecentRecords limit).1 =
        (entries.rtake (min limit ICdrWriter.READ_CDR_LIMIT)).map readBack ∧
      Logs (w.getRecentRecords limit).2 entries := by
  have hopen : w.flush.readOpen = true := h.readOpen
  unfold FileCdrWriter.getRecentRecords
  rw [if_pos h.writeOpen, if_pos hopen]
  refine ⟨?_, h.writeOpen, h.readOpen, ?_⟩
  · have hwindow := List.forall₂_drop (entries.length -
      min (min limit ICdrWriter.READ_CDR_LIMIT) entries.length) h.lines
    have hread := readRecords_of_standsAt hwindow w.readFile
    have hcount : w.flush.recordCount = entries.length := h.recordCount
    show (readRecords w.content (w.index.drop (w.flush.recordCount - _)) w.readFile).1 = _
    rw [hcount, hread, ← rtake_min_length]
    rfl
  · show List.Forall₂ (StandsAt w.flush.content) w.index entries
    rw [content_flush]
    exact h.lines

end

/-- The entries that the calls write. -/
def written (calls : List Call) : List (CdrEntry × Tm) :=
  calls.filterMap fun
    | .writeAction entry now => some (entry, now)
    | .getRecentRecords _ => none
    | .drain _ => none

/-- One call. -/
theorem Logs.step {w : FileCdrWriter} {entries : List (CdrEntry × Tm)} (h : Logs w entries)
    (call : Call) : Logs (w.step call) (entries ++ written [call]) := by
  cases call with
  | writeAction entry now => exact h.writeAction entry now
  | getRecentRecords limit =>
    show Logs (w.getRecentRecords limit).2 (entries ++ [])
    rw [List.append_nil]
    exact (h.getRecentRecords limit).2
  | drain n =>
    show Logs (w.drain n) (entries ++ [])
    rw [List.append_nil]
    exact h.drain n

/-- A whole lifetime. -/
theorem Logs.run {w : FileCdrWriter} {entries : List (CdrEntry × Tm)} (h : Logs w entries)
    (calls : List Call) : Logs (w.run calls) (entries ++ written calls) := by
  induction calls generalizing w entries with
  | nil =>
    rw [written, List.filterMap_nil, List.append_nil]
    exact h
  | cons call calls ih =>
    have hnext := ih (h.step call)
    rw [List.append_assoc] at hnext
    unfold written at hnext ⊢
    rw [← List.filterMap_append] at hnext
    exact hnext

/-- The writer of a lifetime, at any moment of it. -/
theorem logs_run (file : Bytes) (calls : List Call) :
    Logs ((construct file true true).run calls) (written calls) :=
  (logs_construct file).run calls

/-- **Reading back.** Whatever stood in the file before, entries whose fields are plain and trimmed
are read back as they were written: the last ones, the oldest first, and all are counted. -/
theorem reads_back (file : Bytes) (calls : List Call)
    (hclean : ∀ e ∈ written calls, PlainFields e.1 ∧ TrimmedFields e.1) (limit : Nat) :
    let w := (construct file true true).run calls
    let n := (written calls).length
    (w.getRecentRecords limit).1 =
        ((written calls).rtake (min (min limit ICdrWriter.READ_CDR_LIMIT) n)).map recordOf ∧
      (n < 2 ^ 31 → w.getRecordCount = some (n : Int)) := by
  intro w n
  have hlogs : Logs w (written calls) := logs_run file calls
  refine ⟨?_, fun hn => ?_⟩
  · rw [(hlogs.getRecentRecords limit).1, rtake_min_length]
    refine List.map_congr_left fun e he => ?_
    have hmem := (List.drop_suffix _ _).subset he
    exact (readBack_eq_recordOf_iff (hclean e hmem).1).mpr (hclean e hmem).2
  · unfold getRecordCount
    rw [hlogs.recordCount, (toInt_natCast_eq_iff n).mpr hn]

/-- A prior file, two entries and reads between them. -/
theorem reads_back_twoEntries :
    ∃ file calls, (written calls).length = 2 ∧ ∀ limit,
      let w := (construct file true true).run calls
      let n := (written calls).length
      (w.getRecentRecords limit).1 =
          ((written calls).rtake (min (min limit ICdrWriter.READ_CDR_LIMIT) n)).map recordOf ∧
        (n < 2 ^ 31 → w.getRecordCount = some (n : Int)) :=
  ⟨ascii "IMSI, Action\n001010000000001, CREA",
    [.writeAction ⟨ascii "001010123456789", ICdrWriter.SESSION_CREATED⟩ ⟨1, 2, 3, 4, 5, 126, 6⟩,
      .drain 7, .getRecentRecords 1,
      .writeAction ⟨ascii "001010123456789", ICdrWriter.SESSION_DELETED⟩ ⟨5, 2, 3, 14, 5, 126, 2⟩,
      .getRecentRecords 200],
    rfl, reads_back _ _ (by decide)⟩

/-! ## Several lifetimes

The constructor opens the file for reading "to index the existing records" and indexes none, so a
new writer counts from zero. -/

/-- The last writer on the file finds the entries of all lifetimes. -/
def Survives (file : Bytes) (earlier : List (List Call)) (calls : List Call) : Prop :=
  let w := (construct (fileAfter file earlier) true true).run calls
  let all := earlier.flatMap written ++ written calls
  w.getRecordCount = some (all.length : Int) ∧ ∀ limit, (w.getRecentRecords limit).1 =
    (all.rtake (min (min limit ICdrWriter.READ_CDR_LIMIT) all.length)).map recordOf

/-- **Restarts.** The constructor indexes nothing of what it finds in the file, so the entries of
earlier lifetimes are lost to the readers. -/
theorem survives_iff (file : Bytes) (earlier : List (List Call)) (calls : List Call)
    (hplain : ∀ e ∈ earlier.flatMap written ++ written calls, PlainFields e.1) :
    Survives file earlier calls ↔
      earlier.flatMap written = [] ∧ (written calls).length < 2 ^ 31 ∧
        ∀ e ∈ (written calls).rtake ICdrWriter.READ_CDR_LIMIT, TrimmedFields e.1 := by
  have hlogs := logs_run (fileAfter file earlier) calls
  have hcount : ((construct (fileAfter file earlier) true true).run calls).getRecordCount =
      some (toInt (written calls).length) := by
    unfold getRecordCount
    rw [hlogs.recordCount]
  have hread (e) (he : e ∈ (written calls).rtake ICdrWriter.READ_CDR_LIMIT) :
      readBack e = recordOf e ↔ TrimmedFields e.1 := by
    apply readBack_eq_recordOf_iff
    exact hplain e (List.mem_append_right _ ((List.drop_suffix _ _).subset he))
  unfold Survives
  dsimp only
  rw [hcount]
  constructor
  · rintro ⟨htotal, hrecent⟩
    -- the cast never adds entries, so those of earlier lifetimes must be none
    have hle := toInt_natCast_le (written calls).length
    have heq := Option.some.inj htotal
    rw [List.length_append] at heq
    have hnone : earlier.flatMap written = [] := by
      apply List.length_eq_zero_iff.mp
      omega
    have hsmall : (written calls).length < 2 ^ 31 := by
      apply (toInt_natCast_eq_iff _).mp
      omega
    refine ⟨hnone, hsmall, fun e he => (hread e he).mp ?_⟩
    have hlast := hrecent ICdrWriter.READ_CDR_LIMIT
    rw [(hlogs.getRecentRecords _).1, hnone, List.nil_append, rtake_min_length, min_self] at hlast
    exact List.map_inj_left.mp hlast e he
  · rintro ⟨hnone, hsmall, htrimmed⟩
    rw [hnone, List.nil_append, (toInt_natCast_eq_iff _).mpr hsmall]
    refine ⟨rfl, fun limit => ?_⟩
    rw [(hlogs.getRecentRecords limit).1, rtake_min_length]
    refine List.map_congr_left fun e he => (hread e ?_).mpr (htrimmed e ?_) <;>
      exact rtake_subset (min_le_right _ _) he

/-- A lifetime after one that wrote nothing. -/
theorem survives_firstEntry :
    ∃ earlier calls, written calls ≠ [] ∧ Survives [] earlier calls :=
  ⟨[[]], [.writeAction ⟨ascii "001010123456789", ICdrWriter.SESSION_CREATED⟩
      ⟨1, 2, 3, 4, 5, 126, 6⟩], by decide,
    (survives_iff [] _ _ (by decide)).mpr (by decide)⟩

/-- One entry, a restart, and no entry is counted. -/
theorem not_survives_restart :
    ∃ earlier, (∀ e ∈ earlier.flatMap written ++ written [], PlainFields e.1 ∧ TrimmedFields e.1) ∧
      ¬ Survives [] earlier [] := by
  refine ⟨[[.writeAction ⟨ascii "001010123456789", ICdrWriter.SESSION_CREATED⟩
    ⟨1, 2, 3, 4, 5, 126, 6⟩]], by decide, fun h => ?_⟩
  have hcount : some (toInt 0) = some (1 : Int) := h.1
  exact absurd hcount (by decide)

end FileCdrWriter
end Pgw
