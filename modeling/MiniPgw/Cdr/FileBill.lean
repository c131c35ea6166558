import MiniPgw.Cdr.BackEnds

/-!
# Billing from the CDR file

`FileCdrWriter` only finds the records that it has written itself. Whoever is to bill the
subscribers reads the file from its beginning, and the file has the lines of all processes that
were started on it, with their headers in between; and where a process was killed it has a line
that was cut off, in which the header of the next process goes on.

* **`bill_process`** — what one process adds to a file is read back as some of its first entries,
  and as all of them unless it was killed;
* **`entryOf_torn`** — a line that was cut off is never read as another entry.

## The architecture

* **`entryOf`**, **`bill`** — the reader: lines, and the first two fields of each.
* **`bill_append_newline`**, **`bill_last`** — the bill of a file from the bill of its lines.
* **`notMem_of_billable`**, **`entryOf_fields`** — the line of an entry is read as that entry,
  whatever stands in the place of the time.
* **`bill_header`**, **`bill_linesOf`**, **`bill_torn`**, **`bill_cut`** — the texts that a
  process leaves: its header, whole lines, and a line that was cut off.
* **`content_run`**, **`file_of_run`** — the calls of a lifetime, as the text that they add.
* **`bill_process`** — these together, for a process that was destroyed or killed.
-/

namespace Pgw

namespace ICdrWriter

/-- The actions that the callers of the CDR writer know. -/
def actions : List Bytes :=
  [SESSION_CREATED, SESSION_DELETED, SESSION_REJECTED, SESSION_ERROR]

end ICdrWriter

/-- An entry that the callers of the CDR writer make. -/
def CdrEntry.Billable (entry : CdrEntry) : Prop :=
  Validation.isValidImsi entry.imsi = true ∧ entry.action ∈ ICdrWriter.actions

/-! ## The characters of a record

Records are shown in JSON, which takes UTF-8 only. All the characters that the callers put into a
record are ASCII. -/

namespace Tm

end Tm

/-- A valid IMSI consists of digits, none of which is a separator or a blank. -/
theorem isdigit_of_isValidImsi {imsi : Imsi} (h : Validation.isValidImsi imsi = true) :
    ∀ c ∈ imsi, Validation.isdigit c = true := by
  simp only [Validation.isValidImsi] at h
  split at h
  · cases h
  · split at h
    · cases h
    · next hall => simpa using hall

namespace FileCdrWriter

open TextStream

/-! ## Reading the file

A bill reads the file line by line, and takes the lines whose second field is the name of an action.
The headers and footers of a process have no such field. -/

/-- The entry that a line of the file is read as. -/
def entryOf (line : Bytes) : Option CdrEntry :=
  let record := parseLine line
  if Validation.isValidImsi record.imsi && ICdrWriter.actions.contains record.action then
    some ⟨record.imsi, record.action⟩
  else none

/-- The entries in a file. -/
def bill (file : Bytes) : List CdrEntry :=
  (lines 10 file).filterMap entryOf

/-- A line whose second field is no action is not billed. -/
theorem entryOf_eq_none {line : Bytes} (h : (parseLine line).action ∉ ICdrWriter.actions) :
    entryOf line = none := by
  simp [entryOf, h]

/-- A line is read as an entry if its first two fields are those of the entry. -/
theorem entryOf_eq_some {line : Bytes} {entry : CdrEntry} (h : entry.Billable)
    (himsi : (parseLine line).imsi = entry.imsi)
    (haction : (parseLine line).action = entry.action) : entryOf line = some entry := by
  simp [entryOf, himsi, haction, h.1, h.2]

/-- The bill is what a loop of `getline` and `parseLine` reads, up to the end of the file. -/
theorem bill_of_getline {file line rest : Bytes} (h : getline 10 file = some (line, rest)) :
    bill file = (entryOf line).toList ++ bill rest := by
  unfold bill
  rw [lines_of_getline h]
  cases hentry : entryOf line <;> simp [hentry]

/-- A line with its newline. -/
theorem bill_append_newline {line : Bytes} (hline : 10 ∉ line) (rest : Bytes) :
    bill (line ++ 10 :: rest) = (entryOf line).toList ++ bill rest :=
  bill_of_getline (getline_append_delim hline rest)

/-- A last line without a newline. -/
theorem bill_last {line : Bytes} (hline : 10 ∉ line) : bill line = (entryOf line).toList := by
  by_cases hne : line = []
  · rw [hne]
    rfl
  · rw [bill_of_getline (getline_last hline hne)]
    exact List.append_nil _

/-! ## Lines of entries

The line of an entry gives the entry back. A line that was cut off gives the entry if only its time
was cut, and nothing otherwise: no action is the beginning of another text that counts as one. -/

/-- The separators of the file are in no field of an entry. -/
theorem notMem_of_billable {entry : CdrEntry} (h : entry.Billable) :
    10 ∉ entry.imsi ∧ 44 ∉ entry.imsi ∧ 10 ∉ entry.action ∧ 44 ∉ entry.action := by
  have hdigits := isdigit_of_isValidImsi h.1
  have hactions : ∀ action ∈ ICdrWriter.actions, 10 ∉ action ∧ 44 ∉ action := by decide
  obtain ⟨hnewline, hcomma⟩ := hactions entry.action h.2
  refine ⟨fun hin => ?_, fun hin => ?_, hnewline, hcomma⟩
  · exact absurd (hdigits 10 hin) (by decide)
  · exact absurd (hdigits 44 hin) (by decide)

/-- Its fields have no blanks. -/
theorem trim_of_billable {entry : CdrEntry} (h : entry.Billable) :
    trim isBlank entry.imsi = entry.imsi ∧ trim isBlank (32 :: entry.action) = entry.action := by
  have hdigits := isdigit_of_isValidImsi h.1
  have hblank : ∀ c ∈ entry.imsi, isBlank c = false := by
    intro c hc
    have hdigit := hdigits c hc
    have hspace : c ≠ 32 := by
      rintro rfl
      exact absurd hdigit (by decide)
    have htab : c ≠ 9 := by
      rintro rfl
      exact absurd hdigit (by decide)
    simp [isBlank, hspace, htab]
  have hactions : ∀ action ∈ ICdrWriter.actions, trim isBlank (32 :: action) = action := by decide
  refine ⟨trim_eq_self_iff.mpr ⟨fun c hc => ?_, fun c hc => ?_⟩, hactions entry.action h.2⟩
  · exact hblank c (List.mem_of_mem_head? hc)
  · exact hblank c (List.mem_of_getLast? hc)

/-- The line of an entry, with anything in the place of the time. -/
theorem entryOf_fields {entry : CdrEntry} (h : entry.Billable) (time : Bytes) :
    entryOf (entry.imsi ++ 44 :: (32 :: entry.action ++ 44 :: time)) = some entry := by
  obtain ⟨-, himsi, -, haction⟩ := notMem_of_billable h
  obtain ⟨htrimImsi, htrimAction⟩ := trim_of_billable h
  have hspace : 44 ∉ 32 :: entry.action := by simp [haction]
  apply entryOf_eq_some h
  · rw [parseLine_imsi, List.takeWhile_append_of_pos (all_ne_of_notMem himsi)]
    simpa using htrimImsi
  · rw [parseLine_action himsi, List.takeWhile_append_of_pos (all_ne_of_notMem hspace)]
    simpa using htrimAction

/-- Without a comma, the parser puts the whole line into the first field. -/
theorem parseLine_action_of_notMem {line : Bytes} (h : 44 ∉ line) :
    (parseLine line).action = [] := by
  by_cases hne : line = []
  · rw [hne]
    rfl
  · rw [parseLine, parseParts, getline_last h hne]
    rfl

/-- What stands behind the place where a line was cut off: the end of the file, or the header of the
next process. -/
def Glued (more : Bytes) : Prop :=
  more = [] ∨ more = ascii "CDR started"

/-- **A line that was cut off** is read as its entry or not at all. -/
theorem entryOf_torn {entry : CdrEntry} (h : entry.Billable) {torn time more : Bytes}
    (htorn : torn <+: entry.imsi ++ 44 :: (32 :: entry.action ++ 44 :: time)) (hmore : Glued more) :
    entryOf (torn ++ more) = none ∨ entryOf (torn ++ more) = some entry := by
  obtain ⟨-, himsi, -, haction⟩ := notMem_of_billable h
  have hspace : 44 ∉ 32 :: entry.action := by simp [haction]
  have hnone : 44 ∉ more := by
    rcases hmore with rfl | rfl <;> decide
  -- the cut is behind the first comma, or there is no comma at all
  by_cases hcomma : 44 ∈ torn
  · obtain ⟨imsi, fields, rfl, hfront⟩ := List.eq_append_cons_of_mem hcomma
    obtain ⟨rfl, hfields⟩ := eq_of_append_delim_prefix hfront himsi htorn
    rw [List.append_assoc, List.cons_append]
    by_cases hsecond : 44 ∈ fields
    · -- only the time was cut off
      obtain ⟨action, time', rfl, hbefore⟩ := List.eq_append_cons_of_mem hsecond
      obtain ⟨rfl, -⟩ := eq_of_append_delim_prefix hbefore hspace hfields
      rw [List.append_assoc, List.cons_append (a := 44)]
      exact .inr (entryOf_fields h _)
    · -- the action was cut off
      have hcut : fields <+: 32 :: entry.action := prefix_of_notMem hsecond hfields
      have hall : 44 ∉ fields ++ more := by simp [hsecond, hnone]
      have hparsed : (parseLine (entry.imsi ++ 44 :: (fields ++ more))).action
          = trim isBlank (fields ++ more) := by
        rw [parseLine_action himsi, List.takeWhile_eq_self_iff.mpr (all_ne_of_notMem hall)]
      -- what follows the cut: nothing, or the line that the next constructor writes
      rcases hmore with rfl | rfl
      · rw [List.append_nil] at hparsed ⊢
        -- a cut action that is still an action is the whole one
        have hone : ∀ action ∈ ICdrWriter.actions, ∀ cut ∈ (32 :: action).inits,
            trim isBlank cut ∈ ICdrWriter.actions → trim isBlank cut = action := by decide
        by_cases hknown : trim isBlank fields ∈ ICdrWriter.actions
        · have hwhole := hone entry.action h.2 fields (List.mem_inits _ _ |>.mpr hcut) hknown
          refine .inr (entryOf_eq_some h ?_ (hparsed.trans hwhole))
          rw [parseLine_imsi, List.takeWhile_append_of_pos (all_ne_of_notMem himsi)]
          simpa using (trim_of_billable h).1
        · exact .inl (entryOf_eq_none (hparsed ▸ hknown))
      · -- no action has a small letter
        have hletter : 115 ∈ trim isBlank (fields ++ ascii "CDR started") :=
          mem_trim (List.mem_append_right _ (by decide)) rfl
        have hactions : ∀ action ∈ ICdrWriter.actions, 115 ∉ action := by decide
        apply Or.inl
        apply entryOf_eq_none
        rw [hparsed]
        exact fun hin => hactions _ hin hletter
  · -- without a comma there is no field for the action
    left
    apply entryOf_eq_none
    rw [parseLine_action_of_notMem (by simp [hcomma, hnone])]
    decide

/-! ## The text of a process

A process writes its header, its lines and, if it gets there, its footer. If it does not, what
follows its last line is glued to it: the end of the file, or the header of the next process, which
starts without a newline of its own. -/

/-- What the constructor writes. -/
def header : Bytes :=
  ascii "CDR started\n" ++ ascii "IMSI, Action, Timestamp\n"

/-- The lines of some entries, one after the other. -/
def linesOf (entries : List (CdrEntry × Tm)) : Bytes :=
  entries.flatMap fun e => lineOf e.1 e.2

/-- The header is two lines, neither of which has been cut off. -/
theorem header_append (rest : Bytes) : header ++ rest
    = ascii "CDR started" ++ 10 :: (ascii "IMSI, Action, Timestamp" ++ 10 :: rest) :=
  rfl

/-- They are not billed. -/
theorem bill_header (rest : Bytes) : bill (header ++ rest) = bill rest := by
  rw [header_append, bill_append_newline (by decide), bill_append_newline (by decide)]
  rfl

/-- **Whole lines are billed**, whatever follows them. -/
theorem bill_linesOf {entries : List (CdrEntry × Tm)} (h : ∀ e ∈ entries, e.1.Billable)
    (rest : Bytes) : bill (linesOf entries ++ rest) = entries.map Prod.fst ++ bill rest := by
  induction entries with
  | nil => rfl
  | cons e entries ih =>
    have he := h e List.mem_cons_self
    obtain ⟨himsi, -, haction, -⟩ := notMem_of_billable he
    have hstamp := (notMem_of_isPlain fun c => Tm.isPlain_of_mem_stamp (t := e.2)).1
    have hline : linesOf (e :: entries) ++ rest
        = (e.1.imsi ++ 44 :: (32 :: e.1.action ++ 44 :: 32 :: e.2.stamp))
          ++ 10 :: (linesOf entries ++ rest) := by
      simp [linesOf, lineOf_eq]
    rw [hline, bill_append_newline (by simp [himsi, haction, hstamp]), entryOf_fields he,
      ih fun e' he' => h e' (List.mem_cons_of_mem e he')]
    rfl

/-- The file ends here, or another process goes on. -/
def Begins (more : Bytes) : Prop :=
  more = [] ∨ ∃ rest, more = header ++ rest

/-- A line that was cut off is billed as its entry or not at all, and takes nothing of what follows
it along: the header that is glued to it would not have been billed either. -/
theorem bill_torn {e : CdrEntry × Tm} (he : e.1.Billable) {torn more : Bytes}
    (htorn : torn <+: lineOf e.1 e.2) (hcut : torn ≠ lineOf e.1 e.2) (hmore : Begins more) :
    ∃ stored, stored <+: [e.1] ∧ bill (torn ++ more) = stored ++ bill more := by
  obtain ⟨himsi, -, haction, -⟩ := notMem_of_billable he
  have hstamp := (notMem_of_isPlain fun c => Tm.isPlain_of_mem_stamp (t := e.2)).1
  -- the line without its newline, as far as it was written
  have hfields : torn <+: e.1.imsi ++ 44 :: (32 :: e.1.action ++ 44 :: 32 :: e.2.stamp) := by
    rw [lineOf_eq] at htorn hcut
    exact (List.prefix_concat_iff.mp htorn).resolve_left hcut
  have hnewline : 10 ∉ torn := fun hin => by
    have hin' := hfields.subset hin
    simp [himsi, haction, hstamp] at hin'
  have hstored : ∀ {glued}, Glued glued → (entryOf (torn ++ glued)).toList <+: [e.1] := by
    intro glued hglued
    rcases entryOf_torn he hfields hglued with hnone | hsome
    · rw [hnone]
      exact List.nil_prefix
    · rw [hsome]
      exact List.prefix_refl _
  -- nothing follows, or the header of the next process, glued to the torn line
  rcases hmore with rfl | ⟨rest, rfl⟩
  · refine ⟨_, hstored (.inl rfl), ?_⟩
    rw [List.append_nil, bill_last hnewline]
    exact (List.append_nil _).symm
  · refine ⟨_, hstored (.inr rfl), ?_⟩
    have hglued : 10 ∉ torn ++ ascii "CDR started" := by
      rw [List.mem_append, not_or]
      exact ⟨hnewline, by decide⟩
    rw [bill_header, header_append, ← List.append_assoc, bill_append_newline hglued,
      bill_append_newline (by decide)]
    rfl

/-- **A process that was killed** with `cut` of its lines in the file. -/
theorem bill_cut {entries : List (CdrEntry × Tm)} (h : ∀ e ∈ entries, e.1.Billable)
    {cut more : Bytes} (hcut : cut <+: linesOf entries) (hmore : Begins more) :
    ∃ stored, stored <+: entries.map Prod.fst ∧ bill (cut ++ more) = stored ++ bill more ∧
      ∀ flushed, flushed <+: entries → linesOf flushed <+: cut →
        flushed.map Prod.fst <+: stored := by
  -- the cut is in one of the lines, or between two of them
  obtain ⟨whole, torn, hwhole, rfl, htorn, hlast⟩ := cut_flatMap hcut
  have hbillable : ∀ e ∈ whole, e.1.Billable := fun e he => h e (hwhole.subset he)
  have hbill : bill (linesOf whole ++ torn ++ more)
      = whole.map Prod.fst ++ bill (torn ++ more) := by
    rw [List.append_assoc, bill_linesOf hbillable]
  have hflushed : ∀ flushed, flushed <+: entries → linesOf flushed <+: linesOf whole ++ torn →
      flushed.map Prod.fst <+: whole.map Prod.fst :=
    fun flushed hflushed hin => (hlast flushed hflushed hin).map Prod.fst
  rcases htorn with rfl | ⟨e, hnext, htorn, hcut⟩
  · exact ⟨_, hwhole.map Prod.fst, hbill, hflushed⟩
  · -- the torn line counts as its entry or not at all
    have he : e.1.Billable := h e (hnext.subset (by simp))
    obtain ⟨stored, hstored, hrest⟩ := bill_torn he htorn hcut hmore
    refine ⟨whole.map Prod.fst ++ stored, ?_, ?_, fun flushed hprefix hin => ?_⟩
    · have hmapped := hnext.map Prod.fst
      rw [List.map_append] at hmapped
      exact ((List.prefix_append_right_inj _).mpr hstored).trans hmapped
    · show bill (linesOf whole ++ torn ++ more) = _
      rw [hbill, hrest, List.append_assoc]
    · exact (hflushed flushed hprefix hin).trans (List.prefix_append _ _)

section
variable {w : FileCdrWriter}

/-- No call opens or closes the file. -/
theorem writeOpen_step (w : FileCdrWriter) (call : Call) :
    (w.step call).writeOpen = w.writeOpen := by
  cases call with
  | writeAction entry now =>
    show (w.writeAction entry now).writeOpen = _
    unfold FileCdrWriter.writeAction
    split <;> rfl
  | getRecentRecords limit =>
    show (w.getRecentRecords limit).2.writeOpen = _
    unfold FileCdrWriter.getRecentRecords
    cases hread : w.readOpen <;> cases hwrite : w.writeOpen <;> simp [hread, hwrite, flush]
  | drain n => rfl

/-- What a call adds to the log. -/
theorem content_step (hopen : w.writeOpen = true) (call : Call) :
    (w.step call).content = w.content ++ linesOf (written [call]) := by
  cases call with
  | writeAction entry now =>
    show (w.writeAction entry now).content = _
    unfold FileCdrWriter.writeAction
    rw [if_pos hopen]
    simp [content, linesOf, written]
  | getRecentRecords limit =>
    show (w.getRecentRecords limit).2.content = _
    unfold FileCdrWriter.getRecentRecords
    cases hread : w.readOpen <;> simp [hread, hopen, flush, content, linesOf, written]
  | drain n =>
    show (w.drain n).content = _
    simp [content_drain, linesOf, written]

/-- A read leaves nothing in the buffer. -/
theorem file_getRecentRecords (hopen : w.writeOpen = true) (limit : Nat) :
    (w.step (.getRecentRecords limit)).file = w.content := by
  show (w.getRecentRecords limit).2.file = _
  unfold FileCdrWriter.getRecentRecords
  cases hread : w.readOpen <;> simp [hread, hopen, flush, content]

/-- The file only grows. -/
theorem file_step (w : FileCdrWriter) (call : Call) : w.file <+: (w.step call).file := by
  cases call with
  | writeAction entry now =>
    show w.file <+: (w.writeAction entry now).file
    unfold FileCdrWriter.writeAction
    split <;> exact List.prefix_refl _
  | getRecentRecords limit =>
    show w.file <+: (w.getRecentRecords limit).2.file
    unfold FileCdrWriter.getRecentRecords
    cases hread : w.readOpen <;> cases hwrite : w.writeOpen <;> simp [hread, hwrite, flush]
  | drain n => exact List.prefix_append _ _

end

/-- The calls of a lifetime, in two parts, -/
theorem run_append (w : FileCdrWriter) (calls more : List Call) :
    w.run (calls ++ more) = (w.run calls).run more :=
  List.foldl_append

/-- and what they write. -/
theorem written_append (calls more : List Call) :
    written (calls ++ more) = written calls ++ written more :=
  List.filterMap_append

/-- Over a lifetime the file only grows. -/
theorem file_run (w : FileCdrWriter) (calls : List Call) : w.file <+: (w.run calls).file := by
  induction calls generalizing w with
  | nil => exact List.prefix_refl _
  | cons call calls ih => exact (file_step w call).trans (ih (w.step call))

/-- Over a lifetime the content grows by the lines of the entries that were written. -/
theorem content_run {w : FileCdrWriter} (hopen : w.writeOpen = true) (calls : List Call) :
    (w.run calls).writeOpen = true ∧
      (w.run calls).content = w.content ++ linesOf (written calls) := by
  induction calls generalizing w with
  | nil => exact ⟨hopen, (List.append_nil _).symm⟩
  | cons call calls ih =>
    obtain ⟨hrest, hcontent⟩ := ih ((writeOpen_step w call).trans hopen)
    refine ⟨hrest, ?_⟩
    show ((w.step call).run calls).content = _
    have hlines : linesOf (written (call :: calls))
        = linesOf (written [call]) ++ linesOf (written calls) := by
      rw [← List.singleton_append, written_append]
      exact List.flatMap_append
    rw [hcontent, content_step hopen, hlines, List.append_assoc]

/-! ## One process

From here on the bill of a file is the sum of what its processes have stored in it. -/

/-- How a process ends. -/
inductive Ending where
  /-- The destructor of the writer has run. -/
  | destroyed
  /-- What was in the buffer of the stream is lost. -/
  | killed
  deriving DecidableEq, Repr

/-- What the next process finds: a writer that is destroyed flushes its stream, one that is killed
does not. -/
def fileLeft (w : FileCdrWriter) : Ending → Bytes
  | .destroyed => w.destroy
  | .killed => w.file

/-- What a reader of the file finds of a process that made these calls. -/
structure Stored (calls : List Call) (ending : Ending) (stored : List CdrEntry) : Prop where
  entries : stored <+: (written calls).map Prod.fst
  all : ending = .destroyed → stored = (written calls).map Prod.fst
  /-- Every read of the process makes what has been written before it last. -/
  lasts : ∀ before limit after, calls = before ++ .getRecentRecords limit :: after →
    (written before).map Prod.fst <+: stored

/-- The constructor writes its header and flushes it, so that the header is never cut off. -/
theorem content_construct (prior : Bytes) :
    (construct prior true true).file = prior ++ header ∧
      (construct prior true true).content = prior ++ header := by
  constructor
  · exact List.append_assoc _ _ _
  · exact (List.append_nil _).trans (List.append_assoc _ _ _)

/-- The lines that have reached the file. -/
theorem file_of_run (prior : Bytes) (calls : List Call) :
    ∃ cut, ((construct prior true true).run calls).file = prior ++ (header ++ cut) ∧
      cut <+: linesOf (written calls) ∧
      ∀ before limit after, calls = before ++ .getRecentRecords limit :: after →
        linesOf (written before) <+: cut := by
  obtain ⟨hfile, hcontent⟩ := content_construct prior
  let w := construct prior true true
  obtain ⟨cut, hcut⟩ := file_run w calls
  rw [hfile, List.append_assoc] at hcut
  refine ⟨cut, hcut.symm, ?_, fun before limit after hcalls => ?_⟩
  · have hlines := (content_run (w := w) rfl calls).2
    rw [hcontent, content, ← hcut, List.append_assoc, List.append_assoc,
      List.append_assoc] at hlines
    have hrest := List.append_cancel_left (List.append_cancel_left hlines)
    exact ⟨_, hrest⟩
  · obtain ⟨hopen, hbefore⟩ := content_run (w := w) rfl before
    have hgrows := file_run ((w.run before).step (.getRecentRecords limit)) after
    rw [file_getRecentRecords hopen, hbefore, hcontent, List.append_assoc] at hgrows
    have hrun : ((w.run before).step (.getRecentRecords limit)).run after = w.run calls := by
      rw [hcalls, run_append]
      rfl
    rw [hrun, ← hcut, List.prefix_append_right_inj, List.prefix_append_right_inj] at hgrows
    exact hgrows

/-- **One process** adds its own entries to the bill, whatever the file had before and whichever
process comes after it. -/
theorem bill_process (prior : Bytes) {calls : List Call} (h : ∀ e ∈ written calls, e.1.Billable)
    (ending : Ending) :
    ∃ text, ((construct prior true true).run calls).fileLeft ending = prior ++ (header ++ text) ∧
      ∀ more, Begins more → ∃ stored, Stored calls ending stored ∧
        bill (header ++ text ++ more) = stored ++ bill more := by
  -- the destructor writes a last line; a process that is killed leaves a cut text
  cases ending with
  | destroyed =>
    obtain ⟨hopen, hlines⟩ := content_run (w := construct prior true true) rfl calls
    refine ⟨linesOf (written calls) ++ ascii "CDR ended\n", ?_, fun more _ => ?_⟩
    · rw [fileLeft, destroy, if_pos hopen, hlines, (content_construct prior).2]
      simp
    · refine ⟨(written calls).map Prod.fst, ⟨List.prefix_refl _, fun _ => rfl, ?_⟩, ?_⟩
      · intro before limit after hcalls
        rw [hcalls, written_append, List.map_append]
        exact List.prefix_append _ _
      · -- the line `CDR ended` is no record
        have hended : ascii "CDR ended\n" ++ more = ascii "CDR ended" ++ 10 :: more := rfl
        rw [List.append_assoc, bill_header, List.append_assoc, bill_linesOf h, hended,
          bill_append_newline (by decide)]
        rfl
  | killed =>
    obtain ⟨cut, hfile, hcut, hread⟩ := file_of_run prior calls
    refine ⟨cut, hfile, fun more hmore => ?_⟩
    obtain ⟨stored, hstored, hbill, hflushed⟩ := bill_cut h hcut hmore
    refine ⟨stored, ⟨hstored, fun hend => ?_, fun before limit after hcalls => ?_⟩, ?_⟩
    · cases hend
    · -- what a read of the file has flushed is in front of the cut
      apply hflushed
      · rw [hcalls, written_append]
        exact List.prefix_append _ _
      · exact hread before limit after hcalls
    · rw [List.append_assoc, bill_header, hbill]

end FileCdrWriter
end Pgw
