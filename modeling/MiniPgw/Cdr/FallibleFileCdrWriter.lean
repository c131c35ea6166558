import MiniPgw.Cdr.FileCdrWriter

/-!
# FileCdrWriter on a stream that can fail

When the disk is full, `m_writeFile` goes bad and stays so: it ignores what is written to it, and
`tellp` returns -1. `writeAction` never looks at the state of the stream. It puts -1 into `m_index`,
and a `seekg` to -1 fails.

`FallibleFileCdrWriter` is the writer with such a stream. As long as nothing fails it is
`FileCdrWriter` (`run_reliable`).
-/

namespace Pgw

/-- `seekg`, with the positions that `tellp` returns. -/
def ReadStream.seekgPos (s : ReadStream) : Int → ReadStream
  | .ofNat position => s.seekg position
  | .negSucc _ => { s with eof := false, failed := true }

structure FallibleFileCdrWriter where
  /-- What stands in the file. -/
  file : Bytes
  /-- `m_writeFile.is_open()` -/
  writeOpen : Bool
  /-- `m_writeFile.bad()` -/
  bad : Bool
  /-- What `m_writeFile` has not written to the file yet. -/
  pending : Bytes
  /-- `m_readFile.is_open()` -/
  readOpen : Bool
  readFile : ReadStream
  /-- `m_index` -/
  index : List Int
  /-- `m_recordCount` -/
  recordCount : Nat
  /-- Both members change together, in `writeAction`. -/
  indexed : index.length = recordCount

/-- How a write or a flush ends. With `some n` the stream goes bad: of the bytes in its buffer the
first `n` have reached the file, and the others are lost. -/
abbrev WriteFailure := Option Nat

namespace FallibleFileCdrWriter

/-- The bytes of the file once everything pending is written. -/
def content (w : FallibleFileCdrWriter) : Bytes :=
  w.file ++ w.pending

/-- `m_writeFile << text` -/
def put (w : FallibleFileCdrWriter) (text : Bytes) (failure : WriteFailure) :
    FallibleFileCdrWriter :=
  if w.bad then w
  else
    match failure with
    | none => { w with pending := w.pending ++ text }
    | some n => { w with file := w.file ++ (w.pending ++ text).take n, pending := [], bad := true }

/-- `m_writeFile.flush()` -/
def flush (w : FallibleFileCdrWriter) (failure : WriteFailure) : FallibleFileCdrWriter :=
  if w.bad then w
  else
    match failure with
    | none => { w with file := w.file ++ w.pending, pending := [] }
    | some n => { w with file := w.file ++ w.pending.take n, pending := [], bad := true }

/-- `m_writeFile.tellp()` of a stream in append mode. -/
def tellp (w : FallibleFileCdrWriter) : Int :=
  if w.bad then -1 else w.content.length

/-- The constructor, on a file name under which `file` is found; each `open` may fail, and so may
the writing of the headers. -/
def construct (file : Bytes) (writeOpens readOpens : Bool) (failure : WriteFailure) :
    FallibleFileCdrWriter :=
  let w : FallibleFileCdrWriter := {
    file := file
    writeOpen := writeOpens
    bad := false
    pending := []
    readOpen := writeOpens && readOpens
    readFile := ⟨0, false, false⟩
    index := []
    recordCount := 0
    indexed := rfl }
  if writeOpens && readOpens then
    (w.put (ascii "CDR started\n" ++ ascii "IMSI, Action, Timestamp\n") failure).flush none
  else w

/-- The destructor; the result is the file that it leaves. -/
def destroy (w : FallibleFileCdrWriter) (failure : WriteFailure) : Bytes :=
  if w.writeOpen then (w.put (ascii "CDR ended\n") failure).content else w.content

def writeAction (w : FallibleFileCdrWriter) (entry : CdrEntry) (now : Tm)
    (failure : WriteFailure) : FallibleFileCdrWriter :=
  if w.writeOpen then
    { w.put (FileCdrWriter.lineOf entry now) failure with
      index := w.index ++ [w.tellp]
      recordCount := w.recordCount + 1
      indexed := by rw [List.length_append, w.indexed, List.length_singleton] }
  else w

/-- The loop of `getRecentRecords` over the positions that are left. -/
def readRecords (file : Bytes) : List Int → ReadStream → List CdrRecord × ReadStream
  | [], s => ([], s)
  | position :: positions, s =>
    let (line, s) := ((s.clear).seekgPos position).getline file
    let (records, s) := readRecords file positions s
    (FileCdrWriter.parseLine line :: records, s)

def getRecentRecords (w : FallibleFileCdrWriter) (limit : Nat) (failure : WriteFailure) :
    List CdrRecord × FallibleFileCdrWriter :=
  let w := if w.writeOpen then w.flush failure else w
  if w.readOpen then
    let limit := min (min limit ICdrWriter.READ_CDR_LIMIT) w.recordCount
    -- `m_index[i]` for `i` from `m_recordCount - limit` to `m_recordCount - 1`
    let (records, s) := readRecords w.file (w.index.drop (w.recordCount - limit)) w.readFile
    (records, { w with readFile := s })
  else ([], w)

def getRecordCount (w : FallibleFileCdrWriter) : Option Int :=
  some (toInt w.recordCount)

/-- `n` bytes of the buffer reach the file. -/
def drain (w : FallibleFileCdrWriter) (n : Nat) : FallibleFileCdrWriter :=
  { w with file := w.file ++ w.pending.take n, pending := w.pending.drop n }

inductive Call where
  | writeAction (entry : CdrEntry) (now : Tm) (failure : WriteFailure)
  | getRecentRecords (limit : Nat) (failure : WriteFailure)
  | drain (n : Nat)
  deriving DecidableEq, Repr

namespace Call

/-- How the write or the flush of the call ends. -/
def failure : Call → WriteFailure
  | .writeAction _ _ failure => failure
  | .getRecentRecords _ failure => failure
  | .drain _ => none

/-- The call, if nothing fails. -/
def intended : Call → FileCdrWriter.Call
  | .writeAction entry now _ => .writeAction entry now
  | .getRecentRecords limit _ => .getRecentRecords limit
  | .drain n => .drain n

end Call

def step (w : FallibleFileCdrWriter) : Call → FallibleFileCdrWriter
  | .writeAction entry now failure => w.writeAction entry now failure
  | .getRecentRecords limit failure => (w.getRecentRecords limit failure).2
  | .drain n => w.drain n

/-- The writer after some calls. -/
def run (w : FallibleFileCdrWriter) (calls : List Call) : FallibleFileCdrWriter :=
  calls.foldl step w

end FallibleFileCdrWriter

/-! ## Without a failure

A writer whose opens succeed and whose writes never fail takes the same steps as the reliable one,
call by call. -/

namespace FileCdrWriter

/-- A writer on a stream that can fail, and has not. -/
def fallible (w : FileCdrWriter) : FallibleFileCdrWriter where
  file := w.file
  writeOpen := w.writeOpen
  bad := false
  pending := w.pending
  readOpen := w.readOpen
  readFile := w.readFile
  index := w.index.map Nat.cast
  recordCount := w.recordCount
  indexed := by rw [List.length_map, w.indexed]

/-- A call in which no write fails. -/
def Call.reliable : Call → FallibleFileCdrWriter.Call
  | .writeAction entry now => .writeAction entry now none
  | .getRecentRecords limit => .getRecentRecords limit none
  | .drain n => .drain n

end FileCdrWriter

namespace FallibleFileCdrWriter

open FileCdrWriter (fallible Call.reliable)

theorem construct_reliable (file : Bytes) (writeOpens readOpens : Bool) :
    construct file writeOpens readOpens none =
      (FileCdrWriter.construct file writeOpens readOpens).fallible := by
  unfold construct FileCdrWriter.construct
  cases writeOpens
  · rfl
  · cases readOpens
    · rfl
    · simp [put, flush, fallible]

/-- Positions that are no -1 are read as before. -/
theorem readRecords_map_cast (file : Bytes) (positions : List Nat) : ∀ s : ReadStream,
    readRecords file (positions.map Nat.cast) s = FileCdrWriter.readRecords file positions s := by
  induction positions with
  | nil => exact fun s => rfl
  | cons position positions ih =>
    intro s
    have hseek : s.clear.seekgPos (position : Int) = s.clear.seekg position := rfl
    simp only [List.map_cons, readRecords, FileCdrWriter.readRecords, hseek, ih]

theorem writeAction_reliable (w : FileCdrWriter) (entry : CdrEntry) (now : Tm) :
    w.fallible.writeAction entry now none = (w.writeAction entry now).fallible := by
  have hindex : (w.index ++ [w.tellp]).map Nat.cast = w.fallible.index ++ [w.fallible.tellp] := by
    rw [List.map_append]
    rfl
  unfold writeAction FileCdrWriter.writeAction
  by_cases hopen : w.writeOpen = true
  · rw [if_pos hopen, if_pos (show w.fallible.writeOpen = true from hopen)]
    simp only [fallible, hindex]
    rfl
  · rw [if_neg hopen, if_neg (show ¬ w.fallible.writeOpen = true from hopen)]

theorem getRecentRecords_reliable (w : FileCdrWriter) (limit : Nat) :
    w.fallible.getRecentRecords limit none =
      ((w.getRecentRecords limit).1, (w.getRecentRecords limit).2.fallible) := by
  have hread (v : FileCdrWriter) (k : Nat) :
      readRecords v.file (v.fallible.index.drop k) v.readFile =
        FileCdrWriter.readRecords v.file (v.index.drop k) v.readFile := by
    show readRecords v.file ((v.index.map Nat.cast).drop k) v.readFile = _
    rw [← List.map_drop, readRecords_map_cast]
  have hflush : (if w.fallible.writeOpen then w.fallible.flush none else w.fallible) =
      (if w.writeOpen then w.flush else w).fallible := by
    show (if w.writeOpen then _ else _) = _
    split <;> rfl
  unfold getRecentRecords FileCdrWriter.getRecentRecords
  rw [hflush]
  generalize (if w.writeOpen then w.flush else w) = v
  by_cases hopen : v.readOpen = true
  · rw [if_pos hopen, if_pos (show v.fallible.readOpen = true from hopen)]
    exact congrArg (fun r : List CdrRecord × ReadStream =>
      (r.1, { v.fallible with readFile := r.2 })) (hread v _)
  · rw [if_neg hopen, if_neg (show ¬ v.fallible.readOpen = true from hopen)]

theorem step_reliable (w : FileCdrWriter) (call : FileCdrWriter.Call) :
    w.fallible.step call.reliable = (w.step call).fallible := by
  cases call with
  | writeAction entry now => exact writeAction_reliable w entry now
  | getRecentRecords limit => exact congrArg Prod.snd (getRecentRecords_reliable w limit)
  | drain n => rfl

theorem destroy_reliable (w : FileCdrWriter) : w.fallible.destroy none = w.destroy := by
  unfold destroy FileCdrWriter.destroy
  by_cases hopen : w.writeOpen = true
  · rw [if_pos hopen, if_pos (show w.fallible.writeOpen = true from hopen)]
    exact (List.append_assoc _ _ _).symm
  · rw [if_neg hopen, if_neg (show ¬ w.fallible.writeOpen = true from hopen)]
    rfl

theorem reliable_intended {call : Call} (h : call.failure = none) :
    call.intended.reliable = call := by
  cases call with
  | writeAction entry now failure => exact congrArg (Call.writeAction entry now) h.symm
  | getRecentRecords limit failure => exact congrArg (Call.getRecentRecords limit) h.symm
  | drain n => rfl

/-- **Where nothing fails, nothing differs.** -/
theorem run_reliable (calls : List FileCdrWriter.Call) : ∀ w : FileCdrWriter,
    w.fallible.run (calls.map Call.reliable) = (w.run calls).fallible := by
  induction calls with
  | nil => exact fun w => rfl
  | cons call calls ih =>
    intro w
    show (w.fallible.step call.reliable).run (calls.map Call.reliable) = _
    rw [step_reliable, ih]
    rfl

end FallibleFileCdrWriter
end Pgw
