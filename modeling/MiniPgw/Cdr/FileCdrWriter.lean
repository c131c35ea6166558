import MiniPgw.Lib.TextStream
import MiniPgw.Cdr.Interface

/-!
# FileCdrWriter — the CDR log in a text file

`FileCdrWriter` appends one line for each CDR entry and remembers where the line begins. The file
has one writing stream, whose buffer reaches the file when it is flushed or when the library likes,
and one reading stream.

The calls of `localtime` are inputs: a `writeAction` comes with the time that it reads.
-/

namespace Pgw

/-! ## Calendar time

The time of a record is `asctime` of the local time, without its newline. Its text matters because
it stands in the lines that are parsed again. -/

/-- A `std::tm` that `localtime` fills in; the year counts from 1900. -/
structure Tm where
  sec : Nat
  min : Nat
  hour : Nat
  mday : Nat
  mon : Nat
  year : Nat
  wday : Nat
  deriving DecidableEq, Repr

namespace Tm

/-- `%d` -/
def decimal (n : Nat) : Bytes :=
  (Nat.toDigits 10 n).map fun c => UInt8.ofNat c.toNat

/-- A number filled up on the left. -/
def padded (width : Nat) (fill : UInt8) (n : Nat) : Bytes :=
  List.replicate (width - (decimal n).length) fill ++ decimal n

def dayNames : List Bytes :=
  ["Sun", "Mon", "Tue", "Wed", "Thu", "Fri", "Sat"].map ascii

def monthNames : List Bytes :=
  ["Jan", "Feb", "Mar", "Apr", "May", "Jun", "Jul", "Aug", "Sep", "Oct", "Nov", "Dec"].map ascii

/-- The text of `asctime` up to its newline: `%.3s %.3s%3d %.2d:%.2d:%.2d %d`. -/
def stamp (t : Tm) : Bytes :=
  dayNames.getD t.wday (ascii "???") ++ ascii " " ++ monthNames.getD t.mon (ascii "???")
    ++ padded 3 32 t.mday ++ ascii " " ++ padded 2 48 t.hour ++ ascii ":" ++ padded 2 48 t.min
    ++ ascii ":" ++ padded 2 48 t.sec ++ ascii " " ++ decimal (1900 + t.year)

/-- `std::asctime` -/
def asctime (t : Tm) : Bytes :=
  t.stamp ++ ascii "\n"

end Tm

/-! ## The reading stream

`getRecentRecords` seeks to remembered positions and reads a line at each. An end of file or a
failed read leaves flags behind, and a failed stream moves no more. -/

/-- A `std::ifstream`: where it reads next, and its flags. -/
structure ReadStream where
  position : Nat
  eof : Bool
  failed : Bool
  deriving DecidableEq, Repr

namespace ReadStream

def clear (s : ReadStream) : ReadStream :=
  { s with eof := false, failed := false }

/-- `seekg` resets the end-of-file flag, and moves unless the stream has failed. -/
def seekg (s : ReadStream) (position : Nat) : ReadStream :=
  if s.failed then { s with eof := false } else { s with position := position, eof := false }

/-- `std::getline(stream, line)` on a stream over `file`: the line, which is empty where the call
fails, and the stream after it. -/
def getline (s : ReadStream) (file : Bytes) : Bytes × ReadStream :=
  if s.eof || s.failed then ([], { s with failed := true })
  else
    match TextStream.getline 10 (file.drop s.position) with
    | none => ([], { s with eof := true, failed := true })
    | some (line, rest) =>
      (line, { s with
        position := file.length - rest.length
        eof := !(file.drop s.position).contains 10 })

end ReadStream

/-! ## The writer

The methods, line by line. `parseLine` walks over the parts between commas and assigns by their
index; what is behind the third part is never looked at. -/

structure FileCdrWriter where
  /-- What stands in the file. -/
  file : Bytes
  /-- `m_writeFile.is_open()` -/
  writeOpen : Bool
  /-- What `m_writeFile` has not written to the file yet. -/
  pending : Bytes
  /-- `m_readFile.is_open()` -/
  readOpen : Bool
  readFile : ReadStream
  /-- `m_index` -/
  index : List Nat
  /-- `m_recordCount` -/
  recordCount : Nat
  /-- Both members change together, in `writeAction`. -/
  indexed : index.length = recordCount

namespace FileCdrWriter

def isBlank (c : UInt8) : Bool :=
  c = 32 || c = 9

/-- `switch (partIndex)` of `parseLine`. -/
def setPart (record : CdrRecord) (partIndex : Nat) (part : Bytes) : CdrRecord :=
  match partIndex with
  | 0 => { record with imsi := part }
  | 1 => { record with action := part }
  | 2 => { record with timestamp := part }
  | _ => record

/-- The loop of `parseLine`, with `left` rounds before `partIndex < 3` ends it. -/
def parseParts : Nat → CdrRecord → Bytes → CdrRecord
  | 0, record, _ => record
  | left + 1, record, ss =>
    match TextStream.getline 44 ss with
    | none => record
    | some (part, rest) =>
      parseParts left (setPart record (3 - (left + 1)) (TextStream.trim isBlank part)) rest

def parseLine (line : Bytes) : CdrRecord :=
  parseParts 3 ⟨[], [], []⟩ line

/-- The constructor, on a file name under which `file` is found; each `open` may fail. -/
def construct (file : Bytes) (writeOpens readOpens : Bool) : FileCdrWriter where
  file := if writeOpens && readOpens then
      file ++ ascii "CDR started\n" ++ ascii "IMSI, Action, Timestamp\n"
    else file
  writeOpen := writeOpens
  pending := []
  readOpen := writeOpens && readOpens
  readFile := ⟨0, false, false⟩
  index := []
  recordCount := 0
  indexed := rfl

/-- The bytes of the file once everything pending is written. -/
def content (w : FileCdrWriter) : Bytes :=
  w.file ++ w.pending

/-- `m_writeFile.flush()` -/
def flush (w : FileCdrWriter) : FileCdrWriter :=
  { w with file := w.file ++ w.pending, pending := [] }

/-- The destructor; the result is the file that it leaves. -/
def destroy (w : FileCdrWriter) : Bytes :=
  if w.writeOpen then w.content ++ ascii "CDR ended\n" else w.content

/-- `m_writeFile.tellp()` of a stream in append mode. -/
def tellp (w : FileCdrWriter) : Nat :=
  w.content.length

/-- The text that `writeAction` adds to the file. -/
def lineOf (entry : CdrEntry) (now : Tm) : Bytes :=
  entry.imsi ++ ascii ", " ++ entry.action ++ ascii ", " ++ now.asctime

def writeAction (w : FileCdrWriter) (entry : CdrEntry) (now : Tm) : FileCdrWriter :=
  if w.writeOpen then
    { w with
      pending := w.pending ++ lineOf entry now
      index := w.index ++ [w.tellp]
      recordCount := w.recordCount + 1
      indexed := by rw [List.length_append, w.indexed, List.length_singleton] }
  else w

/-- The loop of `getRecentRecords` over the positions that are left. -/
def readRecords (file : Bytes) : List Nat → ReadStream → List CdrRecord × ReadStream
  | [], s => ([], s)
  | position :: positions, s =>
    let (line, s) := ((s.clear).seekg position).getline file
    let (records, s) := readRecords file positions s
    (parseLine line :: records, s)

def getRecentRecords (w : FileCdrWriter) (limit : Nat) : List CdrRecord × FileCdrWriter :=
  let w := if w.writeOpen then w.flush else w
  if w.readOpen then
    let limit := min (min limit ICdrWriter.READ_CDR_LIMIT) w.recordCount
    -- `m_index[i]` for `i` from `m_recordCount - limit` to `m_recordCount - 1`
    let (records, s) := readRecords w.file (w.index.drop (w.recordCount - limit)) w.readFile
    (records, { w with readFile := s })
  else ([], w)

def getRecordCount (w : FileCdrWriter) : Option Int :=
  some (toInt w.recordCount)

/-- `n` bytes of the buffer reach the file. -/
def drain (w : FileCdrWriter) (n : Nat) : FileCdrWriter :=
  { w with file := w.file ++ w.pending.take n, pending := w.pending.drop n }

/-! ## Runs

A lifetime of a writer is a list of calls, and a file sees one lifetime after the other. -/

inductive Call where
  | writeAction (entry : CdrEntry) (now : Tm)
  | getRecentRecords (limit : Nat)
  | drain (n : Nat)
  deriving DecidableEq, Repr

def step (w : FileCdrWriter) : Call → FileCdrWriter
  | .writeAction entry now => w.writeAction entry now
  | .getRecentRecords limit => (w.getRecentRecords limit).2
  | .drain n => w.drain n

/-- The writer after some calls. -/
def run (w : FileCdrWriter) (calls : List Call) : FileCdrWriter :=
  calls.foldl step w

/-- The file after some lifetimes of writers on it, each given by its calls. -/
def fileAfter (file : Bytes) (lifetimes : List (List Call)) : Bytes :=
  lifetimes.foldl (fun file calls => ((construct file true true).run calls).destroy) file

end FileCdrWriter
end Pgw
