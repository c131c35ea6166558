import MiniPgw.Lib.Run
import MiniPgw.Cdr.FallibleFileCdrWriter
import MiniPgw.Cdr.FileLog

/-!
# Are lost records counted?

A record is written when its whole line is in the file, or in the buffer of a stream that is still
good. `Observed` keeps a list of the records whose writing has begun next to the writer, so that
those that were lost can be told apart (`complete`).

`honest_iff` says in which runs the writer counts and returns the complete records only: those in
which no write finds a bad stream, and no failure loses a byte.

## The architecture

* **`Observed`** — the writer with the list of what was begun, which no function of it reads.
* **`Intact`** — while no byte is lost: each record begun stands in the content at its position,
  and the counter is their number.
* **`content_put`**, **`flush_frame`**, **`content_flushed`** — the stream under the operations.
* **`Intact.writeAction`**, **`Intact.getRecentRecords`**, **`Intact.drain`**, **`Intact.step`** —
  a step that spares every byte keeps the records intact, and an intact writer is honest.
* **`Intact.spared`** — conversely, a call that leaves an honest writer has spared every byte,
  since a lost one is counted or answered.
* **`honest_iff`** — the two along the calls, from `intact_start`.
-/

namespace Pgw
namespace FallibleFileCdrWriter

open FileCdrWriter (lineOf StandsAt recordOf readBack PlainFields TrimmedFields)

instance (content : Bytes) (position : Nat) (e : CdrEntry × Tm) :
    Decidable (StandsAt content position e) :=
  inferInstanceAs (Decidable (_ <+: _))

/-- The writer, what it was given to write, and what its last call has returned. -/
structure Observed where
  writer : FallibleFileCdrWriter
  /-- The records whose writing began on a good stream, each with the position of its line. -/
  begun : List (Nat × CdrEntry × Tm)
  answer : List CdrRecord

namespace Observed

/-- Nothing has been begun, and nothing has been answered. -/
def start (w : FallibleFileCdrWriter) : Observed :=
  ⟨w, [], []⟩

/-- A record is begun when its line goes to an open stream that is good. On a bad stream `<<` does
nothing, but the writer counts the record. -/
def step (o : Observed) (call : Call) : Observed where
  writer := o.writer.step call
  begun :=
    match call with
    | .writeAction entry now _ =>
      if o.writer.writeOpen ∧ o.writer.bad = false then
        o.begun ++ [(o.writer.content.length, entry, now)]
      else o.begun
    | .getRecentRecords _ _ => o.begun
    | .drain _ => o.begun
  answer :=
    match call with
    | .getRecentRecords limit failure => (o.writer.getRecentRecords limit failure).1
    | .writeAction _ _ _ => []
    | .drain _ => []

/-- The records that are completely written. -/
def complete (o : Observed) : List (CdrEntry × Tm) :=
  (o.begun.filter fun b => StandsAt o.writer.content b.1 b.2).map Prod.snd

/-- Neither the count nor the last answer goes beyond the records that are completely written. -/
structure Honest (o : Observed) : Prop where
  counted : o.writer.getRecordCount = some (o.complete.length : Int)
  answered : o.answer.Sublist (o.complete.map recordOf)

/-- So it is in every state of the run. -/
def HonestThroughout (o : Observed) (calls : List Call) : Prop :=
  ∀ pre, pre <+: calls → (pre.foldl Observed.step o).Honest

/-- The step finds a good stream for its record, and no failure loses a byte. -/
def Spared (o : Observed) : Call → Prop
  | .writeAction entry now failure => o.writer.writeOpen = true →
      o.writer.bad = false ∧ o.writer.recordCount + 1 < 2 ^ 31 ∧
        ∀ n ∈ failure, (o.writer.pending ++ lineOf entry now).length ≤ n
  | .getRecentRecords _ failure => ∀ n ∈ failure, o.writer.pending.length ≤ n
  | .drain _ => True

/-- No separator and no outer blank in the fields of an entry. -/
def Clean : Call → Prop
  | .writeAction entry _ _ => PlainFields entry ∧ TrimmedFields entry
  | .getRecentRecords _ _ => True
  | .drain _ => True

instance : DecidablePred Clean
  | .writeAction _ _ _ => inferInstanceAs (Decidable (_ ∧ _))
  | .getRecentRecords _ _ => .isTrue trivial
  | .drain _ => .isTrue trivial

/-! ## While no byte is lost

The invariant behind honesty: as long as no byte is lost, the index points at the lines of the
records begun, and all of them are complete. -/

/-- Every record that was begun is complete, and is counted. -/
structure Intact (o : Observed) : Prop where
  positions : o.writer.index = o.begun.map fun b => (b.1 : Int)
  lines : ∀ b ∈ o.begun, StandsAt o.writer.content b.1 b.2
  small : o.begun.length < 2 ^ 31
  /-- What is in the buffer ends with the line of a record. -/
  buffered : o.writer.pending ≠ [] → o.writer.writeOpen = true ∧ o.writer.bad = false ∧
    ∃ b ∈ o.begun, b.1 + (lineOf b.2.1 b.2.2).length = o.writer.content.length
  answered : o.answer.Sublist (o.begun.map fun b => recordOf b.2)
  clean : ∀ b ∈ o.begun, PlainFields b.2.1 ∧ TrimmedFields b.2.1

variable {o : Observed}

/-- While no byte is lost, the count is that of the records begun, -/
theorem Intact.recordCount (h : o.Intact) : o.writer.recordCount = o.begun.length := by
  rw [← o.writer.indexed, h.positions, List.length_map]

/-- all of which are complete, -/
theorem Intact.complete (h : o.Intact) : o.complete = o.begun.map Prod.snd := by
  unfold Observed.complete
  rw [List.filter_eq_self.mpr fun b hb => decide_eq_true (h.lines b hb)]

/-- so that the writer is honest. -/
theorem Intact.honest (h : o.Intact) : o.Honest where
  counted := by
    unfold getRecordCount
    rw [h.recordCount, h.complete, List.length_map, (toInt_natCast_eq_iff _).mpr h.small]
  answered := by
    rw [h.complete, List.map_map]
    exact h.answered

end Observed

/-! ## The operations

What each operation does to the stream, the positions and the count, with the failure that it may
end in. -/

/-- `if (m_writeFile.is_open()) m_writeFile.flush()` -/
def flushed (w : FallibleFileCdrWriter) (failure : WriteFailure) : FallibleFileCdrWriter :=
  if w.writeOpen then w.flush failure else w

section
variable {w : FallibleFileCdrWriter} {failure : WriteFailure}

/-- A write to a good stream whose failure loses nothing appends its text. -/
theorem content_put (hgood : w.bad = false) {text : Bytes}
    (hall : ∀ n ∈ failure, (w.pending ++ text).length ≤ n) :
    (w.put text failure).content = w.content ++ text := by
  unfold put content
  rw [if_neg (by simp [hgood])]
  cases failure with
  | none => exact (List.append_assoc _ _ _).symm
  | some n =>
    show w.file ++ (w.pending ++ text).take n ++ [] = w.file ++ w.pending ++ text
    rw [List.take_of_length_le (hall n rfl), List.append_nil, List.append_assoc]

/-- A write does not close the stream. -/
theorem put_frame (w : FallibleFileCdrWriter) (text : Bytes) (failure : WriteFailure) :
    (w.put text failure).writeOpen = w.writeOpen := by
  unfold put
  split
  · rfl
  · cases failure <;> rfl

/-- What is in the buffer after a write is there because nothing has failed. -/
theorem good_of_pending_put (hgood : w.bad = false) {text : Bytes}
    (hpending : (w.put text failure).pending ≠ []) : (w.put text failure).bad = false := by
  unfold put at hpending ⊢
  rw [if_neg (by simp [hgood])] at hpending ⊢
  cases failure with
  | none => exact hgood
  | some n => exact absurd rfl hpending

/-- A flush changes neither the positions nor the count, -/
theorem flush_frame (w : FallibleFileCdrWriter) (failure : WriteFailure) :
    (w.flush failure).index = w.index ∧ (w.flush failure).recordCount = w.recordCount := by
  unfold flush
  split
  · exact ⟨rfl, rfl⟩
  · cases failure <;> exact ⟨rfl, rfl⟩

/-- nor does it if it is skipped because the file is not open. -/
theorem flushed_frame (w : FallibleFileCdrWriter) (failure : WriteFailure) :
    (w.flushed failure).index = w.index ∧ (w.flushed failure).recordCount = w.recordCount := by
  unfold flushed
  split
  · exact flush_frame w failure
  · exact ⟨rfl, rfl⟩

/-- A flush that loses nothing. -/
theorem content_flushed (hall : ∀ n ∈ failure, w.pending.length ≤ n) :
    (w.flushed failure).content = w.content := by
  unfold flushed flush content
  split
  · split
    · rfl
    · cases failure with
      | none => exact List.append_nil _
      | some n =>
        show w.file ++ w.pending.take n ++ [] = w.file ++ w.pending
        rw [List.take_of_length_le (hall n rfl), List.append_nil]
  · rfl

/-- Only a stream that is bad or closed keeps something in its buffer. -/
theorem pending_flushed (h : w.pending ≠ [] → w.writeOpen = true ∧ w.bad = false) :
    (w.flushed failure).pending = [] := by
  unfold flushed flush
  by_cases hpending : w.pending = []
  · split
    · split
      · exact hpending
      · cases failure <;> rfl
    · exact hpending
  · obtain ⟨hopen, hgood⟩ := h hpending
    rw [if_pos hopen, if_neg (by simp [hgood])]
    cases failure <;> rfl

/-- After its flush, `getRecentRecords` only moves the reading stream. -/
theorem getRecentRecords_writer (w : FallibleFileCdrWriter) (limit : Nat)
    (failure : WriteFailure) : ∃ s,
      (w.getRecentRecords limit failure).2 = { w.flushed failure with readFile := s } := by
  show ∃ s, (if (w.flushed failure).readOpen then _ else _ : List CdrRecord × _).2 = _
  split
  · exact ⟨_, rfl⟩
  · exact ⟨(w.flushed failure).readFile, rfl⟩

/-- The answer is read from the file after the flush, from the last positions of the index. -/
theorem getRecentRecords_fst (w : FallibleFileCdrWriter) (limit : Nat) (failure : WriteFailure) :
    ∃ k, (w.getRecentRecords limit failure).1 =
      if (w.flushed failure).readOpen then
        (readRecords (w.flushed failure).file ((w.flushed failure).index.drop k)
          (w.flushed failure).readFile).1
      else [] := by
  refine ⟨(w.flushed failure).recordCount -
    min (min limit ICdrWriter.READ_CDR_LIMIT) (w.flushed failure).recordCount, ?_⟩
  show (if (w.flushed failure).readOpen then _ else _ : List CdrRecord × _).1 = _
  split <;> rfl

/-- The records at the end of `begun` are read back. -/
theorem getRecentRecords_answer {begun : List (Nat × CdrEntry × Tm)} (limit : Nat)
    (hpositions : w.index = begun.map fun b => (b.1 : Int))
    (hlines : ∀ b ∈ begun, StandsAt (w.flushed failure).file b.1 b.2) :
    ∃ k, (w.getRecentRecords limit failure).1 =
      (begun.drop k).map fun b => readBack b.2 := by
  obtain ⟨k, hanswer⟩ := getRecentRecords_fst w limit failure
  rw [hanswer]
  split
  · have hcast : (w.flushed failure).index.drop k =
        ((begun.drop k).map Prod.fst).map Nat.cast := by
      rw [(flushed_frame w failure).1, hpositions, ← List.map_drop, List.map_map]
      rfl
    have hstands : List.Forall₂ (StandsAt (w.flushed failure).file)
        ((begun.drop k).map Prod.fst) ((begun.drop k).map Prod.snd) := by
      rw [List.forall₂_map_left_iff, List.forall₂_map_right_iff, List.forall₂_same]
      exact fun b hb => hlines b (List.mem_of_mem_drop hb)
    refine ⟨k, ?_⟩
    rw [hcast, readRecords_map_cast, FileCdrWriter.readRecords_of_standsAt hstands, List.map_map]
    rfl
  · exact ⟨begun.length, by rw [List.drop_length]; rfl⟩

/-- A line that stands in the file ends in it. -/
theorem length_le_of_standsAt {content : Bytes} {position : Nat} {e : CdrEntry × Tm}
    (h : StandsAt content position e) : position + (lineOf e.1 e.2).length ≤ content.length := by
  have hle := List.IsPrefix.length_le h
  have hpos := List.length_pos_iff.mpr (FileCdrWriter.lineOf_ne_nil e.1 e.2)
  rw [List.length_drop] at hle
  omega

end

/-- Up to its greatest value the count is never mistaken for a smaller one. -/
theorem lt_of_toInt_eq {n k : Nat} (hn : n ≤ 2 ^ 31) (h : toInt n = k) : n = k ∧ n < 2 ^ 31 := by
  rcases Nat.lt_or_eq_of_le hn with hlt | heq
  · rw [(toInt_natCast_eq_iff n).mpr hlt] at h
    exact ⟨by omega, hlt⟩
  · rw [heq] at h
    have hneg : toInt (2 ^ 31 : Nat) < 0 := by decide
    omega

namespace Observed

variable {o : Observed}

/-! ## One step

A call that spares every byte keeps `Intact`; and one that does not makes the count or the next
answer say more than what was written. -/

/-- `writeAction` on a good stream: the new line stands at the end of the content, the old ones have
not moved. -/
theorem Intact.writeAction (h : o.Intact) {entry : CdrEntry} {now : Tm} {failure : WriteFailure}
    (hclean : PlainFields entry ∧ TrimmedFields entry)
    (hspared : o.Spared (.writeAction entry now failure)) :
    (o.step (.writeAction entry now failure)).Intact := by
  by_cases hopen : o.writer.writeOpen = true
  -- nothing is lost: the line of the record is the end of the content
  · obtain ⟨hgood, hsmall, hall⟩ := hspared hopen
    have hcontent := content_put hgood hall
    have hwriter : (o.step (.writeAction entry now failure)).writer =
        o.writer.writeAction entry now failure := rfl
    have hbegun : (o.step (.writeAction entry now failure)).begun =
        o.begun ++ [(o.writer.content.length, entry, now)] := if_pos ⟨hopen, hgood⟩
    unfold FallibleFileCdrWriter.writeAction at hwriter
    rw [if_pos hopen] at hwriter
    have hcontent' : (o.step (.writeAction entry now failure)).writer.content =
        o.writer.content ++ lineOf entry now := by
      rw [hwriter]
      exact hcontent
    refine ⟨?_, ?_, ?_, ?_, List.nil_sublist _, ?_⟩
    · rw [hwriter, hbegun, List.map_append]
      show o.writer.index ++ [o.writer.tellp] = _
      rw [h.positions, tellp, if_neg (by simp [hgood])]
      rfl
    · rw [hcontent', hbegun]
      intro b hb
      rcases List.mem_append.mp hb with hb | hb
      · exact (h.lines b hb).append _
      · rw [List.mem_singleton.mp hb]
        exact FileCdrWriter.standsAt_append _ (entry, now)
    · rw [hbegun, List.length_append, ← h.recordCount]
      exact hsmall
    · rw [hcontent', hbegun, hwriter]
      intro hpending
      refine ⟨(put_frame _ _ _).trans hopen, good_of_pending_put hgood hpending, _,
        List.mem_append_right _ (List.mem_singleton_self _), ?_⟩
      rw [List.length_append]
    · rw [hbegun]
      intro b hb
      rcases List.mem_append.mp hb with hb | hb
      · exact h.clean b hb
      · rw [List.mem_singleton.mp hb]
        exact hclean
  -- the file could not be opened, and the call does nothing
  · have hwriter : (o.step (.writeAction entry now failure)).writer = o.writer := if_neg hopen
    have hbegun : (o.step (.writeAction entry now failure)).begun = o.begun :=
      if_neg fun hand => hopen hand.1
    refine ⟨?_, ?_, ?_, ?_, List.nil_sublist _, ?_⟩
    · rw [hwriter, hbegun]
      exact h.positions
    · rw [hwriter, hbegun]
      exact h.lines
    · rw [hbegun]
      exact h.small
    · rw [hwriter, hbegun]
      exact h.buffered
    · rw [hbegun]
      exact h.clean

/-- `getRecentRecords` flushes, so that every record begun is in the file, and reads the last ones.
-/
theorem Intact.getRecentRecords (h : o.Intact) {limit : Nat} {failure : WriteFailure}
    (hspared : o.Spared (.getRecentRecords limit failure)) :
    (o.step (.getRecentRecords limit failure)).Intact := by
  obtain ⟨s, hwriter⟩ := getRecentRecords_writer o.writer limit failure
  have hstep : (o.step (.getRecentRecords limit failure)).writer =
      { o.writer.flushed failure with readFile := s } := hwriter
  have hbegun : (o.step (.getRecentRecords limit failure)).begun = o.begun := rfl
  have hcontent : (o.writer.flushed failure).content = o.writer.content :=
    content_flushed hspared
  -- after the flush, all records are in the file that is read
  have hempty : (o.writer.flushed failure).pending = [] :=
    pending_flushed fun hpending => ⟨(h.buffered hpending).1, (h.buffered hpending).2.1⟩
  have hlines : ∀ b ∈ o.begun, StandsAt (o.writer.flushed failure).file b.1 b.2 := by
    have hfile : (o.writer.flushed failure).file = o.writer.content := by
      rw [← hcontent, content, hempty, List.append_nil]
    rw [hfile]
    exact h.lines
  refine ⟨?_, ?_, h.small, ?_, ?_, h.clean⟩
  · rw [hstep, hbegun]
    exact (flushed_frame o.writer failure).1.trans h.positions
  · rw [hstep, hbegun]
    show ∀ b ∈ o.begun, StandsAt (o.writer.flushed failure).content b.1 b.2
    rw [hcontent]
    exact h.lines
  · rw [hstep]
    exact fun hpending => absurd hempty hpending
  · obtain ⟨k, hanswer⟩ := getRecentRecords_answer limit h.positions hlines
    show ((o.writer.getRecentRecords limit failure).1).Sublist _
    -- a line with clean fields is read back as it was written
    have hread : (o.begun.drop k).map (fun b => readBack b.2) =
        (o.begun.drop k).map fun b => recordOf b.2 := by
      refine List.map_congr_left fun b hb => ?_
      have hclean := h.clean b (List.mem_of_mem_drop hb)
      exact (FileCdrWriter.readBack_eq_recordOf_iff hclean.1).mpr hclean.2
    rw [hanswer, hread]
    exact (List.drop_sublist k o.begun).map _

/-- The runtime may write a part of the buffer at any time. -/
theorem Intact.drain (h : o.Intact) (n : Nat) : (o.step (.drain n)).Intact := by
  have hcontent : (o.step (.drain n)).writer.content = o.writer.content := by
    show o.writer.file ++ o.writer.pending.take n ++ o.writer.pending.drop n = o.writer.content
    rw [List.append_assoc, List.take_append_drop]
    rfl
  refine ⟨h.positions, ?_, h.small, ?_, List.nil_sublist _, h.clean⟩
  · rw [hcontent]
    exact h.lines
  · rw [hcontent]
    intro hpending
    apply h.buffered
    rintro hempty
    apply hpending
    show o.writer.pending.drop n = []
    rw [hempty, List.drop_nil]

/-- **A step that spares every byte keeps the records intact.** -/
theorem Intact.step (h : o.Intact) {call : Call} (hclean : Clean call) (hspared : o.Spared call) :
    (o.step call).Intact := by
  cases call with
  | writeAction entry now failure => exact h.writeAction hclean hspared
  | getRecentRecords limit failure => exact h.getRecentRecords hspared
  | drain n => exact h.drain n

/-- There are no more complete records than records that were begun. -/
theorem length_complete_le (o : Observed) : o.complete.length ≤ o.begun.length := by
  unfold Observed.complete
  rw [List.length_map]
  exact List.length_filter_le _ _

/-- A new record of which a byte is lost is counted all the same. -/
theorem Intact.spared_writeAction (h : o.Intact) {entry : CdrEntry} {now : Tm}
    {failure : WriteFailure} (hhonest : (o.step (.writeAction entry now failure)).Honest) :
    o.Spared (.writeAction entry now failure) := by
  intro hopen
  have hwriter : (o.step (.writeAction entry now failure)).writer =
      o.writer.writeAction entry now failure := rfl
  have hcounted := hhonest.counted
  have hcount : (o.step (.writeAction entry now failure)).writer.recordCount =
      o.begun.length + 1 := by
    rw [hwriter, FallibleFileCdrWriter.writeAction, if_pos hopen]
    exact congrArg (· + 1) h.recordCount
  rw [getRecordCount, hcount] at hcounted
  obtain ⟨hall, hsmall⟩ := lt_of_toInt_eq h.small (Option.some.inj hcounted)
  -- on a bad stream the record is counted but not begun
  have hgood : o.writer.bad = false := by
    by_contra hbad
    have hbegun : (o.step (.writeAction entry now failure)).begun = o.begun :=
      if_neg fun hand => hbad hand.2
    have hle := length_complete_le (o.step (.writeAction entry now failure))
    rw [hbegun] at hle
    omega
  refine ⟨hgood, h.recordCount ▸ hsmall, fun n hn => ?_⟩
  -- all records are complete, so the new one is
  have hbegun : (o.step (.writeAction entry now failure)).begun =
      o.begun ++ [(o.writer.content.length, entry, now)] := if_pos ⟨hopen, hgood⟩
  unfold Observed.complete at hall
  rw [List.length_map, hbegun] at hall
  have hfull : (o.begun ++ [(o.writer.content.length, entry, now)]).length =
      o.begun.length + 1 := by
    rw [List.length_append, List.length_singleton]
  have hstands := List.length_filter_eq_length_iff.mp (hall.symm.trans hfull.symm)
    (o.writer.content.length, entry, now) (by simp)
  have hend := length_le_of_standsAt (of_decide_eq_true hstands)
  cases hn
  have hcontent : (o.step (.writeAction entry now (some n))).writer.content =
      o.writer.file ++ (o.writer.pending ++ lineOf entry now).take n := by
    rw [hwriter, FallibleFileCdrWriter.writeAction, if_pos hopen]
    show (o.writer.put (lineOf entry now) (some n)).content = _
    rw [content, put, if_neg (by simp [hgood])]
    exact List.append_nil _
  rw [hcontent, content, List.length_append, List.length_append, List.length_take,
    List.length_append] at hend
  rw [List.length_append]
  dsimp only at hend
  omega

/-- A flush that fails takes the last record with it. -/
theorem Intact.spared_getRecentRecords (h : o.Intact) {limit : Nat} {failure : WriteFailure}
    (hhonest : (o.step (.getRecentRecords limit failure)).Honest) :
    o.Spared (.getRecentRecords limit failure) := by
  intro n hn
  by_cases hpending : o.writer.pending = []
  · rw [hpending]
    exact Nat.zero_le n
  -- the buffer ends with the line of a record, which has to be complete afterwards
  obtain ⟨hopen, hgood, b, hb, hlast⟩ := h.buffered hpending
  obtain ⟨s, hwriter⟩ := getRecentRecords_writer o.writer limit failure
  have hstep : (o.step (.getRecentRecords limit failure)).writer =
      { o.writer.flushed failure with readFile := s } := hwriter
  have hcounted := hhonest.counted
  have hcount : (o.step (.getRecentRecords limit failure)).writer.recordCount =
      o.begun.length := by
    rw [hstep]
    exact (flushed_frame o.writer failure).2.trans h.recordCount
  rw [getRecordCount, hcount] at hcounted
  obtain ⟨hall, -⟩ := lt_of_toInt_eq h.small.le (Option.some.inj hcounted)
  unfold Observed.complete at hall
  rw [List.length_map] at hall
  have hstands := List.length_filter_eq_length_iff.mp hall.symm b hb
  have hend := length_le_of_standsAt (of_decide_eq_true hstands)
  cases hn
  have hcontent : (o.step (.getRecentRecords limit (some n))).writer.content =
      o.writer.file ++ o.writer.pending.take n := by
    rw [hstep, content, flushed, if_pos hopen, FallibleFileCdrWriter.flush,
      if_neg (by simp [hgood])]
    exact List.append_nil _
  rw [hcontent, hlast, content, List.length_append, List.length_append, List.length_take] at hend
  omega

/-- Conversely, a writer that is honest after a call has been spared in it. -/
theorem Intact.spared (h : o.Intact) {call : Call} (hhonest : (o.step call).Honest) :
    o.Spared call := by
  cases call with
  | writeAction entry now failure => exact h.spared_writeAction hhonest
  | getRecentRecords limit failure => exact h.spared_getRecentRecords hhonest
  | drain n => trivial

/-- A new writer has no records, however its constructor has fared. -/
theorem intact_start (file : Bytes) (writeOpens readOpens : Bool) (failure : WriteFailure) :
    (start (construct file writeOpens readOpens failure)).Intact := by
  have hnew : (construct file writeOpens readOpens failure).index = [] ∧
      (construct file writeOpens readOpens failure).pending = [] := by
    unfold construct
    split
    · cases failure <;> exact ⟨rfl, rfl⟩
    · exact ⟨rfl, rfl⟩
  refine ⟨hnew.1, ?_, show 0 < 2 ^ 31 by decide, fun hpending => absurd hnew.2 hpending,
    List.nil_sublist _, ?_⟩
  · exact fun b hb => absurd hb List.not_mem_nil
  · exact fun b hb => absurd hb List.not_mem_nil

end Observed

open Observed

/-- **When the writer is honest.** For every file, every way in which the constructor ends and all
calls with clean fields: the count and the answers are right in every state of the run if and only
if every step of it spares all bytes. -/
theorem honest_iff (file : Bytes) (writeOpens readOpens : Bool) (failure : WriteFailure)
    (calls : List Call) (hclean : ∀ call ∈ calls, Clean call) :
    (start (construct file writeOpens readOpens failure)).HonestThroughout calls ↔
      Run.Along (fun o call => some (o.step call)) Spared
        (start (construct file writeOpens readOpens failure)) calls := by
  have hrun := Run.exec_some_eq_foldl Observed.step calls
    (start (construct file writeOpens readOpens failure))
  -- spared steps keep all records complete
  have hkeep : ∀ o : Observed, ∀ call ∈ calls, ∀ o', o.Intact → o.Spared call →
      some (o.step call) = some o' → o'.Intact := by
    intro o call hcall o' h hspared hstep
    cases hstep
    exact h.step (hclean call hcall) hspared
  -- a step after which the writer is honest has been spared
  have hexact : ∀ o : Observed, ∀ call ∈ calls, ∀ o', o.Intact →
      some (o.step call) = some o' → o'.Honest → o.Spared call := by
    intro o call _ o' h hstep hhonest
    cases hstep
    exact h.spared hhonest
  rw [← Run.prefixes_iff_along hkeep (fun _ h => h.honest) hexact
    (intact_start file writeOpens readOpens failure) hrun]
  constructor
  · intro h pre o hpre ho
    rw [Run.exec_some_eq_foldl] at ho
    cases ho
    exact h pre hpre
  · exact fun h pre hpre => h pre _ hpre (Run.exec_some_eq_foldl _ _ _)

/-- An entry as the session manager makes it. -/
def firstEntry : CdrEntry :=
  ⟨ascii "001010123456789", ICdrWriter.SESSION_CREATED⟩

/-- The stream goes bad when the last record has reached the file. -/
def sparedCalls : List Call :=
  [.writeAction firstEntry ⟨1, 2, 3, 4, 5, 126, 6⟩ none, .drain 9, .getRecentRecords 10 (some 100),
    .getRecentRecords 1 none]

/-- Two records, each read back before the next one, on a file to which an earlier process has
written. -/
theorem honest_sparedCalls :
    (start (construct (ascii "CDR ended\n") true true none)).HonestThroughout sparedCalls := by
  refine (honest_iff _ true true none sparedCalls (by decide)).mpr ?_
  refine ⟨fun _ => ⟨rfl, by decide, by simp⟩, fun o ho => ?_⟩
  cases ho
  refine ⟨trivial, fun o ho => ?_⟩
  cases ho
  refine ⟨?_, fun o ho => ?_⟩
  · rintro n ⟨⟩
    show _ ≤ 100
    decide
  cases ho
  exact ⟨by simp [Spared], fun _ _ => trivial⟩

/-- The disk is full at the first record, and the second one finds a bad stream. -/
def lostCalls : List Call :=
  [.writeAction firstEntry ⟨1, 2, 3, 4, 5, 126, 6⟩ (some 0),
    .writeAction firstEntry ⟨2, 2, 3, 4, 5, 126, 6⟩ none, .getRecentRecords 10 none]

/-- No record is written, two are counted, and the readers get two empty ones. -/
theorem lostCalls_counts_lost :
    let o := lostCalls.foldl Observed.step (start (construct [] true true none))
    o.complete = [] ∧ o.writer.getRecordCount = some 2 ∧
      o.answer = [⟨[], [], []⟩, ⟨[], [], []⟩] ∧ ¬ o.Honest := by
  intro o
  have hcomplete : o.complete = [] := by decide
  have hcount : o.writer.getRecordCount = some 2 := by decide
  refine ⟨hcomplete, hcount, by decide, fun h => ?_⟩
  have hcounted := h.counted
  rw [hcount, hcomplete] at hcounted
  exact absurd hcounted (by decide)

end FallibleFileCdrWriter
end Pgw
