import Mathlib.Data.List.Basic

/-!
# Frames in a stream

A stream of bytes carries messages, each as one frame. A `Framing` is the decoder of one frame at
the front of a buffer, together with what makes it one: it answers with `m` exactly when the frame
of a well-formed `m` stands there. `parse` decodes a buffer as far as it goes.

* **`parse_append`** — parsing can stop and go on with more bytes: how a stream is cut into chunks
  does not matter;
* **`parse_frames`** — frames in front of a buffer are parsed one by one;
* **`parse_spec`** — a parsed buffer is the frames of its messages and an undecodable rest.
-/

structure Framing (α μ : Type*) where
  /-- The frame of a message. -/
  frame : μ → List α
  WellFormed : μ → Prop
  decode : List α → Option μ
  frame_ne_nil : ∀ m, frame m ≠ []
  decode_eq_some : ∀ b m, decode b = some m ↔ WellFormed m ∧ frame m <+: b

namespace Framing

variable {α μ : Type*} (F : Framing α μ)

theorem length_frame_pos (m : μ) : 0 < (F.frame m).length :=
  List.length_pos_iff.mpr (F.frame_ne_nil m)

theorem length_frame_le {b : List α} {m : μ} (h : F.decode b = some m) :
    (F.frame m).length ≤ b.length :=
  ((F.decode_eq_some b m).mp h).2.length_le

/-- A frame at the front is decoded, whatever follows it. -/
theorem decode_frame_append {m : μ} (h : F.WellFormed m) (t : List α) :
    F.decode (F.frame m ++ t) = some m :=
  (F.decode_eq_some _ m).mpr ⟨h, List.prefix_append _ _⟩

/-- More bytes do not change what has been decoded. -/
theorem decode_append {b : List α} {m : μ} (h : F.decode b = some m) (t : List α) :
    F.decode (b ++ t) = some m := by
  obtain ⟨hwf, hpre⟩ := (F.decode_eq_some b m).mp h
  exact (F.decode_eq_some _ m).mpr ⟨hwf, hpre.trans (List.prefix_append b t)⟩

/-- **No frame is a strict prefix of another**: a buffer that is cut off inside a frame is not
decoded. -/
theorem decode_strict_prefix {b : List α} {m : μ} (h : F.WellFormed m) (hpre : b <+: F.frame m)
    (hne : b ≠ F.frame m) : F.decode b = none := by
  by_contra hsome
  obtain ⟨m', hm'⟩ := Option.ne_none_iff_exists'.mp hsome
  obtain ⟨t, ht⟩ := hpre
  have hboth : F.decode (F.frame m) = some m' := ht ▸ F.decode_append hm' t
  have hself : F.decode (F.frame m) = some m := by
    simpa using F.decode_frame_append h []
  obtain rfl : m = m' := Option.some.inj (hself.symm.trans hboth)
  exact hne (List.IsPrefix.eq_of_length_le ⟨t, ht⟩ (F.length_frame_le hm'))

/-- All messages at the front of the buffer, and the bytes that are left. -/
def parse (b : List α) : List μ × List α :=
  match _hdecode : F.decode b with
  | none => ([], b)
  | some m =>
    let rest := parse (b.drop (F.frame m).length)
    (m :: rest.1, rest.2)
termination_by b.length
decreasing_by
  have hpos := F.length_frame_pos m
  have hle := F.length_frame_le _hdecode
  rw [List.length_drop]
  omega

theorem parse_of_none {b : List α} (h : F.decode b = none) : F.parse b = ([], b) := by
  rw [parse]
  split
  · rfl
  · next m hm => simp [h] at hm

theorem parse_of_some {b : List α} {m : μ} (h : F.decode b = some m) :
    F.parse b = (m :: (F.parse (b.drop (F.frame m).length)).1,
      (F.parse (b.drop (F.frame m).length)).2) := by
  rw [parse]
  split
  · next hm => simp [h] at hm
  · next m' hm =>
    obtain rfl : m = m' := Option.some.inj (h.symm.trans hm)
    rfl

/-- Parsing a frame takes it off. -/
theorem parse_frame_append {m : μ} (h : F.WellFormed m) (t : List α) :
    F.parse (F.frame m ++ t) = (m :: (F.parse t).1, (F.parse t).2) := by
  rw [F.parse_of_some (F.decode_frame_append h t), List.drop_left]

/-- **Frames in front of a buffer are parsed one by one.** -/
theorem parse_frames {ms : List μ} (h : ∀ m ∈ ms, F.WellFormed m) (t : List α) :
    F.parse (ms.flatMap F.frame ++ t) = (ms ++ (F.parse t).1, (F.parse t).2) := by
  induction ms with
  | nil => simp
  | cons m ms ih =>
    rw [List.flatMap_cons, List.append_assoc, F.parse_frame_append (h m (by simp)),
      ih (fun m' hm' => h m' (by simp [hm']))]
    rfl

/-- **What parsing a buffer means**: the buffer is the frames of the messages, which are
well-formed, and a rest that does not begin with a frame. Induction on the length of the buffer. -/
theorem parse_spec (b : List α) :
    b = (F.parse b).1.flatMap F.frame ++ (F.parse b).2 ∧
      (∀ m ∈ (F.parse b).1, F.WellFormed m) ∧ F.decode (F.parse b).2 = none := by
  induction hlen : b.length using Nat.strongRecOn generalizing b with
  | ind n ih =>
    cases hdecode : F.decode b with
    | none => simp [F.parse_of_none hdecode, hdecode]
    | some m =>
      obtain ⟨hwf, t, rfl⟩ := (F.decode_eq_some b m).mp hdecode
      have hpos := F.length_frame_pos m
      rw [List.length_append] at hlen
      obtain ⟨hsplit, hall, hrest⟩ := ih t.length (by omega) t rfl
      rw [F.parse_frame_append hwf]
      refine ⟨?_, ?_, hrest⟩
      · rw [List.flatMap_cons, List.append_assoc, ← hsplit]
      · intro m' hm'
        rcases List.mem_cons.mp hm' with rfl | hin
        · exact hwf
        · exact hall m' hin

/-- **Parsing can stop and go on with more bytes.** -/
theorem parse_append (b t : List α) :
    F.parse (b ++ t) = ((F.parse b).1 ++ (F.parse ((F.parse b).2 ++ t)).1,
      (F.parse ((F.parse b).2 ++ t)).2) := by
  obtain ⟨hsplit, hall, -⟩ := F.parse_spec b
  conv_lhs => rw [hsplit, List.append_assoc]
  exact F.parse_frames hall _

/-- A buffer of well-formed frames and a part of one more is parsed into these frames. -/
theorem parse_stream {ms : List μ} {tail : List α} (h : ∀ m ∈ ms, F.WellFormed m)
    (htail : F.decode tail = none) : F.parse (ms.flatMap F.frame ++ tail) = (ms, tail) := by
  rw [F.parse_frames h, F.parse_of_none htail, List.append_nil]

end Framing
