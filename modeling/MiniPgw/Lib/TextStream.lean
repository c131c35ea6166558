import Mathlib.Data.List.DropRight
import Mathlib.Data.List.TakeWhile

/-!
# Delimited text

`getline` takes a text apart at its delimiters, and `trim` drops the blanks at both ends of a part.
The alphabet, the delimiter and the blanks are parameters.

* **`getline_append_delim`**, **`getline_last`** — reading back what was written;
* **`getline_append_of_mem`** — a part that ends in the text does not depend on what follows it;
* **`lines_of_getline`** — `lines` is what repeated calls of `getline` return;
* **`cut_flatMap`** — a sequence of texts that was cut off ends within one of them;
* **`trim_eq_self_iff`** — the parts that `trim` leaves alone.
-/

namespace TextStream

variable {α : Type*}

/-! ## Parts

`getline` cuts at the first delimiter and drops it. What is written with its delimiter is read back;
only the last part may lack one. -/

section Getline
variable [DecidableEq α] {delim : α} {line rest s : List α}

/-- The text up to the next delimiter, and what follows it; `none` at the end of the text. The last
part may lack its delimiter. -/
def getline (delim : α) : List α → Option (List α × List α)
  | [] => none
  | s => some (s.takeWhile (· ≠ delim), (s.dropWhile (· ≠ delim)).tail)

theorem getline_of_ne_nil (h : s ≠ []) :
    getline delim s = some (s.takeWhile (· ≠ delim), (s.dropWhile (· ≠ delim)).tail) := by
  cases s with
  | nil => exact absurd rfl h
  | cons c s => rfl

theorem all_ne_of_notMem (h : delim ∉ line) : ∀ c ∈ line, decide (c ≠ delim) = true := by
  intro c hc
  apply decide_eq_true
  rintro rfl
  exact h hc

/-- A part that was written with its delimiter is read back, and the rest stays. -/
theorem getline_append_delim (h : delim ∉ line) (rest : List α) :
    getline delim (line ++ delim :: rest) = some (line, rest) := by
  have hline := all_ne_of_notMem h
  rw [getline_of_ne_nil (by simp), List.takeWhile_append_of_pos hline,
    List.dropWhile_append_of_pos hline]
  simp

/-- The last part is read back without a delimiter, unless it is empty. -/
theorem getline_last (h : delim ∉ line) (hne : line ≠ []) :
    getline delim line = some (line, []) := by
  have hline := all_ne_of_notMem h
  rw [getline_of_ne_nil hne, List.takeWhile_eq_self_iff.mpr hline,
    List.dropWhile_eq_nil_iff.mpr hline, List.tail_nil]

/-- A part that ends in `s` is the same whatever follows `s`. -/
theorem getline_append_of_mem (h : delim ∈ s) (rest : List α) :
    ∃ tail, getline delim (s ++ rest) = some (s.takeWhile (· ≠ delim), tail ++ rest) := by
  obtain ⟨line, tail, rfl, hline⟩ := List.eq_append_cons_of_mem h
  refine ⟨tail, ?_⟩
  rw [List.takeWhile_append_of_pos (all_ne_of_notMem hline), List.append_assoc, List.cons_append,
    getline_append_delim hline]
  simp

theorem notMem_takeWhile_ne (s : List α) : delim ∉ s.takeWhile (· ≠ delim) := by
  intro hmem
  have hne := List.mem_takeWhile_imp hmem
  simp at hne

/-- Up to its first delimiter, a text that goes on the same way has the same part. -/
theorem eq_of_append_delim_prefix {front : List α} (hfront : delim ∉ front) (hline : delim ∉ line)
    (h : front ++ delim :: s <+: line ++ delim :: rest) : front = line ∧ s <+: rest := by
  obtain ⟨tail, htail⟩ := h
  have hgetline := getline_append_delim hfront (s ++ tail)
  rw [← List.cons_append, ← List.append_assoc, htail, getline_append_delim hline] at hgetline
  cases hgetline
  exact ⟨rfl, List.prefix_append s tail⟩

omit [DecidableEq α] in
/-- What has been cut off before the first delimiter. -/
theorem prefix_of_notMem (hs : delim ∉ s) (h : s <+: line ++ delim :: rest) : s <+: line := by
  have hwhole : line ++ [delim] <+: line ++ delim :: rest :=
    (List.prefix_append_right_inj line).mpr (List.cons_prefix_cons.mpr ⟨rfl, List.nil_prefix⟩)
  have hnot : ¬ (line ++ [delim] <+: s) := fun hmore => hs (hmore.subset (by simp))
  rcases List.prefix_or_prefix_of_prefix hwhole h with hmore | hless
  · exact absurd hmore hnot
  · rcases List.prefix_concat_iff.mp hless with heq | hpre
    · exact absurd (heq ▸ List.prefix_refl s) hnot
    · exact hpre

/-! ## Lines

The parts of a whole text, read one after the other. Two texts put together have the parts of both
if the first one ends in a delimiter. -/

/-- All parts of a text. -/
def lines (delim : α) : List α → List (List α)
  | [] => []
  | c :: s =>
    if c = delim then [] :: lines delim s
    else
      match lines delim s with
      | [] => [[c]]
      | line :: rest => (c :: line) :: rest

theorem lines_delim (s : List α) : lines delim (delim :: s) = [] :: lines delim s :=
  if_pos rfl

/-- A part with its delimiter is the first one, and the others are those of the rest. -/
theorem lines_append_delim (h : delim ∉ line) (rest : List α) :
    lines delim (line ++ delim :: rest) = line :: lines delim rest := by
  induction line with
  | nil => exact lines_delim rest
  | cons c line ih =>
    simp only [List.mem_cons, not_or] at h
    rw [List.cons_append, lines, if_neg (Ne.symm h.1), ih h.2]

/-- The last part may lack its delimiter. -/
theorem lines_last (h : delim ∉ line) (hne : line ≠ []) : lines delim line = [line] := by
  induction line with
  | nil => exact absurd rfl hne
  | cons c line ih =>
    simp only [List.mem_cons, not_or] at h
    rw [lines, if_neg (Ne.symm h.1)]
    cases line with
    | nil => rfl
    | cons d line => rw [ih h.2 (List.cons_ne_nil d line)]

/-- `lines` is what repeated calls of `getline` return. -/
theorem lines_of_getline (h : getline delim s = some (line, rest)) :
    lines delim s = line :: lines delim rest := by
  have hne : s ≠ [] := by
    rintro rfl
    cases h
  rw [getline_of_ne_nil hne] at h
  cases h
  have hline : delim ∉ s.takeWhile (· ≠ delim) := notMem_takeWhile_ne s
  -- the line ends with the text, or at a delimiter
  cases hdrop : s.dropWhile (· ≠ delim) with
  | nil =>
    have hall : s.takeWhile (· ≠ delim) = s := by
      have happend := List.takeWhile_append_dropWhile (p := (· ≠ delim)) (l := s)
      rwa [hdrop, List.append_nil] at happend
    rw [hall] at hline ⊢
    exact lines_last hline hne
  | cons c rest =>
    have hc : c = delim := by
      have hhead := List.head?_dropWhile_not (p := (· ≠ delim)) s
      rw [hdrop] at hhead
      simpa using hhead
    have happend := List.takeWhile_append_dropWhile (p := (· ≠ delim)) (l := s)
    rw [hdrop, hc] at happend
    conv_lhs => rw [← happend]
    exact lines_append_delim hline rest

/-- A text that is empty or ends in a delimiter has no part in common with what follows it. -/
theorem lines_append (h : ∀ c ∈ s.getLast?, c = delim) (rest : List α) :
    lines delim (s ++ rest) = lines delim s ++ lines delim rest := by
  induction s with
  | nil => rfl
  | cons c s ih =>
    cases s with
    | nil =>
      obtain rfl : c = delim := h c rfl
      show lines c (c :: rest) = lines c [c] ++ lines c rest
      rw [lines_delim, lines_delim]
      rfl
    | cons d s =>
      have hlast : ∀ e ∈ (d :: s).getLast?, e = delim := by
        intro e he
        exact h e (by rwa [List.getLast?_cons_cons])
      have hrest := ih hlast
      rw [List.cons_append, lines, lines, hrest]
      split
      · rfl
      · -- the text goes on, so it has a part that `c` belongs to
        have hne : lines delim (d :: s) ≠ [] := by
          rw [lines]
          split
          · exact List.cons_ne_nil _ _
          · split <;> exact List.cons_ne_nil _ _
        cases hlines : lines delim (d :: s) with
        | nil => exact absurd hlines hne
        | cons line others => rfl

end Getline

/-! ## Texts that were cut off

A writer that is stopped leaves a prefix of what it would have written. -/

/-- A sequence of texts that was cut off ends within one of them, and no more than the ones in front
of it are complete. -/
theorem cut_flatMap {ε : Type*} {text : ε → List α} {es : List ε} {cut : List α}
    (h : cut <+: es.flatMap text) :
    ∃ whole torn, whole <+: es ∧ cut = whole.flatMap text ++ torn ∧
      (torn = [] ∨ ∃ e, whole ++ [e] <+: es ∧ torn <+: text e ∧ torn ≠ text e) ∧
      ∀ complete, complete <+: es → complete.flatMap text <+: cut → complete <+: whole := by
  induction es generalizing cut with
  | nil =>
    rw [List.flatMap_nil, List.prefix_nil] at h
    exact ⟨[], [], List.prefix_refl [], by rw [h]; rfl, .inl rfl, fun _ hcomplete _ => hcomplete⟩
  | cons e es ih =>
    rw [List.flatMap_cons] at h
    -- the first text is whole, or the cut is in it
    by_cases hfirst : text e <+: cut
    · obtain ⟨rest, rfl⟩ := hfirst
      obtain ⟨whole, torn, hes, rfl, htorn, hlast⟩ := ih ((List.prefix_append_right_inj _).mp h)
      refine ⟨e :: whole, torn, List.cons_prefix_cons.mpr ⟨rfl, hes⟩, ?_, ?_, ?_⟩
      · rw [List.flatMap_cons, List.append_assoc]
      · rcases htorn with hnone | ⟨e', he', hcut⟩
        · exact .inl hnone
        · exact .inr ⟨e', List.cons_prefix_cons.mpr ⟨rfl, he'⟩, hcut⟩
      · -- a complete text that lies in the cut cannot pass the torn one
        intro complete hcomplete hin
        cases complete with
        | nil => exact List.nil_prefix
        | cons e' complete =>
          obtain ⟨rfl, hothers⟩ := List.cons_prefix_cons.mp hcomplete
          rw [List.flatMap_cons, List.prefix_append_right_inj] at hin
          exact List.cons_prefix_cons.mpr ⟨rfl, hlast complete hothers hin⟩
    · -- the cut is in the first text
      have hwithin : cut <+: text e :=
        (List.prefix_or_prefix_of_prefix h (List.prefix_append _ _)).resolve_right hfirst
      refine ⟨[], cut, List.nil_prefix, rfl, .inr ⟨e, ?_, hwithin, ?_⟩, ?_⟩
      · exact List.cons_prefix_cons.mpr ⟨rfl, List.nil_prefix⟩
      · rintro rfl
        exact hfirst (List.prefix_refl _)
      · intro complete hcomplete hin
        cases complete with
        | nil => exact List.nil_prefix
        | cons e' complete =>
          obtain ⟨rfl, -⟩ := List.cons_prefix_cons.mp hcomplete
          rw [List.flatMap_cons] at hin
          exact absurd ((List.prefix_append _ _).trans hin) hfirst

/-! ## Blanks

`trim` takes off blanks at both ends, and leaves alone what has none there. -/

section Trim
variable {blank : α → Bool} {s : List α}

/-- The text without the blanks at its front and at its end. -/
def trim (blank : α → Bool) (s : List α) : List α :=
  (s.dropWhile blank).rdropWhile blank

/-- Neither the first nor the last character is a blank. -/
def Trimmed (blank : α → Bool) (s : List α) : Prop :=
  (∀ c ∈ s.head?, blank c = false) ∧ ∀ c ∈ s.getLast?, blank c = false

instance : Decidable (Trimmed blank s) :=
  inferInstanceAs (Decidable (_ ∧ _))

theorem dropWhile_eq_self_iff_head? : s.dropWhile blank = s ↔ ∀ c ∈ s.head?, blank c = false := by
  cases s with
  | nil => simp
  | cons c s =>
    rw [List.dropWhile_eq_self_iff]
    simp

theorem rdropWhile_eq_self_iff_getLast? :
    s.rdropWhile blank = s ↔ ∀ c ∈ s.getLast?, blank c = false := by
  rw [List.rdropWhile_eq_self_iff]
  constructor
  · intro h c hc
    obtain ⟨hne, rfl⟩ := List.mem_getLast?_eq_getLast hc
    simpa using h hne
  · intro h hne
    simpa using h _ (List.getLast_mem_getLast? hne)

theorem trimmed_trim (blank : α → Bool) (s : List α) : Trimmed blank (trim blank s) := by
  refine ⟨?_, rdropWhile_eq_self_iff_getLast?.mp (List.rdropWhile_idempotent _ _)⟩
  -- what remains is a prefix of a text without leading blanks
  intro c hc
  have hpre : trim blank s <+: s.dropWhile blank := List.rdropWhile_prefix _ _
  have hdrop := List.dropWhile_idempotent blank s
  refine dropWhile_eq_self_iff_head?.mp hdrop c ?_
  obtain ⟨post, hpost⟩ := hpre
  rw [← hpost]
  exact List.mem_head?_append_of_mem_head? hc

/-- **The fixed points of `trim`.** -/
theorem trim_eq_self_iff : trim blank s = s ↔ Trimmed blank s := by
  constructor
  · intro h
    rw [← h]
    exact trimmed_trim blank s
  · intro h
    unfold trim
    rw [dropWhile_eq_self_iff_head?.mpr h.1, rdropWhile_eq_self_iff_getLast?.mpr h.2]

/-- Blanks in front of a text do not change what `trim` leaves. -/
theorem trim_append_of_blank {front : List α} (h : ∀ c ∈ front, blank c = true) (s : List α) :
    trim blank (front ++ s) = trim blank s := by
  unfold trim
  rw [List.dropWhile_append_of_pos h]

theorem trim_subset (blank : α → Bool) (s : List α) : trim blank s ⊆ s :=
  fun _ hc => (List.dropWhile_suffix _).subset ((List.rdropWhile_prefix _ _).subset hc)

/-- `trim` drops nothing but blanks. -/
theorem mem_trim {c : α} (hc : c ∈ s) (hblank : blank c = false) : c ∈ trim blank s := by
  have hfront : c ∈ s.dropWhile blank := by
    rw [← List.takeWhile_append_dropWhile (l := s) (p := blank)] at hc
    rcases List.mem_append.mp hc with hc | hc
    · rw [List.mem_takeWhile_imp hc] at hblank
      cases hblank
    · exact hc
  rw [← List.rdropWhile_append_rtakeWhile (p := blank) (l := s.dropWhile blank)] at hfront
  rcases List.mem_append.mp hfront with hfront | hfront
  · exact hfront
  · rw [List.mem_rtakeWhile_imp hfront] at hblank
    cases hblank

end Trim
end TextStream
