import Mathlib.Data.List.Chain
import Mathlib.Data.List.Count

/-!
# Handles that are acquired and released

A log of acquisitions and releases of handles whose names are used again after a release. A handle
is released once if, from beginning to end, every acquisition of it is followed by exactly one
release (`ReleasedOnce`).

What happens to one handle in a part of the log that first acquires and then releases is a matter
of two counts (`history_append`). Acquired once while it is free and released once, it is in order
again (`Orderly.both`); a release while it is free is never made up for (`not_orderly_release`).

`Tracks spoiled owner log` is the invariant of a program whose state says what it owns: the log is
in order and exactly the handles with an owner are held, but for the handles that the program has
`spoiled` by a release that it was not entitled to (`Tracks.spoil`).
-/

namespace Handles

variable {κ : Type*}

inductive Use (κ : Type*) where
  | acquired (k : κ)
  | released (k : κ)
  deriving DecidableEq, Repr

/-- The handle that was used. -/
def Use.handle : Use κ → κ
  | .acquired k => k
  | .released k => k

def Use.acquires : Use κ → Bool
  | .acquired _ => true
  | .released _ => false

variable [DecidableEq κ]

/-- The uses of the handle `k`, in order: `true` where it was acquired. -/
def history (k : κ) (log : List (Use κ)) : List Bool :=
  (log.filter fun u => u.handle = k).map Use.acquires

/-- The last use of `k` acquired it. -/
def Held (k : κ) (log : List (Use κ)) : Prop :=
  (history k log).getLast? = some true

instance (k : κ) (log : List (Use κ)) : Decidable (Held k log) :=
  inferInstanceAs (Decidable (_ = _))

/-- Acquisitions and releases of `k` alternate, and the first use is an acquisition. -/
structure Orderly (k : κ) (log : List (Use κ)) : Prop where
  alternates : (history k log).IsChain (· ≠ ·)
  starts : ∀ b ∈ (history k log).head?, b = true

/-- Every acquisition of `k` is followed by exactly one release. -/
structure ReleasedOnce (k : κ) (log : List (Use κ)) : Prop extends Orderly k log where
  free : ¬ Held k log

/-- The uses that first acquire the handles `acquired` and then release the handles `released`. -/
def uses (acquired released : List κ) : List (Use κ) :=
  acquired.map .acquired ++ released.map .released

theorem history_map_acquired (k : κ) (ks : List κ) :
    history k (ks.map .acquired) = List.replicate (ks.count k) true := by
  induction ks with
  | nil => rfl
  | cons x ks ih =>
    by_cases hx : x = k
    · subst hx
      rw [List.count_cons_self, List.replicate_succ, ← ih]
      simp [history, Use.handle, Use.acquires]
    · rw [List.count_cons_of_ne hx, ← ih]
      simp [history, Use.handle, hx]

theorem history_map_released (k : κ) (ks : List κ) :
    history k (ks.map .released) = List.replicate (ks.count k) false := by
  induction ks with
  | nil => rfl
  | cons x ks ih =>
    by_cases hx : x = k
    · subst hx
      rw [List.count_cons_self, List.replicate_succ, ← ih]
      simp [history, Use.handle, Use.acquires]
    · rw [List.count_cons_of_ne hx, ← ih]
      simp [history, Use.handle, hx]

/-- **What a part of the log does to one handle** is a matter of how often it is acquired and
released there. -/
theorem history_append (k : κ) (log : List (Use κ)) (acquired released : List κ) :
    history k (log ++ uses acquired released) = history k log
      ++ (List.replicate (acquired.count k) true ++ List.replicate (released.count k) false) := by
  rw [← history_map_acquired, ← history_map_released]
  simp [history, uses]

section
variable {k : κ} {log : List (Use κ)} {acquired released : List κ}

/-- A part of the log without `k` leaves `k` as it is. -/
theorem history_append_of_notMem (hacquired : k ∉ acquired) (hreleased : k ∉ released) :
    history k (log ++ uses acquired released) = history k log := by
  rw [history_append, List.count_eq_zero_of_not_mem hacquired,
    List.count_eq_zero_of_not_mem hreleased]
  simp

theorem held_append_of_notMem (hacquired : k ∉ acquired) (hreleased : k ∉ released) :
    Held k (log ++ uses acquired released) ↔ Held k log := by
  unfold Held
  rw [history_append_of_notMem hacquired hreleased]

theorem orderly_append_of_notMem (hacquired : k ∉ acquired) (hreleased : k ∉ released) :
    Orderly k (log ++ uses acquired released) ↔ Orderly k log := by
  have hsame : history k (log ++ uses acquired released) = history k log :=
    history_append_of_notMem hacquired hreleased
  constructor
  · exact fun h => ⟨hsame ▸ h.alternates, hsame ▸ h.starts⟩
  · exact fun h => ⟨hsame.symm ▸ h.alternates, hsame.symm ▸ h.starts⟩

theorem orderly_nil : Orderly k [] := by
  constructor <;> simp [history]

/-- Disorder stays. -/
theorem Orderly.of_append {log' : List (Use κ)} (h : Orderly k (log ++ log')) : Orderly k log := by
  have hsplit : history k (log ++ log') = history k log ++ history k log' := by
    simp [history]
  constructor
  · have hchain := h.alternates
    rw [hsplit] at hchain
    exact hchain.left_of_append
  · intro b hb
    apply h.starts
    rw [hsplit, List.head?_append, Option.mem_def.mp hb]
    rfl

/-- A free handle is acquired. -/
theorem Orderly.acquire (h : Orderly k log) (hfree : ¬ Held k log)
    (hacquired : acquired.count k = 1) (hreleased : k ∉ released) :
    Orderly k (log ++ uses acquired released) ∧ Held k (log ++ uses acquired released) := by
  have hhistory : history k (log ++ uses acquired released) = history k log ++ [true] := by
    rw [history_append, hacquired, List.count_eq_zero_of_not_mem hreleased]
    simp
  refine ⟨⟨?_, ?_⟩, ?_⟩
  · rw [hhistory]
    refine List.isChain_append.mpr ⟨h.alternates, List.isChain_singleton _, ?_⟩
    rintro a ha b hb rfl
    obtain rfl : a = true := by simpa using hb
    exact hfree ha
  · rw [hhistory, List.head?_append]
    have hstarts := h.starts
    cases hhead : (history k log).head? with
    | none => simp
    | some b =>
      rw [hhead] at hstarts
      simpa using hstarts
  · simp [Held, hhistory]

/-- A held handle is released. -/
theorem Orderly.release (h : Orderly k log) (hheld : Held k log) (hacquired : k ∉ acquired)
    (hreleased : released.count k = 1) :
    Orderly k (log ++ uses acquired released) ∧ ¬ Held k (log ++ uses acquired released) := by
  have hhistory : history k (log ++ uses acquired released) = history k log ++ [false] := by
    rw [history_append, hreleased, List.count_eq_zero_of_not_mem hacquired]
    simp
  refine ⟨⟨?_, ?_⟩, ?_⟩
  · rw [hhistory]
    refine List.isChain_append.mpr ⟨h.alternates, List.isChain_singleton _, ?_⟩
    rintro a ha b hb rfl
    obtain rfl : a = false := by simpa using hb
    have hcontra := Option.some.inj (ha.symm.trans hheld)
    cases hcontra
  · have hne : history k log ≠ [] := by
      intro hnil
      simp [Held, hnil] at hheld
    rw [hhistory, List.head?_append_of_ne_nil _ hne]
    exact h.starts
  · simp [Held, hhistory]

omit [DecidableEq κ] in
/-- The log goes on with `acquired` and then with `released`. -/
theorem append_uses (log : List (Use κ)) (acquired released : List κ) :
    log ++ uses acquired released = log ++ uses acquired [] ++ uses [] released := by
  simp [uses]

/-- A free handle is acquired and released. -/
theorem Orderly.both (h : Orderly k log) (hfree : ¬ Held k log) (hacquired : acquired.count k = 1)
    (hreleased : released.count k = 1) :
    Orderly k (log ++ uses acquired released) ∧ ¬ Held k (log ++ uses acquired released) := by
  obtain ⟨hacq, hheld⟩ := h.acquire hfree hacquired (List.not_mem_nil : k ∉ [])
  rw [append_uses]
  exact hacq.release hheld List.not_mem_nil hreleased

/-- **A free handle that is released** is in disorder from then on. -/
theorem not_orderly_release (hfree : ¬ Held k log) (hacquired : k ∉ acquired)
    (hreleased : k ∈ released) : ¬ Orderly k (log ++ uses acquired released) := by
  intro h
  obtain ⟨n, hn⟩ : ∃ n, released.count k = n + 1 :=
    Nat.exists_eq_succ_of_ne_zero (List.count_pos_iff.mpr hreleased).ne'
  have hhistory : history k (log ++ uses acquired released)
      = history k log ++ false :: List.replicate n false := by
    rw [history_append, hn, List.count_eq_zero_of_not_mem hacquired, List.replicate_succ]
    simp
  have halternates := h.alternates
  have hstarts := h.starts
  rw [hhistory] at halternates hstarts
  cases hlast : (history k log).getLast? with
  | none =>
    rw [List.getLast?_eq_none_iff.mp hlast] at hstarts
    simp at hstarts
  | some b =>
    obtain rfl : b = false := by
      cases b with
      | false => rfl
      | true => exact absurd hlast hfree
    exact (List.isChain_append.mp halternates).2.2 false hlast false rfl rfl

/-- A handle that is released twice is in disorder from then on. -/
theorem not_orderly_twice (hreleased : 2 ≤ released.count k) :
    ¬ Orderly k (log ++ uses acquired released) := by
  intro h
  obtain ⟨n, hn⟩ : ∃ n, released.count k = n + 2 := ⟨released.count k - 2, by omega⟩
  have halternates := h.alternates
  rw [history_append, hn, List.replicate_succ, List.replicate_succ] at halternates
  have hpair := (List.isChain_append.mp (List.isChain_append.mp halternates).2.1).2.1
  rw [List.isChain_cons_cons] at hpair
  exact hpair.1 rfl

/-! ## Owners

A program that releases a handle which it does not hold has spoiled its log for good, but only as
far as this handle is concerned: what is said of the others stays true. -/

/-- The log is in order but for the handles that are `spoiled`, which stay in disorder. Of the
others exactly those with an owner are held. -/
def Tracks (spoiled owner : κ → Prop) (log : List (Use κ)) : Prop :=
  ∀ k, (spoiled k → ¬ Orderly k log) ∧ (¬ spoiled k → Orderly k log ∧ (Held k log ↔ owner k))

variable {spoiled owner owner' : κ → Prop}

theorem tracks_nil : Tracks (fun _ : κ => False) (fun _ : κ => False) [] :=
  fun _ => ⟨False.elim, fun _ => ⟨orderly_nil, by simp [Held, history]⟩⟩

theorem Tracks.congr (h : Tracks spoiled owner log) (hsame : ∀ x, owner' x ↔ owner x) :
    Tracks spoiled owner' log :=
  fun x => ⟨(h x).1, fun hx => ⟨((h x).2 hx).1, ((h x).2 hx).2.trans (hsame x).symm⟩⟩

theorem Tracks.congr_spoiled {spoiled' : κ → Prop} (h : Tracks spoiled owner log)
    (hsame : ∀ x, spoiled' x ↔ spoiled x) : Tracks spoiled' owner log :=
  fun x => ⟨fun hx => (h x).1 ((hsame x).mp hx), fun hx => (h x).2 fun hs => hx ((hsame x).mpr hs)⟩

/-- A handle without an owner gets one. -/
theorem Tracks.acquire (h : Tracks spoiled owner log) (hfree : ¬ owner k) :
    Tracks spoiled (fun x => x = k ∨ owner x) (log ++ [.acquired k]) := by
  intro x
  refine ⟨fun hx hordered => (h x).1 hx hordered.of_append, fun hx => ?_⟩
  obtain ⟨hordered, hheld⟩ := (h x).2 hx
  have hlog : log ++ [.acquired k] = log ++ uses [k] [] := rfl
  rw [hlog]
  by_cases hk : x = k
  · subst hk
    have hacquired := hordered.acquire (fun hin => hfree (hheld.mp hin)) List.count_singleton_self
      List.not_mem_nil
    exact ⟨hacquired.1, iff_of_true hacquired.2 (.inl rfl)⟩
  · have hother : x ∉ [k] := fun hin => hk (List.mem_singleton.mp hin)
    rw [orderly_append_of_notMem hother List.not_mem_nil,
      held_append_of_notMem hother List.not_mem_nil]
    exact ⟨hordered, hheld.trans (or_iff_right hk).symm⟩

/-- The owner of a handle gives it up. -/
theorem Tracks.release (h : Tracks spoiled owner log) (howned : owner k) :
    Tracks spoiled (fun x => x ≠ k ∧ owner x) (log ++ [.released k]) := by
  intro x
  refine ⟨fun hx hordered => (h x).1 hx hordered.of_append, fun hx => ?_⟩
  obtain ⟨hordered, hheld⟩ := (h x).2 hx
  have hlog : log ++ [.released k] = log ++ uses [] [k] := rfl
  rw [hlog]
  by_cases hk : x = k
  · subst hk
    have hreleased := hordered.release (hheld.mpr howned) List.not_mem_nil List.count_singleton_self
    exact ⟨hreleased.1, iff_of_false hreleased.2 fun hstill => hstill.1 rfl⟩
  · have hother : x ∉ [k] := fun hin => hk (List.mem_singleton.mp hin)
    rw [orderly_append_of_notMem List.not_mem_nil hother,
      held_append_of_notMem List.not_mem_nil hother]
    exact ⟨hordered, hheld.trans (and_iff_right hk).symm⟩

/-- **A handle without an owner is released**: this one is spoiled. -/
theorem Tracks.spoil (h : Tracks spoiled owner log) (hfree : ¬ owner k) :
    Tracks (fun x => x = k ∨ spoiled x) owner (log ++ [.released k]) := by
  intro x
  have hlog : log ++ [.released k] = log ++ uses [] [k] := rfl
  rw [hlog]
  by_cases hk : x = k
  · subst hk
    refine ⟨fun _ => ?_, fun hnot => absurd (.inl rfl) hnot⟩
    by_cases hx : spoiled x
    · exact fun hordered => (h x).1 hx hordered.of_append
    -- it was in order, but nobody held it
    · exact not_orderly_release (fun hin => hfree (((h x).2 hx).2.mp hin)) List.not_mem_nil
        (List.mem_singleton_self x)
  · have hother : x ∉ [k] := fun hin => hk (List.mem_singleton.mp hin)
    rw [orderly_append_of_notMem List.not_mem_nil hother,
      held_append_of_notMem List.not_mem_nil hother]
    exact ⟨fun hx => (h x).1 (hx.resolve_left hk), fun hx => (h x).2 fun hs => hx (.inr hs)⟩

end
end Handles
