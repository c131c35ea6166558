import Mathlib.Data.List.Perm.Basic
import Mathlib.Order.Lattice

/-!
# Sorting with ties

A query sorts its rows by a key, the greatest first, and leaves open in which order rows with equal
keys come (`Sorts`). With a limit this also leaves open which of them are returned.

All these results begin with the newest elements of a list in which the keys increase, and show them
alike, exactly when no element of that front shares its key with one that looks different
(`forall_sorts_take_map_iff`).
-/

namespace OrderBy

variable {α β κ : Type*} [LinearOrder κ] {key : α → κ} {l sorted : List α}

/-- `sorted` is a result of sorting `l`, the greatest keys first. -/
structure Sorts (key : α → κ) (l sorted : List α) : Prop where
  perm : sorted.Perm l
  descending : sorted.Pairwise fun a b => key b ≤ key a

theorem pairwise_keys_iff : (l.Pairwise fun a b => key b ≤ key a) ↔
    (l.map key).Pairwise fun a b => b ≤ a := by
  rw [List.pairwise_map]

/-- Sorting decides the keys at every position. -/
theorem Sorts.map_key {sorted' : List α} (h : Sorts key l sorted) (h' : Sorts key l sorted') :
    sorted.map key = sorted'.map key := by
  have hperm : (sorted.map key).Perm (sorted'.map key) := (h.perm.trans h'.perm.symm).map key
  have hle := pairwise_keys_iff.mp h.descending
  have hle' := pairwise_keys_iff.mp h'.descending
  exact hperm.eq_of_pairwise (fun a b _ _ hab hba => le_antisymm hba hab) hle hle'

/-- The newest first: one result of sorting a list in which the keys increase. -/
theorem sorts_reverse (hl : l.Pairwise fun a b => key a ≤ key b) : Sorts key l l.reverse where
  perm := List.reverse_perm l
  descending := List.pairwise_reverse.mpr hl

/-- Two elements with equal keys may change places. -/
theorem Sorts.swap (h : Sorts key l sorted) {i j : Nat} (hi : i < sorted.length)
    (hj : j < sorted.length) (hkey : key sorted[i] = key sorted[j]) :
    Sorts key l ((sorted.set i sorted[j]).set j sorted[i]) where
  perm := (List.set_set_perm hi hj).trans h.perm
  descending := by
    have hmap : ((sorted.set i sorted[j]).set j sorted[i]).map key = sorted.map key := by
      have hi' : (sorted.map key).set i (key sorted[j]) = sorted.map key := by
        rw [← hkey, ← List.map_set, List.set_getElem_self]
      rw [List.map_set, List.map_set, hi', hkey, ← List.map_set, List.set_getElem_self]
    rw [pairwise_keys_iff, hmap]
    exact pairwise_keys_iff.mp h.descending

/-- **Which results are determined.** `f` is how a result shows an element, and `g` how it
should. -/
theorem forall_sorts_take_map_iff (hl : l.Pairwise fun a b => key a ≤ key b) (k : Nat)
    (f g : α → β) :
    (∀ sorted, Sorts key l sorted → (sorted.take k).map f = (l.reverse.take k).map g) ↔
      ∀ a ∈ l.reverse.take k, ∀ b ∈ l, key b = key a → f b = g a := by
  have hnewest := sorts_reverse hl
  constructor
  · intro h a ha b hb hkey
    obtain ⟨i, hi, rfl⟩ := List.mem_iff_getElem.mp ha
    obtain ⟨j, hj, rfl⟩ := List.mem_iff_getElem.mp (List.mem_reverse.mpr hb)
    rw [List.getElem_take] at hkey ⊢
    have hik : i < k ∧ i < l.reverse.length := by
      rw [List.length_take] at hi
      omega
    -- the result in which `b` has come to the place of `a`
    have hswapped := h _ (hnewest.swap hj hik.2 hkey)
    have hat := congrArg (·[i]?) hswapped
    simp only [List.getElem?_map, List.getElem?_take, if_pos hik.1] at hat
    rw [List.getElem?_set_self (by simpa using hik.2), List.getElem?_eq_getElem hik.2] at hat
    exact Option.some.inj hat
  · intro h sorted hsorted
    refine List.ext_getElem? fun i => ?_
    rw [List.getElem?_map, List.getElem?_map, List.getElem?_take, List.getElem?_take]
    by_cases hik : i < k
    · rw [if_pos hik, if_pos hik]
      have hkeys := congrArg (·[i]?) (hsorted.map_key hnewest)
      simp only [List.getElem?_map] at hkeys
      cases hb : sorted[i]? with
      | none =>
        rw [hb] at hkeys
        rw [Option.map_none, eq_comm, Option.map_eq_none_iff] at hkeys ⊢
        exact hkeys
      | some b =>
        rw [hb, Option.map_some] at hkeys
        obtain ⟨a, ha, hkey⟩ := Option.map_eq_some_iff.mp hkeys.symm
        rw [ha, Option.map_some, Option.map_some]
        have hfront : a ∈ l.reverse.take k := by
          refine List.mem_iff_getElem?.mpr ⟨i, ?_⟩
          rw [List.getElem?_take, if_pos hik, ha]
        have hin : b ∈ l := hsorted.perm.mem_iff.mp (List.mem_of_getElem? hb)
        rw [h a hfront b hin hkey.symm]
    · rw [if_neg hik, if_neg hik]
      rfl

end OrderBy
