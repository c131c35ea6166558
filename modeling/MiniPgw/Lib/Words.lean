import Mathlib.Data.List.Basic

/-!
# Lists that commute

Two lists satisfy `u ++ v = v ++ u` exactly when both are repetitions of one list
(`commute_iff_repetitions`). The proof cuts the shorter list off the front of the longer one, as
in Euclid's algorithm.
-/

namespace Words

variable {α : Type*}

/-- `n` copies of the list `z`, one after the other. -/
def repeated (n : Nat) (z : List α) : List α :=
  (List.replicate n z).flatten

theorem repeated_add (m n : Nat) (z : List α) :
    repeated (m + n) z = repeated m z ++ repeated n z := by
  rw [repeated, List.replicate_add, List.flatten_append]
  rfl

theorem repeated_commute (m n : Nat) (z : List α) :
    repeated m z ++ repeated n z = repeated n z ++ repeated m z := by
  rw [← repeated_add, ← repeated_add, Nat.add_comm]

/-- Commuting lists are repetitions of one list. Induction on the total length: the shorter list
is a prefix of the longer, and what is left of the longer still commutes with it. -/
theorem repetitions_of_commute (n : Nat) :
    ∀ u v : List α, u.length + v.length ≤ n → u ++ v = v ++ u →
      ∃ z i j, u = repeated i z ∧ v = repeated j z := by
  induction n with
  | zero =>
    intro u v hlen _
    have hu : u = [] := List.length_eq_zero_iff.mp (by omega)
    have hv : v = [] := List.length_eq_zero_iff.mp (by omega)
    exact ⟨[], 0, 0, by simp [repeated, hu], by simp [repeated, hv]⟩
  | succ n ih =>
    intro u v hlen hcomm
    -- an empty list is no copies of the other one
    by_cases hu : u = []
    · exact ⟨v, 0, 1, by simp [repeated, hu], by simp [repeated]⟩
    by_cases hv : v = []
    · exact ⟨u, 1, 0, by simp [repeated], by simp [repeated, hv]⟩
    have hupos : 0 < u.length := List.length_pos_iff.mpr hu
    have hvpos : 0 < v.length := List.length_pos_iff.mpr hv
    rcases Nat.le_total u.length v.length with hle | hle
    · have hpre : u <+: v := List.prefix_of_prefix_length_le
        (hcomm ▸ List.prefix_append u v) (List.prefix_append v u) hle
      obtain ⟨r, rfl⟩ := hpre
      have hr : u ++ r = r ++ u := by
        rw [List.append_assoc] at hcomm
        exact List.append_cancel_left hcomm
      obtain ⟨z, i, j, hi, hj⟩ := ih u r (by simp at hlen; omega) hr
      exact ⟨z, i, i + j, hi, by rw [repeated_add, ← hi, ← hj]⟩
    · have hpre : v <+: u := List.prefix_of_prefix_length_le
        (hcomm ▸ List.prefix_append v u) (List.prefix_append u v) hle
      obtain ⟨r, rfl⟩ := hpre
      have hr : r ++ v = v ++ r := by
        rw [List.append_assoc] at hcomm
        exact List.append_cancel_left hcomm
      obtain ⟨z, i, j, hi, hj⟩ := ih r v (by simp at hlen; omega) hr
      exact ⟨z, j + i, j, by rw [repeated_add, ← hi, ← hj], hj⟩

/-- **Two lists commute exactly when both repeat one list.** -/
theorem commute_iff_repetitions (u v : List α) :
    u ++ v = v ++ u ↔ ∃ z i j, u = repeated i z ∧ v = repeated j z := by
  constructor
  · exact repetitions_of_commute (u.length + v.length) u v (Nat.le_refl _)
  · rintro ⟨z, i, j, rfl, rfl⟩
    exact repeated_commute i j z

end Words
