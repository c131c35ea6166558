import Mathlib.Logic.Function.Basic
import MiniPgw.Lib.History

/-!
# Components that do not interfere

A family of components, one for every key, each with a state of its own: `step k s i` is what the
component of `k` does in the state `s` with the input `i`, and its answer. A list of keyed inputs
gives every input to the component of its key.

A component sees its own inputs only (`run_component`). So two lists in which every component has
the same inputs in the same order lead to the same states, and every component gives the same
answers (`run_eq_of_inputsOf`).
-/

namespace Interleaving

open History

variable {κ ι ο σ : Type*}

/-- One component by itself: the state it ends in, and its inputs with their answers. -/
def serve (step : σ → ι → σ × ο) : σ → List ι → σ × List (ι × ο)
  | s, [] => (s, [])
  | s, i :: is =>
    let r := step s i
    let rest := serve step r.1 is
    (rest.1, (i, r.2) :: rest.2)

variable [DecidableEq κ]

/-- All components: their states at the end, and the inputs with their answers. -/
def run (step : κ → σ → ι → σ × ο) : (κ → σ) → List (κ × ι) → (κ → σ) × List (κ × ι × ο)
  | s, [] => (s, [])
  | s, (k, i) :: is =>
    let r := step k (s k) i
    let rest := run step (Function.update s k r.1) is
    (rest.1, (k, i, r.2) :: rest.2)

/-- The inputs for the component of `k`. -/
def inputsOf (k : κ) (is : List (κ × ι)) : List ι :=
  (ofKey Prod.fst k is).map Prod.snd

theorem inputsOf_cons_self (k : κ) (i : ι) (is : List (κ × ι)) :
    inputsOf k ((k, i) :: is) = i :: inputsOf k is := by
  simp [inputsOf, ofKey]

theorem inputsOf_cons_ne {k k' : κ} (h : k' ≠ k) (i : ι) (is : List (κ × ι)) :
    inputsOf k ((k', i) :: is) = inputsOf k is := by
  simp [inputsOf, ofKey, h]

/-- **A component sees its own inputs only.** Induction on the inputs. -/
theorem run_component (step : κ → σ → ι → σ × ο) (k : κ) (is : List (κ × ι)) :
    ∀ s : κ → σ, (run step s is).1 k = (serve (step k) (s k) (inputsOf k is)).1 ∧
      ofKey Prod.fst k (run step s is).2
        = (serve (step k) (s k) (inputsOf k is)).2.map fun e => (k, e.1, e.2) := by
  induction is with
  | nil => exact fun _ => ⟨rfl, rfl⟩
  | cons input is ih =>
    intro s
    obtain ⟨k', i⟩ := input
    obtain ⟨hstate, hanswers⟩ := ih (Function.update s k' (step k' (s k') i).1)
    by_cases hk : k' = k
    · subst hk
      rw [Function.update_self] at hstate hanswers
      rw [inputsOf_cons_self]
      refine ⟨hstate, ?_⟩
      -- the input is one of `k`: it is served first
      have hfirst : ofKey Prod.fst k' (run step s ((k', i) :: is)).2
          = (k', i, (step k' (s k') i).2) ::
            ofKey Prod.fst k' (run step (Function.update s k' (step k' (s k') i).1) is).2 := by
        simp [run, ofKey]
      rw [hfirst, hanswers]
      rfl
    · rw [Function.update_of_ne (Ne.symm hk)] at hstate hanswers
      rw [inputsOf_cons_ne hk]
      refine ⟨hstate, ?_⟩
      -- the input is one of another component, and `k` does not see it
      have hskip : ofKey Prod.fst k (run step s ((k', i) :: is)).2
          = ofKey Prod.fst k (run step (Function.update s k' (step k' (s k') i).1) is).2 := by
        simp [run, ofKey, hk]
      rw [hskip, hanswers]

/-- **Interleavings of the same inputs cannot be told apart.** -/
theorem run_eq_of_inputsOf (step : κ → σ → ι → σ × ο) {is js : List (κ × ι)}
    (h : ∀ k, inputsOf k is = inputsOf k js) (s : κ → σ) :
    (run step s is).1 = (run step s js).1 ∧
      ∀ k, ofKey Prod.fst k (run step s is).2 = ofKey Prod.fst k (run step s js).2 := by
  constructor
  · funext k
    rw [(run_component step k is s).1, (run_component step k js s).1, h k]
  · intro k
    rw [(run_component step k is s).2, (run_component step k js s).2, h k]

end Interleaving
