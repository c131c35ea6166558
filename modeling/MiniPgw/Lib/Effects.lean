import Mathlib.Logic.Basic

/-!
# Computations that may fail and keep the state

`EStateM ε σ` is how code with exceptions treats a mutable object: a failure stops the computation
but does not undo what it has already done to the state. The core library says how `run` goes
through `pure`, `get`, `set`, `modify` and `>>=`; the lemmas here do the same for the other
constructs, so that `simp` evaluates such a computation step by step.

`Ensures x s Q E` is for computations of which only a property of the outcome matters: from `s`,
`x` returns with `Q` or fails with `E`; `Returns x s Q` is that it does not fail. They go through
the constructs in the same way.
-/

namespace Effects

variable {ε σ α : Type}

@[simp] theorem run_ite (c : Prop) [Decidable c] (x y : EStateM ε σ α) (s : σ) :
    EStateM.run (if c then x else y) s = if c then EStateM.run x s else EStateM.run y s := by
  split <;> rfl

@[simp] theorem run_map {β : Type} (f : α → β) (x : EStateM ε σ α) (s : σ) :
    EStateM.run (f <$> x) s =
      match EStateM.run x s with
      | .ok a t => .ok (f a) t
      | .error e t => .error e t := rfl

@[simp] theorem run_throw (e : ε) (s : σ) :
    EStateM.run (throw e : EStateM ε σ α) s = .error e s := rfl

/-- The handler starts in the state the failure left behind. -/
@[simp] theorem run_tryCatch (x : EStateM ε σ α) (h : ε → EStateM ε σ α) (s : σ) :
    EStateM.run (tryCatch x h) s =
      match EStateM.run x s with
      | .ok a t => .ok a t
      | .error e t => EStateM.run (h e) t := by
  show EStateM.tryCatch x h s = _
  delta EStateM.tryCatch EStateM.run
  cases x s <;> rfl

/-- A handler for one kind of failure: the others go past it. -/
def handling [DecidableEq ε] (caught : ε) (body handler : EStateM ε σ α) : EStateM ε σ α :=
  tryCatch body fun e => if e = caught then handler else throw e

/-- A computation on a part of the state. -/
def zoom {τ : Type} (part : σ → τ) (put : τ → σ → σ) (x : EStateM ε τ α) : EStateM ε σ α := do
  let s ← get
  match x.run (part s) with
  | .ok a t => do
    set (put t s)
    pure a
  | .error e t => do
    set (put t s)
    throw e

/-- The rest of the state is as before, also after a failure. -/
@[simp] theorem run_zoom {τ : Type} (part : σ → τ) (put : τ → σ → σ) (x : EStateM ε τ α) (s : σ) :
    EStateM.run (zoom part put x) s =
      match EStateM.run x (part s) with
      | .ok a t => .ok a (put t s)
      | .error e t => .error e (put t s) := by
  cases hrun : EStateM.run x (part s) <;> simp [zoom, hrun]

/-- The state a computation leaves, whether it returned or failed. -/
def finalState : EStateM.Result ε σ α → σ
  | .ok _ s => s
  | .error _ s => s

/-- The last state of a computation that has returned, -/
@[simp] theorem finalState_ok (a : α) (s : σ) :
    finalState (.ok a s : EStateM.Result ε σ α) = s := rfl

/-- and of one that has thrown. -/
@[simp] theorem finalState_error (e : ε) (s : σ) :
    finalState (.error e s : EStateM.Result ε σ α) = s := rfl

/-! ## Postconditions

`Ensures` has one postcondition for the result and one for the exception. The rules below compute it
for each construct, so that a proof follows the text of the program. -/

/-- From the state `s`, `x` returns with the postcondition `Q` or fails with `E`. -/
def Ensures (x : EStateM ε σ α) (s : σ) (Q : α → σ → Prop) (E : ε → σ → Prop) : Prop :=
  match x.run s with
  | .ok a t => Q a t
  | .error e t => E e t

section
variable {β : Type} {Q : α → σ → Prop} {E : ε → σ → Prop} {s : σ}

/-- What is ensured of the outcome is true of it. -/
theorem Ensures.of_run_ok {x : EStateM ε σ α} {a : α} {t : σ} (h : Ensures x s Q E)
    (hrun : x.run s = .ok a t) : Q a t := by
  simpa [Ensures, hrun] using h

/-- The exception that a run has thrown satisfies `E`. -/
theorem Ensures.of_run_error {x : EStateM ε σ α} {e : ε} {t : σ} (h : Ensures x s Q E)
    (hrun : x.run s = .error e t) : E e t := by
  simpa [Ensures, hrun] using h

/-- What is ensured of both outcomes is true of the state that is left. -/
theorem Ensures.finalState {x : EStateM ε σ α} {P : σ → Prop}
    (h : Ensures x s (fun _ t => P t) (fun _ t => P t)) : P (finalState (x.run s)) := by
  unfold Ensures at h
  cases hrun : x.run s with
  | ok a t => simpa [hrun] using h
  | error e t => simpa [hrun] using h

/-- What is true of every outcome is ensured. -/
theorem ensures_of_run {x : EStateM ε σ α} (hQ : ∀ a t, x.run s = .ok a t → Q a t)
    (hE : ∀ e t, x.run s = .error e t → E e t) : Ensures x s Q E := by
  unfold Ensures
  cases hrun : x.run s with
  | ok a t => exact hQ a t hrun
  | error e t => exact hE e t hrun

/-- Both postconditions may be weakened. -/
theorem Ensures.mono {x : EStateM ε σ α} {Q' : α → σ → Prop} {E' : ε → σ → Prop}
    (h : Ensures x s Q E) (hQ : ∀ a t, Q a t → Q' a t) (hE : ∀ e t, E e t → E' e t) :
    Ensures x s Q' E' := by
  unfold Ensures at h ⊢
  cases hrun : x.run s with
  | ok a t => exact hQ a t (by simpa [hrun] using h)
  | error e t => exact hE e t (by simpa [hrun] using h)

@[simp] theorem ensures_pure (a : α) :
    Ensures (pure a : EStateM ε σ α) s Q E ↔ Q a s := Iff.rfl

@[simp] theorem ensures_throw (e : ε) :
    Ensures (throw e : EStateM ε σ α) s Q E ↔ E e s := Iff.rfl

@[simp] theorem ensures_get {Q : σ → σ → Prop} :
    Ensures (get : EStateM ε σ σ) s Q E ↔ Q s s := Iff.rfl

@[simp] theorem ensures_set {Q : PUnit → σ → Prop} (t : σ) :
    Ensures (set t : EStateM ε σ PUnit) s Q E ↔ Q ⟨⟩ t := Iff.rfl

@[simp] theorem ensures_modify {Q : PUnit → σ → Prop} (f : σ → σ) :
    Ensures (modify f : EStateM ε σ PUnit) s Q E ↔ Q ⟨⟩ (f s) := Iff.rfl

/-- The postcondition of the first part is what the second part needs. -/
@[simp] theorem ensures_bind (x : EStateM ε σ α) (f : α → EStateM ε σ β) {Q : β → σ → Prop} :
    Ensures (x >>= f) s Q E ↔ Ensures x s (fun a t => Ensures (f a) t Q E) E := by
  unfold Ensures
  rw [EStateM.run_bind]
  cases x.run s <;> rfl

/-- A postcondition that the second part has wherever it starts. -/
theorem ensures_bind_of_forall {x : EStateM ε σ α} {f : α → EStateM ε σ β} {Q : β → σ → Prop}
    (hf : ∀ a t, Ensures (f a) t Q E) (hE : ∀ e t, E e t) : Ensures (x >>= f) s Q E := by
  rw [ensures_bind]
  unfold Ensures
  cases x.run s with
  | ok a t => exact hf a t
  | error e t => exact hE e t

/-- A pure function after the computation changes the value that it returns. -/
@[simp] theorem ensures_map (f : α → β) (x : EStateM ε σ α) {Q : β → σ → Prop} :
    Ensures (f <$> x) s Q E ↔ Ensures x s (fun a t => Q (f a) t) E := by
  unfold Ensures
  rw [run_map]
  cases x.run s <;> rfl

/-- The condition is decided before anything runs. -/
@[simp] theorem ensures_ite (c : Prop) [Decidable c] (x y : EStateM ε σ α) :
    Ensures (if c then x else y) s Q E ↔ if c then Ensures x s Q E else Ensures y s Q E := by
  split <;> rfl

/-- A handler takes over where the failure left the state. -/
@[simp] theorem ensures_tryCatch (x : EStateM ε σ α) (h : ε → EStateM ε σ α) :
    Ensures (tryCatch x h) s Q E ↔ Ensures x s Q (fun e t => Ensures (h e) t Q E) := by
  unfold Ensures
  rw [run_tryCatch]
  cases x.run s <;> rfl

/-- The handler runs from the state in which `caught` has been thrown; any other exception goes
through. -/
@[simp] theorem ensures_handling [DecidableEq ε] (caught : ε) (body handler : EStateM ε σ α) :
    Ensures (handling caught body handler) s Q E ↔
      Ensures body s Q fun e t => if e = caught then Ensures handler t Q E else E e t := by
  rw [handling, ensures_tryCatch]
  simp only [ensures_ite, ensures_throw]

/-- A computation on a part of the state leaves the rest alone, also when it throws. -/
@[simp] theorem ensures_zoom {τ : Type} (part : σ → τ) (put : τ → σ → σ) (x : EStateM ε τ α) :
    Ensures (zoom part put x) s Q E ↔
      Ensures x (part s) (fun a t => Q a (put t s)) (fun e t => E e (put t s)) := by
  unfold Ensures
  rw [run_zoom]
  cases x.run (part s) <;> rfl

/-- From the state `s`, `x` returns, with the postcondition `Q`. -/
abbrev Returns (x : EStateM ε σ α) (s : σ) (Q : α → σ → Prop) : Prop :=
  Ensures x s Q fun _ _ => False

/-- `Returns` in terms of the run: it comes to a value with `Q`. -/
theorem returns_iff (x : EStateM ε σ α) :
    Returns x s Q ↔ ∃ a t, x.run s = .ok a t ∧ Q a t := by
  unfold Returns Ensures
  cases x.run s with
  | ok a t =>
    refine ⟨fun h => ⟨a, t, rfl, h⟩, ?_⟩
    rintro ⟨_, _, heq, h⟩
    cases heq
    exact h
  | error e t =>
    refine ⟨False.elim, ?_⟩
    rintro ⟨_, _, heq, -⟩
    cases heq

end

/-! ## Invariants

The special case of one predicate before and after, whether the computation returns or throws. It is
closed under everything that composes computations. -/

/-- `x` keeps `I`, whether it returns or fails. -/
def Preserves (I : σ → Prop) (x : EStateM ε σ α) : Prop :=
  ∀ s, I s → Ensures x s (fun _ t => I t) (fun _ t => I t)

section
variable {β τ : Type} {I : σ → Prop}

theorem preserves_pure (a : α) : Preserves I (pure a : EStateM ε σ α) :=
  fun _ h => h

theorem preserves_throw (e : ε) : Preserves I (throw e : EStateM ε σ α) :=
  fun _ h => h

theorem preserves_get : Preserves I (get : EStateM ε σ σ) :=
  fun _ h => h

/-- An update preserves what it preserves of every state. -/
theorem preserves_modify {f : σ → σ} (h : ∀ s, I s → I (f s)) :
    Preserves I (modify f : EStateM ε σ PUnit) :=
  h

/-- Preservation composes, -/
theorem Preserves.bind {x : EStateM ε σ α} {f : α → EStateM ε σ β} (hx : Preserves I x)
    (hf : ∀ a, Preserves I (f a)) : Preserves I (x >>= f) := by
  intro s hs
  rw [ensures_bind]
  exact (hx s hs).mono (fun a t ht => hf a t ht) fun _ _ ht => ht

/-- holds of a choice if it holds of both branches, -/
theorem Preserves.ite {c : Prop} {_ : Decidable c} {x y : EStateM ε σ α} (hx : Preserves I x)
    (hy : Preserves I y) : Preserves I (if c then x else y) := by
  split
  · exact hx
  · exact hy

/-- and of a handler that starts where the exception has left the state. -/
theorem Preserves.tryCatch {x : EStateM ε σ α} {handler : ε → EStateM ε σ α}
    (hx : Preserves I x) (hhandler : ∀ e, Preserves I (handler e)) :
    Preserves I (tryCatch x handler) := by
  intro s hs
  rw [ensures_tryCatch]
  exact (hx s hs).mono (fun _ _ ht => ht) fun e t ht => hhandler e t ht

/-- What a computation on a part keeps of that part. -/
theorem Preserves.zoom {J : τ → Prop} {part : σ → τ} {put : τ → σ → σ} {x : EStateM ε τ α}
    (hput : ∀ t s, part (put t s) = t) (hx : Preserves J x) :
    Preserves (fun s => J (part s)) (Effects.zoom part put x) := by
  intro s hs
  rw [ensures_zoom]
  simpa only [hput] using hx (part s) hs

/-- A computation on a part keeps what does not depend on that part. -/
theorem preserves_zoom_of_put {part : σ → τ} {put : τ → σ → σ} (x : EStateM ε τ α)
    (hput : ∀ t s, I s → I (put t s)) : Preserves I (Effects.zoom part put x) := by
  intro s hs
  rw [ensures_zoom]
  unfold Ensures
  cases x.run (part s) with
  | ok a t => exact hput t s hs
  | error e t => exact hput t s hs

end

end Effects
