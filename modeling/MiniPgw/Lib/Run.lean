import Mathlib.Algebra.BigOperators.Group.List.Basic

/-!
# Runs of partial step functions

A system is a function `step : σ → ι → Option σ`: the state after the input `i`, or `none` when
`i` cannot happen in that state. `exec step s is` feeds a list of inputs. The rules here are the
ones every model of this development uses for a property of whole runs:

* **`exec_invariant`** — what every step preserves holds at the end of a run;
* **`Along`** — a condition on every step that a run takes, and
  **`exec_invariant_along`**, the invariant rule under such a condition;
* **`exec_invariant_history`** — the same for an invariant that speaks of the inputs so far;
* **`exec_foldl`** — an invariant with a summary of the inputs that every step brings up to date;
* **`prefixes_iff_along`** — the invariant holds throughout a run exactly when the condition does;
* **`exec_sum`** — a quantity that every step changes by a known amount changes by the sum;
* **`exec_simulation`** — if every step is a run of another system, so is every run, also under a
  condition on the steps (`exec_simulation_along`);
* **`exec_trace`** — the same with the matching run named: the `trace` of the run;
* **`exec_map`** — a projection that commutes with every step commutes with every run;
* **`after_stays`** — the invariant rule over an unending stream of inputs, from any moment on;
* **`exec_filter_cons`** — the next step of a script that runs among steps of others.
-/

namespace Run

variable {σ ι : Type*} {step : σ → ι → Option σ}

/-- The state after the inputs `is`, in order; `none` when one of them cannot happen. -/
def exec (step : σ → ι → Option σ) : σ → List ι → Option σ
  | s, [] => some s
  | s, i :: is => (step s i).bind fun t => exec step t is

@[simp] theorem exec_nil (s : σ) : exec step s [] = some s := rfl

/-- The first input of a run is one step; the rest is a run from where it leads. -/
theorem exec_cons_eq_some {s t : σ} {i : ι} {is : List ι} :
    exec step s (i :: is) = some t ↔ ∃ u, step s i = some u ∧ exec step u is = some t :=
  Option.bind_eq_some_iff

/-- A run over `is ++ js` passes through the state after `is`. -/
theorem exec_append_eq_some {s t : σ} {is js : List ι} :
    exec step s (is ++ js) = some t ↔ ∃ u, exec step s is = some u ∧ exec step u js = some t := by
  induction is generalizing s with
  | nil => simp
  | cons i is ih =>
    rw [List.cons_append, exec_cons_eq_some]
    constructor
    · rintro ⟨v, hv, hrest⟩
      obtain ⟨u, hu, hjs⟩ := ih.mp hrest
      exact ⟨u, exec_cons_eq_some.mpr ⟨v, hv, hu⟩, hjs⟩
    · rintro ⟨u, hu, hjs⟩
      obtain ⟨v, hv, hrest⟩ := exec_cons_eq_some.mp hu
      exact ⟨v, hv, ih.mpr ⟨u, hrest, hjs⟩⟩

/-- One step is a run. -/
theorem exec_singleton {s t : σ} {i : ι} (hstep : step s i = some t) : exec step s [i] = some t :=
  exec_cons_eq_some.mpr ⟨t, hstep, rfl⟩

/-- A run and one more step. -/
theorem exec_concat {s t u : σ} {i : ι} {is : List ι} (hrun : exec step s is = some t)
    (hstep : step t i = some u) : exec step s (is ++ [i]) = some u :=
  exec_append_eq_some.mpr ⟨t, hrun, exec_singleton hstep⟩

/-- A system that can always go on. -/
theorem exec_some_eq_foldl (f : σ → ι → σ) (is : List ι) :
    ∀ s, exec (fun s i => some (f s i)) s is = some (is.foldl f s) := by
  induction is with
  | nil => exact fun _ => rfl
  | cons i is ih => exact fun s => ih (f s i)

/-- A run passes through the state after every prefix of its inputs. -/
theorem exec_prefix {s t : σ} {pre is : List ι} (hpre : pre <+: is)
    (hrun : exec step s is = some t) : ∃ u, exec step s pre = some u := by
  obtain ⟨post, rfl⟩ := hpre
  obtain ⟨u, hu, -⟩ := exec_append_eq_some.mp hrun
  exact ⟨u, hu⟩

/-! ## Streams of inputs

An endless sequence of inputs, of which a run takes the first `n`. This is how a system that never
ends is spoken of. -/

/-- The state after the first `n` inputs of a stream; `none` when one of them cannot happen. -/
def after (step : σ → ι → Option σ) (s : σ) (inputs : Nat → ι) (n : Nat) : Option σ :=
  exec step s ((List.range n).map inputs)

theorem after_succ {s t : σ} {inputs : Nat → ι} {n : Nat} :
    after step s inputs (n + 1) = some t ↔
      ∃ u, after step s inputs n = some u ∧ step u (inputs n) = some t := by
  rw [after, List.range_succ, List.map_append, exec_append_eq_some]
  constructor
  · rintro ⟨u, hu, hstep⟩
    obtain ⟨v, hv, hnil⟩ := exec_cons_eq_some.mp hstep
    cases hnil
    exact ⟨u, hu, hv⟩
  · rintro ⟨u, hu, hstep⟩
    exact ⟨u, hu, exec_singleton hstep⟩

/-- What is kept from some moment on is there at every later moment. -/
theorem after_stays {Inv : σ → Prop} (hstep : ∀ s i t, Inv s → step s i = some t → Inv t)
    {s u : σ} {inputs : Nat → ι} {m : Nat} (hu : after step s inputs m = some u) (hinv : Inv u)
    (k : Nat) : ∀ t, after step s inputs (m + k) = some t → Inv t := by
  induction k with
  | zero =>
    intro t ht
    cases hu.symm.trans ht
    exact hinv
  | succ k ih =>
    intro t ht
    obtain ⟨v, hv, hlast⟩ := after_succ.mp ht
    exact hstep v _ t (ih v hv) hlast

/-- A run passes through every earlier moment. -/
theorem after_le {s t : σ} {inputs : Nat → ι} {m : Nat} (k : Nat)
    (ht : after step s inputs (m + k) = some t) : ∃ u, after step s inputs m = some u := by
  induction k generalizing t with
  | zero => exact ⟨t, ht⟩
  | succ k ih =>
    obtain ⟨v, hv, -⟩ := after_succ.mp ht
    exact ih hv

/-! ## Scripts among other inputs

A fixed sequence of inputs that others may interrupt. -/

/-- **The script rule.** The inputs selected by `p` are a script that runs among other inputs: the
run first takes inputs that are not of the script, then the first one of it. -/
theorem exec_filter_cons {p : ι → Bool} {s t : σ} {i : ι} {is js : List ι}
    (hscript : is.filter p = i :: js) (hrun : exec step s is = some t) :
    ∃ others rest u v, is = others ++ i :: rest ∧ (∀ j ∈ others, p j = false) ∧
      exec step s others = some u ∧ step u i = some v ∧ exec step v rest = some t ∧
      rest.filter p = js := by
  obtain ⟨others, rest, rfl, hothers, -, hrest⟩ := List.filter_eq_cons_iff.mp hscript
  obtain ⟨u, hu, htail⟩ := exec_append_eq_some.mp hrun
  obtain ⟨v, hv, hend⟩ := exec_cons_eq_some.mp htail
  exact ⟨others, rest, u, v, rfl, fun j hj => by simpa using hothers j hj, hu, hv, hend, hrest⟩

/-! ## Invariants

The inductions over a run, each stated once. They differ in what the invariant may depend on:
nothing, a counter, a summary of the inputs, the inputs themselves, or a condition that the steps
satisfy. -/

/-- **The invariant rule.** What holds at the start and is kept by every step holds at the end. -/
theorem exec_invariant {Inv : σ → Prop} (hstep : ∀ s i t, Inv s → step s i = some t → Inv t)
    {s t : σ} {is : List ι} (hs : Inv s) (hrun : exec step s is = some t) : Inv t := by
  induction is generalizing s with
  | nil =>
    cases hrun
    exact hs
  | cons i is ih =>
    obtain ⟨u, hu, hrest⟩ := exec_cons_eq_some.mp hrun
    exact ih (hstep s i u hs hu) hrest

/-- **The invariant rule with a counter.** If every step moves the counter of the invariant on by
its gain, a run moves it on by the sum of its gains. -/
theorem exec_invariant_sum {M : Type*} [AddMonoid M] {Inv : M → σ → Prop} {gain : ι → M}
    (hstep : ∀ n s i t, Inv n s → step s i = some t → Inv (n + gain i) t)
    {n : M} {s t : σ} {is : List ι} (hs : Inv n s) (hrun : exec step s is = some t) :
    Inv (n + (is.map gain).sum) t := by
  induction is generalizing n s with
  | nil =>
    cases hrun
    simpa using hs
  | cons i is ih =>
    obtain ⟨u, hu, hrest⟩ := exec_cons_eq_some.mp hrun
    rw [List.map_cons, List.sum_cons, ← add_assoc]
    exact ih (hstep n s i u hs hu) hrest

/-- **The invariant rule with a summary of the inputs.** If every step does to the summary of the
invariant what `f` does, a run does to it what folding `f` does. -/
theorem exec_foldl {τ : Type*} {f : τ → ι → τ} {Inv : τ → σ → Prop}
    (hstep : ∀ a s i t, Inv a s → step s i = some t → Inv (f a i) t)
    {a : τ} {s t : σ} {is : List ι} (hs : Inv a s) (hrun : exec step s is = some t) :
    Inv (is.foldl f a) t := by
  induction is generalizing a s with
  | nil =>
    cases hrun
    exact hs
  | cons i is ih =>
    obtain ⟨u, hu, hrest⟩ := exec_cons_eq_some.mp hrun
    exact ih (hstep a s i u hs hu) hrest

/-- `P` holds of every step that the run over `is` takes from `s`. -/
def Along (step : σ → ι → Option σ) (P : σ → ι → Prop) : σ → List ι → Prop
  | _, [] => True
  | s, i :: is => P s i ∧ ∀ t, step s i = some t → Along step P t is

/-- A condition that can be tested can be tested along a run. -/
instance decidableAlong {P : σ → ι → Prop} [∀ s i, Decidable (P s i)] :
    ∀ (is : List ι) (s : σ), Decidable (Along step P s is)
  | [], _ => isTrue trivial
  | i :: is, s =>
    haveI (t : σ) : Decidable (Along step P t is) := decidableAlong is t
    inferInstanceAs (Decidable (P s i ∧ ∀ t ∈ step s i, Along step P t is))

/-- A condition on all inputs is in particular a condition along every run. -/
theorem along_of_forall {P : σ → ι → Prop} {is : List ι} (h : ∀ i ∈ is, ∀ s, P s i) :
    ∀ s, Along step P s is := by
  induction is with
  | nil => exact fun _ => trivial
  | cons i is ih =>
    intro s
    refine ⟨h i (by simp) s, fun t _ => ih (fun j hj => h j (by simp [hj])) t⟩

/-- A condition holds along a run if it holds at every step of it. -/
theorem along_of_steps {P : σ → ι → Prop} {is : List ι} :
    ∀ {s t : σ}, exec step s is = some t →
      (∀ pre i post u v, is = pre ++ i :: post → exec step s pre = some u → step u i = some v →
        exec step v post = some t → P u i) →
      Along step P s is := by
  induction is with
  | nil => exact fun _ _ => trivial
  | cons i is ih =>
    intro s t hrun h
    obtain ⟨v, hv, hrest⟩ := exec_cons_eq_some.mp hrun
    refine ⟨h [] i is s v rfl rfl hv hrest, fun v' hv' => ?_⟩
    obtain rfl : v' = v := Option.some.inj (hv'.symm.trans hv)
    refine ih hrest fun pre j post u w his hu hw hpost => ?_
    exact h (i :: pre) j post u w (by rw [his]; rfl) (exec_cons_eq_some.mpr ⟨v', hv, hu⟩) hw hpost

/-- A condition along a run is one along the run over a prefix. -/
theorem Along.front {P : σ → ι → Prop} {is pre : List ι} (hpre : pre <+: is) :
    ∀ {s : σ}, Along step P s is → Along step P s pre := by
  obtain ⟨post, rfl⟩ := hpre
  induction pre with
  | nil => exact fun _ => trivial
  | cons i pre ih => exact fun h => ⟨h.1, fun t ht => ih (h.2 t ht)⟩

theorem Along.and {P Q : σ → ι → Prop} {is : List ι} :
    ∀ {s : σ}, Along step P s is → Along step Q s is →
      Along step (fun s i => P s i ∧ Q s i) s is := by
  induction is with
  | nil => exact fun _ _ => trivial
  | cons i is ih => exact fun hp hq => ⟨⟨hp.1, hq.1⟩, fun t ht => ih (hp.2 t ht) (hq.2 t ht)⟩

/-- Two conditions that agree in the states of an invariant agree along every run. -/
theorem along_congr {Inv : σ → Prop} {P Q : σ → ι → Prop}
    (hstep : ∀ s i t, Inv s → step s i = some t → Inv t) (hPQ : ∀ s i, Inv s → (P s i ↔ Q s i))
    {is : List ι} : ∀ {s : σ}, Inv s → (Along step P s is ↔ Along step Q s is) := by
  induction is with
  | nil => exact fun _ => Iff.rfl
  | cons i is ih =>
    intro s hs
    refine and_congr (hPQ s i hs) (forall_congr' fun t => ?_)
    exact imp_congr_right fun ht => ih (hstep s i t hs ht)

/-- **The invariant rule under a condition on the steps.** -/
theorem exec_invariant_along {Inv : σ → Prop} {P : σ → ι → Prop}
    (hstep : ∀ s i t, Inv s → P s i → step s i = some t → Inv t)
    {s t : σ} {is : List ι} (hs : Inv s) (hal : Along step P s is)
    (hrun : exec step s is = some t) : Inv t := by
  induction is generalizing s with
  | nil =>
    cases hrun
    exact hs
  | cons i is ih =>
    obtain ⟨u, hu, hrest⟩ := exec_cons_eq_some.mp hrun
    exact ih (hstep s i u hs hal.1 hu) (hal.2 u hu) hrest

/-- **The invariant rule with a history.** The invariant may relate the state to the inputs so
far. -/
theorem exec_invariant_history {Inv : List ι → σ → Prop} {P : σ → ι → Prop}
    (hstep : ∀ done s i t, Inv done s → P s i → step s i = some t → Inv (done ++ [i]) t)
    {done : List ι} {s t : σ} {is : List ι} (hs : Inv done s) (hal : Along step P s is)
    (hrun : exec step s is = some t) : Inv (done ++ is) t := by
  induction is generalizing done s with
  | nil =>
    cases hrun
    rw [List.append_nil]
    exact hs
  | cons i is ih =>
    obtain ⟨u, hu, hrest⟩ := exec_cons_eq_some.mp hrun
    have hend := ih (hstep done s i u hs hal.1 hu) (hal.2 u hu) hrest
    rw [List.append_assoc] at hend
    exact hend

/-- **The exact invariant rule.** Steps that satisfy `P` keep an invariant under which `Q` holds,
and a step from the invariant into a state with `Q` satisfies `P`. Then `Q` holds in all states of
a run exactly when `P` holds along it. -/
theorem prefixes_iff_along {Inv Q : σ → Prop} {P : σ → ι → Prop} {is : List ι}
    (hkeep : ∀ s, ∀ i ∈ is, ∀ t, Inv s → P s i → step s i = some t → Inv t)
    (hsafe : ∀ s, Inv s → Q s)
    (hexact : ∀ s, ∀ i ∈ is, ∀ t, Inv s → step s i = some t → Q t → P s i) {s t : σ}
    (hs : Inv s) (hrun : exec step s is = some t) :
    (∀ pre u, pre <+: is → exec step s pre = some u → Q u) ↔ Along step P s is := by
  induction is generalizing s with
  | nil =>
    refine iff_of_true (fun pre u hpre hu => ?_) trivial
    rw [List.prefix_nil.mp hpre] at hu
    cases hu
    exact hsafe s hs
  | cons i is ih =>
    obtain ⟨v, hv, hrest⟩ := exec_cons_eq_some.mp hrun
    have ih' := fun hv' => ih (fun s j hj => hkeep s j (List.mem_cons_of_mem _ hj))
      (fun s j hj => hexact s j (List.mem_cons_of_mem _ hj)) (s := v) hv' hrest
    -- to the right: the invariant is carried by `P` so far, and the next state has `Q`
    constructor
    · intro hQ
      have hfirst : P s i := by
        refine hexact s i List.mem_cons_self v hs hv (hQ [i] v ⟨is, rfl⟩ (exec_singleton hv))
      refine ⟨hfirst, fun v' hv' => ?_⟩
      obtain rfl : v' = v := Option.some.inj (hv'.symm.trans hv)
      refine (ih' (hkeep s i List.mem_cons_self v' hs hfirst hv)).mp fun pre u hpre hu => ?_
      exact hQ (i :: pre) u ((List.prefix_cons_inj i).mpr hpre) (exec_cons_eq_some.mpr ⟨v', hv, hu⟩)
    · -- to the left: a state of the run is the first one, or one behind the first step
      rintro ⟨hfirst, hlater⟩ pre u hpre hu
      have hQ := (ih' (hkeep s i List.mem_cons_self v hs hfirst hv)).mpr (hlater v hv)
      cases pre with
      | nil =>
        cases hu
        exact hsafe s hs
      | cons j pre =>
        obtain ⟨rfl, hpre'⟩ := List.cons_prefix_cons.mp hpre
        obtain ⟨v', hv', hu'⟩ := exec_cons_eq_some.mp hu
        obtain rfl : v' = v := Option.some.inj (hv'.symm.trans hv)
        exact hQ pre u hpre' hu'

/-- A system whose steps are always possible in states that satisfy an invariant has every run. -/
theorem exec_total {Inv : σ → Prop} (hstep : ∀ s i, Inv s → ∃ t, step s i = some t ∧ Inv t)
    (is : List ι) : ∀ {s : σ}, Inv s → ∃ t, exec step s is = some t ∧ Inv t := by
  induction is with
  | nil => exact fun {s} hs => ⟨s, rfl, hs⟩
  | cons i is ih =>
    intro s hs
    obtain ⟨u, hu, hinv⟩ := hstep s i hs
    obtain ⟨t, ht, hend⟩ := ih hinv
    exact ⟨t, exec_cons_eq_some.mpr ⟨u, hu, ht⟩, hend⟩

/-! ## Simulations

A relation between the states of two systems that every step keeps, possibly with several steps on
the other side. `trace` collects what an observer sees of the steps. -/

/-- **The simulation rule under a condition on the steps.** If every step that satisfies `P` is
matched from related states by a run of the other system that ends in related states, then so is
every run whose steps all satisfy `P`. -/
theorem exec_simulation_along {τ κ : Type*} {step' : τ → κ → Option τ} {R : σ → τ → Prop}
    {P : σ → ι → Prop}
    (hstep : ∀ s t i s', R s t → P s i → step s i = some s' →
      ∃ js t', exec step' t js = some t' ∧ R s' t')
    {s s' : σ} {t : τ} {is : List ι} (hst : R s t) (hal : Along step P s is)
    (hrun : exec step s is = some s') :
    ∃ js t', exec step' t js = some t' ∧ R s' t' := by
  induction is generalizing s t with
  | nil =>
    cases hrun
    exact ⟨[], t, rfl, hst⟩
  | cons i is ih =>
    obtain ⟨u, hu, hrest⟩ := exec_cons_eq_some.mp hrun
    obtain ⟨js, v, hv, huv⟩ := hstep s t i u hst hal.1 hu
    obtain ⟨ks, t', ht', hend⟩ := ih huv (hal.2 u hu) hrest
    exact ⟨js ++ ks, t', exec_append_eq_some.mpr ⟨v, hv, ht'⟩, hend⟩

/-- **The simulation rule.** If every step from related states is matched by a run of the other
system that ends in related states, then so is every run. -/
theorem exec_simulation {τ κ : Type*} {step' : τ → κ → Option τ} {R : σ → τ → Prop}
    (hstep : ∀ s t i s', R s t → step s i = some s' →
      ∃ js t', exec step' t js = some t' ∧ R s' t')
    {s s' : σ} {t : τ} {is : List ι} (hst : R s t) (hrun : exec step s is = some s') :
    ∃ js t', exec step' t js = some t' ∧ R s' t' :=
  exec_simulation_along (P := fun _ _ => True) (fun s t i s' h _ => hstep s t i s' h) hst
    (along_of_forall (fun _ _ _ => trivial) s) hrun

/-- What the steps of a run look like to an observer, in order. -/
def trace {κ : Type*} (step : σ → ι → Option σ) (observe : σ → ι → List κ) : σ → List ι → List κ
  | _, [] => []
  | s, i :: is =>
    observe s i ++ match step s i with
      | some t => trace step observe t is
      | none => []

theorem trace_cons {κ : Type*} {observe : σ → ι → List κ} {s t : σ} {i : ι} {is : List ι}
    (hstep : step s i = some t) :
    trace step observe s (i :: is) = observe s i ++ trace step observe t is := by
  rw [trace, hstep]

/-- What holds of everything observed in a run holds of what each of its steps shows. -/
theorem along_of_trace {κ : Type*} {observe : σ → ι → List κ} {Q : κ → Prop} {is : List ι} :
    ∀ {s : σ}, (∀ k ∈ trace step observe s is, Q k) →
      Along step (fun s i => ∀ k ∈ observe s i, Q k) s is := by
  induction is with
  | nil => exact fun _ => trivial
  | cons i is ih =>
    intro s h
    refine ⟨fun k hk => h k ?_, fun t ht => ih fun k hk => h k ?_⟩
    · rw [trace]
      exact List.mem_append_left _ hk
    · rw [trace_cons ht]
      exact List.mem_append_right _ hk

/-- **The refinement rule.** If what every step shows is a run of another system between the
projections of the states, so is what a whole run shows. -/
theorem exec_trace {τ κ : Type*} {step' : τ → κ → Option τ} {φ : σ → τ}
    {observe : σ → ι → List κ}
    (hstep : ∀ s i t, step s i = some t → exec step' (φ s) (observe s i) = some (φ t))
    {s t : σ} {is : List ι} (hrun : exec step s is = some t) :
    exec step' (φ s) (trace step observe s is) = some (φ t) := by
  induction is generalizing s with
  | nil =>
    cases hrun
    rfl
  | cons i is ih =>
    obtain ⟨u, hu, hrest⟩ := exec_cons_eq_some.mp hrun
    rw [trace_cons hu]
    exact exec_append_eq_some.mpr ⟨φ u, hstep s i u hu, ih hrest⟩

/-- A condition along a run, in two parts. -/
theorem along_append {P : σ → ι → Prop} {is js : List ι} :
    ∀ {s t : σ}, exec step s is = some t → Along step P s is → Along step P t js →
      Along step P s (is ++ js) := by
  induction is with
  | nil =>
    intro s t hrun _ hjs
    cases hrun
    exact hjs
  | cons i is ih =>
    intro s t hrun his hjs
    obtain ⟨u, hu, hrest⟩ := exec_cons_eq_some.mp hrun
    refine ⟨his.1, fun u' hu' => ?_⟩
    obtain rfl : u' = u := Option.some.inj (hu'.symm.trans hu)
    exact ih hrest (his.2 u' hu') hjs

/-- **The refinement rule for conditions.** If a condition holds along what every step shows, from
the states of an invariant, it holds along what a whole run shows. -/
theorem along_trace {τ κ : Type*} {step' : τ → κ → Option τ} {φ : σ → τ}
    {observe : σ → ι → List κ} {Inv : σ → Prop} {P : σ → ι → Prop} {Q : τ → κ → Prop}
    (hstep : ∀ s i t, Inv s → P s i → step s i = some t →
      Inv t ∧ exec step' (φ s) (observe s i) = some (φ t) ∧
        Along step' Q (φ s) (observe s i))
    {s t : σ} {is : List ι} (hs : Inv s) (hal : Along step P s is)
    (hrun : exec step s is = some t) : Along step' Q (φ s) (trace step observe s is) := by
  induction is generalizing s with
  | nil => exact trivial
  | cons i is ih =>
    obtain ⟨u, hu, hrest⟩ := exec_cons_eq_some.mp hrun
    obtain ⟨hinv, hexec, halong⟩ := hstep s i u hs hal.1 hu
    rw [trace_cons hu]
    exact along_append hexec halong (ih hinv (hal.2 u hu) hrest)

/-- **The projection rule.** If a projection of the states commutes with every step, it commutes
with every run, and the projected system has exactly the projected runs. -/
theorem exec_map {τ κ : Type*} {step' : τ → κ → Option τ} (φ : σ → τ) (ψ : ι → κ)
    (hstep : ∀ s i, step' (φ s) (ψ i) = (step s i).map φ) (is : List ι) :
    ∀ s, exec step' (φ s) (is.map ψ) = (exec step s is).map φ := by
  induction is with
  | nil => exact fun _ => rfl
  | cons i is ih =>
    intro s
    rw [List.map_cons, exec, exec, hstep]
    cases step s i with
    | none => rfl
    | some t => exact ih t

/-! ## Quantities that every step changes by a known amount

Sums over a run instead of inequalities along it. -/

/-- **The accounting rule.** If every step that satisfies the invariant adds `gain i` to the
quantity `μ`, a run adds the sum of its gains. -/
theorem exec_sum {M : Type*} [AddCommMonoid M] {Inv : σ → Prop} {P : σ → ι → Prop}
    {μ : σ → M} {gain : ι → M}
    (hinv : ∀ s i t, Inv s → P s i → step s i = some t → Inv t)
    (hstep : ∀ s i t, Inv s → P s i → step s i = some t → μ t = μ s + gain i)
    {s t : σ} {is : List ι} (hs : Inv s) (hal : Along step P s is)
    (hrun : exec step s is = some t) : μ t = μ s + (is.map gain).sum := by
  induction is generalizing s with
  | nil =>
    cases hrun
    simp
  | cons i is ih =>
    obtain ⟨u, hu, hrest⟩ := exec_cons_eq_some.mp hrun
    rw [ih (hinv s i u hs hal.1 hu) (hal.2 u hu) hrest, hstep s i u hs hal.1 hu,
      List.map_cons, List.sum_cons, add_assoc]

end Run
