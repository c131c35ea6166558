import MiniPgw.Lib.Run

/-!
# A producer and the consumer that it waits for

A producer puts out elements, and a consumer with steps of its own takes them, in this order and one
after the other. The producer makes its next step when everything it has put out has been taken, so
a call of the consumer is synchronous; everything else that the consumer does may come at any time.
Some steps of the consumer are made by the producer itself, when it has nothing else to do any more.

* **`exec_parts`** — a run of the two is a run of each of them, and what the consumer has taken in
  its run, followed by what is pending, is what the producer has put out in its own;
* **`pending_of_closed`** — nothing is pending once the producer has closed the consumer.
-/

structure Handover (σ α τ β ε : Type*) where
  produce : σ → α → Option σ
  /-- Everything that the producer has put out so far. -/
  output : σ → List ε
  consume : τ → β → Option τ
  /-- What a step of the consumer takes. -/
  takes : β → List ε
  /-- The consumer has not been closed. -/
  admits : τ → Bool
  /-- The step is one that the producer makes to close the consumer. -/
  closes : β → Bool

namespace Handover

variable {σ α τ β ε : Type*}

structure State (σ τ ε : Type*) where
  producer : σ
  consumer : τ
  /-- What has been put out and not taken. -/
  pending : List ε

variable [DecidableEq ε] (h : Handover σ α τ β ε)

def step (s : State σ τ ε) : α ⊕ β → Option (State σ τ ε)
  | .inl a =>
    if s.pending.isEmpty ∧ h.admits s.consumer then
      (h.produce s.producer a).map fun p =>
        { s with producer := p, pending := (h.output p).drop (h.output s.producer).length }
    else none
  | .inr b =>
    if h.takes b <+: s.pending ∧ (h.closes b = true → s.pending = []) then
      (h.consume s.consumer b).map fun c =>
        { s with consumer := c, pending := s.pending.drop (h.takes b).length }
    else none

/-- What a step of the two can be. -/
inductive Steps (s : State σ τ ε) : α ⊕ β → State σ τ ε → Prop where
  | produce {a : α} {p : σ} (hempty : s.pending = []) (hopen : h.admits s.consumer = true)
      (hstep : h.produce s.producer a = some p) :
      Steps s (.inl a)
        { s with producer := p, pending := (h.output p).drop (h.output s.producer).length }
  | consume {b : β} {c : τ} (htakes : h.takes b <+: s.pending)
      (hcloses : h.closes b = true → s.pending = []) (hstep : h.consume s.consumer b = some c) :
      Steps s (.inr b) { s with consumer := c, pending := s.pending.drop (h.takes b).length }

variable {h} {s s' : State σ τ ε}

theorem step_cases {i : α ⊕ β} (hstep : h.step s i = some s') : h.Steps s i s' := by
  cases i with
  | inl a =>
    obtain ⟨⟨hempty, hopen⟩, hproduce⟩ := Option.ite_none_right_eq_some.mp hstep
    obtain ⟨p, hp, rfl⟩ := Option.map_eq_some_iff.mp hproduce
    exact .produce (List.isEmpty_iff.mp hempty) hopen hp
  | inr b =>
    obtain ⟨⟨htakes, hcloses⟩, hconsume⟩ := Option.ite_none_right_eq_some.mp hstep
    obtain ⟨c, hc, rfl⟩ := Option.map_eq_some_iff.mp hconsume
    exact .consume htakes hcloses hc

/-! ## The two parts of a run

Seen from either side, the joint run is a run of that side alone. What ties them together is the
output: what the consumer has taken and what is pending make up all that the producer has put
out. -/

/-- The steps of the producer. -/
def produced (is : List (α ⊕ β)) : List α :=
  is.filterMap Sum.getLeft?

/-- The steps of the consumer. -/
def consumed (is : List (α ⊕ β)) : List β :=
  is.filterMap Sum.getRight?

@[simp] theorem produced_snoc_inl (is : List (α ⊕ β)) (a : α) :
    produced (is ++ [.inl a]) = produced is ++ [a] := by
  simp [produced]

@[simp] theorem produced_snoc_inr (is : List (α ⊕ β)) (b : β) :
    produced (is ++ [.inr b]) = produced is := by
  simp [produced]

@[simp] theorem consumed_snoc_inl (is : List (α ⊕ β)) (a : α) :
    consumed (is ++ [.inl a]) = consumed is := by
  simp [consumed]

@[simp] theorem consumed_snoc_inr (is : List (α ⊕ β)) (b : β) :
    consumed (is ++ [.inr b]) = consumed is ++ [b] := by
  simp [consumed]

variable (h) in
/-- Where the two are after the steps `is` from `p` and `c`. -/
structure Parts (I : σ → Prop) (p : σ) (c : τ) (is : List (α ⊕ β)) (s : State σ τ ε) : Prop where
  producer : Run.exec h.produce p (produced is) = some s.producer
  consumer : Run.exec h.consume c (consumed is) = some s.consumer
  kept : I s.producer
  output : h.output p ++ (consumed is).flatMap h.takes ++ s.pending = h.output s.producer

/-- **A run of the two is a run of each.** The output has to grow, at least as long as the producer
keeps the invariant `I`. -/
theorem exec_parts {I : σ → Prop}
    (hgrows : ∀ p a p', I p → h.produce p a = some p' → I p' ∧ h.output p <+: h.output p')
    {p : σ} {c : τ} {is : List (α ⊕ β)} (hp : I p)
    (hrun : Run.exec h.step ⟨p, c, []⟩ is = some s) : h.Parts I p c is s := by
  have hstart : h.Parts I p c [] ⟨p, c, []⟩ := ⟨rfl, rfl, hp, by simp [consumed]⟩
  have hstep : ∀ is s i s', h.Parts I p c is s → True → h.step s i = some s' →
      h.Parts I p c (is ++ [i]) s' := by
    intro is s i s' hparts _ hstep
    -- the producer waits until everything is taken; the consumer takes from the front
    cases step_cases hstep with
    | produce hempty hopen hproduce =>
      obtain ⟨hkept, rest, hrest⟩ := hgrows _ _ _ hparts.kept hproduce
      refine ⟨?_, ?_, hkept, ?_⟩
      · rw [produced_snoc_inl]
        exact Run.exec_concat hparts.producer hproduce
      · rw [consumed_snoc_inl]
        exact hparts.consumer
      · -- everything has been taken, so what comes now is all that is pending
        have houtput := hparts.output
        rw [hempty, List.append_nil] at houtput
        rw [consumed_snoc_inl, houtput, ← hrest, List.drop_left]
    | consume htakes hcloses hconsume =>
      obtain ⟨rest, hrest⟩ := htakes
      refine ⟨?_, ?_, hparts.kept, ?_⟩
      · rw [produced_snoc_inr]
        exact hparts.producer
      · rw [consumed_snoc_inr]
        exact Run.exec_concat hparts.consumer hconsume
      · rw [consumed_snoc_inr, ← hparts.output, ← hrest, List.drop_left]
        simp
  exact Run.exec_invariant_history hstep hstart (Run.along_of_forall (fun _ _ _ => trivial) _) hrun

/-- **A closed consumer has taken everything.** Only the steps that close it may do so. -/
theorem pending_of_closed
    (hcloses : ∀ c b c', h.consume c b = some c' → h.admits c = true → h.admits c' = false →
      h.closes b = true)
    {is : List (α ⊕ β)} (hs : s.pending = [])
    (hrun : Run.exec h.step s is = some s') (hclosed : h.admits s'.consumer = false) :
    s'.pending = [] := by
  have hstep : ∀ u i v, (h.admits u.consumer = false → u.pending = []) → h.step u i = some v →
      h.admits v.consumer = false → v.pending = [] := by
    intro u i v hinv hstep hclosed
    cases step_cases hstep with
    | produce hempty hopen hproduce =>
      rw [hopen] at hclosed
      cases hclosed
    | consume htakes hlast hconsume =>
      have hempty : u.pending = [] := by
        cases hopen : h.admits u.consumer with
        | false => exact hinv hopen
        | true => exact hlast (hcloses _ _ _ hconsume hopen hclosed)
      show List.drop _ u.pending = []
      rw [hempty, List.drop_nil]
  exact Run.exec_invariant hstep (fun _ => hs) hrun hclosed

end Handover
