import Mathlib.Data.Finset.Card
import Mathlib.Data.List.Chain
import MiniPgw.Lib.Run

/-!
# The session ledger

What a session manager is for, without its map, its clock and its log texts: a set of active keys
that grows and shrinks one key at a time, a log with one mark for every such change and every
rejection, and five counters.

Two laws hold in every reachable state:

* **`consistent_exec`** — the marks of a key are alternately `created` and `deleted`, and the key
  is active exactly when the last of them is `created`;
* **`balanced_exec`** — the counters agree with the set and with the log.

## The architecture

* **`step`** — four events, each of which is possible in some states only.
* **`Alternates.snoc`**, **`Consistent.mark`** — a mark changes the history of its own key, at its
  end.
* **`consistent_step`**, **`balanced_step`**, **`countersLe_step`** — one event, a case for each
  kind.
* **`consistent_exec`**, **`balanced_exec`**, **`countersLe_exec`** — the laws, by the run rules
  of `Lib.Run`.
-/

namespace Pgw

/-- What a record of the log says about its key. -/
inductive Mark where
  | created
  | deleted
  | rejected
  deriving DecidableEq, Repr

structure Ledger (κ : Type*) where
  active : Finset κ
  log : List (κ × Mark)
  created : Nat
  rejected : Nat
  expired : Nat
  terminated : Nat
  total : Nat

namespace Ledger

variable {κ : Type*} [DecidableEq κ]

inductive Event (κ : Type*) where
  | create (x : κ)
  | reject (x : κ)
  | expire (x : κ)
  | terminate (x : κ)

/-- The ledger at the start. -/
def empty : Ledger κ where
  active := ∅
  log := []
  created := 0
  rejected := 0
  expired := 0
  terminated := 0
  total := 0

def step (l : Ledger κ) : Event κ → Option (Ledger κ)
  | .create x =>
    if x ∈ l.active then none
    else some { l with
      active := insert x l.active
      log := l.log ++ [(x, .created)]
      created := l.created + 1
      total := l.total + 1 }
  | .reject x => some { l with
      log := l.log ++ [(x, .rejected)]
      rejected := l.rejected + 1
      total := l.total + 1 }
  | .expire x =>
    if x ∈ l.active then some { l with
      active := l.active.erase x
      log := l.log ++ [(x, .deleted)]
      expired := l.expired + 1 }
    else none
  | .terminate x =>
    if x ∈ l.active then some { l with
      active := l.active.erase x
      log := l.log ++ [(x, .deleted)]
      terminated := l.terminated + 1 }
    else none

/-! ## The history of a key

For one key the log reads created, deleted, created, and so on. Whether the key is active is whether
the last mark is `created`. -/

/-- The marks of `x`, rejections aside. -/
def history (x : κ) (log : List (κ × Mark)) : List Mark :=
  (log.filter fun e => e.1 = x ∧ e.2 ≠ .rejected).map Prod.snd

/-- The marks alternate, and the first one is `created`. -/
def Alternates (marks : List Mark) : Prop :=
  marks.IsChain (· ≠ ·) ∧ ∀ m ∈ marks.head?, m = .created

theorem history_snoc (x : κ) (log : List (κ × Mark)) (e : κ × Mark) :
    history x (log ++ [e])
      = history x log ++ if e.1 = x ∧ e.2 ≠ .rejected then [e.2] else [] := by
  unfold history
  by_cases h : e.1 = x ∧ e.2 ≠ .rejected
  · simp [List.filter_append, h]
  · simp [List.filter_append, h]

/-- A mark may follow if it is not the last one, and it must be `created` to be the first. -/
theorem Alternates.snoc {marks : List Mark} (h : Alternates marks) {m : Mark}
    (hlast : marks.getLast? ≠ some m) (hfirst : marks = [] → m = .created) :
    Alternates (marks ++ [m]) := by
  constructor
  · refine List.isChain_append.mpr ⟨h.1, List.isChain_singleton m, ?_⟩
    rintro a ha b hb rfl
    obtain rfl : m = a := by simpa using hb
    exact hlast ha
  · cases marks with
    | nil => simpa using hfirst rfl
    | cons a marks => simpa using h.2

/-- The log and the set of active keys tell the same story. -/
def Consistent (l : Ledger κ) : Prop :=
  ∀ x, Alternates (history x l.log) ∧
    (x ∈ l.active ↔ (history x l.log).getLast? = some .created)

theorem consistent_empty : (empty : Ledger κ).Consistent := by
  intro x
  simp [empty, history, Alternates]

/-- A mark on `x` changes the history of `x` alone. -/
theorem Consistent.mark {l : Ledger κ} (h : l.Consistent) {x : κ} {m : Mark} {active : Finset κ}
    {log : List (κ × Mark)} (hlog : log = l.log ++ [(x, m)])
    (hothers : ∀ y, y ≠ x → (y ∈ active ↔ y ∈ l.active))
    (hx : Alternates (history x log) ∧ (x ∈ active ↔ (history x log).getLast? = some .created)) :
    ∀ y, Alternates (history y log) ∧ (y ∈ active ↔ (history y log).getLast? = some .created) := by
  intro y
  by_cases hy : y = x
  · exact hy ▸ hx
  · have hsame : history y log = history y l.log := by
      simp [hlog, history_snoc, Ne.symm hy]
    rw [hsame, hothers y hy]
    exact h y

/-- The key `x` is deleted: its last mark was `created`. -/
theorem Consistent.remove {l : Ledger κ} (h : l.Consistent) {x : κ} (hx : x ∈ l.active) :
    ∀ y, Alternates (history y (l.log ++ [(x, .deleted)])) ∧
      (y ∈ l.active.erase x ↔ (history y (l.log ++ [(x, .deleted)])).getLast? = some .created) := by
  have hlast := (h x).2.mp hx
  refine h.mark rfl (fun y hy => by simp [hy]) ⟨?_, ?_⟩
  · rw [history_snoc, if_pos (by simp)]
    refine (h x).1.snoc (by simp [hlast]) (fun hnil => ?_)
    simp [hnil] at hlast
  · simp [history_snoc]

theorem consistent_step {l l' : Ledger κ} (h : l.Consistent) {e : Event κ}
    (hstep : l.step e = some l') : l'.Consistent := by
  cases e with
  | create x =>
    simp only [step] at hstep
    split at hstep
    · cases hstep
    · next hx =>
      cases hstep
      -- the new mark comes behind a deletion, or it is the first one
      refine h.mark rfl (fun y hy => by simp [hy]) ⟨?_, ?_⟩
      · rw [history_snoc, if_pos (by simp)]
        exact (h x).1.snoc (fun hlast => hx ((h x).2.mpr hlast)) (fun _ => rfl)
      · simp [history_snoc]
  | reject x =>
    cases hstep
    refine h.mark rfl (fun y _ => Iff.rfl) ?_
    simpa [history_snoc] using h x
  | expire x =>
    simp only [step] at hstep
    split at hstep
    · next hx =>
      cases hstep
      exact h.remove hx
    · cases hstep
  | terminate x =>
    simp only [step] at hstep
    split at hstep
    · next hx =>
      cases hstep
      exact h.remove hx
    · cases hstep

/-! ## The counters

Five sums that every event leaves in balance, and that no event makes smaller. -/

/-- The number of records with the mark `m`. -/
def marked (m : Mark) (log : List (κ × Mark)) : Nat :=
  log.countP fun e => e.2 = m

omit [DecidableEq κ] in
theorem marked_append (m : Mark) (log log' : List (κ × Mark)) :
    marked m (log ++ log') = marked m log + marked m log' :=
  List.countP_append

/-- The counters agree with each other, with the set and with the log. -/
structure Balanced (l : Ledger κ) : Prop where
  created : l.created = l.active.card + l.expired + l.terminated
  total : l.total = l.created + l.rejected
  createdMarks : marked .created l.log = l.created
  deletedMarks : marked .deleted l.log = l.expired + l.terminated
  rejectedMarks : marked .rejected l.log = l.rejected

omit [DecidableEq κ] in
theorem balanced_empty : (empty : Ledger κ).Balanced :=
  ⟨rfl, rfl, rfl, rfl, rfl⟩

theorem balanced_step {l l' : Ledger κ} (h : l.Balanced) {e : Event κ}
    (hstep : l.step e = some l') : l'.Balanced := by
  -- five balances, and one event changes at most two of the numbers in each
  obtain ⟨h₁, h₂, h₃, h₄, h₅⟩ := h
  unfold marked at h₃ h₄ h₅
  cases e with
  | create x =>
    simp only [step] at hstep
    split at hstep
    · cases hstep
    · next hx =>
      cases hstep
      constructor <;> simp [marked, hx] <;> omega
  | reject x =>
    cases hstep
    constructor <;> simp [marked] <;> omega
  | expire x =>
    simp only [step] at hstep
    split at hstep
    · next hx =>
      cases hstep
      -- an active subscriber is erased once
      have hcard := Finset.card_erase_add_one hx
      constructor <;> simp [marked] <;> omega
    · cases hstep
  | terminate x =>
    simp only [step] at hstep
    split at hstep
    · next hx =>
      cases hstep
      have hcard := Finset.card_erase_add_one hx
      constructor <;> simp [marked] <;> omega
    · cases hstep

/-- No counter is larger in `l` than in `l'`. -/
structure CountersLe (l l' : Ledger κ) : Prop where
  created : l.created ≤ l'.created
  rejected : l.rejected ≤ l'.rejected
  expired : l.expired ≤ l'.expired
  terminated : l.terminated ≤ l'.terminated
  total : l.total ≤ l'.total

omit [DecidableEq κ] in
theorem CountersLe.refl (l : Ledger κ) : CountersLe l l :=
  ⟨Nat.le_refl _, Nat.le_refl _, Nat.le_refl _, Nat.le_refl _, Nat.le_refl _⟩

theorem countersLe_step {k l l' : Ledger κ} (h : CountersLe k l) {e : Event κ}
    (hstep : l.step e = some l') : CountersLe k l' := by
  -- an event adds one to some of the counters and takes nothing off
  obtain ⟨h₁, h₂, h₃, h₄, h₅⟩ := h
  cases e with
  | create x =>
    simp only [step] at hstep
    split at hstep
    · cases hstep
    · cases hstep
      constructor <;> simp <;> omega
  | reject x =>
    cases hstep
    constructor <;> simp <;> omega
  | expire x =>
    simp only [step] at hstep
    split at hstep
    · cases hstep
      constructor <;> simp <;> omega
    · cases hstep
  | terminate x =>
    simp only [step] at hstep
    split at hstep
    · cases hstep
      constructor <;> simp <;> omega
    · cases hstep

theorem history_append (x : κ) (log log' : List (κ × Mark)) :
    history x (log ++ log') = history x log ++ history x log' := by
  simp [history, List.filter_append]

/-- **The creation of a key that is not active any more is followed by its deletion,** before the
key is created again. -/
theorem deleted_of_created {l : Ledger κ} (h : l.Consistent) {x : κ} (hx : x ∉ l.active)
    {pre post : List (κ × Mark)} (hlog : l.log = pre ++ (x, .created) :: post) :
    ∃ between rest, post = between ++ (x, .deleted) :: rest ∧
      ∀ e ∈ between, e.1 = x → e.2 ≠ .created := by
  obtain ⟨⟨hchain, -⟩, hlast⟩ := h x
  have hhistory : history x l.log = history x pre ++ .created :: history x post := by
    have hfirst : history x [(x, .created)] = [.created] := by simp [history]
    rw [hlog, List.append_cons, history_append, history_append, hfirst, List.append_assoc,
      List.singleton_append]
  rw [hhistory] at hchain hlast
  obtain ⟨-, hpost, -⟩ := List.isChain_append.mp hchain
  -- the mark behind the creation cannot be missing, as `x` is no longer active
  cases hnext : history x post with
  | nil =>
    rw [hnext] at hlast
    exact absurd (hlast.mpr (by simp)) hx
  | cons mark marks =>
    rw [hnext] at hpost
    have hmark : Mark.created ≠ mark := (List.isChain_cons_cons.mp hpost).1
    obtain ⟨e, rest, hfilter, hsnd, -⟩ := List.map_eq_cons_iff.mp hnext
    obtain ⟨between, rest', hpost', hbetween, he, -⟩ := List.filter_eq_cons_iff.mp hfilter
    obtain ⟨hkey, hkept⟩ := of_decide_eq_true he
    -- marks alternate, so the next one is the deletion
    have hentry : e = (x, .deleted) := by
      obtain ⟨y, m⟩ := e
      obtain rfl : y = x := hkey
      obtain rfl : m = mark := hsnd
      cases m with
      | created => exact absurd rfl hmark
      | deleted => rfl
      | rejected => exact absurd rfl hkept
    refine ⟨between, rest', by rw [hpost', hentry], fun d hd hdx hcreated => ?_⟩
    refine absurd (decide_eq_true ?_) (hbetween d hd)
    exact ⟨hdx, by rw [hcreated]; decide⟩

/-! ## Whole runs

The step lemmas, along a run. -/

/-- **The log and the active set never drift apart.** -/
theorem consistent_exec {l : Ledger κ} {es : List (Event κ)}
    (hrun : Run.exec step empty es = some l) : l.Consistent :=
  Run.exec_invariant (fun _ _ _ h hs => consistent_step h hs) consistent_empty hrun

/-- **The counters always balance.** -/
theorem balanced_exec {l : Ledger κ} {es : List (Event κ)}
    (hrun : Run.exec step empty es = some l) : l.Balanced :=
  Run.exec_invariant (fun _ _ _ h hs => balanced_step h hs) balanced_empty hrun

/-- **No counter ever decreases.** -/
theorem countersLe_exec {l l' : Ledger κ} {es : List (Event κ)}
    (hrun : Run.exec step l es = some l') : CountersLe l l' :=
  Run.exec_invariant (fun _ _ _ h hs => countersLe_step h hs) (CountersLe.refl l) hrun

end Ledger
end Pgw
