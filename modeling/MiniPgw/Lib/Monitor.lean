import MiniPgw.Lib.Run

/-!
# A thread that waits on a condition variable

One thread calls `wait_for(lock, interval, ready)` again and again; other threads change the data
that `ready` looks at, under the mutex or without it, and notify or do not. The call is cut where
the mutex changes hands (`Place`), and it may wake up for no reason at all.

A `Monitor` says what the actions do to the data, which of them need the mutex and which notify.

* **`deadline_le`** — the thread never sleeps past `interval` from now;
* **`unnoticed_iff`** — a condition that makes the thread ready is never met while it sleeps,
  exactly when every step that meets it in its sleep wakes it up;
* **`wait_step`** — once the condition is met for good, the own steps of the thread lead out of the
  call, however the notification was lost.
-/

namespace Monitor

/-- Where the thread stands in `wait_for`. -/
inductive Place where
  /-- Not in the call, and without the mutex. -/
  | outside
  /-- It holds the mutex, and the condition is next. -/
  | testing (deadline : ℕ)
  /-- The condition was false. It still holds the mutex. -/
  | committed (deadline : ℕ)
  /-- It sleeps; the mutex is free. -/
  | blocked (deadline : ℕ)
  /-- It was woken up and wants the mutex back. -/
  | awake (deadline : ℕ)
  /-- The call is over. It holds the mutex. -/
  | returned
  deriving DecidableEq, Repr

namespace Place

/-- The thread has the mutex. -/
def holds : Place → Bool
  | .testing _ => true
  | .committed _ => true
  | .returned => true
  | _ => false

/-- The thread has found the condition false and will not look again before it is woken up. -/
def asleep : Place → Bool
  | .committed _ => true
  | .blocked _ => true
  | _ => false

/-- The deadline of the call, while there is one. -/
def deadline : Place → Option ℕ
  | .testing d => some d
  | .committed d => some d
  | .blocked d => some d
  | .awake d => some d
  | _ => none

/-- What `notify_one` does: it wakes up a thread that sleeps, and is lost on any other. -/
def notified : Place → Place
  | .blocked d => .awake d
  | p => p

/-- How far the thread is from the end of the call once the condition is met. -/
def rank : Place → ℕ
  | .outside => 0
  | .returned => 1
  | .testing _ => 2
  | .awake _ => 3
  | .blocked _ => 4
  | .committed _ => 5

@[simp] theorem notified_deadline (p : Place) : p.notified.deadline = p.deadline := by
  cases p <;> rfl

theorem notified_rank_le (p : Place) : p.notified.rank ≤ p.rank := by
  cases p <;> simp [notified, rank]

theorem notified_eq_outside {p : Place} : p.notified = .outside ↔ p = .outside := by
  cases p <;> simp [notified]

/-- The mutex does not change hands by a notification. -/
@[simp] theorem notified_holds (p : Place) : p.notified.holds = p.holds := by
  cases p <;> rfl

/-- Whoever sleeps without the mutex is woken up. -/
theorem notified_asleep {p : Place} (hfree : p.holds = false) : p.notified.asleep = false := by
  cases p <;> simp_all [notified, asleep, holds]

end Place

/-- What an action needs, and what it does to the mutex. -/
inductive Kind where
  /-- The thread locks the mutex and calls `wait_for`. -/
  | enter
  /-- The thread gives the mutex back after the call. -/
  | leave
  /-- The thread does something else outside the call. -/
  | self
  /-- Another thread does something under the mutex. -/
  | locked
  /-- Another thread does something without the mutex. -/
  | free
  deriving DecidableEq, Repr

end Monitor

/-- The data, and what the actions of the threads do to it. -/
structure Monitor (σ α : Type*) where
  act : σ → α → Option σ
  kind : α → Monitor.Kind
  /-- The condition of `wait_for`. -/
  ready : σ → Bool
  /-- The action ends with `notify_one`, given the data that it leaves. -/
  notifies : σ → α → Bool
  interval : ℕ

namespace Monitor

structure State (σ : Type*) where
  shared : σ
  place : Place
  clock : ℕ

inductive Event (α : Type*) where
  | act (a : α)
  /-- The condition is tested under the mutex. -/
  | test
  /-- The mutex is given back and the thread falls asleep, in one step. -/
  | block
  /-- A wake-up for no reason. -/
  | wake
  | timeout
  /-- The mutex is taken again; `expired` says what the call makes of the time. -/
  | relock (expired : Bool)
  | tick (n : ℕ)
  deriving DecidableEq, Repr

variable {σ α : Type*} {m : Monitor σ α} {s t : State σ}

/-- An action of kind `kind` at `place`, with the place of the thread after it. -/
def moves (m : Monitor σ α) (s : State σ) (a : α) (shared : σ) : Option Place :=
  let next := if m.notifies shared a then s.place.notified else s.place
  match m.kind a with
  | .enter => if s.place = .outside then some (.testing (s.clock + m.interval)) else none
  | .leave => if s.place = .returned then some .outside else none
  | .self => if s.place = .outside then some .outside else none
  | .locked => if s.place.holds then none else some next
  | .free => some next

def step (m : Monitor σ α) (s : State σ) : Event α → Option (State σ)
  | .act a =>
    (m.act s.shared a).bind fun shared =>
      (m.moves s a shared).map fun place => { s with shared := shared, place := place }
  | .test =>
    match s.place with
    | .testing d => some { s with place := if m.ready s.shared then .returned else .committed d }
    | _ => none
  | .block =>
    match s.place with
    | .committed d => some { s with place := .blocked d }
    | _ => none
  | .wake =>
    match s.place with
    | .blocked d => some { s with place := .awake d }
    | _ => none
  | .timeout =>
    match s.place with
    | .blocked d => if d ≤ s.clock then some { s with place := .awake d } else none
    | _ => none
  | .relock expired =>
    match s.place, expired with
    | .awake d, false => some { s with place := .testing d }
    | .awake d, true => if d ≤ s.clock then some { s with place := .returned } else none
    | _, _ => none
  | .tick n => some { s with clock := s.clock + n }

/-! ## What a step can do

The inversions of `step` and `moves`, one constructor for each branch that succeeds. -/

inductive Step (m : Monitor σ α) (s : State σ) : Event α → State σ → Prop where
  | act (a : α) (shared : σ) (place : Place) (hact : m.act s.shared a = some shared)
      (hmoves : m.moves s a shared = some place) :
      Step m s (.act a) { s with shared := shared, place := place }
  | testReady (d : ℕ) (hplace : s.place = .testing d) (hready : m.ready s.shared = true) :
      Step m s .test { s with place := .returned }
  | testCommit (d : ℕ) (hplace : s.place = .testing d) (hready : m.ready s.shared = false) :
      Step m s .test { s with place := .committed d }
  | block (d : ℕ) (hplace : s.place = .committed d) :
      Step m s .block { s with place := .blocked d }
  | wake (d : ℕ) (hplace : s.place = .blocked d) : Step m s .wake { s with place := .awake d }
  | timeout (d : ℕ) (hplace : s.place = .blocked d) (hpast : d ≤ s.clock) :
      Step m s .timeout { s with place := .awake d }
  | relock (d : ℕ) (hplace : s.place = .awake d) :
      Step m s (.relock false) { s with place := .testing d }
  | expire (d : ℕ) (hplace : s.place = .awake d) (hpast : d ≤ s.clock) :
      Step m s (.relock true) { s with place := .returned }
  | tick (n : ℕ) : Step m s (.tick n) { s with clock := s.clock + n }

/-- **The inversion of `step`.** -/
theorem step_cases {e : Event α} (h : m.step s e = some t) : Step m s e t := by
  -- an action may move the caller; the other events are about the wait alone
  cases e with
  | act a =>
    obtain ⟨shared, hact, hplace⟩ := Option.bind_eq_some_iff.mp h
    obtain ⟨place, hmoves, rfl⟩ := Option.map_eq_some_iff.mp hplace
    exact .act a shared place hact hmoves
  | test =>
    simp only [step] at h
    split at h
    · next d hplace =>
      -- the predicate is tested before the thread blocks
      cases hready : m.ready s.shared with
      | true => simp only [hready, if_true] at h; cases h; exact .testReady d hplace hready
      | false =>
        simp only [hready, Bool.false_eq_true, if_false] at h
        cases h
        exact .testCommit d hplace hready
    · cases h
  | block =>
    simp only [step] at h
    split at h
    · next d hplace => cases h; exact .block d hplace
    · cases h
  | wake =>
    simp only [step] at h
    split at h
    · next d hplace => cases h; exact .wake d hplace
    · cases h
  | timeout =>
    simp only [step] at h
    split at h
    · next d hplace =>
      obtain ⟨hpast, h⟩ := Option.ite_none_right_eq_some.mp h
      cases h
      exact .timeout d hplace hpast
    · cases h
  | relock expired =>
    simp only [step] at h
    split at h
    · -- woken: the lock is taken again and the predicate tested once more
      next d hplace => cases h; exact .relock d hplace
    · next d hplace =>
      -- not woken, but the deadline has passed
      obtain ⟨hpast, h⟩ := Option.ite_none_right_eq_some.mp h
      cases h
      exact .expire d hplace hpast
    · cases h
  | tick n => cases h; exact .tick n

/-- Where an action leaves the thread, by the kind of the action. -/
inductive Moved (m : Monitor σ α) (s : State σ) (a : α) (shared : σ) : Place → Prop where
  | enter (hkind : m.kind a = .enter) (hplace : s.place = .outside) :
      Moved m s a shared (.testing (s.clock + m.interval))
  | leave (hkind : m.kind a = .leave) (hplace : s.place = .returned) : Moved m s a shared .outside
  | self (hkind : m.kind a = .self) (hplace : s.place = .outside) : Moved m s a shared .outside
  | quiet (hkind : m.kind a = .locked ∧ s.place.holds = false ∨ m.kind a = .free)
      (hnotifies : m.notifies shared a = false) : Moved m s a shared s.place
  | notify (hkind : m.kind a = .locked ∧ s.place.holds = false ∨ m.kind a = .free)
      (hnotifies : m.notifies shared a = true) : Moved m s a shared s.place.notified

theorem moves_cases {a : α} {shared : σ} {place : Place} (h : m.moves s a shared = some place) :
    Moved m s a shared place := by
  -- actions that do not enter or leave the wait may only notify the waiting thread
  have hother : ∀ {q : Place},
      (if m.notifies shared a then s.place.notified else s.place) = q →
      (m.kind a = .locked ∧ s.place.holds = false ∨ m.kind a = .free) → Moved m s a shared q := by
    intro q hq hkind
    cases hn : m.notifies shared a with
    | true =>
      rw [if_pos hn] at hq
      rw [← hq]
      exact .notify hkind hn
    | false =>
      rw [if_neg (by rw [hn]; exact Bool.false_ne_true)] at hq
      rw [← hq]
      exact .quiet hkind hn
  unfold moves at h
  cases hkind : m.kind a with
  | enter =>
    simp only [hkind, Option.ite_none_right_eq_some, Option.some.injEq] at h
    obtain ⟨hplace, rfl⟩ := h
    exact .enter hkind hplace
  | leave =>
    simp only [hkind, Option.ite_none_right_eq_some, Option.some.injEq] at h
    obtain ⟨hplace, rfl⟩ := h
    exact .leave hkind hplace
  | self =>
    simp only [hkind, Option.ite_none_right_eq_some, Option.some.injEq] at h
    obtain ⟨hplace, rfl⟩ := h
    exact .self hkind hplace
  -- under the lock, which must be free
  | locked =>
    simp only [hkind, Option.ite_none_left_eq_some, Option.some.injEq] at h
    exact hother h.2 (.inl ⟨hkind, by simpa using h.1⟩)
  | free =>
    simp only [hkind, Option.some.injEq] at h
    exact hother h (.inr hkind)

/-! ## Deadlines

A wait that starts at a moment ends by itself one interval later at the latest. The clock only goes
on, so the bound holds in every state that a run reaches. -/

/-- The deadline of the call is at most `interval` away. -/
def Punctual (m : Monitor σ α) (s : State σ) : Prop :=
  ∀ d, s.place.deadline = some d → d ≤ s.clock + m.interval

theorem punctual_step (h : m.Punctual s) {e : Event α} (hstep : m.step s e = some t) :
    m.Punctual t := by
  intro d hd
  cases step_cases hstep with
  | act a shared place hact hmoves =>
    cases moves_cases hmoves with
    | enter hkind hplace =>
      -- the call takes its deadline from the clock
      cases hd
      exact Nat.le_refl _
    | leave hkind hplace => cases hd
    | self hkind hplace => cases hd
    | quiet hkind hnotifies => exact h d hd
    | notify hkind hnotifies => exact h d (by simpa using hd)
  | testReady d' hplace hready => cases hd
  | testCommit d' hplace hready => exact h d (by rw [hplace]; exact hd)
  | block d' hplace => exact h d (by rw [hplace]; exact hd)
  | wake d' hplace => exact h d (by rw [hplace]; exact hd)
  | timeout d' hplace hpast => exact h d (by rw [hplace]; exact hd)
  | relock d' hplace => exact h d (by rw [hplace]; exact hd)
  | expire d' hplace hpast => cases hd
  | tick n =>
    have hbefore : d ≤ s.clock + m.interval := h d hd
    show d ≤ s.clock + n + m.interval
    omega

/-- **The thread never sleeps past `interval` from now.** -/
theorem deadline_le (hs : s.place = .outside) {es : List (Event α)}
    (hrun : Run.exec m.step s es = some t) : m.Punctual t :=
  Run.exec_invariant (fun _ _ _ h hstep => punctual_step h hstep)
    (fun d hd => by rw [hs] at hd; cases hd) hrun

/-! ## Sleeping through a condition

The thread tests before it goes to sleep, so a condition that makes it ready can only be met later,
by a step that does not wake it up. -/

/-- The condition `p` is not met while the thread sleeps. -/
def Attentive (p : σ → Prop) (s : State σ) : Prop :=
  s.place.asleep = true → ¬ p s.shared

/-- A step that meets `p` does not leave the thread asleep. -/
def WakesFor (m : Monitor σ α) (p : σ → Prop) (s : State σ) : Event α → Prop
  | .act a => ∀ shared place, m.act s.shared a = some shared → m.moves s a shared = some place →
      ¬ p s.shared → p shared → place.asleep = false
  | _ => True

/-- No action sends the thread to sleep. -/
theorem asleep_of_moved {a : α} {shared : σ} {place : Place} (h : m.Moved s a shared place)
    (hasleep : place.asleep = true) : s.place.asleep = true := by
  cases h with
  | enter hkind hplace => cases hasleep
  | leave hkind hplace => cases hasleep
  | self hkind hplace => cases hasleep
  | quiet hkind hnotifies => exact hasleep
  | notify hkind hnotifies =>
    cases hplace : s.place with
    | committed d => rfl
    | _ => rw [hplace] at hasleep; cases hasleep

theorem attentive_step {p : σ → Prop} (hp : ∀ d, p d → m.ready d = true) (h : Attentive p s)
    {e : Event α} (hwakes : m.WakesFor p s e) (hstep : m.step s e = some t) : Attentive p t := by
  intro hasleep
  cases step_cases hstep with
  | act a shared place hact hmoves =>
    intro hmet
    have hbefore : ¬ p s.shared := h (asleep_of_moved (moves_cases hmoves) hasleep)
    have hawake : place.asleep = false := hwakes shared place hact hmoves hbefore hmet
    have hstill : place.asleep = true := hasleep
    rw [hawake] at hstill
    cases hstill
  | testReady d hplace hready => cases hasleep
  -- the thread has just found that it is not ready
  | testCommit d hplace hready =>
    intro hmet
    rw [hp _ hmet] at hready
    cases hready
  | block d hplace => exact h (by rw [hplace]; rfl)
  | wake d hplace => cases hasleep
  | timeout d hplace hpast => cases hasleep
  | relock d hplace => cases hasleep
  | expire d hplace hpast => cases hasleep
  | tick n => exact h hasleep

/-- **No sleep through a condition.** A condition that makes the thread ready is met in none of the
states in which it sleeps, exactly when every step that meets it in its sleep wakes it up. -/
theorem unnoticed_iff {p : σ → Prop} (hp : ∀ d, p d → m.ready d = true)
    (hs : s.place = .outside) {es : List (Event α)} (hrun : Run.exec m.step s es = some t) :
    (∀ pre u, pre <+: es → Run.exec m.step s pre = some u → Attentive p u)
      ↔ Run.Along m.step (m.WakesFor p) s es := by
  refine Run.prefixes_iff_along
    (fun u e _ v h hwakes hstep => attentive_step hp h hwakes hstep) (fun _ h => h) ?_ ?_ hrun
  · intro u e _ v _ hstep hafter
    cases e with
    | act a =>
      intro shared place hact hmoves _ hmet
      have hv : v = { u with shared := shared, place := place } := by
        simpa [step, hact, hmoves, eq_comm] using hstep
      rw [hv] at hafter
      have hawake : ¬ place.asleep = true := fun hasleep => hafter hasleep hmet
      simpa using hawake
    | _ => trivial
  · intro hasleep
    rw [hs] at hasleep
    cases hasleep

/-! ## Leaving the call

A rank on the places inside the call. Every step of the waiting thread lowers it once the predicate
holds. -/

/-- The steps of the waiting thread inside the call. -/
def Event.waits : Event α → Bool
  | .test => true
  | .block => true
  | .wake => true
  | .timeout => true
  | .relock _ => true
  | _ => false

/-- **Every own step of a ready thread leads towards the end of the call.** -/
theorem wait_step (hready : m.ready s.shared = true) {e : Event α} (he : e.waits = true)
    (hstep : m.step s e = some t) :
    t.shared = s.shared ∧ t.place.rank < s.place.rank ∧ t.place ≠ .outside := by
  cases step_cases hstep with
  | act a shared place hact hmoves => cases he
  | testReady d hplace _ => simp [hplace, Place.rank]
  | testCommit d hplace hunready => rw [hready] at hunready; cases hunready
  | block d hplace => simp [hplace, Place.rank]
  | wake d hplace => simp [hplace, Place.rank]
  | timeout d hplace hpast => simp [hplace, Place.rank]
  | relock d hplace => simp [hplace, Place.rank]
  | expire d hplace hpast => simp [hplace, Place.rank]
  | tick n => cases he

/-- **A thread in the call can always go on**, unless it sleeps and its time is not up. -/
theorem wait_enabled (hin : s.place ≠ .outside) (hnot : s.place ≠ .returned) :
    (∃ e : Event α, e.waits = true ∧ e ≠ .wake ∧ (m.step s e).isSome) ∨
      ∃ d, s.place = .blocked d ∧ s.clock < d := by
  cases hplace : s.place with
  | outside => exact absurd hplace hin
  | returned => exact absurd hplace hnot
  | testing d => exact .inl ⟨.test, rfl, by simp, by simp [step, hplace]⟩
  | committed d => exact .inl ⟨.block, rfl, by simp, by simp [step, hplace]⟩
  | awake d => exact .inl ⟨.relock false, rfl, by simp, by simp [step, hplace]⟩
  | blocked d =>
    by_cases hpast : d ≤ s.clock
    · exact .inl ⟨.timeout, rfl, by simp, by simp [step, hplace, hpast]⟩
    · exact .inr ⟨d, rfl, by omega⟩

end Monitor
