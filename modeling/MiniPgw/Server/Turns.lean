import MiniPgw.Server.EventLoop

/-!
# The turns of the event loop

An iteration of `runEventLoop` is made of turns: the part before `epoll_wait`, one turn for every
event, and the clean-up. Another thread can request a shutdown between any two of them, and what is
said about a batch of events half way through is about the states between turns.

`turn` takes the turns in any order, so it has more runs than the loop. Every run of the loop is one
of them (`exec_turns`).

## The architecture

* **`take`**, **`turn`** — one turn as a computation, and as a step that takes place if it
  returns.
* **`processEvents_turns`**, **`wakeUp_turns`** — the parts of an iteration as turns.
* **`step_turns`**, **`exec_turns`** — an iteration, and a run.
-/

namespace Pgw

open Effects

inductive Turn where
  /-- The loop body before `epoll_wait`. -/
  | beginIteration
  | event (event : Ready)
  | cleanup (now cleanupNow : Time)
  /-- `epoll_wait` fails. -/
  | failed
  /-- A request from another thread. -/
  | shutdownRequest

namespace Server

variable (json : JsonLib) (around : Nat → Surroundings)

def take : Turn → Method Unit
  | .beginIteration => Server.beginIteration
  | .event event => processEvent json around event
  | .cleanup now cleanupNow => Server.cleanup now cleanupNow
  | .failed => modify fun s => { s with left := true }
  | .shutdownRequest =>
    modify fun s => s.setTcpHandler { s.tcpHandler with shutdownRequest := true }

/-- One turn. An exception leaves the loop, and undefined behaviour the program. -/
def turn (s : Server) (t : Turn) : Option Server :=
  match (take json around t).run s with
  | .ok _ s' => some s'
  | .error _ _ => none

section
variable {json around} {s s' : Server}

theorem turn_eq_some {t : Turn} :
    turn json around s t = some s' ↔ (take json around t).run s = .ok () s' := by
  unfold turn
  cases (take json around t).run s <;> simp

/-- While the loop drains, a read of the timer lets sessions expire. -/
theorem take_timer_run_draining (hstate : s.state = .DRAINING) (expirations : Nat) :
    (take json around (.event (.timer expirations))).run s = (expire expirations).run s := by
  simp [take, processEvent, hstate]

theorem take_timer_run_ignored (hstate : s.state ≠ .DRAINING) (expirations : Nat) :
    (take json around (.event (.timer expirations))).run s
      = .ok () { s with timerWatched := false } := by
  simp [take, processEvent, hstate]

/-- What a turn that takes place is ensured to do. -/
theorem of_turn {t : Turn} {Q : Server → Prop} (h : turn json around s t = some s')
    (hensures : Ensures (take json around t) s (fun _ s' => Q s') fun _ _ => True) : Q s' :=
  hensures.of_run_ok (turn_eq_some.mp h)

/-- The events of an iteration are as many turns. -/
theorem processEvents_turns {ready : List Ready} :
    ∀ {s : Server}, (processEvents json around ready).run s = .ok () s' →
      Run.exec (turn json around) s (ready.map .event) = some s' := by
  induction ready with
  | nil =>
    intro s h
    cases h
    rfl
  | cons event ready ih =>
    intro s h
    rw [processEvents, EStateM.run_bind] at h
    cases hevent : (processEvent json around event).run s with
    | error e s₁ => simp [hevent] at h
    | ok _ s₁ =>
      simp only [hevent] at h
      exact Run.exec_cons_eq_some.mpr ⟨s₁, turn_eq_some.mpr hevent, ih h⟩

theorem wakeUp_turns {wait : EpollWait} (h : (wakeUp json around wait).run s = .ok () s') :
    ∃ turns, Run.exec (turn json around) s turns = some s' := by
  cases wait with
  | interrupted =>
    cases h
    exact ⟨[], rfl⟩
  | failed =>
    cases h
    exact ⟨[.failed], rfl⟩
  | events ready now cleanupNow =>
    rw [wakeUp, EStateM.run_bind] at h
    cases hevents : (processEvents json around ready).run s with
    | error e s₁ => simp [hevents] at h
    | ok _ s₁ =>
      simp only [hevents] at h
      refine ⟨ready.map .event ++ [.cleanup now cleanupNow], ?_⟩
      refine Run.exec_append_eq_some.mpr ⟨s₁, processEvents_turns hevents, ?_⟩
      exact Run.exec_singleton (turn_eq_some.mpr h)

/-- A step of the loop is a run of turns. -/
theorem step_turns {input : ServerInput} (h : step json around s input = some s') :
    ∃ turns, Run.exec (turn json around) s turns = some s' := by
  cases input with
  | shutdownRequest =>
    cases h
    exact ⟨[.shutdownRequest], rfl⟩
  | iteration wait =>
    obtain ⟨-, s₁, hbegin, hrest⟩ := (step_iteration_iff json around).mp h
    have hfirst : turn json around s .beginIteration = some s₁ := turn_eq_some.mpr hbegin
    rcases hrest with ⟨-, rfl⟩ | ⟨-, -, hwake⟩
    · exact ⟨[.beginIteration], Run.exec_singleton hfirst⟩
    · obtain ⟨turns, hturns⟩ := wakeUp_turns hwake
      exact ⟨.beginIteration :: turns, Run.exec_cons_eq_some.mpr ⟨s₁, hfirst, hturns⟩⟩

/-- **Every run of the loop is a run of turns.** -/
theorem exec_turns {inputs : List ServerInput}
    (h : Run.exec (step json around) s inputs = some s') :
    ∃ turns, Run.exec (turn json around) s turns = some s' := by
  obtain ⟨turns, t, hturns, rfl⟩ := Run.exec_simulation (R := Eq)
    (fun u v input u' huv hstep => by
      subst huv
      obtain ⟨turns, hturns⟩ := step_turns hstep
      exact ⟨turns, u', hturns, rfl⟩) rfl h
  exact ⟨turns, hturns⟩

end
end Server
end Pgw
