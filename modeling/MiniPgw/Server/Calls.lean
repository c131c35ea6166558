import MiniPgw.Server.Shutdown
import MiniPgw.Session.Records

/-!
# The calls behind a turn

The session manager knows nothing of sockets, commands and timers: it is called. `Makes` says which
calls a turn of the event loop can make, with their arguments and times, and in which state of the
loop.

`turn_calls`: for the manager, a turn is a run of such calls.

## The architecture

* **`NeverUndefined`** — no method of the manager has undefined behaviour, so a call that does not
  return has thrown.
* **`MadeFrom`**, **`madeFrom_preserves`** — managers that are reached by calls of a kind; this is
  kept by one more of them, also by one that throws.
* **`turn_calls`** — that relation, put into `turn_keeps_made`.
-/

namespace Pgw

open Effects

namespace SessionManager

variable {m₀ m : SessionManager}

/-! ## No call has undefined behaviour

The manager finds what it erases, so its iterators are valid. Only `gracefulShutdown` may divide by
zero, and the loop does not call it. -/

/-- The method returns or throws. -/
def NeverUndefined {α : Type} (x : Method α) : Prop :=
  ∀ m, Ensures x m (fun _ _ => True) (fun e _ => e = .exception)

theorem NeverUndefined.bind {α β : Type} {x : Method α} {f : α → Method β}
    (hx : NeverUndefined x) (hf : ∀ a, NeverUndefined (f a)) : NeverUndefined (x >>= f) := by
  intro m
  rw [ensures_bind]
  exact (hx m).mono (fun a t _ => hf a t) fun _ _ he => he

theorem neverUndefined_pure {α : Type} (a : α) : NeverUndefined (pure a) :=
  fun _ => trivial

theorem neverUndefined_get : NeverUndefined get :=
  fun _ => trivial

theorem NeverUndefined.ite {α : Type} {c : Prop} {_ : Decidable c} {x y : Method α}
    (hx : NeverUndefined x) (hy : NeverUndefined y) : NeverUndefined (if c then x else y) := by
  split
  · exact hx
  · exact hy

theorem neverUndefined_modify (f : SessionManager → SessionManager) : NeverUndefined (modify f) :=
  fun _ => trivial

theorem neverUndefined_writeAction (imsi : Imsi) (action : Bytes) :
    NeverUndefined (writeAction imsi action) := by
  intro m
  simp only [writeAction, ensures_bind, ensures_get, ensures_ite, ensures_set, ensures_throw]
  split
  · trivial
  · trivial

theorem neverUndefined_deleteSession (it : SessionEntry) : NeverUndefined (deleteSession it) :=
  (neverUndefined_modify _).bind fun _ =>
    (neverUndefined_writeAction _ _).bind fun _ => neverUndefined_modify _

theorem neverUndefined_terminateSession (imsi : Imsi) : NeverUndefined (terminateSession imsi) := by
  intro m
  rw [terminateSession, ensures_bind, ensures_get]
  cases m.sessions.lookup imsi with
  | none => trivial
  | some data =>
    have hdelete := (neverUndefined_deleteSession ⟨imsi, data⟩).bind fun _ =>
      (neverUndefined_modify _ : NeverUndefined countTerminated).bind fun _ =>
        neverUndefined_pure true
    exact hdelete m

theorem neverUndefined_shutdownSession : NeverUndefined shutdownSession := by
  intro m
  rw [shutdownSession, ensures_bind, ensures_get]
  cases m.sessions.entries with
  | nil => trivial
  | cons it rest =>
    have hdelete := (neverUndefined_deleteSession it).bind fun _ =>
      (neverUndefined_modify _ : NeverUndefined countTerminated).bind fun _ =>
        neverUndefined_pure true
    exact hdelete m

theorem neverUndefined_cleanFrom (now : Time) (its : List SessionEntry) :
    NeverUndefined (cleanFrom now its) := by
  induction its with
  | nil => exact neverUndefined_pure ()
  | cons it its ih =>
    have hdelete := (neverUndefined_deleteSession it).bind fun _ =>
      (neverUndefined_modify _ : NeverUndefined countExpired).bind fun _ => ih
    exact neverUndefined_get.bind fun _ => NeverUndefined.ite hdelete ih

theorem neverUndefined_cleanTimeoutSessions (now : Time) :
    NeverUndefined (cleanTimeoutSessions now) := by
  intro m
  rw [cleanTimeoutSessions, ensures_bind, ensures_get]
  exact neverUndefined_cleanFrom now m.sessions.entries m

theorem neverUndefined_createSession (imsi : Imsi) (now : Time) :
    NeverUndefined (createSession imsi now) := by
  intro m
  rw [createSession, ensures_bind, ensures_get]
  split
  · trivial
  -- the blacklist, the table, and the write of a new session within `try`
  split
  · have hreject := (neverUndefined_writeAction imsi ICdrWriter.SESSION_REJECTED).bind fun _ =>
      (neverUndefined_modify fun m => { m with
        stats.rejectedSessions := m.stats.rejectedSessions + 1
        stats.totalSessions := m.stats.totalSessions + 1 }).bind fun _ =>
        neverUndefined_pure CreateResult.REJECTED_BLACKLIST
    exact hreject m
  split
  · trivial
  · rw [ensures_catching, ensures_bind, ensures_set]
    split
    · have hwrite := neverUndefined_writeAction imsi ICdrWriter.SESSION_CREATED
      rw [ensures_bind]
      refine (hwrite _).mono (fun _ _ _ => trivial) fun e t he => ?_
      rw [he]
      trivial
    · have hwrite := neverUndefined_writeAction imsi ICdrWriter.SESSION_ERROR
      rw [ensures_bind]
      refine (hwrite _).mono (fun _ _ _ => trivial) fun e t he => ?_
      rw [he]
      trivial

/-! ## Managers that calls lead to

Every state of the manager during a run of the loop comes from its first one through calls of its
own methods. Results about calls carry over to the loop in this way. -/

/-- Calls with the property `P` lead from `m₀` to `m`. -/
def MadeFrom (P : SessionCall → Prop) (m₀ m : SessionManager) : Prop :=
  ∃ calls, (∀ c ∈ calls, P c) ∧ Run.exec step m₀ calls = some m

/-- One more call, whether it returns or throws. -/
theorem madeFrom_preserves {P : SessionCall → Prop} {c : SessionCall} (hc : P c)
    (hdefined : NeverUndefined (perform c)) : Preserves (MadeFrom P m₀) (perform c) := by
  rintro m ⟨calls, hcalls, hrun⟩
  have hmore : ∀ m', step m c = some m' → MadeFrom P m₀ m' := by
    intro m' hstep
    refine ⟨calls ++ [c], fun d hd => ?_, Run.exec_concat hrun hstep⟩
    rcases List.mem_append.mp hd with hold | hnew
    · exact hcalls d hold
    · rw [List.mem_singleton.mp hnew]
      exact hc
  apply ensures_of_run
  · intro a t ht
    exact hmore t (by simp [step, ht])
  · intro e t ht
    obtain rfl : e = .exception := (hdefined m).of_run_error ht
    exact hmore t (by simp [step, ht])

end SessionManager

namespace Server

open SessionManager

variable {json : JsonLib} {around : Nat → Surroundings} {s s' : Server}

/-- **A turn is a run of the manager** over calls that the turn can make. -/
theorem turn_calls {t : Turn} (hturn : turn json around s t = some s') :
    MadeFrom (Makes around s t) s.sessionManager s'.sessionManager := by
  have hkeep : ∀ c, Makes around s t c →
      Preserves (MadeFrom (Makes around s t) s.sessionManager) (perform c) := by
    intro c hmakes
    apply madeFrom_preserves hmakes
    cases hmakes with
    | startDraining hstate hflag => exact neverUndefined_modify _
    | shutdownSession expirations hstate =>
      exact neverUndefined_shutdownSession.bind fun _ => neverUndefined_pure ()
    | createSession event imsi now hvalid hat =>
      exact (neverUndefined_createSession imsi now).bind fun _ => neverUndefined_pure ()
    | terminateSession fd received sends imsi =>
      exact (neverUndefined_terminateSession imsi).bind fun _ => neverUndefined_pure ()
    | cleanTimeoutSessions now cleanupNow hdue =>
      exact neverUndefined_cleanTimeoutSessions cleanupNow
  have hnone : MadeFrom (Makes around s t) s.sessionManager s.sessionManager :=
    ⟨[], fun _ h => absurd h List.not_mem_nil, rfl⟩
  exact turn_keeps_made hkeep hnone hturn

end Server
end Pgw
