import MiniPgw.Server.Running
import MiniPgw.Server.Teardown

/-!
# How the event loop ends

The process takes the loop to be a single step (`Process.runEventLoop`) that ends in one of three
ways, or goes on for ever. Which of these it is follows from the inputs of the loop (`LoopEnds`,
`loopEnds_unique`): the process is about the loop of the model when its environment has the end that
the loop comes to over some unending stream of inputs.

The model of the loop says which servers still run when a run of it has ended (`serversRun_exec`),
`runEventLoop_agrees` that the process then has the same ones running, and `exitCode_of_loop` what
`run` returns.

## The architecture

* **`LoopEnds`**, **`loopEnds_unique`** — the end of the loop as a property of an unending stream
  of inputs: it has stopped, it has been left, it has thrown, or none of these ever.
* **`serversRunning`** — the part of the process that the loop touches; the rest of it is a frame
  (`atScopeEnd_keeps`, `guarded_keeps`).
* **`AfterLoop`**, **`runEventLoop_afterLoop`** — the loop of the process, for each end.
* **`runEventLoop_agrees`**, **`exitCode_of_loop`** — put together with the runs of the model.
-/

namespace Pgw

open Effects

namespace Server

variable {json : JsonLib} {around : Nat → Surroundings} {s s' : Server}

/-! ## The end of the loop

The inputs are a stream: another thread can always request a shutdown, so that there are more of
them when the loop is over. -/

/-- An exception gets out of the iteration. -/
def Throws (json : JsonLib) (around : Nat → Surroundings) (s : Server) : ServerInput → Prop
  | .shutdownRequest => False
  | .iteration wait => ¬ s.Over ∧ ((∃ t, beginIteration.run s = .error .exception t) ∨
      ∃ s₁ t, beginIteration.run s = .ok () s₁ ∧ s₁.state ≠ .STOPPED ∧ s₁.Reports wait ∧
        (wakeUp json around wait).run s₁ = .error .exception t)

/-- **How the loop ends** over these inputs, from the state `s₀` on. -/
def LoopEnds (json : JsonLib) (around : Nat → Surroundings) (s₀ : Server)
    (inputs : Nat → ServerInput) : LoopEnd → Prop
  | .stopped => ∃ n s, Run.after (step json around) s₀ inputs n = some s ∧ s.state = .STOPPED
  | .left => ∃ n s, Run.after (step json around) s₀ inputs n = some s ∧
      s.left = true ∧ s.state ≠ .STOPPED
  | .threw => ∃ n s, Run.after (step json around) s₀ inputs n = some s ∧
      Throws json around s (inputs n)
  | .goesOn => ∀ n, ∃ s, Run.after (step json around) s₀ inputs n = some s ∧ ¬ s.Over

/-- When the loop is over, only the flag can still change. -/
theorem step_of_over (hover : s.Over) {input : ServerInput}
    (hstep : step json around s input = some s') : s'.state = s.state ∧ s'.left = s.left := by
  cases input with
  | shutdownRequest =>
    cases hstep
    exact ⟨rfl, rfl⟩
  | iteration wait =>
    have hout : s.left = true ∨ s.state = .STOPPED := hover
    simp [step, hout] at hstep

/-- An exception is thrown by a turn, so there is no state after it. -/
theorem Throws.step_eq_none {input : ServerInput} (h : Throws json around s input) :
    ¬ s.Over ∧ step json around s input = none := by
  cases input with
  | shutdownRequest => exact h.elim
  | iteration wait =>
    obtain ⟨hnot, hthrows⟩ := h
    have hin : ¬ (s.left = true ∨ s.state = .STOPPED) := hnot
    refine ⟨hnot, ?_⟩
    rcases hthrows with ⟨t, hbegin⟩ | ⟨s₁, t, hbegin, hstate, hreports, hwake⟩
    · simp [step, hin, hbegin]
    · simp [step, hin, hbegin, hstate, hreports, hwake]

section
variable {s₀ t : Server} {inputs : Nat → ServerInput} {m n : Nat}

/-- Two moments at which the loop is over show the same end of it. -/
theorem over_agree (hs : Run.after (step json around) s₀ inputs m = some s) (hover : s.Over)
    (ht : Run.after (step json around) s₀ inputs n = some t) (hover' : t.Over) :
    s.state = t.state ∧ s.left = t.left := by
  have hlater : ∀ {m n s t}, m ≤ n → Run.after (step json around) s₀ inputs m = some s → s.Over →
      Run.after (step json around) s₀ inputs n = some t → t.state = s.state ∧ t.left = s.left := by
    intro m n s t hle hs hover ht
    obtain ⟨k, rfl⟩ := Nat.exists_eq_add_of_le hle
    have hstays : ∀ u i v, (u.state = s.state ∧ u.left = s.left) →
        step json around u i = some v → v.state = s.state ∧ v.left = s.left := by
      rintro u i v ⟨hstate, hleft⟩ hstep
      have hoveru : u.Over := by
        unfold Over
        rw [hstate, hleft]
        exact hover
      obtain ⟨hstate', hleft'⟩ := step_of_over hoveru hstep
      exact ⟨hstate'.trans hstate, hleft'.trans hleft⟩
    exact Run.after_stays hstays hs ⟨rfl, rfl⟩ k t ht
  rcases Nat.le_total m n with hle | hle
  · obtain ⟨hstate, hleft⟩ := hlater hle hs hover ht
    exact ⟨hstate.symm, hleft.symm⟩
  · exact hlater hle ht hover' hs

/-- A loop that throws is never over. -/
theorem not_over_of_throws (ht : Run.after (step json around) s₀ inputs n = some t)
    (hthrows : Throws json around t (inputs n))
    (hs : Run.after (step json around) s₀ inputs m = some s) : m ≤ n ∧ ¬ s.Over := by
  obtain ⟨hnot, hnone⟩ := hthrows.step_eq_none
  have hle : m ≤ n := by
    by_contra hlt
    -- the run would have gone past the exception
    obtain ⟨k, rfl⟩ := Nat.exists_eq_add_of_lt (Nat.lt_of_not_le hlt)
    rw [Nat.add_right_comm] at hs
    obtain ⟨v, hv⟩ := Run.after_le k hs
    obtain ⟨u, hu, hstep⟩ := Run.after_succ.mp hv
    cases hu.symm.trans ht
    cases hstep.symm.trans hnone
  refine ⟨hle, fun hover => hnot ?_⟩
  obtain ⟨k, rfl⟩ := Nat.exists_eq_add_of_le hle
  have hstays : ∀ u i v, Over u → step json around u i = some v → Over v := by
    intro u i v hu hstep
    obtain ⟨hstate, hleft⟩ := step_of_over hu hstep
    unfold Over
    rw [hstate, hleft]
    exact hu
  exact Run.after_stays hstays hs hover k t ht

/-- The loop is over after some turn exactly if it stops or leaves; if it throws or goes on, it
never is. -/
theorem LoopEnds.over {e : LoopEnd} (h : LoopEnds json around s₀ inputs e) :
    (∃ n s, Run.after (step json around) s₀ inputs n = some s ∧ s.Over) ↔
      e = .stopped ∨ e = .left := by
  cases e with
  | stopped =>
    obtain ⟨n, s, hs, hstopped⟩ := h
    exact iff_of_true ⟨n, s, hs, .inr hstopped⟩ (.inl rfl)
  | left =>
    obtain ⟨n, s, hs, hleft, -⟩ := h
    exact iff_of_true ⟨n, s, hs, .inl hleft⟩ (.inr rfl)
  | threw =>
    obtain ⟨n, t, ht, hthrows⟩ := h
    refine iff_of_false ?_ (by simp)
    rintro ⟨m, s, hs, hover⟩
    exact (not_over_of_throws ht hthrows hs).2 hover
  | goesOn =>
    refine iff_of_false ?_ (by simp)
    rintro ⟨n, s, hs, hover⟩
    obtain ⟨s', hs', hnot⟩ := h n
    cases hs.symm.trans hs'
    exact hnot hover

/-- **The loop has one end**: which one is a matter of its inputs. -/
theorem loopEnds_unique {e e' : LoopEnd} (h : LoopEnds json around s₀ inputs e)
    (h' : LoopEnds json around s₀ inputs e') : e = e' := by
  by_cases hover : ∃ n s, Run.after (step json around) s₀ inputs n = some s ∧ s.Over
  · -- it is over: the state says whether it has stopped
    have hstate : ∀ {e}, LoopEnds json around s₀ inputs e → ∀ n s,
        Run.after (step json around) s₀ inputs n = some s → s.Over →
        e = if s.state = .STOPPED then .stopped else .left := by
      intro e he n s hs hsover
      rcases he.over.mp ⟨n, s, hs, hsover⟩ with rfl | rfl
      · obtain ⟨m, t, ht, hstopped⟩ := he
        rw [(over_agree hs hsover ht (.inr hstopped)).1, if_pos hstopped]
      · obtain ⟨m, t, ht, hleft, hne⟩ := he
        rw [(over_agree hs hsover ht (.inl hleft)).1, if_neg hne]
    obtain ⟨n, s, hs, hsover⟩ := hover
    rw [hstate h n s hs hsover, hstate h' n s hs hsover]
  · -- it is not: it throws exactly if it does not go on
    have hnot : ∀ {e}, LoopEnds json around s₀ inputs e → e = .threw ∨ e = .goesOn := by
      intro e he
      have hends : ¬ (e = .stopped ∨ e = .left) := fun hends => hover (he.over.mpr hends)
      cases e <;> simp_all
    have hapart : LoopEnds json around s₀ inputs .threw →
        ¬ LoopEnds json around s₀ inputs .goesOn := by
      rintro ⟨n, t, ht, hthrows⟩ hgoesOn
      obtain ⟨s, hs, -⟩ := hgoesOn (n + 1)
      exact absurd (not_over_of_throws ht hthrows hs).1 (by omega)
    -- throwing and going on exclude each other
    rcases hnot h with rfl | rfl <;> rcases hnot h' with rfl | rfl
    · rfl
    · exact absurd h' (hapart h)
    · exact absurd h (hapart h')
    · rfl

end

end Server

namespace Process

variable {env : Environment} {p : Process}

/-- Which servers of the process run. -/
def serversRunning (p : Process) : Bool × Bool × Bool :=
  (p.udpServer.any (·.running), p.httpServer.any (·.running), p.tcpServer.any (·.running))

/-- The flags do not depend on the history. -/
@[simp] theorem serversRunning_uses (uses : List (Handles.Use Resource)) :
    serversRunning { p with uses := uses } = p.serversRunning :=
  rfl

/-- Each `stop` of the process clears the flag of its own server and leaves the others, -/
theorem stopUdp_serversRunning (hlog : CanLog env p.defaultLogger) :
    Returns (stopUdp env) p fun _ p' => CanLog env p'.defaultLogger ∧
      p'.serversRunning = (false, p.serversRunning.2) := by
  rw [stopUdp, Returns, ensures_bind, ensures_get]
  cases hudp : p.udpServer with
  | none => exact ⟨hlog, by simp [serversRunning, hudp]⟩
  | some udp =>
    obtain ⟨socket, running⟩ := udp
    cases running with
    | false => exact ⟨hlog, by simp [serversRunning, hudp]⟩
    | true =>
      simp only [if_true]
      rw [ensures_bind, ensures_modify]
      exact ensures_log_of hlog ⟨hlog, rfl⟩

/-- that of the TCP server, -/
theorem stopTcp_serversRunning (hlog : CanLog env p.defaultLogger) :
    Returns (stopTcp env) p fun _ p' => CanLog env p'.defaultLogger ∧
      p'.serversRunning = (p.serversRunning.1, p.serversRunning.2.1, false) := by
  rw [stopTcp, Returns, ensures_bind, ensures_get]
  cases htcp : p.tcpServer with
  | none => exact ⟨hlog, by simp [serversRunning, htcp]⟩
  | some tcp =>
    obtain ⟨socket, running⟩ := tcp
    -- a server that does not run has been stopped before
    cases running with
    | false => exact ⟨hlog, by simp [serversRunning, htcp]⟩
    | true =>
      simp only [if_true]
      apply ensures_log_bind hlog
      rw [ensures_bind, ensures_modify]
      -- the socket is closed and forgotten, without any effect on the other servers
      cases socket with
      | none => exact ensures_log_of hlog ⟨hlog, rfl⟩
      | some fd =>
        simp only
        rw [ensures_bind, closeSocket, ensures_ite]
        split
        · rw [ensures_bind, ensures_release]
          refine ensures_log_of hlog ?_
          rw [ensures_bind, ensures_modify]
          exact ensures_log_of hlog ⟨hlog, rfl⟩
        · rw [ensures_pure, ensures_bind, ensures_modify]
          exact ensures_log_of hlog ⟨hlog, rfl⟩

/-- and that of the HTTP server, whether its thread had come up or not. -/
theorem stopHttp_serversRunning (hlog : CanLog env p.defaultLogger) :
    Returns (stopHttp env) p fun _ p' => CanLog env p'.defaultLogger ∧
      p'.serversRunning = (p.serversRunning.1, false, p.serversRunning.2.2) := by
  rw [stopHttp, Returns, ensures_bind, ensures_get]
  cases hhttp : p.httpServer with
  | none => exact ⟨hlog, by simp [serversRunning, hhttp]⟩
  | some http =>
    obtain ⟨running, joinable⟩ := http
    cases running with
    | false => exact ensures_log_of hlog ⟨hlog, by simp [serversRunning, hhttp]⟩
    | true =>
      simp only [if_true]
      apply ensures_log_bind hlog
      rw [ensures_bind, ensures_modify, ensures_bind, ensures_onlyIf]
      cases joinable with
      | false => exact ensures_log_of hlog ⟨hlog, rfl⟩
      | true =>
        rw [if_pos rfl, ensures_bind, ensures_release, ensures_modify]
        exact ensures_log_of hlog ⟨hlog, rfl⟩

/-- A stopped loop has stopped every server. -/
theorem stopServers_serversRunning (hlog : CanLog env p.defaultLogger) :
    Returns (do stopUdp env; stopTcp env; stopHttp env; log env) p fun _ p' =>
      p'.serversRunning = (false, false, false) := by
  rw [Returns, ensures_bind]
  apply (stopUdp_serversRunning hlog).mono _ fun _ _ hf => hf
  rintro _ p₁ ⟨hlog₁, h₁⟩
  rw [ensures_bind]
  apply (stopTcp_serversRunning hlog₁).mono _ fun _ _ hf => hf
  rintro _ p₂ ⟨hlog₂, h₂⟩
  rw [ensures_bind]
  apply (stopHttp_serversRunning hlog₂).mono _ fun _ _ hf => hf
  rintro _ p₃ ⟨hlog₃, h₃⟩
  exact ensures_log_of hlog₃ (by rw [h₃, h₂, h₁])

section
variable {r : Resource} {body : Method Unit} {S : Process → Prop} {E : Halt → Prop}

/-- The destructors of the guards change nothing but the history. -/
theorem atScopeEnd_keeps (hS : ∀ p uses, S p → S { p with uses := uses })
    (hbody : Ensures body p (fun _ p' => S p') fun e _ => E e) :
    Ensures (atScopeEnd (release r) body) p (fun _ p' => S p') fun e _ => E e := by
  unfold atScopeEnd
  rw [ensures_bind, ensures_catching]
  refine hbody.mono (fun _ p' hp' => hS p' _ hp') fun e p' he => ?_
  by_cases hexception : e = .exception
  · subst hexception
    rw [if_pos rfl, ensures_bind, ensures_release]
    exact he
  · rw [if_neg hexception]
    exact he

/-- A guard keeps what does not depend on the history if its body does, on every way out. -/
theorem guarded_keeps {created : Bool} (hS : ∀ p uses, S p → S { p with uses := uses })
    (hbody : ∀ uses, Ensures body { p with uses := uses } (fun _ p' => S p') fun e _ => E e) :
    Ensures (guarded r created body) p (fun _ p' => S p') fun e _ => E e := by
  unfold guarded
  cases created with
  | false => exact hbody p.uses
  | true =>
    rw [if_pos rfl, ensures_bind, ensures_acquire]
    exact atScopeEnd_keeps hS (hbody _)

end

/-- Which servers run when the loop has ended. -/
def AfterLoop (env : Environment) (p : Process) : Prop :=
  env.loopEnd = .stopped ∧ p.serversRunning = (false, false, false) ∨
    env.loopEnd = .left ∧ p.serversRunning = (true, true, true)

/-- Why the loop does not return. -/
def OutOfLoop (env : Environment) (e : Halt) : Prop :=
  e = .exception ∧ env.loopEnd = .threw ∨ e = .forever ∧ env.loopEnd = .goesOn

/-- The loop of the process ends as the environment says, and with all three servers stopped if it
stops. -/
theorem loop_afterLoop (hlog : CanLog env p.defaultLogger)
    (hrunning : p.serversRunning = (true, true, true)) :
    Ensures (loop env) p (fun _ p' => AfterLoop env p') fun e _ => OutOfLoop env e := by
  unfold loop AfterLoop OutOfLoop
  cases env.loopEnd with
  | stopped =>
    exact (stopServers_serversRunning hlog).mono (fun _ _ hstopped => .inl ⟨rfl, hstopped⟩)
      fun _ _ hf => hf.elim
  | left => exact ensures_log_of hlog (.inr ⟨rfl, hrunning⟩)
  | threw => exact .inl ⟨rfl, rfl⟩
  | goesOn => exact .inr ⟨rfl, rfl⟩

/-- The same for `runEventLoop`, whose guards only add to the history. -/
theorem runEventLoop_afterLoop (hepoll : env.epoll = true) (hlog : CanLog env p.defaultLogger)
    (hrunning : p.serversRunning = (true, true, true)) :
    Ensures (runEventLoop env) p (fun _ p' => AfterLoop env p') fun e _ => OutOfLoop env e := by
  have hkeeps : ∀ p uses, AfterLoop env p → AfterLoop env { p with uses := uses } :=
    fun _ _ hafter => hafter
  rw [runEventLoop, hepoll, if_neg (by decide)]
  exact guarded_keeps hkeeps fun _ => atScopeEnd_keeps hkeeps <| guarded_keeps hkeeps fun _ =>
    loop_afterLoop hlog hrunning

/-! ## The loop of the model

From here on the end in the environment is the one that the loop comes to over a stream of
inputs. -/

section
variable {json : JsonLib} {around : Nat → Surroundings} {service : Service} {socket : Nat}
  {start : Time} {inputs : Nat → ServerInput}

/-- **The loop as one step**: where the loop of the model ends, `runEventLoop` returns to a process
that has the same servers running as the loop had at its end. Where it throws or goes on, so does
`runEventLoop`. -/
theorem runEventLoop_agrees
    (hloop : Server.LoopEnds json around (.started service socket start) inputs env.loopEnd)
    (hepoll : env.epoll = true) (hlog : CanLog env p.defaultLogger)
    (hrunning : p.serversRunning = (true, true, true)) :
    Ensures (runEventLoop env) p
      (fun _ p' => ∃ n s,
        Run.after (Server.step json around) (.started service socket start) inputs n = some s ∧
        s.Over ∧ p'.serversRunning = (s.udpRunning, s.httpRunning, s.tcpServer.running))
      fun e _ => OutOfLoop env e := by
  -- the loop itself stops the servers exactly when it stops
  have hservers : ∀ {n s},
      Run.after (Server.step json around) (.started service socket start) inputs n = some s →
      (s.udpRunning, s.httpRunning, s.tcpServer.running)
        = if s.state = .STOPPED then (false, false, false) else (true, true, true) := by
    intro n s hs
    obtain ⟨turns, hturns⟩ := Server.exec_turns hs
    exact Server.serversRun_exec hturns
  refine (runEventLoop_afterLoop hepoll hlog hrunning).mono (fun _ p' hafter => ?_) fun _ _ he => he
  rcases hafter with ⟨hend, hstopped⟩ | ⟨hend, hleft⟩
  · rw [hend] at hloop
    obtain ⟨n, s, hs, hstate⟩ := hloop
    refine ⟨n, s, hs, .inr hstate, ?_⟩
    rw [hservers hs, if_pos hstate, hstopped]
  · -- `epoll_wait` has failed: `break`, with the servers still running
    rw [hend] at hloop
    obtain ⟨n, s, hs, hbroken, hstate⟩ := hloop
    refine ⟨n, s, hs, .inl hbroken, ?_⟩
    rw [hservers hs, if_neg hstate, hleft]

/-- **The exit code of a server that serves**: once everything has started, `run` returns exactly if
the loop does not go on for ever, and it returns 0 exactly if the loop comes to be over, because it
has stopped or because `epoll_wait` has failed. -/
theorem exitCode_of_loop
    (hloop : Server.LoopEnds json around (.started service socket start) inputs env.loopEnd)
    (henters : env.EntersLoop) :
    ((∃ code p, (run env).run initial = .ok code p) ↔
      ¬ ∀ n, ∃ s, Run.after (Server.step json around) (.started service socket start) inputs n
        = some s ∧ ¬ s.Over) ∧
    ((∃ p, (run env).run initial = .ok 0 p) ↔
      ∃ n s, Run.after (Server.step json around) (.started service socket start) inputs n
        = some s ∧ s.Over) := by
  -- everything has started, so only the end of the loop is left of these conditions
  obtain ⟨hready, hwriter, hservers, hepoll⟩ := henters
  have hgoesOn : env.GoesOn ↔ env.loopEnd = .goesOn := by
    simp [Environment.GoesOn, Environment.LoopGoesOn, hready, hwriter, hservers, hepoll]
  have hserves : env.Serves ↔ env.loopEnd = .stopped ∨ env.loopEnd = .left := by
    simp [Environment.Serves, Environment.LoopReturns, hready, hwriter, hservers, hepoll]
  rw [run_returns_iff, hgoesOn, hloop.over]
  refine ⟨not_congr ⟨fun hend n => ?_, fun hforever => ?_⟩, ?_⟩
  · rw [hend] at hloop
    exact hloop n
  · -- two ends of one loop are the same
    exact Server.loopEnds_unique hloop hforever
  · rw [← hserves]
    constructor
    · rintro ⟨p, hrun⟩
      exact (run_ended.of_run_ok hrun).code_eq_zero_iff.mp rfl
    · intro hserved
      obtain ⟨code, p, hrun⟩ := run_returns_iff.mpr hserved.not_goesOn
      obtain rfl := (run_ended.of_run_ok hrun).code_eq_zero_iff.mpr hserved
      exact ⟨p, hrun⟩

end

end Process
end Pgw
