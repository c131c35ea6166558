import Mathlib.Data.Rat.Floor
import Mathlib.Tactic.Linarith
import Mathlib.Tactic.Ring
import MiniPgw.Server.Shutdown

/-!
# The rate at which the event loop drains

Every expiration of the drain timer removes one session at most, in whatever groups the expirations
are read (`removedByTimer_le`). The period of the timer is `1000 / rate` in whole milliseconds,
rounded down, so the loop may drain faster than it is configured to; `neverFaster_iff` says at which
rates it cannot.

## The architecture

* **`TimerFd.expirationsBy`** — the kernel's side: how often a timer has expired by a given time.
* **`expire_removes`**, **`removedByTimer_le`** — the loop's side: one session for an expiration
  at most, by induction on the expirations and on the run.
* **`mul_expirationsBy_le`** — if no time is lost in the rounding, the expirations of a second are
  not more than the rate.
* **`inexact_faster`** — if time is lost, a thousand sessions are enough to show it;
  **`toldToShutDownWith`** is a server that has them.
-/

namespace Pgw

open Effects

/-! ## Expirations

The kernel counts the expirations between two reads. However they are distributed over the reads,
each of them removes one session at most. -/

/-- The period of a timer, in nanoseconds. -/
def ITimerSpec.period (spec : ITimerSpec) : Time :=
  seconds spec.itInterval.tvSec + spec.itInterval.tvNsec

/-- The number of expirations by the time `t` after the timer has been set: the `k`-th one occurs
`k` periods after it. -/
def TimerFd.expirationsBy (t : Time) : TimerFd → Int
  | .disarmed => 0
  | .armed spec => t / spec.period

namespace Turn

def isTimer : Turn → Bool
  | .event ready => ready.isTimer
  | _ => false

/-- What the turn reads from the timer. -/
def expirations : Turn → Nat
  | .event ready => ready.expirations
  | _ => 0

theorem eq_timer_of_isTimer {t : Turn} (h : t.isTimer = true) :
    ∃ e, t = .event (.timer e) := by
  cases t with
  | event ready =>
    cases ready with
    | timer e => exact ⟨e, rfl⟩
    | _ => cases h
  | _ => cases h

end Turn

namespace SessionManager

variable {m : SessionManager}

/-- A call of `shutdownSession` removes one session at most, also when it throws. -/
theorem shutdownSession_takes :
    Ensures shutdownSession m (fun _ m' => m.sessions.size ≤ m'.sessions.size + 1)
      (fun _ m' => m.sessions.size ≤ m'.sessions.size + 1) := by
  refine shutdownSession_ensures.mono (fun sessionsAvailable m' h => ?_) fun _ m' h => h.2.ge
  cases sessionsAvailable with
  | true =>
    rw [if_pos rfl] at h
    exact h.2.ge
  | false =>
    rw [if_neg Bool.false_ne_true] at h
    rw [h.2.1]
    exact Nat.le_succ _

end SessionManager

namespace Server

variable {json : JsonLib} {around : Nat → Surroundings} {s : Server}

/-- `e` expirations remove `e` sessions at most. Induction on the expirations. -/
theorem expire_removes (expirations : Nat) :
    ∀ {s : Server}, Ensures (expire expirations) s
      (fun _ s' => s.sessionManager.sessions.size ≤ s'.sessionManager.sessions.size + expirations)
      (fun _ s' => s.sessionManager.sessions.size
        ≤ s'.sessionManager.sessions.size + expirations) := by
  induction expirations with
  | zero => exact le_rfl
  | succ expirations ih =>
    intro s
    simp only [expire, ensures_bind, onManager, ensures_zoom]
    -- one expiration, whether its `shutdownSession` returns or throws
    refine SessionManager.shutdownSession_takes.mono (fun more m hm => ?_) fun _ m hm => ?_
    · have hm' : s.sessionManager.sessions.size
          ≤ (s.setSessionManager m).sessionManager.sessions.size + 1 := hm
      have hrest : ∀ s' : Server, (s.setSessionManager m).sessionManager.sessions.size
          ≤ s'.sessionManager.sessions.size + expirations →
            s.sessionManager.sessions.size
              ≤ s'.sessionManager.sessions.size + (expirations + 1) := by
        intro s' h
        omega
      rw [ensures_ite]
      split
      · exact ih.mono (fun _ s' h => hrest s' h) fun _ s' h => hrest s' h
      · exact hrest _ (Nat.le_add_right _ _)
    · have hm' : s.sessionManager.sessions.size
          ≤ (s.setSessionManager m).sessionManager.sessions.size + 1 := hm
      omega

/-- One read of the timer, also when an exception leaves the loop. -/
theorem timerTurn_removes (e : Nat) :
    s.sessionManager.sessions.size ≤
      (finalState ((take json around (.event (.timer e))).run s)).sessionManager.sessions.size
        + e := by
  by_cases hstate : s.state = .DRAINING
  · rw [take_timer_run_draining hstate]
    exact (expire_removes e).finalState
  · rw [take_timer_run_ignored hstate]
    exact Nat.le_add_right _ _

variable (json around) in
/-- The number of sessions that the timer events of a run remove, including the one that leaves the
loop by an exception. -/
def removedByTimer : Server → List Turn → Nat
  | _, [] => 0
  | s, t :: turns =>
    let outcome := (take json around t).run s
    let removed := if t.isTimer
      then s.sessionManager.sessions.size - (finalState outcome).sessionManager.sessions.size else 0
    match outcome with
    | .ok _ s' => removed + removedByTimer s' turns
    | .error _ _ => removed

/-- **No more sessions than expirations,** however they are read. Induction on the run. -/
theorem removedByTimer_le (turns : List Turn) :
    ∀ s, removedByTimer json around s turns ≤ (turns.map Turn.expirations).sum := by
  induction turns with
  | nil => exact fun _ => le_rfl
  | cons t turns ih =>
    intro s
    -- one turn removes at most the sessions that it has read expirations for
    have hone : (if t.isTimer then s.sessionManager.sessions.size -
        (finalState ((take json around t).run s)).sessionManager.sessions.size else 0)
          ≤ t.expirations := by
      split
      · next htimer =>
        obtain ⟨e, rfl⟩ := Turn.eq_timer_of_isTimer htimer
        exact Nat.sub_le_iff_le_add'.mpr (timerTurn_removes e)
      · exact Nat.zero_le _
    rw [removedByTimer, List.map_cons, List.sum_cons]
    cases hrun : (take json around t).run s with
    | ok _ s' =>
      rw [hrun] at hone
      exact Nat.add_le_add hone (ih s')
    | error e s' =>
      rw [hrun] at hone
      exact hone.trans (Nat.le_add_right _ _)

/-- A read of the timer takes as many sessions as it can. -/
theorem removedByTimer_timer (hstate : s.state = .DRAINING)
    (hreliable : s.sessionManager.cdrWriter.Reliable) (e : Nat) :
    removedByTimer json around s [.event (.timer e)] = min e s.sessionManager.sessions.size := by
  obtain ⟨_, s', hexpire, hsize, -⟩ := (returns_iff _).mp (expire_takes e hreliable)
  simp only [removedByTimer, take_timer_run_draining hstate, hexpire, finalState_ok, hsize]
  show s.sessionManager.sessions.size - (s.sessionManager.sessions.size - e) + 0 = _
  omega

/-! ## The configured rate

The rate promises a number of sessions in a time. The period is rounded down to whole milliseconds,
and the part of one that is lost comes back as additional expirations. -/

/-- In milliseconds. -/
def inMilliseconds (t : Time) : ℚ :=
  t / 1000000

/-- The loop never drains faster than at this rate: in the time `t` from the iteration that starts
the timer, of whose expirations not more are read than have occurred. -/
def NeverFaster (rate : Int) : Prop :=
  ∀ json around s₀ s₁, Requested rate s₀ → s₀.timerFd = .disarmed →
    turn json around s₀ .beginIteration = some s₁ → ∀ turns t, 0 ≤ t →
      ((turns.map Turn.expirations).sum : Int) ≤ s₁.timerFd.expirationsBy t →
        (removedByTimer json around s₁ turns : Int) ≤ ⌈rate * inMilliseconds t / 1000⌉

/-- The iteration that starts the timer. -/
theorem turn_beginIteration {rate : Int} {s₀ : Server} (h : Requested rate s₀) :
    turn json around s₀ .beginIteration = some s₀.shutdownStarted :=
  turn_eq_some.mpr (beginIteration_run_requested h.state h.shutdownRequest)

theorem timerFd_shutdownStarted {rate : Int} {s₀ : Server} (h : Requested rate s₀)
    (htimer : s₀.timerFd = .disarmed) :
    s₀.shutdownStarted.timerFd = TimerFd.disarmed.settime (shutdownTimerSpec rate) := by
  show s₀.timerFd.settime s₀.timerSpec = _
  rw [htimer, h.timerSpec]

/-- The period in nanoseconds. -/
theorem period_shutdownTimerSpec (rate : Int) :
    (shutdownTimerSpec rate).period = 1000 / rate * 1000000 := by
  rw [ITimerSpec.period, shutdownTimerSpec, shutdownInterval_eq]
  show 0 * 1000000000 + _ = _
  rw [zero_mul, zero_add]

/-- When the rate divides a second, or never arms the timer, there are `rate` expirations in a
second at most. -/
theorem mul_expirationsBy_le {rate : Int} (hrate : 0 < rate) (hexact : rate ∣ 1000 ∨ 1000 < rate)
    {t : Time} (ht : 0 ≤ t) :
    (TimerFd.disarmed.settime (shutdownTimerSpec rate)).expirationsBy t * 1000000000
      ≤ rate * t := by
  by_cases harms : (shutdownTimerSpec rate).Arms
  · rw [TimerFd.settime_of_arms harms, TimerFd.expirationsBy, period_shutdownTimerSpec]
    have hrange := (shutdownTimerSpec_arms_iff hrate).mp harms
    have hdivides : rate ∣ 1000 := hexact.resolve_right (by omega)
    -- an exact rate loses nothing when the period is rounded to milliseconds
    have hproduct : rate * (1000 / rate) = 1000 := Int.mul_ediv_cancel' hdivides
    have hfloor : t / (1000 / rate * 1000000) * (1000 / rate * 1000000) ≤ t := by
      refine Int.ediv_mul_le t ?_
      have hpositive : 0 < 1000 / rate := by
        exact Int.ediv_pos_of_pos_of_dvd (by decide) hrate.le hdivides
      omega
    -- the expirations by `t` fit into it, one period each
    calc t / (1000 / rate * 1000000) * 1000000000
        = t / (1000 / rate * 1000000) * (rate * (1000 / rate) * 1000000) := by
          rw [hproduct]
          norm_num
      _ = rate * (t / (1000 / rate * 1000000) * (1000 / rate * 1000000)) := by ring
      _ ≤ rate * t := Int.mul_le_mul_of_nonneg_left hfloor hrate.le
  · rw [TimerFd.settime_of_not_arms harms, TimerFd.expirationsBy, zero_mul]
    exact Int.mul_nonneg hrate.le ht

theorem le_ceil_of_mul_le {k rate : Int} {t : Time} (h : k * 1000000000 ≤ rate * t) :
    k ≤ ⌈rate * inMilliseconds t / 1000⌉ := by
  have hcast : (k : ℚ) * 1000000000 ≤ rate * t := by exact_mod_cast h
  have hrational : (k : ℚ) ≤ rate * inMilliseconds t / 1000 := by
    unfold inMilliseconds
    linarith
  exact_mod_cast hrational.trans (Int.le_ceil _)

/-! ## A shutdown of many sessions

To see that an inexact rate is exceeded takes as many sessions as there are expirations: a thousand
are enough at every rate that is accepted. -/

/-- A manager with sessions of these subscribers. -/
def subscribed (imsis : List Imsi) (rate : Int) : SessionManager :=
  imsis.foldl (fun m imsi => m.created imsi 0)
    (.constructed ⟨[], 0, fun _ => false⟩ ∅ 30 rate 0)

/-- Induction on the subscribers. -/
theorem foldl_created (imsis : List Imsi) :
    ∀ m : SessionManager, let m' := imsis.foldl (fun m imsi => m.created imsi 0) m
      m'.shutdownRate = m.shutdownRate ∧ m'.cdrWriter.throwsAt = m.cdrWriter.throwsAt ∧
        m'.sessions.keySet = m.sessions.keySet ∪ imsis.toFinset := by
  induction imsis with
  | nil => exact fun m => ⟨rfl, rfl, (Finset.union_empty _).symm⟩
  | cons imsi imsis ih =>
    intro m
    obtain ⟨hrate, hthrows, hkeys⟩ := ih (m.created imsi 0)
    refine ⟨hrate, hthrows, hkeys.trans ?_⟩
    have hone : (m.created imsi 0).sessions.keySet = insert imsi m.sessions.keySet :=
      UnorderedMap.keySet_insert m.sessions imsi ⟨0⟩
    rw [hone, List.toFinset_cons, Finset.union_insert, Finset.insert_union]

theorem subscribed_size {imsis : List Imsi} (h : imsis.Nodup) (rate : Int) :
    (subscribed imsis rate).sessions.size = imsis.length := by
  rw [← UnorderedMap.card_keySet, subscribed, (foldl_created imsis _).2.2]
  show (∅ ∪ imsis.toFinset).card = imsis.length
  rw [Finset.empty_union, List.toFinset_card_of_nodup h]

/-- The server with this manager that has just been told to shut down. -/
def toldToShutDownWith (imsis : List Imsi) (rate : Int) : Server :=
  let tcpHandler : TcpHandler := ⟨subscribed imsis rate, true, true⟩
  .entered (.constructed ⟨tcpHandler, 0⟩ 3) 0

theorem toldToShutDownWith_requested (imsis : List Imsi) (rate : Int) :
    Requested rate (toldToShutDownWith imsis rate) := by
  refine ⟨rfl, rfl, ?_⟩
  show shutdownTimerSpec (subscribed imsis rate).shutdownRate = shutdownTimerSpec rate
  rw [subscribed, (foldl_created imsis _).1]
  rfl

/-- All the expirations are read at once. -/
theorem toldToShutDownWith_removes {imsis : List Imsi} (h : imsis.Nodup) (rate : Int) (e : Nat) :
    removedByTimer json around (toldToShutDownWith imsis rate).shutdownStarted [.event (.timer e)]
      = min e imsis.length := by
  have hreliable :
      (toldToShutDownWith imsis rate).shutdownStarted.sessionManager.cdrWriter.Reliable := by
    intro n
    show (subscribed imsis rate).cdrWriter.throwsAt n = false
    rw [subscribed, (foldl_created imsis _).2.1]
    rfl
  rw [removedByTimer_timer rfl hreliable, ← subscribed_size h rate]
  rfl

/-- The `i`-th of a thousand IMSIs. -/
def imsiOf (i : Nat) : Imsi :=
  ascii "001010000000" ++ [i / 100, i / 10 % 10, i % 10].map fun d => UInt8.ofNat (48 + d)

theorem imsiOf_injective {i j : Nat} (hi : i < 1000) (hj : j < 1000) (h : imsiOf i = imsiOf j) :
    i = j := by
  have hdigits := List.append_cancel_left h
  simp only [List.map_cons, List.cons.injEq, ← UInt8.toNat_inj, UInt8.toNat_ofNat'] at hdigits
  omega

def subscribers (n : Nat) : List Imsi :=
  (List.range n).map imsiOf

theorem subscribers_length (n : Nat) : (subscribers n).length = n := by
  rw [subscribers, List.length_map, List.length_range]

theorem subscribers_nodup {n : Nat} (hn : n ≤ 1000) : (subscribers n).Nodup := by
  refine List.Nodup.map_on (fun i hi j hj h => ?_) List.nodup_range
  have hi' := List.mem_range.mp hi
  have hj' := List.mem_range.mp hj
  exact imsiOf_injective (by omega) (by omega) h

/-- A thousand sessions, and a thousand expirations: the time lost in each period adds up to a
session and more. -/
theorem inexact_faster {rate : Int} (hlow : 2 ≤ rate) (hhigh : rate ≤ 1000)
    (hinexact : ¬ rate ∣ 1000) : ¬ NeverFaster rate := by
  intro h
  have hrate : 0 < rate := by omega
  have harms := (shutdownTimerSpec_arms_iff hrate).mpr ⟨hlow, hhigh⟩
  have hinterval : 1 ≤ 1000 / rate := by
    rw [Int.le_ediv_iff_mul_le hrate]
    omega
  have hrequested := toldToShutDownWith_requested (subscribers 1000) rate
  have hoccurred : TimerFd.expirationsBy (milliseconds (1000 * (1000 / rate)))
      (toldToShutDownWith (subscribers 1000) rate).shutdownStarted.timerFd = 1000 := by
    rw [timerFd_shutdownStarted hrequested rfl, TimerFd.settime_of_arms harms,
      TimerFd.expirationsBy, period_shutdownTimerSpec, milliseconds, mul_assoc]
    exact Int.mul_ediv_cancel _ (by omega)
  have hbound := h noJson noRecords _ _ hrequested rfl (turn_beginIteration hrequested)
    [.event (.timer 1000)] (milliseconds (1000 * (1000 / rate)))
    (Int.mul_nonneg (by omega) (by decide)) hoccurred.ge
  rw [toldToShutDownWith_removes (subscribers_nodup le_rfl), subscribers_length] at hbound
  -- `rate` sessions a second are `rate * (1000 / rate)` sessions
  have hallowed : (rate : ℚ) * inMilliseconds (milliseconds (1000 * (1000 / rate))) / 1000
      = (rate * (1000 / rate) : Int) := by
    unfold inMilliseconds milliseconds
    push_cast
    ring
  rw [hallowed, Int.ceil_intCast] at hbound
  have hlost : rate * (1000 / rate) ≠ 1000 := fun heq => hinexact ⟨_, heq.symm⟩
  have hle : rate * (1000 / rate) ≤ 1000 := Int.mul_ediv_self_le hrate.ne'
  have hleast : ((min 1000 1000 : Nat) : Int) = 1000 := rfl
  omega

/-- **At which rates the loop never drains faster.** Either no time is lost when the period is
rounded to milliseconds, or the timer is never armed. -/
theorem neverFaster_iff {rate : Int}
    (hvalid : Validation.isValidGracefulShutdownRate rate = true) :
    NeverFaster rate ↔ rate ∣ 1000 ∨ 1000 < rate := by
  have hrate : 0 < rate := of_decide_eq_true hvalid
  constructor
  · intro h
    by_contra hother
    obtain ⟨hinexact, hhigh⟩ := not_or.mp hother
    have hone : rate ≠ 1 := fun heq => hinexact (heq ▸ one_dvd _)
    exact inexact_faster (by omega) (by omega) hinexact h
  · intro hexact json around s₀ s₁ hrequested htimer hbegin turns t ht hread
    rw [turn_beginIteration hrequested, Option.some.injEq] at hbegin
    subst hbegin
    rw [timerFd_shutdownStarted hrequested htimer] at hread
    refine le_ceil_of_mul_le ?_
    -- each expiration removes at most one session
    have hremoved : (removedByTimer json around s₀.shutdownStarted turns : Int)
        ≤ (turns.map Turn.expirations).sum := by
      exact_mod_cast removedByTimer_le turns s₀.shutdownStarted
    calc (removedByTimer json around s₀.shutdownStarted turns : Int) * 1000000000
        ≤ (TimerFd.disarmed.settime (shutdownTimerSpec rate)).expirationsBy t * 1000000000 :=
          Int.mul_le_mul_of_nonneg_right (hremoved.trans hread) (by decide)
      _ ≤ rate * t := mul_expirationsBy_le hrate hexact ht

/-- Ten sessions a second. -/
theorem neverFaster_ten : NeverFaster 10 :=
  (neverFaster_iff (by decide)).mpr (.inl (by decide))

/-- The timer of the rate 600 expires every millisecond: three expirations in 3 ms, where 2 sessions
would be allowed. -/
theorem not_neverFaster_sixHundred :
    Validation.isValidGracefulShutdownRate 600 = true ∧ ¬ NeverFaster 600 := by
  refine ⟨by decide, fun h => ?_⟩
  have hrequested := toldToShutDownWith_requested (subscribers 3) 600
  have hbound := h noJson noRecords _ _ hrequested rfl (turn_beginIteration hrequested)
    [.event (.timer 3)] (milliseconds 3) (by decide) (by decide)
  rw [toldToShutDownWith_removes (subscribers_nodup (by decide)), subscribers_length] at hbound
  revert hbound
  unfold inMilliseconds milliseconds
  norm_num

end Server
end Pgw
