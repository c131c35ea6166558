import Mathlib
import MiniPgw.Session.FailedWrite

/-!
# The pace of gracefulShutdown

`gracefulShutdown` sleeps between two deletions until `delayBetweenSessions` has passed since
`lastDeletionTime`. This time is moved on only when the loop sleeps. So iterations sleep as long as
each of them begins in time (`Punctual`); the first one that does not never sleeps, and neither does
any later one (`paced_punctual`, `paced_late`).

The readings of the clock are arbitrary, as long as they do not decrease and a sleep lasts as long
as it is asked to (`SleepsLast`). The timeout of the shutdown is then never noticed
(`endsInTime_iff`), and after a late iteration the pace depends on the deletions themselves
(`keepsPace_iff`).

## The architecture

* **`paced`** — the local variables of the loop before each iteration, from the readings of the
  clock, the rate and the timeout alone.
* **`shutdownLoop_reaches`**, **`gracefulShutdown_run`** — the loop of the model runs through
  them, as long as the records can be written; `pacedLoop_completes` and `pacedLoop_throws` are
  its two ends.
* **`paced_punctual`**, **`paced_late`** — the variables before and after the first late
  iteration; `schedule` says when punctual iterations take place.
* **`endsInTime_iff`** — the check of the timeout never holds, so the sum of the sleeps decides.
* **`Deletes`**, **`lastReading`**, **`keepsPace_iff`** — when each deletion takes place, in terms
  of the last reading of the clock before it.
-/

namespace Pgw

open Effects

namespace SessionManager

variable {m m' : SessionManager} {clock : Nat → Time} {i l t : Nat}

/-- `delayBetweenSessions` -/
def delayBetweenSessions (m : SessionManager) : Time :=
  milliseconds ((1000 : Int).tdiv m.shutdownRate)

/-- The local variables of the loop before its iteration `i`. -/
def paced (m : SessionManager) (clock : Nat → Time) (i : Nat) : Pacing :=
  (pace clock m.sessionTimeoutSec m.delayBetweenSessions (clock 0))^[i] ⟨clock 0, false, 1, []⟩

/-- The next iteration starts where the one before has left its variables. -/
theorem paced_succ : m.paced clock (i + 1)
    = pace clock m.sessionTimeoutSec m.delayBetweenSessions (clock 0) (m.paced clock i) :=
  Function.iterate_succ_apply' ..

/-- `sleep_for(d)` lasts at least `d`. -/
def SleepsLast (m : SessionManager) (clock : Nat → Time) : Prop :=
  ∀ i d, (m.paced clock (i + 1)).sleeps = (m.paced clock i).sleeps ++ [d] →
    clock (m.paced clock i).readings + d ≤ clock ((m.paced clock i).readings + 1)

/-! ## The iterations of the loop

An iteration deletes a session and reads the clock once or twice. The state of the loop before the
iteration `k` is computed from the readings alone, without the manager. -/

/-- The records of the first `k` deletions can be written. -/
def WritesFirst (m : SessionManager) (k : Nat) : Prop :=
  ∀ j < k, m.cdrWriter.throwsAt (m.cdrWriter.calls + j) = false

/-- **The loop after `k` deletions** is at its iteration `k`. Induction on `k`. -/
theorem shutdownLoop_reaches (pacing : Pacing → Pacing) (p : Pacing) (k : Nat) :
    ∀ fuel, k ≤ m.sessions.size → m.WritesFirst k →
      ∃ m', (shutdownLoop pacing (fuel + k) p).run m
        = (shutdownLoop pacing fuel (pacing^[k] p)).run m' ∧
        m'.sessions.size + k = m.sessions.size ∧
        m'.cdrWriter.calls = m.cdrWriter.calls + k ∧
        m'.cdrWriter.throwsAt = m.cdrWriter.throwsAt := by
  induction k with
  | zero => exact fun fuel _ _ => ⟨m, rfl, rfl, rfl, rfl⟩
  | succ k ih =>
    intro fuel hsize hwrites
    obtain ⟨m', hrun, hsize', hcalls, hthrows⟩ :=
      ih (fuel + 1) (by omega) fun j hj => hwrites j (by omega)
    cases hentries : m'.sessions.entries with
    | nil =>
      rw [UnorderedMap.size, hentries, List.length_nil] at hsize'
      omega
    | cons it rest =>
      -- the writes so far are `k`, and the next one does not throw either
      have hwrite : m'.Writes := by
        rw [Writes, hcalls, hthrows]
        exact hwrites k (Nat.lt_succ_self k)
      have hin : it.1 ∈ m'.sessions := UnorderedMap.mem_of_entries_eq_cons hentries
      have hless := UnorderedMap.size_erase hin
      refine ⟨m'.terminated it.1, ?_, ?_, ?_, hthrows⟩
      · rw [show fuel + (k + 1) = fuel + 1 + k by omega, hrun, shutdownLoop_succ_run,
          shutdownSession_run hwrite hentries, Function.iterate_succ_apply']
      · show UnorderedMap.size (m'.sessions.erase it.1) + (k + 1) = m.sessions.size
        omega
      · show m'.cdrWriter.calls + 1 = m.cdrWriter.calls + (k + 1)
        omega

/-- Either a property holds below `n`, or it fails somewhere for the first time. -/
theorem forall_lt_or_first (P : Nat → Prop) (n : Nat) :
    (∀ k < n, P k) ∨ ∃ k < n, (∀ j < k, P j) ∧ ¬ P k := by
  induction n with
  | zero => exact .inl fun k hk => absurd hk (Nat.not_lt_zero k)
  | succ n ih =>
    rcases ih with hall | ⟨k, hk, hfirst⟩
    · by_cases hn : P n
      · exact .inl (Nat.forall_lt_succ_right.mpr ⟨hall, hn⟩)
      · exact .inr ⟨n, Nat.lt_succ_self n, hall, hn⟩
    · exact .inr ⟨k, Nat.lt_succ_of_lt hk, hfirst⟩

/-- The loop of `gracefulShutdown`. -/
def pacedLoop (m : SessionManager) (clock : Nat → Time) : Method Unit :=
  shutdownLoop (pace clock m.sessionTimeoutSec m.delayBetweenSessions (clock 0))
    (m.sessions.size + 1) (m.paced clock 0)

/-- `gracefulShutdown` is the loop over a draining manager; only with an empty table is the cached
number of sessions set. -/
theorem gracefulShutdown_run (hrate : m.shutdownRate ≠ 0) (clock : Nat → Time) :
    (gracefulShutdown clock).run m =
      match (m.pacedLoop clock).run { m with draining := true } with
      | .ok _ m' =>
        .ok () (if m'.sessions.entries = [] then { m' with stats.activeSessions := 0 } else m')
      | .error e m' => .error e m' := by
  have hloop : shutdownLoop (pace clock m.sessionTimeoutSec
      (milliseconds ((1000 : Int).tdiv m.shutdownRate)) (clock 0)) (m.sessions.size + 1)
        ⟨clock 0, false, 1, []⟩ = m.pacedLoop clock := rfl
  simp only [gracefulShutdown, EStateM.run_bind, EStateM.run_modify, EStateM.run_get, if_neg hrate,
    hloop]
  cases (m.pacedLoop clock).run { m with draining := true } <;> rfl

/-- **The iteration `k` of `gracefulShutdown`** starts with the local variables `paced k`, after `k`
deletions. -/
theorem pacedLoop_reaches (clock : Nat → Time) {k : Nat} (hk : k ≤ m.sessions.size)
    (hwrites : m.WritesFirst k) :
    ∃ m', (m.pacedLoop clock).run { m with draining := true } =
        (shutdownLoop (pace clock m.sessionTimeoutSec m.delayBetweenSessions (clock 0))
          (m.sessions.size - k + 1) (m.paced clock k)).run m' ∧
      m'.sessions.size + k = m.sessions.size ∧
      m'.cdrWriter.calls = m.cdrWriter.calls + k ∧
      m'.cdrWriter.throwsAt = m.cdrWriter.throwsAt := by
  have hreaches := shutdownLoop_reaches (m := { m with draining := true })
    (pace clock m.sessionTimeoutSec m.delayBetweenSessions (clock 0)) (m.paced clock 0) k
    (m.sessions.size - k + 1) hk hwrites
  rwa [show m.sessions.size - k + 1 + k = m.sessions.size + 1 by omega] at hreaches

/-- An iteration whose record cannot be written ends the loop, after it has deleted a session. -/
theorem shutdownSession_fails (h : ¬ m.Writes) (hsome : 0 < m.sessions.size) :
    ∃ m', shutdownSession.run m = .error .exception m' ∧
      m'.sessions.size + 1 = m.sessions.size := by
  cases hentries : m.sessions.entries with
  | nil =>
    rw [UnorderedMap.size, hentries, List.length_nil] at hsome
    omega
  | cons it rest =>
    have hin : it.1 ∈ m.sessions := UnorderedMap.mem_of_entries_eq_cons hentries
    exact ⟨_, shutdownSession_run_throws h hentries, UnorderedMap.size_erase hin⟩

/-- When every record can be written, the last iteration finds the table empty. -/
theorem pacedLoop_completes (clock : Nat → Time) (hwrites : m.WritesFirst m.sessions.size) :
    ∃ m', (m.pacedLoop clock).run { m with draining := true } = .ok () m' ∧
      m'.sessions.entries = [] := by
  obtain ⟨m', hreaches, hsize, -, -⟩ := pacedLoop_reaches clock le_rfl hwrites
  have hempty : m'.sessions.entries = [] :=
    List.length_eq_zero_iff.mp (show m'.sessions.size = 0 by omega)
  rw [shutdownLoop_succ_run, shutdownSession_run_empty hempty] at hreaches
  exact ⟨m', hreaches, hempty⟩

/-- When the record of the deletion `k` is the first that cannot be written, the loop ends there. -/
theorem pacedLoop_throws (clock : Nat → Time) {k : Nat} (hk : k < m.sessions.size)
    (hwrites : m.WritesFirst k)
    (hthrows : ¬ m.cdrWriter.throwsAt (m.cdrWriter.calls + k) = false) :
    ∃ m', (m.pacedLoop clock).run { m with draining := true } = .error .exception m' ∧
      m'.sessions.size + (k + 1) = m.sessions.size := by
  obtain ⟨mₖ, hreaches, hsize, hcalls, hthrowsAt⟩ := pacedLoop_reaches clock hk.le hwrites
  have hthrows' : ¬ mₖ.Writes := by
    rw [Writes, hcalls, hthrowsAt]
    exact hthrows
  obtain ⟨m', hfails, hless⟩ := shutdownSession_fails hthrows' (by omega)
  rw [shutdownLoop_succ_run, hfails] at hreaches
  exact ⟨m', hreaches, by omega⟩

/-- **The loop empties the table** unless a record cannot be written. -/
theorem gracefulShutdown_empties_iff (hrate : m.shutdownRate ≠ 0) (clock : Nat → Time) :
    (∃ m', (gracefulShutdown clock).run m = .ok () m' ∧ m'.sessions.entries = []) ↔
      m.WritesFirst m.sessions.size := by
  rw [gracefulShutdown_run hrate]
  constructor
  · rintro ⟨m', hrun, -⟩
    rcases forall_lt_or_first _ m.sessions.size with hwrites | ⟨k, hk, hwrites, hthrows⟩
    · exact hwrites
    obtain ⟨m₁, hloop, -⟩ := pacedLoop_throws clock hk hwrites hthrows
    rw [hloop] at hrun
    cases hrun
  · intro hwrites
    obtain ⟨m', hloop, hempty⟩ := pacedLoop_completes clock hwrites
    refine ⟨{ m' with stats.activeSessions := 0 }, ?_, hempty⟩
    rw [hloop]
    simp only [if_pos hempty]

/-! ## When the loop sleeps

While the iterations are punctual each of them sleeps, and reads the clock again. From the first
late one on, the schedule is behind the clock and no iteration sleeps any more. -/

/-- The iteration `i` begins sooner than the delay after the sleep of the one before has ended. -/
def Punctual (m : SessionManager) (clock : Nat → Time) (i : Nat) : Prop :=
  clock (2 * i + 1) - clock (2 * i) < m.delayBetweenSessions

instance (m : SessionManager) (clock : Nat → Time) (i : Nat) : Decidable (m.Punctual clock i) :=
  inferInstanceAs (Decidable (_ < _))

/-- How long it then sleeps. -/
def sleepOf (m : SessionManager) (clock : Nat → Time) (i : Nat) : Time :=
  m.delayBetweenSessions - (clock (2 * i + 1) - clock (2 * i))

/-- As long as the iterations are punctual, each of them reads the clock twice and sleeps. Induction
on the iterations. -/
theorem paced_punctual (hclock : Monotone clock) (htimeout : 0 ≤ m.sessionTimeoutSec)
    (hpunctual : ∀ k < i, m.Punctual clock k) :
    m.paced clock i =
      ⟨clock (2 * i), false, 2 * i + 1, (List.range i).map (m.sleepOf clock)⟩ := by
  induction i with
  | zero => rfl
  | succ i ih =>
    have hnow := hpunctual i (Nat.lt_succ_self i)
    unfold Punctual at hnow
    -- with a clock that does not decrease the timeout is never noticed
    have hstart : clock 0 ≤ clock (2 * i + 1) := hclock (Nat.zero_le _)
    have hpositive : 0 ≤ seconds m.sessionTimeoutSec := Int.mul_nonneg htimeout (by decide)
    have hnever : ¬ clock 0 - clock (2 * i + 1) > seconds m.sessionTimeoutSec :=
      not_lt.mpr ((sub_nonpos.mpr hstart).trans hpositive)
    rw [paced_succ, ih fun k hk => hpunctual k (Nat.lt_succ_of_lt hk)]
    simp only [pace, Bool.false_eq_true, if_false, if_pos hnow, if_neg hnever, List.range_succ,
      List.map_append, List.map_cons, List.map_nil]
    rfl

/-- A punctual iteration has read the clock twice. -/
theorem readings_punctual (hclock : Monotone clock) (htimeout : 0 ≤ m.sessionTimeoutSec)
    (hpunctual : ∀ k ≤ i, m.Punctual clock k) : (m.paced clock i).readings = 2 * i + 1 := by
  rw [paced_punctual hclock htimeout fun k hk => hpunctual k hk.le]

/-- From the first iteration on that is not punctual, each of them reads the clock once and does not
sleep: the time of the last deletion is never moved on. -/
theorem paced_late (hclock : Monotone clock) (htimeout : 0 ≤ m.sessionTimeoutSec)
    (hpunctual : ∀ k < l, m.Punctual clock k) (hlate : ¬ m.Punctual clock l) :
    m.paced clock (l + t) =
      ⟨clock (2 * l), false, 2 * l + 1 + t, (List.range l).map (m.sleepOf clock)⟩ := by
  induction t with
  | zero => exact paced_punctual hclock htimeout hpunctual
  | succ t ih =>
    have hfirst : m.delayBetweenSessions ≤ clock (2 * l + 1) - clock (2 * l) := not_lt.mp hlate
    have hmono : clock (2 * l + 1) ≤ clock (2 * l + 1 + t) := hclock (Nat.le_add_right _ t)
    have hagain : ¬ clock (2 * l + 1 + t) - clock (2 * l) < m.delayBetweenSessions :=
      not_lt.mpr (hfirst.trans (sub_le_sub_right hmono _))
    rw [← Nat.add_assoc l t 1, paced_succ, ih]
    simp only [pace, Bool.false_eq_true, if_false, if_neg hagain]
    rfl

/-- A punctual iteration sleeps, -/
theorem sleeps_punctual (hclock : Monotone clock) (htimeout : 0 ≤ m.sessionTimeoutSec)
    (hpunctual : ∀ k ≤ i, m.Punctual clock k) :
    (m.paced clock (i + 1)).sleeps = (m.paced clock i).sleeps ++ [m.sleepOf clock i] := by
  rw [paced_punctual hclock htimeout fun k hk => hpunctual k (Nat.lt_succ_iff.mp hk),
    paced_punctual hclock htimeout fun k hk => hpunctual k hk.le, List.range_succ, List.map_append]
  rfl

/-- and after a late one there is no further sleep. -/
theorem sleeps_late (hclock : Monotone clock) (htimeout : 0 ≤ m.sessionTimeoutSec)
    (hpunctual : ∀ k < l, m.Punctual clock k) (hlate : ¬ m.Punctual clock l) :
    (m.paced clock (l + t + 1)).sleeps = (m.paced clock (l + t)).sleeps := by
  rw [Nat.add_assoc, paced_late hclock htimeout hpunctual hlate,
    paced_late hclock htimeout hpunctual hlate]

/-- What it means for the clock that `sleep_for` keeps its promise. -/
theorem sleepsLast_iff (hclock : Monotone clock) (htimeout : 0 ≤ m.sessionTimeoutSec) :
    m.SleepsLast clock ↔ ∀ i, (∀ k ≤ i, m.Punctual clock k) →
      clock (2 * i) + m.delayBetweenSessions ≤ clock (2 * i + 2) := by
  have hends (i : Nat) : clock (2 * i + 1) + m.sleepOf clock i
      = clock (2 * i) + m.delayBetweenSessions := by
    unfold sleepOf
    ring
  constructor
  · intro hsleeps i hpunctual
    have hlasts := hsleeps i _ (sleeps_punctual hclock htimeout hpunctual)
    rwa [readings_punctual hclock htimeout hpunctual, hends] at hlasts
  · intro hall i d hsleeps
    rcases forall_lt_or_first (m.Punctual clock) (i + 1) with hpunctual | ⟨l, hl, hbefore, hlate⟩
    · have hpunctual' : ∀ k ≤ i, m.Punctual clock k := fun k hk => hpunctual k (by omega)
      rw [sleeps_punctual hclock htimeout hpunctual'] at hsleeps
      obtain rfl := List.singleton_inj.mp (List.append_cancel_left hsleeps)
      rw [readings_punctual hclock htimeout hpunctual', hends]
      exact hall i hpunctual'
    · obtain ⟨t, rfl⟩ := Nat.exists_eq_add_of_le (Nat.lt_succ_iff.mp hl)
      rw [sleeps_late hclock htimeout hbefore hlate] at hsleeps
      exact absurd (congrArg List.length hsleeps) (by simp)

/-- Punctual iterations keep to the schedule. -/
theorem schedule (hclock : Monotone clock) (htimeout : 0 ≤ m.sessionTimeoutSec)
    (hsleeps : m.SleepsLast clock) (hpunctual : ∀ k < i, m.Punctual clock k) :
    clock 0 + i * m.delayBetweenSessions ≤ clock (2 * i) := by
  induction i with
  | zero => simp
  | succ i ih =>
    have hbefore := ih fun k hk => hpunctual k (Nat.lt_succ_of_lt hk)
    have hlasts := (sleepsLast_iff hclock htimeout).mp hsleeps i fun k hk =>
      hpunctual k (Nat.lt_succ_iff.mpr hk)
    calc clock 0 + ((i + 1 : Nat) : Int) * m.delayBetweenSessions
        = clock 0 + i * m.delayBetweenSessions + m.delayBetweenSessions := by push_cast; ring
      _ ≤ clock (2 * i) + m.delayBetweenSessions := by gcongr
      _ ≤ clock (2 * (i + 1)) := hlasts

/-- The sleeps of punctual iterations have fitted into the time that has passed. -/
theorem sum_sleeps_le (hclock : Monotone clock) (htimeout : 0 ≤ m.sessionTimeoutSec)
    (hsleeps : m.SleepsLast clock) (hpunctual : ∀ k < i, m.Punctual clock k) :
    ((List.range i).map (m.sleepOf clock)).sum ≤ clock (2 * i) - clock 0 := by
  induction i with
  | zero => simp
  | succ i ih =>
    have hbefore := ih fun k hk => hpunctual k (Nat.lt_succ_of_lt hk)
    have hlasts := (sleepsLast_iff hclock htimeout).mp hsleeps i fun k hk =>
      hpunctual k (Nat.lt_succ_iff.mpr hk)
    have hreading : clock (2 * i) ≤ clock (2 * i + 1) := hclock (Nat.le_succ _)
    rw [List.range_succ, List.map_append, List.sum_append, List.map_singleton, List.sum_singleton]
    unfold sleepOf at hbefore ⊢
    rw [show 2 * (i + 1) = 2 * i + 2 by ring]
    linarith

/-! ## The timeout of the shutdown

The comparison with the timeout has its operands the wrong way round, so it never stops the loop.
What remains is how long the deletions and the sleeps take. -/

/-- The shutdown does not outlast the session timeout. -/
structure EndsInTime (m : SessionManager) (clock : Nat → Time) : Prop where
  completes : ∃ m', (gracefulShutdown clock).run m = .ok () m' ∧ m'.sessions.entries = []
  /-- An iteration that finds the timeout exceeded does not sleep. -/
  noFurtherSleep : ∀ i ≤ m.sessions.size,
    seconds m.sessionTimeoutSec < clock (m.paced clock i).readings - clock 0 →
      (m.paced clock (i + 1)).sleeps = (m.paced clock i).sleeps
  sleepsBounded : (m.paced clock (m.sessions.size + 1)).sleeps.sum
    ≤ seconds m.sessionTimeoutSec + m.delayBetweenSessions

/-- The sleeps of the first `i + 1` iterations, if all of them are punctual and the last one begins
before the timeout. -/
theorem sum_sleeps_le_timeout (hclock : Monotone clock) (htimeout : 0 ≤ m.sessionTimeoutSec)
    (hsleeps : m.SleepsLast clock) (hpunctual : ∀ k ≤ i, m.Punctual clock k)
    (hearly : clock (2 * i + 1) - clock 0 ≤ seconds m.sessionTimeoutSec) :
    ((List.range (i + 1)).map (m.sleepOf clock)).sum
      ≤ seconds m.sessionTimeoutSec + m.delayBetweenSessions := by
  have hbefore := sum_sleeps_le hclock htimeout hsleeps fun k hk => hpunctual k hk.le
  have hreading : clock (2 * i) ≤ clock (2 * i + 1) := hclock (Nat.le_succ _)
  have hlast : m.sleepOf clock i ≤ m.delayBetweenSessions := by
    unfold sleepOf
    linarith
  rw [List.range_succ, List.map_append, List.sum_append, List.map_singleton, List.sum_singleton]
  linarith

/-- **When the shutdown does not outlast the session timeout.** The timeout is never noticed, so the
loop has to be late, or through, before it. -/
theorem endsInTime_iff (hrate : 0 < m.shutdownRate) (htimeout : 0 < m.sessionTimeoutSec)
    (hclock : Monotone clock) (hsleeps : m.SleepsLast clock) :
    m.EndsInTime clock ↔ m.WritesFirst m.sessions.size ∧
      ∀ i ≤ m.sessions.size, (∀ k ≤ i, m.Punctual clock k) →
        clock (2 * i + 1) - clock 0 ≤ seconds m.sessionTimeoutSec := by
  have hdelay : 0 ≤ m.delayBetweenSessions :=
    Int.mul_nonneg (Int.tdiv_nonneg (by decide) hrate.le) (by decide)
  constructor
  · intro h
    refine ⟨(gracefulShutdown_empties_iff hrate.ne' clock).mp h.completes, fun i hi hpunctual => ?_⟩
    by_contra hexceeded
    rw [not_le, ← readings_punctual hclock htimeout.le hpunctual] at hexceeded
    have hnone := h.noFurtherSleep i hi hexceeded
    rw [sleeps_punctual hclock htimeout.le hpunctual] at hnone
    exact absurd (congrArg List.length hnone) (by simp)
  · rintro ⟨hwrites, hearly⟩
    refine ⟨(gracefulShutdown_empties_iff hrate.ne' clock).mpr hwrites,
      fun i hi hexceeded => ?_, ?_⟩
    -- is some iteration up to this one late, and which is the first?
    · rcases forall_lt_or_first (m.Punctual clock) (i + 1) with hpunctual | ⟨l, hl, hbefore, hlate⟩
      · have hpunctual' : ∀ k ≤ i, m.Punctual clock k := fun k hk => hpunctual k (by omega)
        rw [readings_punctual hclock htimeout.le hpunctual'] at hexceeded
        exact absurd (hearly i hi hpunctual') (not_le.mpr hexceeded)
      · obtain ⟨t, rfl⟩ := Nat.exists_eq_add_of_le (Nat.lt_succ_iff.mp hl)
        exact sleeps_late hclock htimeout.le hbefore hlate
    · rcases forall_lt_or_first (m.Punctual clock) (m.sessions.size + 1) with
        hpunctual | ⟨l, hl, hbefore, hlate⟩
      · have hpunctual' : ∀ k ≤ m.sessions.size, m.Punctual clock k :=
          fun k hk => hpunctual k (by omega)
        rw [paced_punctual hclock htimeout.le hpunctual]
        exact sum_sleeps_le_timeout hclock htimeout.le hsleeps hpunctual'
          (hearly _ le_rfl hpunctual')
      · -- only the iterations before the late one have slept
        obtain ⟨t, ht⟩ := Nat.exists_eq_add_of_le hl.le
        rw [ht, paced_late hclock htimeout.le hbefore hlate]
        cases l with
        | zero =>
          have hpositive : 0 ≤ seconds m.sessionTimeoutSec := Int.mul_nonneg htimeout.le (by decide)
          exact add_nonneg hpositive hdelay
        | succ l =>
          have hpunctual : ∀ k ≤ l, m.Punctual clock k := fun k hk => hbefore k (by omega)
          exact sum_sleeps_le_timeout hclock htimeout.le hsleeps hpunctual
            (hearly l (by omega) hpunctual)

/-- A manager with sessions of these subscribers. -/
def withSessions (imsis : List Imsi) (timeout rate : Int) : SessionManager :=
  { constructed ⟨[], 0, fun _ => false⟩ ∅ timeout rate 0 with
    sessions := imsis.foldl (fun sessions imsi => sessions.insert imsi ⟨0⟩) ∅ }

/-- Sessions for a slow shutdown. -/
def threeSubscribers : List Imsi :=
  [ascii "001010000000001", ascii "001010000000002", ascii "001010000000003"]

/-- The clock of an undisturbed shutdown: nothing but the sleeps takes time. -/
def undisturbed (delay : Time) (i : Nat) : Time :=
  (i / 2 : Nat) * delay

/-- That clock does not go back, -/
theorem undisturbed_monotone {delay : Time} (hdelay : 0 ≤ delay) : Monotone (undisturbed delay) :=
  fun i j hij => Int.mul_le_mul_of_nonneg_right
    (by exact_mod_cast Nat.div_le_div_right hij) hdelay

/-- every iteration is punctual on it, -/
theorem undisturbed_punctual (hdelay : 0 < m.delayBetweenSessions) (i : Nat) :
    m.Punctual (undisturbed m.delayBetweenSessions) i := by
  unfold Punctual undisturbed
  rw [show (2 * i + 1) / 2 = 2 * i / 2 by omega, sub_self]
  exact hdelay

/-- and the sleeps last as long as they should. -/
theorem undisturbed_sleepsLast (hdelay : 0 < m.delayBetweenSessions)
    (htimeout : 0 ≤ m.sessionTimeoutSec) :
    m.SleepsLast (undisturbed m.delayBetweenSessions) := by
  refine (sleepsLast_iff (undisturbed_monotone hdelay.le) htimeout).mpr fun i _ => ?_
  unfold undisturbed
  rw [show (2 * i + 2) / 2 = 2 * i / 2 + 1 by omega]
  push_cast
  linarith

/-- Three sessions at one a second end well before the timeout of 30 s. -/
theorem endsInTime_threeSubscribers :
    (withSessions threeSubscribers 30 1).EndsInTime (undisturbed (seconds 1)) := by
  have hdelay : (withSessions threeSubscribers 30 1).delayBetweenSessions = seconds 1 := by decide
  have hpositive : 0 < (withSessions threeSubscribers 30 1).delayBetweenSessions := by decide
  have hsize : (withSessions threeSubscribers 30 1).sessions.size = 3 := by decide
  have hsleeps := undisturbed_sleepsLast hpositive (by decide)
  rw [hdelay] at hsleeps
  have hearly : ∀ i ≤ 3, undisturbed (seconds 1) (2 * i + 1) - undisturbed (seconds 1) 0
      ≤ seconds 30 := by
    decide
  refine (endsInTime_iff (by decide) (by decide) (undisturbed_monotone (by decide)) hsleeps).mpr
    ⟨fun _ _ => rfl, fun i hi _ => hearly i ?_⟩
  rwa [hsize] at hi

/-- One session a second, and a timeout of one second: the loop sleeps on. -/
theorem not_endsInTime_threeSubscribers :
    Monotone (undisturbed (seconds 1)) ∧
      (withSessions threeSubscribers 1 1).SleepsLast (undisturbed (seconds 1)) ∧
      ¬ (withSessions threeSubscribers 1 1).EndsInTime (undisturbed (seconds 1)) := by
  have hdelay : (withSessions threeSubscribers 1 1).delayBetweenSessions = seconds 1 := by decide
  have hpositive : 0 < (withSessions threeSubscribers 1 1).delayBetweenSessions := by decide
  have hmonotone : Monotone (undisturbed (seconds 1)) := undisturbed_monotone (by decide)
  have hsleeps := undisturbed_sleepsLast hpositive (by decide)
  have hpunctual := undisturbed_punctual hpositive
  rw [hdelay] at hsleeps hpunctual
  refine ⟨hmonotone, hsleeps, fun h => ?_⟩
  have hnone := h.noFurtherSleep 2 (by decide) (by decide)
  rw [sleeps_punctual hmonotone (by decide) fun k _ => hpunctual k] at hnone
  exact absurd (congrArg List.length hnone) (by simp)

/-! ## The pace of the deletions

The pace is a bound on how many sessions are deleted by a moment. Each deletion comes after the last
reading of the clock before it, which is the earliest moment that the readings allow. -/

/-- The iteration `i` deletes a session. -/
def Deletes (m : SessionManager) (i : Nat) : Prop :=
  i < m.sessions.size ∧ m.WritesFirst i

instance (m : SessionManager) (i : Nat) : Decidable (m.Deletes i) :=
  inferInstanceAs (Decidable (_ ∧ ∀ j < i, _))

/-- The number of sessions that the loop deletes. -/
def deletions (m : SessionManager) : Nat :=
  ((Finset.range m.sessions.size).filter m.Deletes).card

/-- If every record can be written, every session is deleted; -/
theorem deletions_of_writesFirst (hwrites : m.WritesFirst m.sessions.size) :
    m.deletions = m.sessions.size := by
  rw [deletions, Finset.filter_true_of_mem, Finset.card_range]
  intro i hi
  have hlt := Finset.mem_range.mp hi
  exact ⟨hlt, fun j hj => hwrites j (hj.trans hlt)⟩

/-- otherwise the deletion whose record fails is the last one. -/
theorem deletions_of_throws {k : Nat} (hk : k < m.sessions.size) (hwrites : m.WritesFirst k)
    (hthrows : m.cdrWriter.throwsAt (m.cdrWriter.calls + k) = true) : m.deletions = k + 1 := by
  have hfirst : (Finset.range m.sessions.size).filter m.Deletes = Finset.range (k + 1) := by
    ext i
    rw [Finset.mem_filter, Finset.mem_range, Finset.mem_range]
    constructor
    · rintro ⟨-, -, hall⟩
      by_contra hbeyond
      exact absurd ((hall k (by omega)).symm.trans hthrows) (by decide)
    · intro hi
      exact ⟨by omega, by omega, fun j hj => hwrites j (by omega)⟩
  rw [deletions, hfirst, Finset.card_range]

/-- **What is left of the table,** whether the loop ends by itself or by an exception. -/
theorem gracefulShutdown_deletes (hrate : m.shutdownRate ≠ 0) (clock : Nat → Time) :
    Ensures (gracefulShutdown clock) m
      (fun _ m' => m'.sessions.size + m.deletions = m.sessions.size)
      (fun _ m' => m'.sessions.size + m.deletions = m.sessions.size) := by
  unfold Ensures
  rw [gracefulShutdown_run hrate]
  rcases forall_lt_or_first _ m.sessions.size with hwrites | ⟨k, hk, hwrites, hthrows⟩
  · obtain ⟨m', hloop, hempty⟩ := pacedLoop_completes clock hwrites
    rw [hloop, deletions_of_writesFirst hwrites]
    simp only [if_pos hempty]
    show m'.sessions.size + m.sessions.size = m.sessions.size
    rw [UnorderedMap.size, hempty, List.length_nil, Nat.zero_add]
  · obtain ⟨m', hloop, hsize⟩ := pacedLoop_throws clock hk hwrites hthrows
    rw [hloop, deletions_of_throws hk hwrites ((Bool.not_eq_false _).mp hthrows)]
    exact hsize

/-- `moments i` can be when the iteration `i` deletes: between its last reading of the clock and the
next reading. -/
def DeletesAt (m : SessionManager) (clock moments : Nat → Time) : Prop :=
  ∀ i, m.Deletes i → clock ((m.paced clock (i + 1)).readings - 1) ≤ moments i ∧
    moments i ≤ clock (m.paced clock (i + 1)).readings

/-- The number of sessions deleted by the moment `t`. -/
def deletedBy (m : SessionManager) (moments : Nat → Time) (t : Time) : Nat :=
  ((Finset.range m.sessions.size).filter fun i => m.Deletes i ∧ moments i ≤ t).card

/-- At every moment before the session timeout has elapsed, at most one session more has been
deleted than there have been delays. -/
def KeepsPace (m : SessionManager) (clock : Nat → Time) : Prop :=
  ∀ moments, m.DeletesAt clock moments →
    ∀ t, clock 0 ≤ t → t - clock 0 < seconds m.sessionTimeoutSec →
      (m.deletedBy moments t : Int) ≤ 1 + (t - clock 0) / m.delayBetweenSessions

/-- The last reading of the clock before the deletion of the iteration `i`. -/
def lastReading (m : SessionManager) (clock : Nat → Time) (i : Nat) : Time :=
  clock ((m.paced clock (i + 1)).readings - 1)

/-- An iteration deletes only if all before it have deleted. -/
theorem Deletes.of_le (h : m.Deletes i) {k : Nat} (hk : k ≤ i) : m.Deletes k :=
  ⟨hk.trans_lt h.1, fun j hj => h.2 j (hj.trans_le hk)⟩

/-- An iteration never takes a reading back, -/
theorem readings_le : (m.paced clock i).readings ≤ (m.paced clock (i + 1)).readings := by
  rw [paced_succ]
  simp only [pace]
  split
  · exact le_rfl
  · split
    · split <;> exact Nat.le_add_right _ _
    · exact Nat.le_add_right _ _

/-- so that the last readings are in order. -/
theorem lastReading_monotone (hclock : Monotone clock) : Monotone (m.lastReading clock) :=
  monotone_nat_of_le_succ fun _ => hclock (Nat.sub_le_sub_right readings_le 1)

/-- The pace in terms of the last readings: the earliest moment for every deletion. -/
theorem keepsPace_iff_lastReading (hdelay : 0 < m.delayBetweenSessions) (hclock : Monotone clock) :
    m.KeepsPace clock ↔ ∀ i, m.Deletes i →
      m.lastReading clock i - clock 0 < seconds m.sessionTimeoutSec →
        i * m.delayBetweenSessions ≤ m.lastReading clock i - clock 0 := by
  constructor
  · intro h i hdeletes hearly
    have hmoments : m.DeletesAt clock (m.lastReading clock) :=
      fun j _ => ⟨le_rfl, hclock (Nat.sub_le _ 1)⟩
    have hbound := h _ hmoments (m.lastReading clock i) (hclock (Nat.zero_le _)) hearly
    -- all iterations up to `i` have deleted by then
    have hall : Finset.range (i + 1) ⊆ (Finset.range m.sessions.size).filter
        fun j => m.Deletes j ∧ m.lastReading clock j ≤ m.lastReading clock i := by
      intro j hj
      have hle : j ≤ i := Nat.lt_succ_iff.mp (Finset.mem_range.mp hj)
      have hdeletes' := hdeletes.of_le hle
      exact Finset.mem_filter.mpr ⟨Finset.mem_range.mpr hdeletes'.1, hdeletes',
        lastReading_monotone hclock hle⟩
    have hmany : i + 1 ≤ m.deletedBy (m.lastReading clock) (m.lastReading clock i) := by
      rw [← Finset.card_range (i + 1)]
      exact Finset.card_le_card hall
    refine (Int.le_ediv_iff_mul_le hdelay).mp ?_
    have hmany' : ((i + 1 : Nat) : Int)
        ≤ m.deletedBy (m.lastReading clock) (m.lastReading clock i) := by exact_mod_cast hmany
    push_cast at hmany'
    linarith
  · intro h moments hmoments t ht hearly
    by_contra hexceeds
    have hquotient : 0 ≤ (t - clock 0) / m.delayBetweenSessions :=
      Int.ediv_nonneg (sub_nonneg.mpr ht) hdelay.le
    obtain ⟨q, hq⟩ := Int.eq_ofNat_of_zero_le hquotient
    -- some iteration beyond the schedule has deleted
    obtain ⟨i, hi, hbeyond⟩ : ∃ i ∈ (Finset.range m.sessions.size).filter
        (fun i => m.Deletes i ∧ moments i ≤ t), q + 1 ≤ i := by
      by_contra hnone
      have hwithin : (Finset.range m.sessions.size).filter
          (fun i => m.Deletes i ∧ moments i ≤ t) ⊆ Finset.range (q + 1) := by
        intro i hi
        refine Finset.mem_range.mpr (Nat.not_le.mp fun hle => hnone ⟨i, hi, hle⟩)
      have hfew := Finset.card_le_card hwithin
      rw [Finset.card_range] at hfew
      refine hexceeds ?_
      rw [hq]
      have hfew' : (m.deletedBy moments t : Int) ≤ ((q + 1 : Nat) : Int) := by exact_mod_cast hfew
      push_cast at hfew'
      linarith
    obtain ⟨-, hdeletes, hmoment⟩ := Finset.mem_filter.mp hi
    have hlast : m.lastReading clock i ≤ t := (hmoments i hdeletes).1.trans hmoment
    have hscheduled := h i hdeletes (by linarith)
    have hfits : (i : Int) ≤ (t - clock 0) / m.delayBetweenSessions :=
      (Int.le_ediv_iff_mul_le hdelay).mpr (by linarith)
    rw [hq] at hfits
    have hle : i ≤ q := by exact_mod_cast hfits
    omega

/-- **When the shutdown keeps its pace.** The iterations from the first late one on do not sleep any
more; they must come no earlier than the schedule of themselves. -/
theorem keepsPace_iff (hdelay : 0 < m.delayBetweenSessions) (hclock : Monotone clock)
    (hsleeps : m.SleepsLast clock) :
    m.KeepsPace clock ↔ ∀ l t, (∀ k < l, m.Punctual clock k) → ¬ m.Punctual clock l →
      m.Deletes (l + t) → clock (2 * l + 1 + t) - clock 0 < seconds m.sessionTimeoutSec →
        ((l + t : Nat) : Int) * m.delayBetweenSessions ≤ clock (2 * l + 1 + t) - clock 0 := by
  rw [keepsPace_iff_lastReading hdelay hclock]
  by_cases htimeout : 0 ≤ m.sessionTimeoutSec
  · -- from the first late iteration on there is one reading for each deletion
    have hlast {l t : Nat} (hbefore : ∀ k < l, m.Punctual clock k)
        (hlate : ¬ m.Punctual clock l) :
        m.lastReading clock (l + t) = clock (2 * l + 1 + t) := by
      rw [lastReading, Nat.add_assoc l t 1, paced_late hclock htimeout hbefore hlate]
      rfl
    constructor
    · intro h l t hbefore hlate hdeletes hearly
      have hscheduled := h (l + t) hdeletes
      rw [hlast hbefore hlate] at hscheduled
      exact hscheduled hearly
    · intro h i hdeletes hearly
      -- the deletion comes before the first late iteration, or after it
      rcases forall_lt_or_first (m.Punctual clock) (i + 1) with
        hpunctual | ⟨l, hl, hbefore, hlate⟩
      · have hschedule := schedule hclock htimeout hsleeps hpunctual
        rw [lastReading, paced_punctual hclock htimeout hpunctual]
        push_cast at hschedule
        show (i : Int) * m.delayBetweenSessions ≤ clock (2 * (i + 1)) - clock 0
        linarith
      · obtain ⟨t, rfl⟩ := Nat.exists_eq_add_of_le (Nat.lt_succ_iff.mp hl)
        rw [hlast hbefore hlate] at hearly ⊢
        exact h l t hbefore hlate hdeletes hearly
  · -- no moment is before the timeout
    have hnever (n : Nat) : ¬ clock n - clock 0 < seconds m.sessionTimeoutSec := by
      have hstart : clock 0 ≤ clock n := hclock (Nat.zero_le n)
      have hnegative : seconds m.sessionTimeoutSec ≤ 0 :=
        Int.mul_nonpos_of_nonpos_of_nonneg (not_le.mp htimeout).le (by decide)
      exact not_lt.mpr (hnegative.trans (sub_nonneg.mpr hstart))
    constructor
    · exact fun _ l t _ _ _ hearly => absurd hearly (hnever _)
    · exact fun _ i _ hearly => absurd hearly (hnever _)

/-- Three sessions at ten a second keep their pace. -/
theorem keepsPace_threeSubscribers :
    (withSessions threeSubscribers 30 10).KeepsPace (undisturbed (milliseconds 100)) := by
  have hdelay : (withSessions threeSubscribers 30 10).delayBetweenSessions = milliseconds 100 := by
    decide
  have hpositive : 0 < (withSessions threeSubscribers 30 10).delayBetweenSessions := by decide
  have hsleeps := undisturbed_sleepsLast hpositive (by decide)
  have hpunctual := undisturbed_punctual hpositive
  rw [hdelay] at hsleeps hpunctual
  refine (keepsPace_iff hpositive (undisturbed_monotone (by decide)) hsleeps).mpr ?_
  exact fun l _ _ hlate => absurd (hpunctual l) hlate

/-- Sessions for a shutdown that falls behind. -/
def fiveSubscribers : List Imsi :=
  threeSubscribers ++ [ascii "001010000000004", ascii "001010000000005"]

/-- The first deletion takes 200 ms, and nothing after it takes any time. -/
def slowDeletion : Nat → Time
  | 0 | 1 => 0
  | 2 => milliseconds 100
  | _ => milliseconds 300

/-- Five sessions have been deleted after 300 ms. -/
theorem not_keepsPace_slowDeletion :
    Monotone slowDeletion ∧ (withSessions fiveSubscribers 30 10).SleepsLast slowDeletion ∧
      ¬ (withSessions fiveSubscribers 30 10).KeepsPace slowDeletion := by
  have hmonotone : Monotone slowDeletion := by
    refine monotone_nat_of_le_succ fun n => ?_
    match n with
    | 0 | 1 | 2 => decide
    | n + 3 => exact le_rfl
  refine ⟨hmonotone, (sleepsLast_iff hmonotone (by decide)).mpr fun i hpunctual => ?_, fun h => ?_⟩
  · cases i with
    | zero => decide
    | succ i => exact absurd (hpunctual 1 (by omega)) (by decide)
  · rw [keepsPace_iff_lastReading (by decide) hmonotone] at h
    exact absurd (h 4 (by decide) (by decide)) (by decide)

end SessionManager
end Pgw
