import MiniPgw.Session.Refinement

/-!
# Which sessions a clean-up removes

The loop of `cleanTimeoutSessions` erases elements of the table that it iterates over. Whatever the
order of the iteration, it passes every element once: `cleanFrom_run` gives the manager that it
leaves, as the expired sessions of the rest of the iteration removed one after the other.

## The architecture

* **`expiredAll`** — the manager without some of its sessions, and what is left of each of its
  members (`lookup_expiredAll`, `entries_expiredAll`, `stats_expiredAll`, `frame_expiredAll`).
* **`cleanFrom_run_eq`** — the loop gives that manager, for the expired sessions it has met.
* **`mem_expiredOf_iff`** — over the whole table these are the expired sessions.
* **`cleanTimeoutSessions_exact`** — the two together, and once more for a second clean-up.
-/

namespace Pgw
namespace SessionManager

variable {m m' : SessionManager}

/-- `age >= m_sessionTimeoutSec` -/
def IsExpired (m : SessionManager) (now : Time) (data : SessionData) : Prop :=
  now - data.createdTime ≥ seconds m.sessionTimeoutSec

instance (m : SessionManager) (now : Time) (data : SessionData) :
    Decidable (m.IsExpired now data) :=
  inferInstanceAs (Decidable (_ ≥ _))

/-- The manager after the sessions of `imsis` have expired. -/
def expiredAll (m : SessionManager) (imsis : List Imsi) : SessionManager :=
  imsis.foldl expired m

/-- The IMSIs of the expired sessions among `its`. -/
def expiredOf (m : SessionManager) (now : Time) (its : List SessionEntry) : List Imsi :=
  (its.filter fun it => m.IsExpired now it.2).map Sigma.fst

/-- **The loop**, from any element on. Induction on the rest of the iteration. -/
theorem cleanFrom_run_eq (now : Time) (its : List SessionEntry) :
    ∀ {m : SessionManager}, m.cdrWriter.Reliable →
      (cleanFrom now its).run m = .ok () (m.expiredAll (m.expiredOf now its)) := by
  induction its with
  | nil => exact fun _ => rfl
  | cons it its ih =>
    intro m hm
    by_cases hage : m.IsExpired now it.2
    -- `deleteSession` and the counter for the first entry, then the rest
    · have hexpire : countExpired.run (m.deleted it.1) = .ok () (m.expired it.1) := rfl
      have hrest : (cleanFrom now its).run (m.expired it.1) =
          .ok () ((m.expired it.1).expiredAll (m.expiredOf now its)) :=
        ih (m := m.expired it.1) hm
      have hall : m.expiredOf now (it :: its) = it.1 :: m.expiredOf now its := by
        unfold expiredOf
        rw [List.filter_cons, if_pos (decide_eq_true hage), List.map_cons]
      have hage' : now - it.2.createdTime ≥ seconds m.sessionTimeoutSec := hage
      rw [hall]
      simp [cleanFrom, hage', deleteSession_run (hm _), hexpire, hrest, expiredAll]
    · have hall : m.expiredOf now (it :: its) = m.expiredOf now its := by
        unfold expiredOf
        rw [List.filter_cons, if_neg (by simpa using hage)]
      have hage' : ¬ now - it.2.createdTime ≥ seconds m.sessionTimeoutSec := hage
      rw [hall]
      simp [cleanFrom, hage', ih hm]

/-! ## What the expired sessions leave

`expiredAll` erases a list of keys one after the other. What it does to a single key, to the log and
to the counters is said here once. -/

/-- The other sessions stay as they are. -/
theorem lookup_expiredAll (imsis : List Imsi) (imsi : Imsi) : ∀ m : SessionManager,
    (m.expiredAll imsis).sessions.lookup imsi =
      if imsi ∈ imsis then none else m.sessions.lookup imsi := by
  induction imsis with
  | nil => exact fun m => rfl
  | cons x imsis ih =>
    intro m
    show ((m.expired x).expiredAll imsis).sessions.lookup imsi = _
    rw [ih]
    show (if imsi ∈ imsis then none else (m.sessions.erase x).lookup imsi) = _
    by_cases hx : imsi = x
    · subst hx
      rw [AList.lookup_erase, if_pos List.mem_cons_self, ite_self]
    · rw [AList.lookup_erase_ne hx]
      simp [hx]

/-- One `DELETED` record for each. -/
theorem entries_expiredAll (imsis : List Imsi) : ∀ m : SessionManager,
    (m.expiredAll imsis).cdrWriter.entries =
      m.cdrWriter.entries ++ imsis.map fun imsi => ⟨imsi, ICdrWriter.SESSION_DELETED⟩ := by
  induction imsis with
  | nil => exact fun m => (List.append_nil _).symm
  | cons x imsis ih =>
    intro m
    show ((m.expired x).expiredAll imsis).cdrWriter.entries = _
    rw [ih, List.map_cons]
    exact List.append_assoc _ [_] _

/-- Of the counters `expiredSessions` grows, and the active sessions are counted anew. -/
theorem stats_expiredAll (imsis : List Imsi) : ∀ m : SessionManager,
    (m.expiredAll imsis).stats = { m.stats with
      expiredSessions := m.stats.expiredSessions + imsis.length
      activeSessions := (m.expiredAll imsis).stats.activeSessions } := by
  induction imsis with
  | nil => exact fun m => rfl
  | cons x imsis ih =>
    intro m
    show ((m.expired x).expiredAll imsis).stats = _
    rw [ih, List.length_cons, Nat.add_comm imsis.length 1, ← Nat.add_assoc]
    rfl

/-- Nothing else of the manager changes. -/
theorem frame_expiredAll (imsis : List Imsi) : ∀ m : SessionManager,
    m.expiredAll imsis = { m with
      cdrWriter := (m.expiredAll imsis).cdrWriter
      sessions := (m.expiredAll imsis).sessions
      stats := (m.expiredAll imsis).stats } := by
  induction imsis with
  | nil => exact fun m => rfl
  | cons x imsis ih => exact fun m => ih (m.expired x)

theorem cached_expiredAll (imsis : List Imsi) : ∀ m : SessionManager,
    m.stats.activeSessions = m.sessions.size →
      (m.expiredAll imsis).stats.activeSessions = (m.expiredAll imsis).sessions.size := by
  induction imsis with
  | nil => exact fun m h => h
  | cons x imsis ih => exact fun m _ => ih (m.expired x) rfl

theorem reliable_expiredAll (imsis : List Imsi) : ∀ m : SessionManager,
    m.cdrWriter.Reliable → (m.expiredAll imsis).cdrWriter.Reliable := by
  induction imsis with
  | nil => exact fun m h => h
  | cons x imsis ih => exact fun m h => ih (m.expired x) h

/-- Every session that expires is gone from the table. -/
theorem size_expiredAll (imsis : List Imsi) : ∀ m : SessionManager, imsis.Nodup →
    (∀ imsi ∈ imsis, imsi ∈ m.sessions) →
      (m.expiredAll imsis).sessions.size + imsis.length = m.sessions.size := by
  induction imsis with
  | nil => exact fun m _ _ => rfl
  | cons x imsis ih =>
    intro m hnodup hin
    obtain ⟨hx, hnodup'⟩ := List.nodup_cons.mp hnodup
    -- the sessions that are still to go are not the one that has gone
    have hrest : ∀ imsi ∈ imsis, imsi ∈ (m.expired x).sessions := by
      intro imsi himsi
      show imsi ∈ m.sessions.erase x
      rw [AList.mem_erase]
      refine ⟨?_, hin imsi (List.mem_cons_of_mem _ himsi)⟩
      rintro rfl
      exact hx himsi
    have hsize := ih (m.expired x) hnodup' hrest
    have herase : (m.expired x).sessions.size + 1 = m.sessions.size :=
      UnorderedMap.size_erase (hin x List.mem_cons_self)
    rw [List.length_cons]
    show ((m.expired x).expiredAll imsis).sessions.size + (imsis.length + 1) = _
    omega

theorem mem_expiredOf_iff {now : Time} {imsi : Imsi} :
    imsi ∈ m.expiredOf now m.sessions.entries ↔
      ∃ data, m.sessions.lookup imsi = some data ∧ m.IsExpired now data := by
  unfold expiredOf
  rw [List.mem_map]
  constructor
  · rintro ⟨⟨_, data⟩, hit, rfl⟩
    obtain ⟨hin, hage⟩ := List.mem_filter.mp hit
    exact ⟨data, AList.mem_lookup_iff.mpr hin, of_decide_eq_true hage⟩
  · rintro ⟨data, hlookup, hage⟩
    have hin := AList.mem_lookup_iff.mp hlookup
    exact ⟨⟨imsi, data⟩, List.mem_filter.mpr ⟨hin, decide_eq_true hage⟩, rfl⟩

theorem nodup_expiredOf (m : SessionManager) (now : Time) :
    (m.expiredOf now m.sessions.entries).Nodup := by
  have hkeys : (m.sessions.entries.map Sigma.fst).Nodup := m.sessions.nodupKeys
  exact hkeys.sublist (List.filter_sublist.map _)

/-! ## The clean-up

The loop looks at every session with one reading of the clock, and at each of them once, so that the
order of the table does not matter. -/

/-- `m'` is `m` without its expired sessions. -/
structure CleanedUp (now : Time) (m m' : SessionManager) : Prop where
  /-- Exactly the sessions younger than the timeout are left, as they were. -/
  sessions : ∀ imsi data, m'.sessions.lookup imsi = some data ↔
    m.sessions.lookup imsi = some data ∧ now - data.createdTime < seconds m.sessionTimeoutSec
  expired : m'.stats.expiredSessions + m'.sessions.size = m.stats.expiredSessions + m.sessions.size
  counters : m'.stats = { m.stats with
    expiredSessions := m'.stats.expiredSessions
    activeSessions := m'.stats.activeSessions }
  /-- One `DELETED` record for each session that is gone. -/
  records : ∃ removed : List Imsi, removed.Nodup ∧
    (∀ imsi, imsi ∈ removed ↔ imsi ∈ m.sessions ∧ imsi ∉ m'.sessions) ∧
    m'.cdrWriter.entries =
      m.cdrWriter.entries ++ removed.map fun imsi => ⟨imsi, ICdrWriter.SESSION_DELETED⟩
  cached : m.stats.activeSessions = m.sessions.size → m'.stats.activeSessions = m'.sessions.size
  rest : m' = { m with cdrWriter := m'.cdrWriter, sessions := m'.sessions, stats := m'.stats }

theorem cleanTimeoutSessions_run_eq (hm : m.cdrWriter.Reliable) (now : Time) :
    (cleanTimeoutSessions now).run m =
      .ok () (m.expiredAll (m.expiredOf now m.sessions.entries)) := by
  have hloop := cleanFrom_run_eq now m.sessions.entries hm
  simp [cleanTimeoutSessions, hloop]

/-- What is left has not expired. -/
theorem lookup_cleaned (m : SessionManager) (now : Time) (imsi : Imsi) (data : SessionData) :
    (m.expiredAll (m.expiredOf now m.sessions.entries)).sessions.lookup imsi = some data ↔
      m.sessions.lookup imsi = some data ∧ now - data.createdTime
        < seconds m.sessionTimeoutSec := by
  rw [lookup_expiredAll]
  by_cases hgone : imsi ∈ m.expiredOf now m.sessions.entries
  · rw [if_pos hgone]
    obtain ⟨old, hold, hage⟩ := mem_expiredOf_iff.mp hgone
    refine iff_of_false (by simp) ?_
    rintro ⟨hlookup, hyoung⟩
    rw [hold] at hlookup
    cases hlookup
    exact absurd hage (not_le.mpr hyoung)
  · rw [if_neg hgone]
    refine ⟨fun hlookup => ⟨hlookup, ?_⟩, And.left⟩
    by_contra hage
    exact hgone (mem_expiredOf_iff.mpr ⟨data, hlookup, not_lt.mp hage⟩)

/-- An IMSI that is gone is one whose session has expired. -/
theorem mem_expiredOf_iff_gone (now : Time) (imsi : Imsi) :
    imsi ∈ m.expiredOf now m.sessions.entries ↔
      imsi ∈ m.sessions ∧
        imsi ∉ (m.expiredAll (m.expiredOf now m.sessions.entries)).sessions := by
  rw [← AList.lookup_isSome (s := (m.expiredAll _).sessions), lookup_expiredAll]
  by_cases hgone : imsi ∈ m.expiredOf now m.sessions.entries
  · obtain ⟨data, hlookup, -⟩ := mem_expiredOf_iff.mp hgone
    have hin : imsi ∈ m.sessions := AList.lookup_isSome.mp (by rw [hlookup]; rfl)
    simp [hgone, hin]
  · rw [if_neg hgone, AList.lookup_isSome]
    simp [hgone]

theorem cleanedUp (m : SessionManager) (now : Time) :
    CleanedUp now m (m.expiredAll (m.expiredOf now m.sessions.entries)) where
  sessions := lookup_cleaned m now
  expired := by
    have hin : ∀ imsi ∈ m.expiredOf now m.sessions.entries, imsi ∈ m.sessions :=
      fun imsi himsi => ((mem_expiredOf_iff_gone now imsi).mp himsi).1
    have hsize := size_expiredAll _ m (nodup_expiredOf m now) hin
    have hcount := congrArg Statistics.expiredSessions
      (stats_expiredAll (m.expiredOf now m.sessions.entries) m)
    dsimp only at hcount
    omega
  counters := by
    have hstats := stats_expiredAll (m.expiredOf now m.sessions.entries) m
    have hcount := congrArg Statistics.expiredSessions hstats
    dsimp only at hcount
    rw [hcount]
    exact hstats
  records := ⟨_, nodup_expiredOf m now, mem_expiredOf_iff_gone now, entries_expiredAll _ m⟩
  cached := cached_expiredAll _ m
  rest := frame_expiredAll _ m

/-- **A clean-up removes exactly the expired sessions**, whatever the order of the table. A second
one at the same time changes nothing. -/
theorem cleanTimeoutSessions_exact (hm : m.cdrWriter.Reliable) (now : Time) :
    ∃ m', (cleanTimeoutSessions now).run m = .ok () m' ∧ CleanedUp now m m' ∧
      (cleanTimeoutSessions now).run m' = .ok () m' := by
  have hclean := cleanedUp m now
  refine ⟨_, cleanTimeoutSessions_run_eq hm now, hclean, ?_⟩
  rw [cleanTimeoutSessions_run_eq (reliable_expiredAll _ m hm)]
  generalize hm' : m.expiredAll (m.expiredOf now m.sessions.entries) = m' at hclean ⊢
  -- what the first clean-up has left is younger than the timeout
  have hnone : m'.expiredOf now m'.sessions.entries = [] := by
    rw [List.eq_nil_iff_forall_not_mem]
    intro imsi himsi
    obtain ⟨data, hlookup, hage⟩ := mem_expiredOf_iff.mp himsi
    have hyoung := ((hclean.sessions imsi data).mp hlookup).2
    have htimeout := congrArg sessionTimeoutSec hclean.rest
    have hsame : m'.sessionTimeoutSec = m.sessionTimeoutSec := htimeout
    unfold IsExpired at hage
    rw [hsame] at hage
    exact absurd hage (not_le.mpr hyoung)
  rw [hnone]
  rfl

/-- Three sessions: older than the timeout, as old as the timeout, and one second younger. -/
def threeAges : SessionManager :=
  { constructed ⟨[], 0, fun _ => false⟩ ∅ 60 10 0 with
    sessions := ((∅ : Sessions).insert (ascii "001010000000001") ⟨seconds 10⟩
      |>.insert (ascii "001010000000002") ⟨seconds 40⟩).insert (ascii "001010000000003")
        ⟨seconds 41⟩ }

theorem cleanTimeoutSessions_threeAges :
    ∃ m', (cleanTimeoutSessions (seconds 100)).run threeAges = .ok () m' ∧
      CleanedUp (seconds 100) threeAges m' ∧
      (cleanTimeoutSessions (seconds 100)).run m' = .ok () m' :=
  cleanTimeoutSessions_exact (fun _ => rfl) (seconds 100)

/-- A session that is as old as the timeout has expired. -/
example : threeAges.expiredOf (seconds 100) threeAges.sessions.entries =
    [ascii "001010000000002", ascii "001010000000001"] := by decide

end SessionManager
end Pgw
