import MiniPgw.Session.Refinement

/-!
# The session manager while it drains

No session is created, and every call that deletes sessions leaves fewer, whether or not the CDR
writer throws (`DrainsWithin`). With a CDR writer that does not throw, the deleting calls return.
-/

namespace Pgw

open Effects

namespace SessionManager

variable {m : SessionManager} {active : Finset Imsi}

/-- The manager is draining, and at most `n` sessions are left. -/
def Drains (n : Nat) (m : SessionManager) : Prop :=
  m.draining = true ∧ m.sessions.size ≤ n

/-- The manager is draining, and no sessions but those of `active` are left. -/
def DrainsWithin (active : Finset Imsi) (m : SessionManager) : Prop :=
  m.draining = true ∧ m.sessions.keySet ⊆ active

theorem DrainsWithin.drains {m' : SessionManager} (h : m'.DrainsWithin m.sessions.keySet) :
    m'.Drains m.sessions.size := by
  refine ⟨h.1, ?_⟩
  rw [← UnorderedMap.card_keySet, ← UnorderedMap.card_keySet]
  exact Finset.card_le_card h.2

theorem createSession_run_draining (h : m.draining = true) (imsi : Imsi) (now : Time) :
    (createSession imsi now).run m = .ok .SERVICE_UNAVAILABLE m := by
  simp [createSession, h]

theorem createSession_preserves (imsi : Imsi) (now : Time) :
    Preserves (DrainsWithin active) (createSession imsi now) := by
  intro m h
  unfold Ensures
  rw [createSession_run_draining h.1]
  exact h

/-- An element is gone whether or not its record could be written. -/
theorem deleteSession_ensures (it : SessionEntry) :
    Ensures (deleteSession it) m
      (fun _ m' => m'.draining = m.draining ∧ m'.sessions = m.sessions.erase it.1)
      (fun _ m' => m'.draining = m.draining ∧ m'.sessions = m.sessions.erase it.1) := by
  simp only [deleteSession, writeAction, ensures_bind, ensures_modify, ensures_get, ensures_ite,
    ensures_set, ensures_throw, and_self, ite_self]

theorem deleteSession_preserves (it : SessionEntry) :
    Preserves (DrainsWithin active) (deleteSession it) := by
  intro m h
  have hless : ∀ m' : SessionManager,
      m'.draining = m.draining ∧ m'.sessions = m.sessions.erase it.1 → m'.DrainsWithin active := by
    rintro m' ⟨hdraining, hsessions⟩
    refine ⟨hdraining.trans h.1, ?_⟩
    rw [hsessions]
    have hkeys : UnorderedMap.keySet (m.sessions.erase it.1) = m.sessions.keySet.erase it.1 :=
      UnorderedMap.keySet_erase m.sessions it.1
    rw [hkeys]
    exact (Finset.erase_subset it.1 m.sessions.keySet).trans h.2
  exact (deleteSession_ensures it).mono (fun _ => hless) fun _ => hless

/-- What `terminateSession` and `shutdownSession` do with the session they have found. -/
theorem delete_and_count_preserves (it : SessionEntry) :
    Preserves (DrainsWithin active) (do deleteSession it; countTerminated; pure true) :=
  (deleteSession_preserves it).bind fun _ =>
    (preserves_modify fun _ hm => hm : Preserves (DrainsWithin active) countTerminated).bind
      fun _ => preserves_pure true

theorem terminateSession_preserves (imsi : Imsi) :
    Preserves (DrainsWithin active) (terminateSession imsi) := by
  intro m h
  rw [terminateSession, ensures_bind, ensures_get]
  cases m.sessions.lookup imsi with
  | none => exact h
  | some data => exact delete_and_count_preserves ⟨imsi, data⟩ m h

theorem shutdownSession_preserves : Preserves (DrainsWithin active) shutdownSession := by
  intro m h
  rw [shutdownSession, ensures_bind, ensures_get]
  cases m.sessions.entries with
  | nil => exact h
  | cons it rest => exact delete_and_count_preserves it m h

theorem cleanFrom_preserves (now : Time) (its : List SessionEntry) :
    Preserves (DrainsWithin active) (cleanFrom now its) := by
  induction its with
  | nil => exact preserves_pure ()
  | cons it its ih =>
    refine preserves_get.bind fun m => Preserves.ite ?_ ih
    exact (deleteSession_preserves it).bind fun _ =>
      (preserves_modify fun _ hm => hm : Preserves (DrainsWithin active) countExpired).bind
        fun _ => ih

theorem cleanTimeoutSessions_preserves (now : Time) :
    Preserves (DrainsWithin active) (cleanTimeoutSessions now) :=
  preserves_get.bind fun m => cleanFrom_preserves now m.sessions.entries

theorem startDraining_preserves : Preserves (DrainsWithin active) startDraining :=
  preserves_modify fun _ h => ⟨rfl, h.2⟩

/-- `shutdownSession` deletes one session, also when it throws, and reports `false` when there is
none. -/
theorem shutdownSession_ensures :
    Ensures shutdownSession m
      (fun sessionsAvailable m' => m'.draining = m.draining ∧
        if sessionsAvailable then m'.sessions.size + 1 = m.sessions.size
        else m' = m ∧ m.sessions.size = 0)
      (fun _ m' => m'.draining = m.draining ∧ m'.sessions.size + 1 = m.sessions.size) := by
  simp only [shutdownSession, ensures_bind, ensures_get]
  cases hentries : m.sessions.entries with
  | nil => exact ⟨rfl, rfl, by rw [UnorderedMap.size, hentries, List.length_nil]⟩
  | cons it rest =>
    have hless := UnorderedMap.size_erase (UnorderedMap.mem_of_entries_eq_cons hentries)
    simp only [ensures_bind]
    refine (deleteSession_ensures it).mono (fun _ m' h => ?_) fun _ m' h => ⟨h.1, h.2 ▸ hless⟩
    refine ⟨h.1, ?_⟩
    rw [if_pos rfl]
    exact h.2 ▸ hless

/-! ## With a CDR writer that does not throw

With such a writer the deletions return, which is what a shutdown that comes to its end relies
on. -/

theorem deleteSession_returns (h : m.cdrWriter.Reliable) (it : SessionEntry) :
    Returns (deleteSession it) m fun _ m' => m'.cdrWriter.Reliable :=
  (returns_iff _).mpr ⟨(), _, deleteSession_run (h _) it, h⟩

theorem shutdownSession_returns (h : m.cdrWriter.Reliable) :
    Returns shutdownSession m fun _ m' => m'.cdrWriter.Reliable := by
  simp only [shutdownSession, ensures_bind, ensures_get]
  cases m.sessions.entries with
  | nil => exact h
  | cons it rest =>
    simp only [ensures_bind]
    exact (deleteSession_returns h it).mono (fun _ m' h' => h') fun _ _ h' => h'

theorem cleanFrom_returns (now : Time) (its : List SessionEntry) :
    ∀ {m : SessionManager}, m.cdrWriter.Reliable →
      Returns (cleanFrom now its) m fun _ m' => m'.cdrWriter.Reliable := by
  induction its with
  | nil => exact fun h => h
  | cons it its ih =>
    intro m h
    simp only [cleanFrom, ensures_bind, ensures_get]
    split
    · simp only [ensures_bind]
      exact (deleteSession_returns h it).mono (fun _ _ h' => ih h') fun _ _ h' => h'
    · exact ih h

theorem cleanTimeoutSessions_returns (h : m.cdrWriter.Reliable) (now : Time) :
    Returns (cleanTimeoutSessions now) m fun _ m' => m'.cdrWriter.Reliable :=
  cleanFrom_returns now m.sessions.entries h

end SessionManager
end Pgw
