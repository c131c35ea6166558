import MiniPgw.Session.SessionManager

/-!
# The life of a session

A session begins with `createSession`, at its creation time, and ends with one of four calls: its
own `terminateSession`, a deletion of the shutdown, or a clean-up that finds it as old as the
timeout. `Lifetime c m m'` says so of the call `c`, and `lifetime_step` proves it of every call,
whether or not the CDR writer throws. `cleanTimeoutSessions_young`: a clean-up that returns leaves
no session that is as old as the timeout.

## The architecture

* **`Ends`**, **`Lifetime`** — what one call may do to the sessions, as a relation of the tables
  before and after it; `Lifetime.same` and `Lifetime.erase` are the two ways to prove it.
* **`deleteSession_lifetime`** to **`gracefulShutdown_lifetime`** — one lemma for each method,
  also when it throws.
* **`perform_lifetime`**, **`lifetime_step`** — all calls.
* **`ends_of_exec`**, **`begins_of_exec`** — what a run has done to one session, by induction.
-/

namespace Pgw

open Effects

namespace SessionManager

variable {m₀ m m' : SessionManager} {c : SessionCall} {imsi : Imsi} {data : SessionData}

/-! ## Beginning and end

Every session that a call finds in the table is in it afterwards, with the time of its creation, or
the call was one that could end it. -/

/-- The call can end the session `data` of `imsi`. -/
inductive Ends (m : SessionManager) (imsi : Imsi) (data : SessionData) : SessionCall → Prop where
  | terminated : Ends m imsi data (.terminateSession imsi)
  | shutdown : Ends m imsi data .shutdownSession
  | gracefulShutdown (clock : Nat → Time) : Ends m imsi data (.gracefulShutdown clock)
  | expired (now : Time) (hage : seconds m.sessionTimeoutSec ≤ now - data.createdTime) :
      Ends m imsi data (.cleanTimeoutSessions now)

/-- What the call `c` has done to the sessions of `m`. -/
structure Lifetime (c : SessionCall) (m m' : SessionManager) : Prop where
  timeout : m'.sessionTimeoutSec = m.sessionTimeoutSec
  begins : ∀ imsi data, m'.sessions.lookup imsi = some data →
    m.sessions.lookup imsi = some data ∨
      m.sessions.lookup imsi = none ∧ ∃ now, c = .createSession imsi now ∧ data = ⟨now⟩
  ends : ∀ imsi data, m.sessions.lookup imsi = some data →
    m'.sessions.lookup imsi = some data ∨
      m'.sessions.lookup imsi = none ∧ Ends m imsi data c

theorem Lifetime.refl (c : SessionCall) (m : SessionManager) : Lifetime c m m where
  timeout := rfl
  begins := fun _ _ h => .inl h
  ends := fun _ _ h => .inl h

/-- The sessions have stayed as they were. -/
theorem Lifetime.same (h : Lifetime c m₀ m)
    (hsessions : ∀ imsi, m'.sessions.lookup imsi = m.sessions.lookup imsi)
    (htimeout : m'.sessionTimeoutSec = m.sessionTimeoutSec) : Lifetime c m₀ m' where
  timeout := htimeout.trans h.timeout
  begins := fun imsi data hlookup => h.begins imsi data ((hsessions imsi).symm.trans hlookup)
  ends := fun imsi data hlookup => by
    rw [hsessions imsi]
    exact h.ends imsi data hlookup

/-- A session that the call can end has been erased. -/
theorem Lifetime.erase (h : Lifetime c m₀ m) {imsi : Imsi}
    (hends : ∀ data, m₀.sessions.lookup imsi = some data → Ends m₀ imsi data c) :
    Lifetime c m₀ { m with sessions := m.sessions.erase imsi } where
  timeout := h.timeout
  begins := fun other data hlookup => by
    -- what is there after the erasure was there before it
    by_cases hother : other = imsi
    · rw [hother] at hlookup
      have hnone : (m.sessions.erase imsi).lookup imsi = none := AList.lookup_erase imsi m.sessions
      rw [hnone] at hlookup
      cases hlookup
    · have hsame : (m.sessions.erase imsi).lookup other = m.sessions.lookup other :=
        AList.lookup_erase_ne hother
      rw [hsame] at hlookup
      exact h.begins other data hlookup
  ends := fun other data hlookup => by
    -- and what was there before is there still, but for the one that was erased
    by_cases hother : other = imsi
    · rw [hother] at hlookup ⊢
      exact .inr ⟨AList.lookup_erase imsi m.sessions, hends data hlookup⟩
    · have hsame : (m.sessions.erase imsi).lookup other = m.sessions.lookup other :=
        AList.lookup_erase_ne hother
      show (m.sessions.erase imsi).lookup other = some data ∨
        (m.sessions.erase imsi).lookup other = none ∧ _
      rw [hsame]
      exact h.ends other data hlookup

/-! ## The methods

Method by method, throwing or not: a session is erased before its record is written. -/

theorem writeAction_lifetime (imsi : Imsi) (action : Bytes) :
    Preserves (Lifetime c m₀) (writeAction imsi action) := by
  intro m h
  simp only [writeAction, ensures_bind, ensures_get, ensures_ite, ensures_set, ensures_throw]
  split
  · exact h.same (fun _ => rfl) rfl
  · exact h.same (fun _ => rfl) rfl

theorem deleteSession_lifetime {it : SessionEntry}
    (hends : ∀ data, m₀.sessions.lookup it.1 = some data → Ends m₀ it.1 data c) :
    Preserves (Lifetime c m₀) (deleteSession it) := by
  refine Preserves.bind (preserves_modify fun _ h => h.erase hends) fun _ => ?_
  refine (writeAction_lifetime it.1 _).bind fun _ => ?_
  exact preserves_modify fun _ h => h.same (fun _ => rfl) rfl

/-- What `terminateSession` and `shutdownSession` do with the session they have found. -/
theorem delete_and_count_lifetime {it : SessionEntry}
    (hends : ∀ data, m₀.sessions.lookup it.1 = some data → Ends m₀ it.1 data c) :
    Preserves (Lifetime c m₀) (do deleteSession it; countTerminated; pure true) :=
  (deleteSession_lifetime hends).bind fun _ =>
    (preserves_modify fun _ h => h.same (fun _ => rfl) rfl :
      Preserves (Lifetime c m₀) countTerminated).bind fun _ => preserves_pure true

theorem terminateSession_lifetime (imsi : Imsi) :
    Preserves (Lifetime (.terminateSession imsi) m₀) (terminateSession imsi) := by
  intro m h
  rw [terminateSession, ensures_bind, ensures_get]
  cases m.sessions.lookup imsi with
  | none => exact h
  | some data => exact delete_and_count_lifetime (fun _ _ => .terminated) m h

theorem shutdownSession_lifetime (hends : ∀ imsi data, Ends m₀ imsi data c) :
    Preserves (Lifetime c m₀) shutdownSession := by
  intro m h
  rw [shutdownSession, ensures_bind, ensures_get]
  cases m.sessions.entries with
  | nil => exact h
  | cons it rest => exact delete_and_count_lifetime (fun data _ => hends it.1 data) m h

/-- The elements of the iteration are sessions of the table at its start. -/
theorem cleanFrom_lifetime (now : Time) {its : List SessionEntry}
    (hits : ∀ it ∈ its, m₀.sessions.lookup it.1 = some it.2) :
    Preserves (Lifetime (.cleanTimeoutSessions now) m₀) (cleanFrom now its) := by
  induction its with
  | nil => exact preserves_pure ()
  | cons it its ih =>
    have hrest := ih fun other hother => hits other (List.mem_cons_of_mem it hother)
    intro m h
    rw [cleanFrom, ensures_bind, ensures_get]
    split
    · -- the session at `it` is as old as the timeout, and one of the first table
      next hage =>
      rw [h.timeout] at hage
      have hends : ∀ data, m₀.sessions.lookup it.1 = some data →
          Ends m₀ it.1 data (.cleanTimeoutSessions now) := by
        intro data hlookup
        obtain rfl : it.2 = data :=
          Option.some.inj ((hits it List.mem_cons_self).symm.trans hlookup)
        exact .expired now hage
      have hdelete := (deleteSession_lifetime hends).bind fun _ =>
        (preserves_modify fun _ h => h.same (fun _ => rfl) rfl :
          Preserves _ countExpired).bind fun _ => hrest
      exact hdelete m h
    · exact hrest m h

theorem createSession_lifetime (imsi : Imsi) (now : Time) :
    Ensures (createSession imsi now) m (fun _ => Lifetime (.createSession imsi now) m)
      (fun _ => Lifetime (.createSession imsi now) m) := by
  have hrefl := Lifetime.refl (.createSession imsi now) m
  rw [createSession, ensures_bind, ensures_get]
  split
  · exact hrefl
  split
  · have hreject : Preserves (Lifetime (.createSession imsi now) m)
        (writeAction imsi ICdrWriter.SESSION_REJECTED) := writeAction_lifetime imsi _
    refine (hreject.bind fun _ => ?_) m hrefl
    exact Preserves.bind (preserves_modify fun _ h => h.same (fun _ => rfl) rfl) fun _ =>
      preserves_pure _
  split
  · exact hrefl
  · next hsession =>
    have hnew : imsi ∉ m.sessions := by simpa [hasSession] using hsession
    have hnone : m.sessions.lookup imsi = none := AList.lookup_eq_none.mpr hnew
    -- the session is in the table before its record is written
    have hemplaced : Lifetime (.createSession imsi now) m
        { m with sessions := (m.sessions.tryEmplace imsi (SessionData.mk now)).1 } := by
      have hinsert : (m.sessions.tryEmplace imsi (SessionData.mk now)).1
          = m.sessions.insert imsi ⟨now⟩ := by simp [UnorderedMap.tryEmplace, hnew]
      rw [hinsert]
      refine ⟨rfl, fun other data hlookup => ?_, fun other data hlookup => ?_⟩
      · by_cases hother : other = imsi
        · subst hother
          have hself : (m.sessions.insert other ⟨now⟩).lookup other = some ⟨now⟩ :=
            AList.lookup_insert m.sessions
          rw [hself] at hlookup
          exact .inr ⟨hnone, now, rfl, (Option.some.inj hlookup).symm⟩
        · have hsame : (m.sessions.insert imsi ⟨now⟩).lookup other = m.sessions.lookup other :=
            AList.lookup_insert_ne hother
          rw [hsame] at hlookup
          exact .inl hlookup
      · have hother : other ≠ imsi := by
          intro heq
          rw [heq, hnone] at hlookup
          cases hlookup
        exact .inl ((AList.lookup_insert_ne hother).trans hlookup)
    have hwrite (action : Bytes) : Preserves (Lifetime (.createSession imsi now) m)
        (writeAction imsi action) := writeAction_lifetime imsi action
    rw [ensures_catching, ensures_bind, ensures_set]
    refine (Preserves.ite ((hwrite _).bind fun _ => ?_) ((hwrite _).bind fun _ => preserves_pure _)
      _ hemplaced).mono (fun _ _ h => h) fun e t ht => ?_
    · exact Preserves.bind (preserves_modify fun _ h => h.same (fun _ => rfl) rfl) fun _ =>
        preserves_pure _
    · cases e with
      | exception => exact ht
      | undefined => exact ht

theorem shutdownLoop_lifetime (hends : ∀ imsi data, Ends m₀ imsi data c) (pacing : Pacing → Pacing)
    (fuel : Nat) : ∀ p, Preserves (Lifetime c m₀) (shutdownLoop pacing fuel p) := by
  induction fuel with
  | zero => exact fun _ => preserves_pure ()
  | succ fuel ih =>
    intro p
    exact (shutdownSession_lifetime hends).bind fun _ => Preserves.ite (ih _) (preserves_pure ())

theorem gracefulShutdown_lifetime (clock : Nat → Time) :
    Preserves (Lifetime (.gracefulShutdown clock) m₀) (gracefulShutdown clock) := by
  refine Preserves.bind (preserves_modify fun _ h => h.same (fun _ => rfl) rfl) fun _ => ?_
  refine preserves_get.bind fun m => Preserves.ite (preserves_throw _) ?_
  refine (shutdownLoop_lifetime (fun _ _ => .gracefulShutdown clock) _ _ _).bind fun _ => ?_
  refine preserves_modify fun m h => ?_
  split
  · exact h.same (fun _ => rfl) rfl
  · exact h

/-- **What every call does to the sessions.** -/
theorem perform_lifetime (c : SessionCall) :
    Ensures (perform c) m (fun _ => Lifetime c m) (fun _ => Lifetime c m) := by
  have hrefl := Lifetime.refl c m
  cases c with
  | createSession imsi now =>
    rw [perform, ensures_bind]
    exact createSession_lifetime imsi now
  -- three calls take sessions out of the table, `cleanTimeoutSessions` only old ones
  | terminateSession imsi =>
    exact ((terminateSession_lifetime imsi).bind fun _ => preserves_pure _) m hrefl
  | shutdownSession =>
    exact ((shutdownSession_lifetime fun _ _ => .shutdown).bind fun _ => preserves_pure _) m hrefl
  | cleanTimeoutSessions now =>
    rw [perform, cleanTimeoutSessions, ensures_bind, ensures_get]
    exact cleanFrom_lifetime now (fun it hit => AList.mem_lookup_iff.mpr hit) m hrefl
  | gracefulShutdown clock => exact gracefulShutdown_lifetime clock m hrefl
  | addToBlacklist imsi =>
    simp only [perform, addToBlacklist, ensures_bind, ensures_get]
    split
    · exact hrefl.same (fun _ => rfl) rfl
    · exact hrefl
  | startDraining => exact hrefl.same (fun _ => rfl) rfl
  -- a new order of the table finds the same sessions
  | rehash order =>
    refine hrefl.same (fun imsi => ?_) rfl
    show (m.sessions.reordered order).lookup imsi = m.sessions.lookup imsi
    unfold UnorderedMap.reordered
    split
    · next hperm => exact AList.perm_lookup hperm
    · rfl

/-- **The life of a session, call by call.** -/
theorem lifetime_step (hstep : step m c = some m') : Lifetime c m m' := by
  have hperform := perform_lifetime (m := m) c
  unfold step at hstep
  cases hrun : (perform c).run m with
  | ok a t =>
    rw [hrun] at hstep
    cases hstep
    exact hperform.of_run_ok hrun
  | error e t =>
    rw [hrun] at hstep
    cases e with
    | exception =>
      cases hstep
      exact hperform.of_run_error hrun
    | undefined => cases hstep

/-! ## What a clean-up leaves

The loop of the clean-up looks at each session. The ones that it passes by are younger than the
timeout. -/

/-- The sessions that are not left for the rest of the iteration are young. Induction on it. -/
theorem cleanFrom_young (now : Time) (its : List SessionEntry) :
    ∀ {m : SessionManager}, (∀ imsi data, m.sessions.lookup imsi = some data →
        ⟨imsi, data⟩ ∈ its ∨ now - data.createdTime < seconds m.sessionTimeoutSec) →
      Ensures (cleanFrom now its) m (fun _ m' => ∀ imsi data, m'.sessions.lookup imsi = some data →
        now - data.createdTime < seconds m.sessionTimeoutSec) fun _ _ => True := by
  -- `its` holds the sessions that the iteration has not come to yet
  induction its with
  | nil =>
    intro m h imsi data hlookup
    rcases h imsi data hlookup with hin | hyoung
    · exact absurd hin List.not_mem_nil
    · exact hyoung
  | cons it its ih =>
    intro m h
    simp only [cleanFrom, ensures_bind, ensures_get]
    split
    · -- the session at `it` is erased, whatever happens to its record
      simp only [ensures_bind, deleteSession, writeAction, countExpired, ensures_modify,
        ensures_get, ensures_ite, ensures_set, ensures_throw]
      split
      · trivial
      · apply ih
        intro imsi data hlookup
        have hlookup' : (m.sessions.erase it.1).lookup imsi = some data := hlookup
        -- the erased entry is no longer found, the others stand where they stood
        by_cases hother : imsi = it.1
        · rw [hother, AList.lookup_erase] at hlookup'
          cases hlookup'
        · rw [AList.lookup_erase_ne hother] at hlookup'
          rcases h imsi data hlookup' with hin | hyoung
          · rcases List.mem_cons.mp hin with heq | hrest
            · exact absurd (congrArg Sigma.fst heq) hother
            · exact .inl hrest
          · exact .inr hyoung
    · next hyoung =>
      -- the session at `it` stays, being young
      apply ih
      intro imsi data hlookup
      rcases h imsi data hlookup with hin | hyoung'
      · rcases List.mem_cons.mp hin with heq | hrest
        · rw [← heq] at hyoung
          exact .inr (not_le.mp hyoung)
        · exact .inl hrest
      · exact .inr hyoung'

/-- **A clean-up that returns leaves no session as old as the timeout.** -/
theorem cleanTimeoutSessions_young (now : Time) :
    Ensures (cleanTimeoutSessions now) m (fun _ m' => ∀ imsi data,
      m'.sessions.lookup imsi = some data →
        now - data.createdTime < seconds m.sessionTimeoutSec) fun _ _ => True := by
  rw [cleanTimeoutSessions, ensures_bind, ensures_get]
  exact cleanFrom_young now m.sessions.entries fun imsi data hlookup =>
    .inl (AList.mem_lookup_iff.mp hlookup)

/-! ## Runs of calls

The beginning and the end of a session, found by walking back over a run. -/

/-- A session that is gone after a run was ended by one of its calls. -/
theorem ends_of_exec {calls : List SessionCall} :
    ∀ {m : SessionManager}, Run.exec step m calls = some m' →
      m.sessions.lookup imsi = some data → m'.sessions.lookup imsi ≠ some data →
      ∃ c ∈ calls, ∃ u : SessionManager, u.sessionTimeoutSec = m.sessionTimeoutSec ∧
        Ends u imsi data c := by
  induction calls with
  | nil =>
    intro m hrun hlookup hgone
    cases hrun
    exact absurd hlookup hgone
  | cons c calls ih =>
    intro m hrun hlookup hgone
    obtain ⟨u, hu, hrest⟩ := Run.exec_cons_eq_some.mp hrun
    have hlife := lifetime_step hu
    rcases hlife.ends imsi data hlookup with hkept | ⟨-, hends⟩
    · obtain ⟨d, hd, v, hv, hvends⟩ := ih hrest hkept hgone
      exact ⟨d, List.mem_cons_of_mem c hd, v, hv.trans hlife.timeout, hvends⟩
    · exact ⟨c, List.mem_cons_self, m, rfl, hends⟩

/-- A session that a run has left was there before, or one of its calls created it. -/
theorem begins_of_exec {calls : List SessionCall} :
    ∀ {m : SessionManager}, Run.exec step m calls = some m' →
      m'.sessionTimeoutSec = m.sessionTimeoutSec ∧
      ∀ imsi data, m'.sessions.lookup imsi = some data →
        m.sessions.lookup imsi = some data ∨ .createSession imsi data.createdTime ∈ calls := by
  induction calls with
  | nil =>
    intro m hrun
    cases hrun
    exact ⟨rfl, fun _ _ h => .inl h⟩
  | cons c calls ih =>
    intro m hrun
    obtain ⟨u, hu, hrest⟩ := Run.exec_cons_eq_some.mp hrun
    have hlife := lifetime_step hu
    obtain ⟨htimeout, hbegins⟩ := ih hrest
    refine ⟨htimeout.trans hlife.timeout, fun imsi data hlookup => ?_⟩
    rcases hbegins imsi data hlookup with hold | hnew
    · rcases hlife.begins imsi data hold with hfirst | ⟨-, now, rfl, rfl⟩
      · exact .inl hfirst
      · exact .inr List.mem_cons_self
    · exact .inr (List.mem_cons_of_mem c hnew)

end SessionManager
end Pgw
