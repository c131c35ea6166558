import MiniPgw.Session.SessionManager

/-!
# Which subscribers the session manager lets in

`createSession` looks at the blacklist but not at the form of the IMSI: its callers do. With calls
of `createSession` for valid IMSIs only, and any other calls, what the manager may have done since a
state `m₀` is `Permitted m₀`; every call keeps it, whether or not the CDR writer throws.

## The architecture

* **`Permitted`** — a relation between two states of the manager that is reflexive and goes along
  with every change that the methods make: `Permitted.same`, `Permitted.erase`,
  `Permitted.emplace`.
* **`createSession_permitted`** — the only method that brings in a key; it has looked at the
  blacklist.
* **`perform_permitted`**, **`step_permitted`** — the other calls, whether they return or throw.
-/

namespace Pgw

open Effects

namespace SessionManager

variable {m₀ m : SessionManager} {imsi : Imsi}

/-- What the calls since `m₀` may have done. -/
structure Permitted (m₀ m : SessionManager) : Prop where
  kept : m₀.blacklist ⊆ m.blacklist
  listed : ∀ imsi ∈ m.blacklist, imsi ∈ m₀.blacklist ∨ Validation.isValidImsi imsi = true
  active : ∀ imsi ∈ m.sessions.keySet,
    imsi ∈ m₀.sessions.keySet ∨ Validation.isValidImsi imsi = true ∧ imsi ∉ m₀.blacklist
  written : ∃ written, m.cdrWriter.entries = m₀.cdrWriter.entries ++ written ∧
    ∀ entry ∈ written,
      (entry.imsi ∈ m₀.sessions.keySet ∨ Validation.isValidImsi entry.imsi = true) ∧
        (entry.action = ICdrWriter.SESSION_CREATED → entry.imsi ∉ m₀.blacklist)

theorem Permitted.refl (m₀ : SessionManager) : Permitted m₀ m₀ where
  kept := subset_rfl
  listed := fun _ himsi => .inl himsi
  active := fun _ himsi => .inl himsi
  written := ⟨[], (List.append_nil _).symm, fun _ h => absurd h List.not_mem_nil⟩

/-- The IMSI had a session in `m₀`, or is valid. -/
def Known (m₀ : SessionManager) (imsi : Imsi) : Prop :=
  imsi ∈ m₀.sessions.keySet ∨ Validation.isValidImsi imsi = true

theorem Permitted.known (h : Permitted m₀ m) (himsi : imsi ∈ m.sessions.keySet) : Known m₀ imsi :=
  (h.active imsi himsi).imp_right And.left

/-- Nothing but the statistics, the counter of the CDR writer and such has changed. -/
theorem Permitted.same {m' : SessionManager} (h : Permitted m₀ m)
    (hblacklist : m'.blacklist = m.blacklist)
    (hsessions : m'.sessions.keySet = m.sessions.keySet)
    (hentries : m'.cdrWriter.entries = m.cdrWriter.entries) : Permitted m₀ m' where
  kept := hblacklist ▸ h.kept
  listed := hblacklist ▸ h.listed
  active := hsessions ▸ h.active
  written := hentries ▸ h.written

theorem Permitted.erase (h : Permitted m₀ m) (imsi : Imsi) :
    Permitted m₀ { m with sessions := m.sessions.erase imsi } where
  kept := h.kept
  listed := h.listed
  active := fun other hother => by
    have hkeys : UnorderedMap.keySet (m.sessions.erase imsi) = m.sessions.keySet.erase imsi :=
      UnorderedMap.keySet_erase m.sessions imsi
    have hin : other ∈ UnorderedMap.keySet (m.sessions.erase imsi) := hother
    rw [hkeys] at hin
    exact h.active other (Finset.mem_of_mem_erase hin)
  written := h.written

theorem Permitted.emplace (h : Permitted m₀ m) (hvalid : Validation.isValidImsi imsi = true)
    (hallowed : imsi ∉ m₀.blacklist) (data : SessionData) :
    Permitted m₀ { m with sessions := (m.sessions.tryEmplace imsi data).1 } where
  kept := h.kept
  listed := h.listed
  active := fun other hother => by
    have hin : other ∈ UnorderedMap.keySet (m.sessions.tryEmplace imsi data).1 := hother
    rw [UnorderedMap.keySet_tryEmplace] at hin
    rcases Finset.mem_insert.mp hin with rfl | hold
    · exact .inr ⟨hvalid, hallowed⟩
    · exact h.active other hold
  written := h.written

/-- One more record. -/
theorem writeAction_permitted (hknown : Known m₀ imsi) {action : Bytes}
    (hallowed : action = ICdrWriter.SESSION_CREATED → imsi ∉ m₀.blacklist) :
    Preserves (Permitted m₀) (writeAction imsi action) := by
  intro m h
  simp only [writeAction, ensures_bind, ensures_get, ensures_ite, ensures_set, ensures_throw]
  split
  · exact h.same rfl rfl rfl
  · obtain ⟨written, hwritten, hentries⟩ := h.written
    refine ⟨h.kept, h.listed, h.active, written ++ [⟨imsi, action⟩], ?_, fun entry hentry => ?_⟩
    · show m.cdrWriter.entries ++ [⟨imsi, action⟩] = _
      rw [hwritten, List.append_assoc]
    · rcases List.mem_append.mp hentry with hold | hnew
      · exact hentries entry hold
      · obtain rfl := List.mem_singleton.mp hnew
        exact ⟨hknown, hallowed⟩

theorem deleteSession_permitted {it : SessionEntry} (hknown : Known m₀ it.1) :
    Preserves (Permitted m₀) (deleteSession it) := by
  refine Preserves.bind (preserves_modify fun _ h => h.erase it.1) fun _ => ?_
  refine Preserves.bind (writeAction_permitted hknown fun h => ?_) fun _ => ?_
  · exact absurd h (by decide)
  · exact preserves_modify fun _ h => h.same rfl rfl rfl

/-- What `terminateSession` and `shutdownSession` do with the session they have found. -/
theorem delete_and_count_permitted {it : SessionEntry} (hknown : Known m₀ it.1) :
    Preserves (Permitted m₀) (do deleteSession it; countTerminated; pure true) :=
  (deleteSession_permitted hknown).bind fun _ =>
    (preserves_modify fun _ h => h.same rfl rfl rfl :
      Preserves (Permitted m₀) countTerminated).bind fun _ => preserves_pure true

theorem shutdownSession_permitted : Preserves (Permitted m₀) shutdownSession := by
  intro m h
  rw [shutdownSession, ensures_bind, ensures_get]
  cases hentries : m.sessions.entries with
  | nil => exact h
  | cons it rest =>
    have hin : it.1 ∈ m.sessions := UnorderedMap.mem_of_entries_eq_cons hentries
    exact delete_and_count_permitted (h.known (UnorderedMap.mem_keySet.mpr hin)) m h

theorem terminateSession_permitted (imsi : Imsi) :
    Preserves (Permitted m₀) (terminateSession imsi) := by
  intro m h
  rw [terminateSession, ensures_bind, ensures_get]
  cases hlookup : m.sessions.lookup imsi with
  | none => exact h
  | some data =>
    have hin : imsi ∈ m.sessions := AList.lookup_isSome.mp (by rw [hlookup]; rfl)
    exact delete_and_count_permitted (h.known (UnorderedMap.mem_keySet.mpr hin)) m h

/-- Induction on what is left of the iteration: its elements have been in the table. -/
theorem cleanFrom_permitted (now : Time) {its : List SessionEntry}
    (hknown : ∀ it ∈ its, Known m₀ it.1) : Preserves (Permitted m₀) (cleanFrom now its) := by
  induction its with
  | nil => exact preserves_pure ()
  | cons it its ih =>
    have hrest := ih fun other hother => hknown other (List.mem_cons_of_mem it hother)
    refine preserves_get.bind fun m => Preserves.ite ?_ hrest
    refine (deleteSession_permitted (hknown it List.mem_cons_self)).bind fun _ => ?_
    exact Preserves.bind (preserves_modify fun _ h => h.same rfl rfl rfl) fun _ => hrest

theorem cleanTimeoutSessions_permitted (now : Time) :
    Preserves (Permitted m₀) (cleanTimeoutSessions now) := by
  intro m h
  rw [cleanTimeoutSessions, ensures_bind, ensures_get]
  refine cleanFrom_permitted now (fun it hit => ?_) m h
  exact h.known (UnorderedMap.mem_keySet.mpr (UnorderedMap.mem_of_mem_entries hit))

theorem startDraining_permitted : Preserves (Permitted m₀) startDraining :=
  preserves_modify fun _ h => h.same rfl rfl rfl

/-- **`createSession` for a valid IMSI** creates no session that is on the blacklist. -/
theorem createSession_permitted (hvalid : Validation.isValidImsi imsi = true) (now : Time) :
    Preserves (Permitted m₀) (createSession imsi now) := by
  intro m h
  rw [createSession, ensures_bind, ensures_get]
  split
  · exact h
  split
  · -- the record of a rejection
    have hreject : Preserves (Permitted m₀) (writeAction imsi ICdrWriter.SESSION_REJECTED) :=
      writeAction_permitted (.inr hvalid) fun h => absurd h (by decide)
    refine (hreject.bind fun _ => ?_) m h
    exact Preserves.bind (preserves_modify fun _ h => h.same rfl rfl rfl) fun _ => preserves_pure _
  · next hlisted =>
    have hallowed : imsi ∉ m₀.blacklist := fun hin => hlisted (h.kept hin)
    split
    · exact h
    have hwrite {action : Bytes} : Preserves (Permitted m₀) (writeAction imsi action) :=
      writeAction_permitted (.inr hvalid) fun _ => hallowed
    rw [ensures_catching, ensures_bind, ensures_set]
    -- the session stays in the table also when its record cannot be written
    refine (Preserves.ite (hwrite.bind fun _ => ?_) (hwrite.bind fun _ => preserves_pure _) _
      (h.emplace hvalid hallowed (SessionData.mk now))).mono (fun _ _ h => h) fun e t ht => ?_
    · exact Preserves.bind (preserves_modify fun _ h => h.same rfl rfl rfl) fun _ =>
        preserves_pure _
    · cases e with
      | exception => exact ht
      | undefined => exact ht

theorem addToBlacklist_permitted (imsi : Imsi) :
    Preserves (Permitted m₀) (addToBlacklist imsi) := by
  intro m h
  rw [addToBlacklist, ensures_bind, ensures_get]
  split
  · next hvalid =>
    refine ⟨h.kept.trans (Finset.subset_insert imsi m.blacklist), fun other hother => ?_,
      h.active, h.written⟩
    rcases Finset.mem_insert.mp hother with rfl | hold
    · exact .inr hvalid
    · exact h.listed other hold
  · exact h

theorem shutdownLoop_permitted (pacing : Pacing → Pacing) (fuel : Nat) :
    ∀ p, Preserves (Permitted m₀) (shutdownLoop pacing fuel p) := by
  induction fuel with
  | zero => exact fun _ => preserves_pure ()
  | succ fuel ih =>
    intro p
    exact shutdownSession_permitted.bind fun _ => Preserves.ite (ih _) (preserves_pure ())

theorem gracefulShutdown_permitted (clock : Nat → Time) :
    Preserves (Permitted m₀) (gracefulShutdown clock) := by
  refine Preserves.bind (preserves_modify fun _ h => h.same rfl rfl rfl) fun _ => ?_
  refine preserves_get.bind fun m => Preserves.ite (preserves_throw _) ?_
  refine (shutdownLoop_permitted _ _ _).bind fun _ => preserves_modify fun m h => ?_
  split
  · exact h.same rfl rfl rfl
  · exact h

/-- The calls other than `createSession`. -/
theorem perform_permitted (c : SessionCall) (hc : ∀ imsi now, c ≠ .createSession imsi now) :
    Preserves (Permitted m₀) (perform c) := by
  cases c with
  | createSession imsi now => exact absurd rfl (hc imsi now)
  | terminateSession imsi => exact (terminateSession_permitted imsi).bind fun _ => preserves_pure _
  | shutdownSession => exact shutdownSession_permitted.bind fun _ => preserves_pure _
  | cleanTimeoutSessions now => exact cleanTimeoutSessions_permitted now
  | gracefulShutdown clock => exact gracefulShutdown_permitted clock
  | addToBlacklist imsi => exact (addToBlacklist_permitted imsi).bind fun _ => preserves_pure _
  | startDraining => exact startDraining_permitted
  | rehash order =>
    exact preserves_modify fun m h => h.same rfl
      (UnorderedMap.keySet_reordered m.sessions order) rfl

/-- What a call keeps, whether it returns or throws, is kept by the step. -/
theorem step_permitted {m' : SessionManager} {c : SessionCall}
    (hc : ∀ imsi now, c ≠ .createSession imsi now) (h : Permitted m₀ m)
    (hstep : step m c = some m') : Permitted m₀ m' := by
  have hkept := perform_permitted c hc m h
  unfold step at hstep
  cases hrun : (perform c).run m with
  | ok a t =>
    rw [hrun] at hstep
    cases hstep
    exact hkept.of_run_ok hrun
  | error e t =>
    rw [hrun] at hstep
    cases e with
    | exception =>
      cases hstep
      exact hkept.of_run_error hrun
    | undefined => cases hstep

end SessionManager
end Pgw
