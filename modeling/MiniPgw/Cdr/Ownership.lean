import MiniPgw.Cdr.DatabaseCdrWriter

/-!
# Who owns the transaction

The two flushers share one connection, so it has at most one open transaction. `Owned` is what
holds of it in every reachable state, whatever SQLite answers: a flusher that is inserting, or
whose `INSERT` has just failed, has the transaction open, it is the only such flusher, and a
batch is never empty.
-/

namespace Pgw

/-- `flush()` stands between its `BEGIN` and its `COMMIT` or `ROLLBACK`. -/
def Phase.owns {ε : Type} : Phase ε → Bool
  | .inserting _ => true
  | .insertFailed _ => true
  | _ => false

/-- `flush()` holds a batch that it has not begun to insert. -/
def Phase.waits {ε : Type} : Phase ε → Bool
  | .taken _ => true
  | .beginFailed _ => true
  | _ => false

namespace DatabaseCdrWriter

variable {ε : Type} {w w' : DatabaseCdrWriter ε}

structure Owned (w : DatabaseCdrWriter ε) : Prop where
  connected : w.db.isConnected = true
  /-- A batch that waits for `BEGIN` is not empty. -/
  batch : ∀ f, (w.phase f).waits = true → (w.phase f).toFlush ≠ []
  /-- The owner of the transaction has it open, and its batch is not empty. -/
  opened : ∀ f, (w.phase f).owns = true → ∃ inserted, w.db.transaction = some inserted ∧
    inserted.map Row.entry ++ (w.phase f).toFlush ≠ []
  exclusive : ∀ f g, (w.phase f).owns = true → (w.phase g).owns = true → f = g

theorem owned_constructed (committed : List (Row ε)) (now : Nat) :
    (constructed committed now).Owned where
  connected := rfl
  batch := fun _ h => by simp [constructed, Phase.waits] at h
  opened := fun _ h => by simp [constructed, Phase.owns] at h
  exclusive := fun _ _ h => by simp [constructed, Phase.owns] at h

/-- `Owned` reads only the connection and the phases. -/
theorem Owned.congr (h : w.Owned) (hdb : w'.db = w.db) (hphase : w'.phase = w.phase) :
    w'.Owned where
  connected := by rw [hdb]; exact h.connected
  batch := by rw [hphase]; exact h.batch
  opened := by rw [hdb, hphase]; exact h.opened
  exclusive := by rw [hphase]; exact h.exclusive

/-- A flusher may go to any phase that does not own the transaction. -/
theorem Owned.setPhase (h : w.Owned) (f : Flusher) {p : Phase ε} (hp : p.owns = false)
    (hbatch : p.waits = true → p.toFlush ≠ []) : (w.setPhase f p).Owned where
  connected := h.connected
  batch := fun g hg => by
    by_cases hgf : g = f
    · subst hgf; simpa using hbatch (by simpa using hg)
    · simpa [hgf] using h.batch g (by simpa [hgf] using hg)
  opened := fun g hg => by
    by_cases hgf : g = f
    · subst hgf; simp [hp] at hg
    · simpa [hgf] using h.opened g (by simpa [hgf] using hg)
  exclusive := fun g k hg hk => by
    by_cases hgf : g = f
    · subst hgf; simp [hp] at hg
    · by_cases hkf : k = f
      · subst hkf; simp [hp] at hk
      · exact h.exclusive g k (by simpa [hgf] using hg) (by simpa [hkf] using hk)

/-- The owner may close the transaction when it leaves it. -/
theorem Owned.close (h : w.Owned) {f : Flusher} (hf : (w.phase f).owns = true) {db : Sqlite ε}
    (hdb : db.isConnected = w.db.isConnected) {p : Phase ε} (hp : p.owns = false)
    (hwaits : p.waits = false) : (w.afterCall f db p).Owned where
  connected := hdb.trans h.connected
  batch := fun g hg => by
    by_cases hgf : g = f
    · subst hgf; simp [hwaits] at hg
    · simpa [hgf] using h.batch g (by simpa [hgf] using hg)
  opened := fun g hg => by
    by_cases hgf : g = f
    · subst hgf; simp [hp] at hg
    · exact absurd (h.exclusive g f (by simpa [hgf] using hg) hf) hgf
  exclusive := fun g k hg hk => by
    by_cases hgf : g = f
    · subst hgf; simp [hp] at hg
    · exact absurd (h.exclusive g f (by simpa [hgf] using hg) hf) hgf

/-- The flusher that runs the transaction goes on with an open one. -/
theorem Owned.run (h : w.Owned) {f : Flusher} {db : Sqlite ε} {inserted : List (Row ε)}
    (hdb : db.isConnected = w.db.isConnected) (hopen : db.transaction = some inserted)
    {p : Phase ε} (hp : inserted.map Row.entry ++ p.toFlush ≠ []) (hwaits : p.waits = false)
    (hothers : ∀ g, g ≠ f → (w.phase g).owns = false) : (w.afterCall f db p).Owned where
  connected := hdb.trans h.connected
  batch := fun g hg => by
    by_cases hgf : g = f
    · subst hgf; simp [hwaits] at hg
    · simpa [hgf] using h.batch g (by simpa [hgf] using hg)
  opened := fun g hg => by
    by_cases hgf : g = f
    · subst hgf; exact ⟨inserted, hopen, by simpa using hp⟩
    · simp [hgf, hothers g hgf] at hg
  exclusive := fun g k hg hk => by
    by_cases hgf : g = f
    · by_cases hkf : k = f
      · rw [hgf, hkf]
      · simp [hkf, hothers k hkf] at hk
    · simp [hgf, hothers g hgf] at hg

/-- While one flusher owns the transaction, no other does. -/
theorem Owned.others (h : w.Owned) {f : Flusher} (hf : (w.phase f).owns = true) :
    ∀ g, g ≠ f → (w.phase g).owns = false := by
  intro g hgf
  by_contra hg
  exact hgf (h.exclusive g f (by simpa using hg) hf)

/-- Without an open transaction nobody owns one. -/
theorem Owned.none (h : w.Owned) (hnone : w.db.transaction = Option.none) :
    ∀ g, (w.phase g).owns = false := by
  intro g
  by_contra hg
  obtain ⟨inserted, hopen, -⟩ := h.opened g (by simpa using hg)
  rw [hnone] at hopen
  cases hopen

/-- **Every step keeps the ownership of the transaction.** -/
theorem owned_step (h : w.Owned) {a : WriterAction ε} (hstep : Step w a w') : w'.Owned := by
  cases hstep with
  | writeAction entry hfree =>
    refine h.congr ?_ ?_ <;> simp only [writeAction] <;> split <;> rfl
  | callBackground _ _ _ => exact h.setPhase _ rfl (by simp [Phase.waits])
  | callEventLoop _ => exact h.setPhase _ rfl (by simp [Phase.waits])
  | getRecentRecords _ =>
    have hreading : Owned { w with reading := true } := h.congr rfl rfl
    simp only [getRecentRecords, h.connected, if_true]
    exact hreading.setPhase _ rfl (by simp [Phase.waits])
  | takeBuffer f hphase =>
    simp only [takeBuffer]
    split
    · exact h.setPhase _ rfl (by simp [Phase.waits])
    · next hne =>
      have hempty : Owned { w with buffer := [] } := h.congr rfl rfl
      exact hempty.setPhase _ rfl (fun _ => hne)
  | beginOk f q hphase hconn hnone =>
    have hq : q ≠ [] := by
      simpa [hphase, Phase.toFlush] using h.batch f (by simp [hphase, Phase.waits])
    exact h.run (by rfl) (by rfl) (by simpa [Phase.toFlush] using hq) (by rfl)
      (fun g _ => h.none hnone g)
  -- no transaction was opened, so nobody owns one
  | beginFailed f q hphase =>
    have hq : q ≠ [] := by
      simpa [hphase, Phase.toFlush] using h.batch f (by simp [hphase, Phase.waits])
    exact h.setPhase _ rfl (fun _ => hq)
  | putBack f q hphase =>
    have hbuffer : Owned { w with buffer := if q = [] then w.buffer else q } := h.congr rfl rfl
    exact hbuffer.setPhase _ rfl (by simp [Phase.waits])
  | insertDone f entry q hphase =>
    have hf : (w.phase f).owns = true := by simp [hphase, Phase.owns]
    obtain ⟨inserted, hopen, -⟩ := h.opened f hf
    have hrow : (w.db.insertRow entry).transaction = some (inserted ++ [⟨entry, w.db.now⟩]) := by
      simp [Sqlite.insertRow, hopen]
    exact h.run (by simp [Sqlite.insertRow, hopen]) hrow (by simp) rfl (h.others hf)
  | insertFailed f entry q hphase =>
    have hf : (w.phase f).owns = true := by simp [hphase, Phase.owns]
    obtain ⟨inserted, hopen, -⟩ := h.opened f hf
    have hnext : (w.afterCall f w.db (.insertFailed (entry :: q))).Owned :=
      h.run rfl hopen (by simp [Phase.toFlush]) rfl (h.others hf)
    exact hnext
  -- the owner closes the transaction
  | rollbackOk f q inserted hphase hopen =>
    have hf : (w.phase f).owns = true := by simp [hphase, Phase.owns]
    exact h.close hf (by rfl) (by rfl) (by rfl)
  | rollbackFailed f q hphase => exact h.setPhase _ rfl (by simp [Phase.waits])
  | giveBack f q hphase =>
    have hbuffer : Owned { w with buffer := w.buffer ++ q } := h.congr rfl rfl
    exact hbuffer.setPhase _ rfl (by simp [Phase.waits])
  | commitOk f inserted hphase hopen =>
    have hf : (w.phase f).owns = true := by simp [hphase, Phase.owns]
    exact h.close hf (by rfl) (by rfl) (by rfl)
  | commitFailedOpen f hphase => exact h.setPhase _ rfl (by simp [Phase.waits])
  | commitFailedRolledBack f inserted hphase hopen =>
    have hf : (w.phase f).owns = true := by simp [hphase, Phase.owns]
    exact h.close hf (by rfl) (by rfl) (by rfl)
  | select _ _ => exact h.congr rfl rfl
  | setStop _ => exact h.congr rfl rfl
  | exitLoop _ _ => exact h.congr rfl rfl
  | tick seconds => exact ⟨h.connected, h.batch, h.opened, h.exclusive⟩

/-- **Every reachable state is `Owned`.** -/
theorem owned_reachable {committed : List (Row ε)} {now : Nat} {as : List (WriterAction ε)}
    (hrun : Run.exec step (constructed committed now) as = some w) : w.Owned :=
  Run.exec_invariant (fun _ _ _ h hs => owned_step h (step_cases hs))
    (owned_constructed committed now) hrun

end DatabaseCdrWriter
end Pgw
