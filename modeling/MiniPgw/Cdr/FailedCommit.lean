import MiniPgw.Cdr.Conservation

/-!
# A `flush()` whose `COMMIT` fails

When `COMMIT` fails with the transaction still open, `flush()` logs the error and returns: the
batch stays in the transaction, and no thread will end it. From then on every `BEGIN IMMEDIATE`
fails, so nothing is committed any more, however the run goes on (`failedCommit_commits_nothing`).

## The architecture

* **`step_phase`**, **`step_tables`**, **`Owned.transaction_frame`** — the frame: what the step of
  one thread leaves alone of the others.
* **`Carrying`**, **`carrying_step`** — from the moment the buffer is taken until the `COMMIT`,
  the rows of the transaction and the local queue are together the batch that was taken.
* **`Wedged`**, **`wedged_step`** — an open transaction that no thread is inside of stays open,
  and the committed rows stay as they are.
* **`failedCommit_commits_nothing`** — the batch was in the transaction (`Carrying.uncommitted`),
  the failed `COMMIT` leaves it there (`wedged_failedCommit`), and no later step changes that.
-/

namespace Pgw

/-- The flusher whose place in `flush()` an action changes. -/
def WriterAction.flusher {ε : Type} : WriterAction ε → Option Flusher
  | .callFlush f => some f
  | .getRecentRecords => some .eventLoop
  | .takeBuffer f => some f
  | .begin f _ => some f
  | .putBack f => some f
  | .insert f _ => some f
  | .rollback f _ => some f
  | .giveBack f => some f
  | .commit f _ => some f
  | _ => none

/-- A flusher at this phase, whose transaction holds the rows `inserted`, is on its way to commit
the batch `b`. -/
def Phase.Carries {ε : Type} (b : List ε) (inserted : List (Row ε)) : Phase ε → Prop
  | .taken q => q = b
  | .beginFailed q => q = b
  | .inserting q => inserted.map Row.entry ++ q = b
  | .insertFailed q => inserted.map Row.entry ++ q = b
  | _ => True

/-- The rows of the transaction matter only to its owner. -/
theorem Phase.Carries.congr {ε : Type} {p : Phase ε} {b : List ε}
    {inserted inserted' : List (Row ε)}
    (h : p.Carries b inserted) (hrows : p.owns = true → inserted' = inserted) :
    p.Carries b inserted' := by
  cases p with
  | inserting q => rw [hrows rfl]; exact h
  | insertFailed q => rw [hrows rfl]; exact h
  | taken q => exact h
  | beginFailed q => exact h
  | idle => trivial
  | entered => trivial
  | rolledBack q => trivial

namespace DatabaseCdrWriter

variable {ε : Type} {w w' : DatabaseCdrWriter ε} {f : Flusher}

/-! ## What the steps of a thread touch

A thread's place in `flush()` is its own, and while it owns the transaction so are the rows in
it. -/

/-- A step moves at most its own thread. -/
theorem step_phase {a : WriterAction ε} (hstep : Step w a w') :
    w'.phase = w.phase ∨ ∃ g p, a.flusher = some g ∧ w'.phase = Function.update w.phase g p := by
  cases hstep with
  | writeAction entry _ =>
    left
    simp only [writeAction]
    split <;> rfl
  | getRecentRecords _ =>
    simp only [getRecentRecords]
    split
    · exact .inr ⟨_, _, rfl, rfl⟩
    · exact .inl rfl
  | takeBuffer g _ =>
    simp only [takeBuffer]
    split <;> exact .inr ⟨_, _, rfl, rfl⟩
  | select _ _ => exact .inl rfl
  | setStop _ => exact .inl rfl
  | exitLoop _ _ => exact .inl rfl
  | tick _ => exact .inl rfl
  | _ => exact .inr ⟨_, _, rfl, rfl⟩

/-- The tables change only through the owner of the transaction, or when there is none. -/
theorem step_tables {a : WriterAction ε} (hstep : Step w a w') :
    (w'.db.transaction = w.db.transaction ∧ w'.db.committed = w.db.committed) ∨
      ∃ g, a.flusher = some g ∧ ((w.phase g).owns = true ∨ w.db.transaction = none) := by
  cases hstep with
  | writeAction entry _ =>
    left
    simp only [writeAction]
    split <;> exact ⟨rfl, rfl⟩
  | getRecentRecords _ =>
    left
    simp only [getRecentRecords]
    split <;> exact ⟨rfl, rfl⟩
  | takeBuffer g _ =>
    left
    simp only [takeBuffer]
    split <;> exact ⟨rfl, rfl⟩
  -- `BEGIN` opens the transaction; `INSERT`, `ROLLBACK` and `COMMIT` are in the hands of its owner
  | beginOk g q _ _ hnone => exact .inr ⟨g, rfl, .inr hnone⟩
  | insertDone g entry q hphase => exact .inr ⟨g, rfl, .inl (by simp [hphase, Phase.owns])⟩
  | rollbackOk g q inserted hphase _ => exact .inr ⟨g, rfl, .inl (by simp [hphase, Phase.owns])⟩
  | commitOk g inserted hphase _ => exact .inr ⟨g, rfl, .inl (by simp [hphase, Phase.owns])⟩
  | commitFailedRolledBack g inserted hphase _ =>
    exact .inr ⟨g, rfl, .inl (by simp [hphase, Phase.owns])⟩
  | _ => exact .inl ⟨rfl, rfl⟩

/-- While a thread owns the transaction, the others leave it alone. -/
theorem Owned.transaction_frame (h : w.Owned) (hf : (w.phase f).owns = true) {a : WriterAction ε}
    (hother : a.flusher ≠ some f) (hstep : Step w a w') :
    w'.db.transaction = w.db.transaction := by
  rcases step_tables hstep with ⟨hsame, -⟩ | ⟨g, hg, hacts⟩
  · exact hsame
  · rcases hacts with howns | hnone
    · exact absurd (hg.trans (congrArg some (h.exclusive g f howns hf))) hother
    · obtain ⟨inserted, hopen, -⟩ := h.opened f hf
      rw [hnone] at hopen
      cases hopen

/-! ## The batch of a running flush

The batch is followed from the buffer through the local queue into the rows of the transaction.
Whatever the other thread does meanwhile, the same entries stand before the `COMMIT`. -/

/-- Thread `f` is on its way to commit `b`, unless it has finished with it. -/
structure Carrying (w : DatabaseCdrWriter ε) (f : Flusher) (b : List ε) : Prop extends w.Owned where
  carries : (w.phase f).Carries b (w.db.transaction.getD [])

/-- Taking the buffer makes it the batch. -/
theorem carrying_takeBuffer (h : w.Owned) (hstep : step w (.takeBuffer f) = some w') :
    w'.Carrying f w.buffer := by
  have hstep' := step_cases hstep
  refine ⟨owned_step h hstep', ?_⟩
  cases hstep' with
  | takeBuffer _ hphase =>
    simp only [takeBuffer]
    split
    · simp [Phase.Carries]
    · simp [Phase.Carries]

/-- **No step but taking the buffer again changes the batch.** -/
theorem carrying_step {b : List ε} (h : w.Carrying f b) {a : WriterAction ε}
    (ha : a ≠ .takeBuffer f) (hstep : Step w a w') : w'.Carrying f b := by
  refine ⟨owned_step h.toOwned hstep, ?_⟩
  have hcarries := h.carries
  by_cases hother : a.flusher = some f
  · -- a step of `f` itself
    cases hstep with
    | takeBuffer g _ => exact absurd (congrArg _ (Option.some.inj hother)) ha
    | getRecentRecords _ =>
      obtain rfl : Flusher.eventLoop = f := Option.some.inj hother
      simp [getRecentRecords, h.connected, Phase.Carries]
    | callBackground _ _ _ =>
      obtain rfl : Flusher.background = f := Option.some.inj hother
      simp [Phase.Carries]
    | callEventLoop _ =>
      obtain rfl : Flusher.eventLoop = f := Option.some.inj hother
      simp [Phase.Carries]
    | beginOk g q hphase _ _ =>
      obtain rfl : g = f := Option.some.inj hother
      simpa [hphase, Phase.Carries] using hcarries
    | beginFailed g q hphase =>
      obtain rfl : g = f := Option.some.inj hother
      simpa [hphase, Phase.Carries] using hcarries
    | insertDone g entry q hphase =>
      obtain rfl : g = f := Option.some.inj hother
      obtain ⟨inserted, hopen, -⟩ := h.opened g (by simp [hphase, Phase.owns])
      simpa [hphase, hopen, Phase.Carries, Sqlite.insertRow] using hcarries
    | insertFailed g entry q hphase =>
      obtain rfl : g = f := Option.some.inj hother
      simpa [hphase, Phase.Carries] using hcarries
    | writeAction _ _ => cases hother
    | select _ _ => cases hother
    | setStop _ => cases hother
    | exitLoop _ _ => cases hother
    | tick _ => cases hother
    -- the flush ends, or has been rolled back
    | _ =>
      obtain rfl := Option.some.inj hother
      simp [Phase.Carries, putBack, giveBack]
  · -- a step of another thread
    have hphase : w'.phase f = w.phase f := by
      rcases step_phase hstep with hsame | ⟨g, p, hg, hupdate⟩
      · rw [hsame]
      · have hne : f ≠ g := fun heq => hother (heq ▸ hg)
        rw [hupdate, Function.update_of_ne hne]
    rw [hphase]
    refine hcarries.congr fun howns => ?_
    rw [h.toOwned.transaction_frame howns hother hstep]

/-- When a flush stands before its `COMMIT`, its batch is what the transaction holds. -/
theorem Carrying.uncommitted {b : List ε} (h : w.Carrying f b)
    (hphase : w.phase f = .inserting []) :
    w.uncommittedEntries = b ∧ b ≠ [] := by
  have hb : w.uncommittedEntries = b := by
    simpa [hphase, Phase.Carries, uncommittedEntries] using h.carries
  obtain ⟨inserted, hopen, hne⟩ := h.opened f (by simp [hphase, Phase.owns])
  refine ⟨hb, fun hnil => hne ?_⟩
  simpa [uncommittedEntries, hopen, hnil, hphase, Phase.toFlush] using hb

/-! ## A transaction that nobody ends

After a `COMMIT` that fails with the transaction open, nobody is left who would end it: every later
`BEGIN` fails, and the only `ROLLBACK` is behind a `BEGIN` that succeeded. -/

/-- The transaction is open and no thread is inside it. -/
structure Wedged (w : DatabaseCdrWriter ε) (inserted committed : List (Row ε)) : Prop where
  transaction : w.db.transaction = some inserted
  committed : w.db.committed = committed
  ownerless : ∀ g, (w.phase g).owns = false

/-- A thread comes to own the transaction only by a `BEGIN`, which needs that none is open. -/
theorem step_owns {a : WriterAction ε} (hstep : Step w a w') {g : Flusher}
    (hg : (w'.phase g).owns = true) : (w.phase g).owns = true ∨ w.db.transaction = none := by
  rcases step_phase hstep with hsame | ⟨k, p, hk, hupdate⟩
  · exact .inl (by rwa [hsame] at hg)
  by_cases hgk : g = k
  · subst hgk
    cases hstep with
    -- only the owner goes on inside a transaction; `BEGIN` is the way in
    | beginOk _ q _ _ hnone => exact .inr hnone
    | insertDone k entry q hphase =>
      obtain rfl : k = g := Option.some.inj hk
      exact .inl (by simp [hphase, Phase.owns])
    | insertFailed k entry q hphase =>
      obtain rfl : k = g := Option.some.inj hk
      exact .inl (by simp [hphase, Phase.owns])
    | getRecentRecords _ =>
      obtain rfl : Flusher.eventLoop = g := Option.some.inj hk
      simp only [getRecentRecords] at hg
      split at hg
      · simp [Phase.owns] at hg
      · exact .inl hg
    | takeBuffer k _ =>
      obtain rfl : k = g := Option.some.inj hk
      simp only [takeBuffer] at hg
      split at hg <;> simp [Phase.owns] at hg
    | writeAction _ _ => cases hk
    | select _ _ => cases hk
    | setStop _ => cases hk
    | exitLoop _ _ => cases hk
    | tick _ => cases hk
    | _ =>
      obtain rfl := Option.some.inj hk
      simp [Phase.owns, putBack, giveBack] at hg
  · rw [hupdate, Function.update_of_ne hgk] at hg
    exact .inl hg

/-- **A wedged connection stays wedged, and its committed rows stay as they are.** -/
theorem wedged_step {inserted committed : List (Row ε)} (h : w.Wedged inserted committed)
    {a : WriterAction ε} (hstep : Step w a w') : w'.Wedged inserted committed := by
  have hopen : w.db.transaction ≠ none := by simp [h.transaction]
  rcases step_tables hstep with ⟨htransaction, hcommitted⟩ | ⟨g, -, hacts⟩
  -- the tables are untouched: a new owner would have needed a `BEGIN`
  · refine ⟨htransaction.trans h.transaction, hcommitted.trans h.committed, fun g => ?_⟩
    by_contra hg
    rcases step_owns hstep (by simpa using hg) with howns | hnone
    · simp [h.ownerless g] at howns
    · exact hopen hnone
  · rcases hacts with howns | hnone
    · simp [h.ownerless g] at howns
    · exact absurd hnone hopen

/-- A `COMMIT` that fails with the transaction open wedges the connection. -/
theorem wedged_failedCommit (h : w.Owned) (hstep : step w (.commit f .failedOpen) = some w') :
    w'.Wedged (w.db.transaction.getD []) w.db.committed ∧ w.phase f = .inserting [] := by
  cases step_cases hstep with
  | commitFailedOpen _ hphase =>
    have hf : (w.phase f).owns = true := by simp [hphase, Phase.owns]
    obtain ⟨inserted, hopen, -⟩ := h.opened f hf
    refine ⟨⟨by simp [hopen], rfl, fun g => ?_⟩, hphase⟩
    by_cases hgf : g = f
    · subst hgf; simp [Phase.owns]
    · simpa [hgf] using h.others hf g hgf

/-! ## Whole runs

The batch up to its `COMMIT`, the wedged connection from there on: nothing is committed any more in
any run. -/

/-- Every record of the batch `b` and every record written in the run `later` is a committed row
of `w'`, besides the rows that were committed in `w`. -/
def AllCommitted (w : DatabaseCdrWriter ε) (b : List ε) (later : List (WriterAction ε))
    (w' : DatabaseCdrWriter ε) : Prop :=
  (w.db.committed.map Row.entry + b + writes later : Multiset ε)
    ≤ (w'.db.committed.map Row.entry : List ε)

/-- **A failed `COMMIT` stops the writer for good.** A flush takes its batch in a reachable state
`w₀`, and its `COMMIT` fails in state `w` with the transaction left open. Whatever run follows,
nothing is committed in it: the batch stays in the open transaction, and neither it nor what is
written later ever becomes a committed row. -/
theorem failedCommit_commits_nothing {prior : List (Row ε)} {now : Nat}
    {as during later : List (WriterAction ε)} {w₀ w w₁ w₂ : DatabaseCdrWriter ε}
    (hreach : Run.exec step (constructed prior now) as = some w₀)
    (htake : Run.exec step w₀ (.takeBuffer f :: during) = some w)
    (hsame : ∀ a ∈ during, a ≠ .takeBuffer f)
    (hcommit : step w (.commit f .failedOpen) = some w₁)
    (hlater : Run.exec step w₁ later = some w₂) :
    w₂.db.committed = w.db.committed ∧ w₂.uncommittedEntries = w₀.buffer ∧
      ¬ AllCommitted w w₀.buffer later w₂ := by
  obtain ⟨u, hu, hduring⟩ := Run.exec_cons_eq_some.mp htake
  -- until the failed commit, the batch is in the queue or in the open transaction
  have hcarrying : w.Carrying f w₀.buffer :=
    Run.exec_invariant_along (fun _ _ _ h ha hs => carrying_step h ha (step_cases hs))
      (carrying_takeBuffer (owned_reachable hreach) hu)
      (Run.along_of_forall (fun a ha _ => hsame a ha) u) hduring
  obtain ⟨hwedged₁, hphase⟩ := wedged_failedCommit hcarrying.toOwned hcommit
  obtain ⟨hbatch, hb⟩ := hcarrying.uncommitted hphase
  -- no later BEGIN succeeds, so the transaction stays open for good
  have hwedged : w₂.Wedged (w.db.transaction.getD []) w.db.committed :=
    Run.exec_invariant (fun _ _ _ h hs => wedged_step h (step_cases hs)) hwedged₁ hlater
  refine ⟨hwedged.committed, ?_, fun hall => hb ?_⟩
  · simpa [uncommittedEntries, hwedged.transaction] using hbatch
  · have hcard := Multiset.card_le_card hall
    rw [hwedged.committed] at hcard
    simp only [Multiset.card_add, Multiset.coe_card] at hcard
    exact List.length_eq_zero_iff.mp (by omega)

/-- The SQLite call of this step succeeds unless its own precondition fails. -/
def Healthy (w : DatabaseCdrWriter ε) : WriterAction ε → Prop
  | .begin _ false => w.db.beginImmediate = none
  | .insert _ done => done = true
  | .rollback _ false => w.db.rollback = none
  | .commit _ outcome => outcome = .ok
  | _ => True

/-- The flush that takes `created`, up to its `COMMIT`. -/
def insertCreated : List (WriterAction CdrEntry) :=
  [.begin .background true, .insert .background true]

/-- After the failed `COMMIT` a record is written, and the background thread flushes twice. -/
def afterFailedCommit : List (WriterAction CdrEntry) :=
  [.writeAction deleted, .callFlush .background, .takeBuffer .background,
    .begin .background false, .putBack .background, .callFlush .background,
    .takeBuffer .background, .begin .background false, .putBack .background]

/-- The law at a concrete run. -/
theorem failedCommit_commits_nothing_created :
    ∃ w₀ w w₁ w₂,
      Run.exec step (constructed [] 0) [.writeAction created, .callFlush .background] = some w₀ ∧
      Run.exec step w₀ (.takeBuffer .background :: insertCreated) = some w ∧
      step w (.commit .background .failedOpen) = some w₁ ∧
      Run.exec step w₁ afterFailedCommit = some w₂ ∧
      w₂.db.committed = w.db.committed ∧ w₂.uncommittedEntries = w₀.buffer ∧
      ¬ AllCommitted w w₀.buffer afterFailedCommit w₂ := by
  have hlaw : ∀ {w₀ w w₁ w₂},
      Run.exec step (constructed [] 0) [.writeAction created, .callFlush .background] = some w₀ →
      Run.exec step w₀ (.takeBuffer .background :: insertCreated) = some w →
      step w (.commit .background .failedOpen) = some w₁ →
      Run.exec step w₁ afterFailedCommit = some w₂ →
      w₂.db.committed = w.db.committed ∧ w₂.uncommittedEntries = w₀.buffer ∧
        ¬ AllCommitted w w₀.buffer afterFailedCommit w₂ :=
    fun h₀ h h₁ h₂ => failedCommit_commits_nothing h₀ h (by simp [insertCreated]) h₁ h₂
  exact ⟨_, _, _, _, rfl, rfl, rfl, rfl, hlaw rfl rfl rfl rfl⟩

/-- The only SQLite calls that fail after that `COMMIT` are the `BEGIN`s inside the transaction it
left open; neither the batch nor the later record is ever committed. -/
theorem failedCommit_blocks_writer :
    ∃ w₀ w w₁ w₂,
      Run.exec step (constructed [] 0) [.writeAction created, .callFlush .background] = some w₀ ∧
      Run.exec step w₀ (.takeBuffer .background :: insertCreated) = some w ∧
      step w (.commit .background .failedOpen) = some w₁ ∧
      Run.exec step w₁ afterFailedCommit = some w₂ ∧ Run.Along step Healthy w₁ afterFailedCommit ∧
      w₀.buffer = [created] ∧ w₂.db.committed = [] ∧
      ¬ AllCommitted w w₀.buffer afterFailedCommit w₂ := by
  refine ⟨_, _, _, _, rfl, rfl, rfl, rfl, ?_, rfl, rfl, ?_⟩
  · simp [afterFailedCommit, Run.Along, Healthy, step, eventLoopFree, Phase.isIdle, constructed,
      writeAction, takeBuffer, putBack, afterCall, setPhase, Sqlite.beginImmediate,
      Sqlite.insertRow]
  · intro hall
    exact absurd (Multiset.card_le_card hall) (by decide)

end DatabaseCdrWriter
end Pgw
