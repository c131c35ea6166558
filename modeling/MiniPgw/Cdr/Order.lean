import MiniPgw.Lib.History
import MiniPgw.Cdr.Numbering

/-!
# The order of the committed rows

`flush()` takes `m_buffer` under the lock and inserts it outside. A batch is in order, but two
flushes can commit in another order than they took their batches. `InTurn` is the condition on a
`COMMIT` under which that does no harm: nothing that still waits, in `m_buffer` or in the local
queue of the other flush, is an earlier record of a subscriber whose record is committed.

`ordered_step` keeps the order of the table as long as every `COMMIT` is `InTurn`. It is stated for
any relation `before` of the entries; numbered records of one subscriber, compared by their
numbers, are the instance that `storedInOrder_iff` uses.

## The architecture

* **`Ordered`** — the invariant: the committed rows are in order, every batch and the buffer are,
  and no pending entry comes before a committed one.
* **`batched_of_update`**, **`batched_of_goes`**, **`ordered_queues`** — the batches, for the
  steps that do not commit; **`commit_moves`** is the step that does.
* **`ordered_step`**, **`ordered_of_commitsInTurn`** — one step, and the run by induction.
* **`forall_ofKey_committedEntries_iff`**, **`storedInOrder_of_calls`** — from numbers to entries:
  the run over numbered records tells apart calls with the same entry.
* **`storedInOrder_iff`** — the condition on the `COMMIT`s is enough by the run lemma, and it is
  necessary since a `COMMIT` out of turn leaves an earlier number behind a later one.
-/

namespace Pgw
namespace DatabaseCdrWriter

section Ordered

variable {ε : Type} {w w' : DatabaseCdrWriter ε} {before : ε → ε → Prop}

/-- The entries of the committed rows, in increasing id. -/
def committedEntries (w : DatabaseCdrWriter ε) : List ε :=
  w.db.committed.map Row.entry

/-- The entries that are not inserted yet. -/
def waiting (w : DatabaseCdrWriter ε) : Multiset ε :=
  (w.buffer : Multiset ε) + w.localQueues

/-- The entries that are not committed yet. -/
def pending (w : DatabaseCdrWriter ε) : Multiset ε :=
  (w.uncommittedEntries : Multiset ε) + w.waiting

/-- The batch of a running `flush()`: what it has inserted, and the rest of its local queue. -/
def batch (w : DatabaseCdrWriter ε) (f : Flusher) : List ε :=
  (if (w.phase f).owns then w.uncommittedEntries else []) ++ (w.phase f).toFlush

/-- A `COMMIT` in this state is in turn. -/
def InTurn (before : ε → ε → Prop) (w : DatabaseCdrWriter ε) : Prop :=
  ∀ a ∈ w.uncommittedEntries, ∀ b ∈ w.waiting, before a b

structure Ordered (before : ε → ε → Prop) (w : DatabaseCdrWriter ε) : Prop where
  buffered : w.buffer.Pairwise before
  batched : ∀ f, (w.batch f).Pairwise before
  stored : w.committedEntries.Pairwise before
  /-- What is committed comes before what is not. -/
  later : ∀ a ∈ w.committedEntries, ∀ b ∈ w.pending, before a b

theorem tableEntries_eq (w : DatabaseCdrWriter ε) :
    w.tableEntries = w.committedEntries ++ w.uncommittedEntries := by
  simp [tableEntries, committedEntries, uncommittedEntries, Sqlite.rows]

theorem inventory_eq_pending (w : DatabaseCdrWriter ε) :
    w.inventory = (w.committedEntries : Multiset ε) + w.pending := by
  rw [inventory, tableEntries_eq, pending, waiting, ← Multiset.coe_add, add_comm, add_assoc]

/-- The batch of a flusher that does not own the transaction is its local queue. -/
theorem batch_of_not_owns {f : Flusher} (hf : (w.phase f).owns = false) :
    w.batch f = (w.phase f).toFlush := by
  simp [batch, hf]

/-- One flusher goes to another phase. The others keep their batches, unless the transaction they
own is changed. -/
theorem batched_of_update (h : ∀ g, (w.batch g).Pairwise before) {f : Flusher} {p : Phase ε}
    (hphase : w'.phase = Function.update w.phase f p)
    (hothers : ∀ g, g ≠ f → (w.phase g).owns = true → w'.db.transaction = w.db.transaction)
    (hf : (w'.batch f).Pairwise before) (g : Flusher) : (w'.batch g).Pairwise before := by
  by_cases hgf : g = f
  · rw [hgf]
    exact hf
  · have hsame : w'.batch g = w.batch g := by
      have hp : w'.phase g = w.phase g := by rw [hphase, Function.update_of_ne hgf]
      by_cases howns : (w.phase g).owns = true
      · rw [batch, batch, hp, uncommittedEntries, uncommittedEntries, hothers g hgf howns]
      · have hno : (w.phase g).owns = false := by simpa using howns
        rw [batch_of_not_owns (hp ▸ hno), batch_of_not_owns hno, hp]
    rw [hsame]
    exact h g

/-- One flusher goes to a phase outside the transaction, with its local queue in order. -/
theorem batched_of_goes (h : ∀ g, (w.batch g).Pairwise before) {f : Flusher} {p : Phase ε}
    (hphase : w'.phase = Function.update w.phase f p) (hdb : w'.db = w.db)
    (howns : p.owns = false) (hqueue : p.toFlush.Pairwise before) (g : Flusher) :
    (w'.batch g).Pairwise before := by
  refine batched_of_update h hphase (fun _ _ _ => by rw [hdb]) ?_ g
  have hp : w'.phase f = p := by rw [hphase, Function.update_self]
  rw [batch_of_not_owns (hp ▸ howns), hp]
  exact hqueue

/-- Outside the transaction the local queue is in order. -/
theorem toFlush_of_batched (h : ∀ g, (w.batch g).Pairwise before) {f : Flusher} {p : Phase ε}
    (hphase : w.phase f = p) (howns : p.owns = false) : p.toFlush.Pairwise before := by
  have hf := h f
  rwa [batch_of_not_owns (hphase ▸ howns), hphase] at hf

/-- The buffer and the batches stay in order. -/
theorem ordered_queues (h : w.Ordered before) (hok : w.Faultfree) {a : WriterAction ε}
    (ha : Faultless a) (hnew : ∀ x ∈ w.inventory, ∀ b ∈ written a, before x b)
    (hstep : Step w a w') :
    w'.buffer.Pairwise before ∧ ∀ g, (w'.batch g).Pairwise before := by
  cases hstep with
  | writeAction entry hfree =>
    rw [writeAction, if_pos hok.connected]
    refine ⟨?_, h.batched⟩
    show (w.buffer ++ [entry]).Pairwise before
    refine List.pairwise_append.mpr ⟨h.buffered, List.pairwise_singleton _ _, fun x hx b hb => ?_⟩
    have hx' : x ∈ w.inventory := by simp [inventory, hx]
    exact hnew x hx' b (by simpa [written] using hb)
  | callBackground hidle _ _ =>
    exact ⟨h.buffered, batched_of_goes h.batched rfl rfl rfl List.Pairwise.nil⟩
  | callEventLoop hfree =>
    exact ⟨h.buffered, batched_of_goes h.batched rfl rfl rfl List.Pairwise.nil⟩
  | getRecentRecords hfree =>
    rw [getRecentRecords, if_pos hok.connected]
    exact ⟨h.buffered, batched_of_goes h.batched rfl rfl rfl List.Pairwise.nil⟩
  | takeBuffer f hphase =>
    rw [takeBuffer]
    split
    · exact ⟨h.buffered, batched_of_goes h.batched rfl rfl rfl List.Pairwise.nil⟩
    -- the buffer becomes the batch
    · exact ⟨List.Pairwise.nil, batched_of_goes h.batched rfl rfl rfl h.buffered⟩
  | beginOk f q hphase hconn hnone =>
    have hq : q.Pairwise before := toFlush_of_batched h.batched hphase rfl
    refine ⟨h.buffered, batched_of_update h.batched rfl (fun g _ hg => ?_) ?_⟩
    · rw [hok.toOwned.none hnone g] at hg
      cases hg
    · simpa [batch, Phase.owns, Phase.toFlush, uncommittedEntries] using hq
  | beginFailed f q hphase =>
    have hq : q.Pairwise before := toFlush_of_batched h.batched hphase rfl
    exact ⟨h.buffered, batched_of_goes h.batched rfl rfl rfl hq⟩
  | putBack f q hphase =>
    have hq : q.Pairwise before := toFlush_of_batched h.batched hphase rfl
    refine ⟨?_, batched_of_goes h.batched rfl rfl rfl List.Pairwise.nil⟩
    show (if q = [] then w.buffer else q).Pairwise before
    split
    · exact h.buffered
    · exact hq
  | insertDone f entry q hphase =>
    have hf : (w.phase f).owns = true := by simp [hphase, Phase.owns]
    obtain ⟨inserted, hopen, -⟩ := hok.opened f hf
    -- the row moves from the queue into the transaction, the batch stays the same
    have hbatch : (inserted.map Row.entry ++ entry :: q).Pairwise before := by
      simpa [batch, hphase, Phase.owns, Phase.toFlush, uncommittedEntries, hopen]
        using h.batched f
    refine ⟨h.buffered, batched_of_update h.batched rfl (fun g hgf hg => ?_) ?_⟩
    · exact absurd (hok.exclusive g f hg hf) hgf
    · simpa [batch, Phase.owns, Phase.toFlush, uncommittedEntries, Sqlite.insertRow, hopen]
        using hbatch
  | insertFailed f entry q hphase => simp [Faultless] at ha
  | rollbackOk f q inserted hphase hopen => exact absurd hphase (hok.noFailure f q).1
  | rollbackFailed f q hphase => exact absurd hphase (hok.noFailure f q).1
  | giveBack f q hphase => exact absurd hphase (hok.noFailure f q).2
  | commitOk f inserted hphase hopen =>
    have hf : (w.phase f).owns = true := by simp [hphase, Phase.owns]
    refine ⟨h.buffered, batched_of_update h.batched rfl (fun g hgf hg => ?_)
      (by simp [batch, Phase.owns, Phase.toFlush])⟩
    exact absurd (hok.exclusive g f hg hf) hgf
  | commitFailedOpen f hphase => simp [Faultless] at ha
  | commitFailedRolledBack f inserted hphase hopen => simp [Faultless] at ha
  | select _ _ => exact ⟨h.buffered, h.batched⟩
  | setStop _ => exact ⟨h.buffered, h.batched⟩
  | exitLoop _ _ => exact ⟨h.buffered, h.batched⟩
  | tick seconds => exact ⟨h.buffered, h.batched⟩

/-- Only a `COMMIT` changes the committed rows. -/
theorem committed_of_not_commit (hok : w.Faultfree) {a : WriterAction ε} (ha : Faultless a)
    (hstep : Step w a w') (hcommit : ∀ f, a ≠ .commit f .ok) :
    w'.db.committed = w.db.committed := by
  cases hstep with
  | writeAction entry hfree => rw [writeAction]; split <;> rfl
  | getRecentRecords hfree => rw [getRecentRecords]; split <;> rfl
  | takeBuffer f hphase => rw [takeBuffer]; split <;> rfl
  | insertDone f entry q hphase =>
    obtain ⟨inserted, hopen, -⟩ := hok.opened f (by simp [hphase, Phase.owns])
    simp [Sqlite.insertRow, hopen]
  | commitOk f inserted hphase hopen => exact absurd rfl (hcommit f)
  | _ => rfl

/-- A `COMMIT` moves the rows of its transaction to the end of the table. -/
theorem commit_moves {f : Flusher} (hstep : Step w (.commit f .ok) w') :
    w'.committedEntries = w.committedEntries ++ w.uncommittedEntries ∧
      w'.pending = w.waiting ∧ (w.phase f).owns = true := by
  cases hstep with
  | commitOk f inserted hphase hopen =>
    refine ⟨by simp [committedEntries, uncommittedEntries, hopen], ?_, by simp [hphase, Phase.owns]⟩
    cases f <;>
      simp [pending, waiting, localQueues, uncommittedEntries, hphase, Phase.toFlush]

/-- **A step keeps the order if a `COMMIT` is in turn.** -/
theorem ordered_step (h : w.Ordered before) (hok : w.Faultfree) {a : WriterAction ε}
    (ha : Faultless a) (hnew : ∀ x ∈ w.inventory, ∀ b ∈ written a, before x b)
    (hturn : ∀ f, a = .commit f .ok → w.InTurn before) (hstep : Step w a w') :
    w'.Ordered before := by
  obtain ⟨hbuffer, hbatch⟩ := ordered_queues h hok ha hnew hstep
  by_cases hcommit : ∃ f, a = .commit f .ok
  · obtain ⟨f, rfl⟩ := hcommit
    obtain ⟨hstored, hpending, howns⟩ := commit_moves hstep
    have huncommitted : w.uncommittedEntries.Pairwise before := by
      have hmine := h.batched f
      rw [batch, if_pos howns] at hmine
      exact (List.pairwise_append.mp hmine).1
    have hlater : ∀ x ∈ w.committedEntries, ∀ b ∈ w.uncommittedEntries, before x b :=
      fun x hx b hb => h.later x hx b (by simp [pending, hb])
    refine ⟨hbuffer, hbatch, ?_, fun x hx b hb => ?_⟩
    · rw [hstored]
      exact List.pairwise_append.mpr ⟨h.stored, huncommitted, hlater⟩
    · rw [hpending] at hb
      rw [hstored] at hx
      rcases List.mem_append.mp hx with hx | hx
      · exact h.later x hx b (by simp [pending, hb])
      · exact hturn f rfl x hx b hb
  · have hne : ∀ f, a ≠ .commit f .ok := fun f hf => hcommit ⟨f, hf⟩
    have hsame : w'.committedEntries = w.committedEntries := by
      rw [committedEntries, committedEntries, committed_of_not_commit hok ha hstep hne]
    -- the conservation law says where a pending entry comes from
    have hlaw := step_inventory hstep
    rw [inventory_eq_pending, inventory_eq_pending, hsame, add_assoc, add_assoc,
      add_right_inj] at hlaw
    refine ⟨hbuffer, hbatch, by rw [hsame]; exact h.stored, fun x hx b hb => ?_⟩
    rw [hsame] at hx
    have hmem : b ∈ w.pending + written a := by
      rw [← hlaw]
      exact Multiset.mem_add.mpr (.inl hb)
    rcases Multiset.mem_add.mp hmem with hold | hwritten
    · exact h.later x hx b hold
    · have hx' : x ∈ w.inventory := by simp [inventory_eq_pending, hx]
      exact hnew x hx' b hwritten

end Ordered

/-! ## Runs

`Ordered` is about numbered runs. The projection to the entries of one subscriber gives the order
that a reader of the table sees. -/

variable {prior : List (Row CdrEntry)} {now : Nat} {as : List (WriterAction CdrEntry)}
variable {w : DatabaseCdrWriter CdrEntry} {t : DatabaseCdrWriter (CdrEntry × Nat)}

/-- The subscriber of a numbered record. -/
def subscriber (x : CdrEntry × Nat) : Imsi :=
  x.1.imsi

/-- Of two records of one subscriber, `a` is the earlier one. -/
def Earlier (a b : CdrEntry × Nat) : Prop :=
  subscriber a = subscriber b → a.2 < b.2

/-- No state that the run reaches has lost a record. -/
def NothingDropped (prior : List (Row CdrEntry)) (now : Nat)
    (as : List (WriterAction CdrEntry)) : Prop :=
  ∀ pre w, pre <+: as → Run.exec step (constructed prior now) pre = some w → Accounted prior pre w

/-- In every state that the run reaches, the committed rows of every subscriber are the first of
its records, in the order of the calls. -/
def StoredInOrder (prior : List (Row CdrEntry)) (now : Nat)
    (as : List (WriterAction CdrEntry)) : Prop :=
  ∀ pre w, pre <+: as → Run.exec step (constructed prior now) pre = some w → ∀ imsi,
    History.ofKey CdrEntry.imsi imsi w.committedEntries
      <+: History.ofKey CdrEntry.imsi imsi (prior.map Row.entry ++ writes pre)

/-- The same of the numbered run: the rows come from the first calls, not just from calls with the
same entries. -/
def CallsInOrder (prior : List (Row CdrEntry)) (now : Nat)
    (as : List (WriterAction CdrEntry)) : Prop :=
  ∀ pre t, pre <+: as → numberedRun prior now pre = some t → ∀ imsi,
    History.ofKey subscriber imsi t.committedEntries
      <+: History.ofKey subscriber imsi (history prior pre)

/-- Whenever a `flush()` commits, no record that waits in `m_buffer` or in the other flush is an
earlier one of a subscriber whose record it commits. -/
def CommitsInTurn (prior : List (Row CdrEntry)) (now : Nat)
    (as : List (WriterAction CdrEntry)) : Prop :=
  ∀ pre f t, pre ++ [.commit f .ok] <+: as → numberedRun prior now pre = some t →
    t.InTurn Earlier

theorem faultless_map {ε δ : Type} (f : ε → δ) {a : WriterAction ε} (ha : Faultless a) :
    Faultless (a.map f) := by
  cases a <;> exact ha

/-- A numbered run of faultless actions is `Faultfree`. -/
theorem numberedRun_faultfree (hok : ∀ a ∈ as, Faultless a)
    (ht : numberedRun prior now as = some t) : t.Faultfree := by
  have hnumber : ∀ (as : List (WriterAction CdrEntry)), (∀ a ∈ as, Faultless a) →
      ∀ n, ∀ b ∈ number n as, Faultless b := by
    intro as hok
    induction as with
    | nil => intro n b hb; simp [number] at hb
    | cons a as ih =>
      intro n b hb
      rcases List.mem_cons.mp hb with rfl | hb
      · exact faultless_map _ (hok a (by simp))
      · exact ih (fun c hc => hok c (by simp [hc])) _ b hb
  exact faultfree_reachable (hnumber as hok _) ht

/-- The numbers of what a numbered run has are smaller than the next one. -/
theorem numberedRun_lt (ht : numberedRun prior now as = some t) {x : CdrEntry × Nat}
    (hx : x ∈ t.inventory) : x.2 < prior.length + (writes as).length := by
  have hmem : x ∈ history prior as :=
    Multiset.mem_coe.mp (Multiset.mem_of_le (numberedRun_inventory_le ht) hx)
  have hlt := List.snd_lt_of_mem_zipIdx hmem
  simpa using hlt

/-- **Commits in turn keep the order of every run.** Induction on the run from its end. -/
theorem ordered_of_commitsInTurn (hok : ∀ a ∈ as, Faultless a)
    (hturn : CommitsInTurn prior now as) :
    ∀ t, numberedRun prior now as = some t → t.Ordered Earlier := by
  induction as using List.reverseRecOn with
  | nil =>
    intro t ht
    cases ht
    have hprior : (history prior []).Pairwise Earlier :=
      (pairwise_history prior []).imp fun hlt => fun _ => hlt
    rw [history_eq, number, writes, List.flatMap_nil, List.append_nil] at hprior
    refine ⟨List.Pairwise.nil, fun f => List.Pairwise.nil, hprior, fun a _ b hb => ?_⟩
    simp [pending, waiting, localQueues, uncommittedEntries, constructed, Phase.toFlush] at hb
  | append_singleton as a ih =>
    intro t ht
    obtain ⟨s, hs, hstep⟩ := numberedRun_concat.mp ht
    have hoks : ∀ b ∈ as, Faultless b := fun b hb => hok b (by simp [hb])
    have hturns : CommitsInTurn prior now as := fun pre f u hpre =>
      hturn pre f u (hpre.trans (List.prefix_append as [a]))
    refine ordered_step (ih hoks hturns s hs) (numberedRun_faultfree hoks hs)
      (faultless_map _ (hok a (by simp))) ?_ ?_ (step_cases hstep)
    -- a new call gets a number larger than all the others
    · intro x hx b hb _
      cases a with
      | writeAction entry =>
        have hbn : b = (entry, prior.length + (writes as).length) := Multiset.mem_singleton.mp hb
        rw [hbn]
        exact numberedRun_lt hs hx
      | _ => exact absurd hb (Multiset.notMem_zero b)
    · intro f hf
      have ha : a = .commit f .ok := by
        cases a with
        | commit g outcome =>
          injection hf with hg houtcome
          rw [hg, houtcome]
        | _ => cases hf
      exact hturn as f s (by rw [ha]) hs

/-- When the run has lost nothing, the numbered run has lost nothing. -/
theorem numberedRun_accounted (hacc : Accounted prior as w)
    (ht : numberedRun prior now as = some t) (hw : t.map Prod.fst = w) :
    t.inventory = (history prior as : Multiset (CdrEntry × Nat)) := by
  have hcard : Multiset.card t.inventory = prior.length + (writes as).length := by
    rw [← Multiset.card_map Prod.fst, ← inventory_map, hw, hacc]
    simp
  refine Multiset.eq_of_le_of_card_le (numberedRun_inventory_le ht) ?_
  rw [hcard]
  simp [history]

/-- The order of the calls in one state: the committed rows are in order, and nothing that is not
committed comes before one of them. -/
theorem forall_ofKey_committedEntries_iff
    (hacc : t.inventory = (history prior as : Multiset (CdrEntry × Nat))) :
    (∀ imsi, History.ofKey subscriber imsi t.committedEntries
        <+: History.ofKey subscriber imsi (history prior as)) ↔
      t.committedEntries.Pairwise Earlier ∧
        ∀ a ∈ t.committedEntries, ∀ b ∈ t.pending, Earlier a b := by
  have hperm : (t.committedEntries ++ t.pending.toList).Perm (history prior as) := by
    rw [← Multiset.coe_eq_coe, ← Multiset.coe_add, Multiset.coe_toList, ← inventory_eq_pending]
    exact hacc
  have hasymm : ∀ a b : CdrEntry × Nat, a.2 < b.2 → ¬ b.2 < a.2 := fun a b hab =>
    Nat.lt_asymm hab
  rw [History.forall_ofKey_isPrefix_iff hasymm hperm (pairwise_history prior as)]
  simp only [Multiset.mem_toList]
  rfl

/-- What is in order for the calls is in order for their entries. -/
theorem storedInOrder_of_calls (hcalls : CallsInOrder prior now as) :
    StoredInOrder prior now as := by
  intro pre w hpre hw imsi
  rw [exec_number] at hw
  obtain ⟨t, ht, rfl⟩ := Option.map_eq_some_iff.mp hw
  have hentries : (t.map Prod.fst).committedEntries = t.committedEntries.map Prod.fst := by
    simp [committedEntries, map, Sqlite.map, Function.comp_def]
  have hhistory : prior.map Row.entry ++ writes pre = (history prior pre).map Prod.fst :=
    (List.zipIdx_map_fst 0 _).symm
  rw [hentries, hhistory, History.ofKey_map, History.ofKey_map]
  exact (hcalls pre t hpre ht imsi).map Prod.fst

/-- **The rows are in order exactly when every `COMMIT` is in turn.** For every interleaving of the
writer and the two flushers in which `INSERT` and `COMMIT` succeed and no record is dropped. -/
theorem storedInOrder_iff (hok : ∀ a ∈ as, Faultless a) (hkept : NothingDropped prior now as)
    (hrun : Run.exec step (constructed prior now) as = some w) :
    (CommitsInTurn prior now as → StoredInOrder prior now as) ∧
      (CommitsInTurn prior now as ↔ CallsInOrder prior now as) := by
  have hreach : ∀ pre t, pre <+: as → numberedRun prior now pre = some t →
      t.inventory = (history prior pre : Multiset (CdrEntry × Nat)) := by
    intro pre t hpre ht
    have hw : Run.exec step (constructed prior now) pre = some (t.map Prod.fst) := by
      rw [exec_number, ht]
      rfl
    exact numberedRun_accounted (hkept pre _ hpre hw) ht rfl
  have hcalls : CommitsInTurn prior now as → CallsInOrder prior now as := by
    intro hturn pre t hpre ht
    have hokpre : ∀ a ∈ pre, Faultless a := fun a ha => hok a (hpre.subset ha)
    have hturnpre : CommitsInTurn prior now pre := fun pre' f u hpre' =>
      hturn pre' f u (hpre'.trans hpre)
    have hord := ordered_of_commitsInTurn hokpre hturnpre t ht
    exact (forall_ofKey_committedEntries_iff (hreach pre t hpre ht)).mpr ⟨hord.stored, hord.later⟩
  refine ⟨fun hturn => storedInOrder_of_calls (hcalls hturn), hcalls, fun h pre f t hpre ht => ?_⟩
  -- the `COMMIT` leads to a state whose rows are in order
  obtain ⟨w', hw'⟩ := Run.exec_prefix hpre hrun
  rw [exec_number] at hw'
  obtain ⟨t', ht', -⟩ := Option.map_eq_some_iff.mp hw'
  obtain ⟨s, hs, hstep⟩ := numberedRun_concat.mp ht'
  rw [ht] at hs
  cases hs
  obtain ⟨hstored, hpending, -⟩ := commit_moves (step_cases hstep)
  have hlater := ((forall_ofKey_committedEntries_iff (hreach _ t' hpre ht')).mp
    (h _ t' hpre ht')).2
  intro a ha b hb
  exact hlater a (by rw [hstored]; simp [ha]) b (by rw [hpending]; exact hb)

/-- A run that gives its batches back to an empty buffer drops nothing. -/
theorem nothingDropped_of_along (hok : ∀ a ∈ as, Faultless a)
    (hswap : Run.Along step MeetsEmptyBuffer (constructed prior now) as) :
    NothingDropped prior now as := fun _ _ hpre hw =>
  accounted_of_along (fun a ha => hok a (hpre.subset ha)) (hswap.front hpre) hw

theorem append_singleton_prefix_cons {α : Type} {pre l : List α} {x a : α} :
    pre ++ [x] <+: a :: l ↔
      (pre = [] ∧ x = a) ∨ ∃ rest, pre = a :: rest ∧ rest ++ [x] <+: l := by
  cases pre with
  | nil => simp
  | cons b rest => simp [List.cons_prefix_cons]

/-- Both flushes run, one after the other; the second one commits the deletion. -/
def orderlyRun : List (WriterAction CdrEntry) :=
  [.writeAction created, .callFlush .background, .takeBuffer .background,
    .begin .background true, .writeAction deleted, .insert .background true,
    .commit .background .ok, .getRecentRecords, .takeBuffer .eventLoop, .begin .eventLoop true,
    .insert .eventLoop true, .commit .eventLoop .ok, .select]

theorem commitsInTurn_orderlyRun : CommitsInTurn [] 0 orderlyRun := by
  intro pre f t hpre ht
  simp only [orderlyRun, append_singleton_prefix_cons, reduceCtorEq, and_false, false_or,
    WriterAction.commit.injEq, and_true, List.prefix_nil, List.append_eq_nil_iff, List.cons_ne_self,
    exists_false, or_false] at hpre
  -- the two prefixes that end before a `COMMIT`
  obtain ⟨_, rfl, _, rfl, _, rfl, _, rfl, _, rfl, _, rfl,
    ⟨rfl, rfl⟩ | ⟨_, rfl, _, rfl, _, rfl, _, rfl, _, rfl, rfl, rfl⟩⟩ := hpre
  · obtain rfl := Option.some.inj ht
    have hin : ∀ a ∈ [(created, 0)], ∀ b ∈ ({(deleted, 1)} : Multiset (CdrEntry × Nat)),
        Earlier a b := by simp [Earlier]
    exact hin
  · obtain rfl := Option.some.inj ht
    have hin : ∀ a ∈ [(deleted, 1)], ∀ b ∈ (0 : Multiset (CdrEntry × Nat)), Earlier a b := by simp
    exact hin

theorem storedInOrder_orderlyRun :
    (∃ w, Run.exec step (constructed [] 0) orderlyRun = some w ∧
      w.committedEntries = [created, deleted]) ∧ StoredInOrder [] 0 orderlyRun := by
  have hok : ∀ a ∈ orderlyRun, Faultless a := by simp [orderlyRun, Faultless]
  have hkept : NothingDropped [] 0 orderlyRun := nothingDropped_of_along hok (by
    simp [orderlyRun, Run.Along, MeetsEmptyBuffer])
  have hrun : Run.exec step (constructed [] 0) orderlyRun = some _ := rfl
  exact ⟨⟨_, hrun, rfl⟩, (storedInOrder_iff hok hkept hrun).1 commitsInTurn_orderlyRun⟩

/-- The background flush has taken `created` when the event loop flushes `deleted` in
`getRecentRecords`, and inserts it only after that. -/
def overtakingRun : List (WriterAction CdrEntry) :=
  [.writeAction created, .callFlush .background, .takeBuffer .background,
    .writeAction deleted, .getRecentRecords, .takeBuffer .eventLoop, .begin .eventLoop true,
    .insert .eventLoop true, .commit .eventLoop .ok, .select, .begin .background true,
    .insert .background true, .commit .background .ok]

/-- No SQLite call fails in `overtakingRun`, and `deleted` is stored before `created`. -/
theorem overtakingRun_out_of_order :
    (∀ a ∈ overtakingRun, Faultless a) ∧ NothingDropped [] 0 overtakingRun ∧
      writes overtakingRun = [created, deleted] ∧
      (∃ w, Run.exec step (constructed [] 0) overtakingRun = some w ∧
        w.committedEntries = [deleted, created]) ∧
      ¬ StoredInOrder [] 0 overtakingRun := by
  have hok : ∀ a ∈ overtakingRun, Faultless a := by simp [overtakingRun, Faultless]
  refine ⟨hok, nothingDropped_of_along hok ?_, rfl, ⟨_, rfl, rfl⟩, fun horder => ?_⟩
  · simp [overtakingRun, Run.Along, MeetsEmptyBuffer]
  · have hrow := horder overtakingRun _ (List.prefix_refl _) rfl created.imsi
    exact absurd hrow (by decide)

end DatabaseCdrWriter
end Pgw
