import MiniPgw.Session.Laws

/-!
# The records of one IMSI

How many records of each kind the CDR log has for an IMSI (`recordsOf`). Every session was created
once and is deleted at most once: the `CREATED` records outnumber the `DELETED` ones by the session
that the IMSI has (`records_balance`). No call takes a record away (`records_le_step`).

## The architecture

* **`marksOf`**, **`Matched`**, **`matched_step`** — in the ledger: the marks of a key against its
  activity, one event at a time.
* **`entry_injective`**, **`recordsOf_eq`** — the records of the log are the marks of the ledger,
  so a count of the one is a count of the other.
* **`records_balance`**, **`records_le_step`** — the two facts, for the manager.
-/

namespace Pgw
namespace Ledger

variable {κ : Type*} [DecidableEq κ] {l l' : Ledger κ}

/-- The number of marks `mark` of the key `x`. -/
def marksOf (x : κ) (mark : Mark) (log : List (κ × Mark)) : ℕ :=
  log.countP fun e => e = (x, mark)

/-- The marks of every key match its activity. -/
def Matched (l : Ledger κ) : Prop :=
  ∀ x, marksOf x .created l.log
    = marksOf x .deleted l.log + if x ∈ l.active then 1 else 0

theorem marksOf_snoc (x : κ) (mark : Mark) (log : List (κ × Mark)) (y : κ) (mark' : Mark) :
    marksOf x mark (log ++ [(y, mark')])
      = marksOf x mark log + if y = x ∧ mark' = mark then 1 else 0 := by
  simp [marksOf, List.countP_append, List.countP_singleton]

/-- A key that is deleted was active. -/
theorem matched_erase (h : l.Matched) {x : κ} (hx : x ∈ l.active) :
    ∀ y, marksOf y .created (l.log ++ [(x, .deleted)])
      = marksOf y .deleted (l.log ++ [(x, .deleted)])
        + if y ∈ l.active.erase x then 1 else 0 := by
  intro y
  have hy := h y
  rw [marksOf_snoc, marksOf_snoc]
  by_cases hyx : y = x
  · subst hyx
    simp only [hx, if_true] at hy
    simp [hy]
  · have hne : ¬ x = y := fun h => hyx h.symm
    simp [hyx, hne, hy]

theorem matched_step (h : l.Matched) {e : Event κ} (hstep : l.step e = some l') : l'.Matched := by
  cases e with
  | create x =>
    obtain ⟨hx, hstep⟩ := Option.ite_none_left_eq_some.mp hstep
    cases hstep
    intro y
    have hy := h y
    show marksOf y .created (l.log ++ [(x, .created)])
      = marksOf y .deleted (l.log ++ [(x, .created)]) + if y ∈ insert x l.active then 1 else 0
    rw [marksOf_snoc, marksOf_snoc]
    -- only the subscriber that the mark is about changes
    by_cases hyx : y = x
    · subst hyx
      simp only [hx, if_false] at hy
      simp [hy]
    · have hne : ¬ x = y := fun h => hyx h.symm
      simp [hyx, hne, hy]
  | reject x =>
    cases hstep
    intro y
    -- a rejection is neither a creation nor a deletion
    have hy := h y
    show marksOf y .created (l.log ++ [(x, .rejected)])
      = marksOf y .deleted (l.log ++ [(x, .rejected)]) + if y ∈ l.active then 1 else 0
    rw [marksOf_snoc, marksOf_snoc]
    simpa using hy
  | expire x =>
    obtain ⟨hx, hstep⟩ := Option.ite_none_right_eq_some.mp hstep
    cases hstep
    exact matched_erase h hx
  | terminate x =>
    obtain ⟨hx, hstep⟩ := Option.ite_none_right_eq_some.mp hstep
    cases hstep
    exact matched_erase h hx

theorem matched_exec {es : List (Event κ)} (hrun : Run.exec step empty es = some l) : l.Matched :=
  Run.exec_invariant (fun _ _ _ h hs => matched_step h hs) (fun _ => rfl) hrun

theorem log_prefix_step (k : Ledger κ) (l : Ledger κ) (e : Event κ) (l' : Ledger κ)
    (h : k.log <+: l.log) (hstep : l.step e = some l') : k.log <+: l'.log := by
  cases e with
  | create x =>
    obtain ⟨hx, hstep⟩ := Option.ite_none_left_eq_some.mp hstep
    cases hstep
    exact h.trans (List.prefix_append _ _)
  | reject x =>
    cases hstep
    exact h.trans (List.prefix_append _ _)
  | expire x =>
    obtain ⟨hx, hstep⟩ := Option.ite_none_right_eq_some.mp hstep
    cases hstep
    exact h.trans (List.prefix_append _ _)
  | terminate x =>
    obtain ⟨hx, hstep⟩ := Option.ite_none_right_eq_some.mp hstep
    cases hstep
    exact h.trans (List.prefix_append _ _)

/-- The log only grows. -/
theorem log_prefix {es : List (Event κ)} (hrun : Run.exec step l es = some l') :
    l.log <+: l'.log :=
  Run.exec_invariant (log_prefix_step l) (List.prefix_refl _) hrun

end Ledger

namespace SessionManager

variable {m m' : SessionManager} {l : Ledger Imsi}

/-- The number of records of `imsi` with this action. -/
def recordsOf (m : SessionManager) (imsi : Imsi) (action : Bytes) : ℕ :=
  m.cdrWriter.entries.count ⟨imsi, action⟩

theorem entry_injective : Function.Injective Ledger.entry := by
  rintro ⟨x, a⟩ ⟨y, b⟩ h
  obtain ⟨hx, hmark⟩ := CdrEntry.mk.inj h
  exact Prod.ext hx (action_injective hmark)

theorem recordsOf_eq (h : m.Keeps l) (imsi : Imsi) (mark : Mark) :
    m.recordsOf imsi mark.action = Ledger.marksOf imsi mark l.log := by
  rw [recordsOf, h.entries, List.count_eq_countP, List.countP_map]
  refine List.countP_congr fun e _ => ?_
  have hentry : (⟨imsi, mark.action⟩ : CdrEntry) = Ledger.entry (imsi, mark) := rfl
  simp [hentry, entry_injective.eq_iff]

/-- **Every session is created once and deleted at most once.** -/
theorem records_balance (h : m.Ledgered) (imsi : Imsi) :
    m.recordsOf imsi ICdrWriter.SESSION_CREATED
      = m.recordsOf imsi ICdrWriter.SESSION_DELETED
        + if m.hasSession imsi = true then 1 else 0 := by
  obtain ⟨es, l, hes, hkeeps⟩ := h
  have hcreated := recordsOf_eq hkeeps imsi .created
  have hdeleted := recordsOf_eq hkeeps imsi .deleted
  have hactive : (m.hasSession imsi = true) = (imsi ∈ l.active) := by
    rw [← hkeeps.active, UnorderedMap.mem_keySet]
    exact propext decide_eq_true_iff
  have hmatched := Ledger.matched_exec hes imsi
  show m.recordsOf imsi Mark.created.action = m.recordsOf imsi Mark.deleted.action + _
  rw [hcreated, hdeleted, hmatched]
  simp only [hactive]

/-- **No call takes a record away.** -/
theorem records_le_step (h : m.Ledgered) {c : SessionCall} (hstep : step m c = some m') :
    m'.Ledgered ∧ m.cdrWriter.entries <+: m'.cdrWriter.entries := by
  obtain ⟨es, l, hes, hkeeps⟩ := h
  obtain ⟨es', l', hes', hkeeps'⟩ := step_simulates hkeeps hstep
  refine ⟨⟨es ++ es', l', Run.exec_append_eq_some.mpr ⟨l, hes, hes'⟩, hkeeps'⟩, ?_⟩
  rw [hkeeps.entries, hkeeps'.entries]
  exact (Ledger.log_prefix hes').map Ledger.entry

end SessionManager
end Pgw
