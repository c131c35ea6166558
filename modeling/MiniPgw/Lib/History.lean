import Mathlib.Data.List.Perm.Basic

/-!
# Prefixes of a history

A history is a list in which every element comes `before` the ones after it. Some of its elements
are done, the others are pending. The done ones are a prefix of the history exactly when they are
in order and nothing pending comes before one of them (`isPrefix_iff`).

`forall_ofKey_isPrefix_iff` is the same for histories that mix several keys, of which each is to
be in order by itself.
-/

namespace History

variable {α κ : Type*} {before : α → α → Prop} {done pending hist : List α}

/-- **The prefix rule.** Induction on what is done: its first element is the first of the history,
because everything else comes after it. -/
theorem isPrefix_iff (hasymm : ∀ a b, before a b → ¬ before b a)
    (hperm : (done ++ pending).Perm hist) (hhist : hist.Pairwise before) :
    done <+: hist ↔ done.Pairwise before ∧ ∀ a ∈ done, ∀ b ∈ pending, before a b := by
  constructor
  · rintro ⟨rest, rfl⟩
    obtain ⟨hdone, -, hcross⟩ := List.pairwise_append.mp hhist
    have hrest : pending.Perm rest := (List.perm_append_left_iff done).mp hperm
    exact ⟨hdone, fun a ha b hb => hcross a ha b (hrest.subset hb)⟩
  · rintro ⟨hdone, hcross⟩
    induction done generalizing hist with
    | nil => exact List.nil_prefix
    | cons a done ih =>
      obtain ⟨hfirst, hdone'⟩ := List.pairwise_cons.mp hdone
      cases hist with
      | nil => simp at hperm
      | cons b hist =>
        obtain ⟨hb, hhist'⟩ := List.pairwise_cons.mp hhist
        -- otherwise `a` comes later in `hist` than `b`, and earlier in `done ++ pending`
        have hab : a = b := by
          by_contra hne
          have ha : a ∈ hist := by
            have hmem : a ∈ b :: hist := hperm.subset (by simp)
            simpa [hne] using hmem
          have hafter : before a b := by
            have hmem : b ∈ a :: (done ++ pending) := hperm.symm.subset (by simp)
            rcases List.mem_cons.mp hmem with hba | hmem
            · exact absurd hba.symm hne
            · rcases List.mem_append.mp hmem with hd | hp
              · exact hfirst b hd
              · exact hcross a (by simp) b hp
          exact hasymm a b hafter (hb a ha)
        subst hab
        have hperm' : (done ++ pending).Perm hist := hperm.cons_inv
        have hrest := ih hperm' hhist' hdone' (fun c hc => hcross c (by simp [hc]))
        exact List.cons_prefix_cons.mpr ⟨rfl, hrest⟩

variable [DecidableEq κ]

/-- The elements with the key `k`, in order. -/
def ofKey (key : α → κ) (k : κ) (l : List α) : List α :=
  l.filter fun a => key a = k

theorem ofKey_append (key : α → κ) (k : κ) (l m : List α) :
    ofKey key k (l ++ m) = ofKey key k l ++ ofKey key k m :=
  List.filter_append l m

theorem ofKey_map {β : Type*} (key : β → κ) (k : κ) (f : α → β) (l : List α) :
    ofKey key k (l.map f) = (ofKey (key ∘ f) k l).map f := by
  rw [ofKey, ofKey, List.filter_map]
  rfl

theorem mem_ofKey {key : α → κ} {k : κ} {l : List α} {a : α} :
    a ∈ ofKey key k l ↔ a ∈ l ∧ key a = k := by
  simp [ofKey]

/-- Lists with the same elements of every key, in whatever order the keys come, are permutations of
each other. -/
theorem perm_of_ofKey {key : α → κ} {l m : List α} (h : ∀ k, ofKey key k l = ofKey key k m) :
    l.Perm m := by
  classical
  refine List.perm_iff_count.mpr fun a => ?_
  have hcount : ∀ l : List α, l.count a = (ofKey key (key a) l).count a := fun l => by
    rw [ofKey, List.count_filter (by simp)]
  rw [hcount l, hcount m, h]

/-- A list is in order for every key if related elements of one key are in order. -/
theorem forall_pairwise_ofKey_iff {key : α → κ} {l : List α} :
    (∀ k, (ofKey key k l).Pairwise before)
      ↔ l.Pairwise fun a b => key a = key b → before a b := by
  constructor
  · intro h
    refine List.pairwise_iff_forall_sublist.mpr fun {a b} hsub hkey => ?_
    have hpair : (ofKey key (key a) [a, b]).Pairwise before :=
      (h (key a)).sublist (hsub.filter _)
    simpa [ofKey, ← hkey] using hpair
  · intro h k
    refine List.pairwise_filter.mpr (h.imp fun {a b} hab ha hb => hab ?_)
    rw [of_decide_eq_true ha, of_decide_eq_true hb]

/-- **The prefix rule for every key.** -/
theorem forall_ofKey_isPrefix_iff {key : α → κ} (hasymm : ∀ a b, before a b → ¬ before b a)
    (hperm : (done ++ pending).Perm hist) (hhist : hist.Pairwise before) :
    (∀ k, ofKey key k done <+: ofKey key k hist) ↔
      (done.Pairwise fun a b => key a = key b → before a b) ∧
        ∀ a ∈ done, ∀ b ∈ pending, key a = key b → before a b := by
  have hkey : ∀ k, ofKey key k done <+: ofKey key k hist ↔
      (ofKey key k done).Pairwise before ∧
        ∀ a ∈ ofKey key k done, ∀ b ∈ ofKey key k pending, before a b := by
    -- for each key the two lists together are its history, in another order
    intro k
    have hpermk : (ofKey key k done ++ ofKey key k pending).Perm (ofKey key k hist) := by
      rw [← ofKey_append]
      exact hperm.filter _
    exact isPrefix_iff hasymm hpermk (hhist.filter _)
  rw [← forall_pairwise_ofKey_iff]
  constructor
  · intro h
    refine ⟨fun k => ((hkey k).mp (h k)).1, fun a ha b hb hab => ?_⟩
    exact ((hkey (key a)).mp (h (key a))).2 a (mem_ofKey.mpr ⟨ha, rfl⟩) b
      (mem_ofKey.mpr ⟨hb, hab.symm⟩)
  · rintro ⟨hdone, hcross⟩ k
    refine (hkey k).mpr ⟨hdone k, fun a ha b hb => ?_⟩
    obtain ⟨ha, hak⟩ := mem_ofKey.mp ha
    obtain ⟨hb, hbk⟩ := mem_ofKey.mp hb
    exact hcross a ha b hb (hak.trans hbk.symm)

end History
