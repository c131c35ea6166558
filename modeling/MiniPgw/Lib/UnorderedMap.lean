import Mathlib.Data.List.AList
import Mathlib.Data.Finset.Dedup
import Mathlib.Data.Finset.Card

/-!
# Unordered maps

A `std::unordered_map` is an association list in its current iteration order. The order is
unspecified: an insertion may rehash the table, so `reordered` puts the entries in any other order.
An erased element leaves the order of the others as it is.
-/

abbrev UnorderedMap (κ ν : Type) := AList fun _ : κ => ν

namespace UnorderedMap

variable {κ ν : Type}

def size (m : UnorderedMap κ ν) : Nat :=
  m.entries.length

/-- The key of an element is in the map. -/
theorem mem_of_mem_entries {m : UnorderedMap κ ν} {e : Sigma fun _ : κ => ν} (h : e ∈ m.entries) :
    e.1 ∈ m :=
  List.mem_map_of_mem h

/-- The first element is there. -/
theorem mem_of_entries_eq_cons {m : UnorderedMap κ ν} {e : Sigma fun _ : κ => ν}
    {rest : List (Sigma fun _ : κ => ν)} (h : m.entries = e :: rest) : e.1 ∈ m := by
  apply mem_of_mem_entries
  rw [h]
  exact List.mem_cons_self

variable [DecidableEq κ]

/-- `try_emplace`: whether the element was inserted. -/
def tryEmplace (m : UnorderedMap κ ν) (k : κ) (v : ν) : UnorderedMap κ ν × Bool :=
  if k ∈ m then (m, false) else (m.insert k v, true)

/-- The map with its elements in the order `entries`, if these are its elements. -/
def reordered [DecidableEq ν] (m : UnorderedMap κ ν) (entries : List (Sigma fun _ : κ => ν)) :
    UnorderedMap κ ν :=
  if h : entries.Perm m.entries then ⟨entries, (List.perm_nodupKeys h).mpr m.nodupKeys⟩ else m

/-- The keys as a set. -/
def keySet (m : UnorderedMap κ ν) : Finset κ :=
  m.keys.toFinset

@[simp] theorem mem_keySet {m : UnorderedMap κ ν} {k : κ} : k ∈ m.keySet ↔ k ∈ m := by
  rw [keySet, List.mem_toFinset, AList.mem_keys]

@[simp] theorem keySet_empty : (∅ : UnorderedMap κ ν).keySet = ∅ := rfl

theorem keySet_insert (m : UnorderedMap κ ν) (k : κ) (v : ν) :
    keySet (m.insert k v) = insert k m.keySet := by
  ext x
  simp

theorem keySet_tryEmplace (m : UnorderedMap κ ν) (k : κ) (v : ν) :
    keySet (m.tryEmplace k v).1 = insert k m.keySet := by
  unfold tryEmplace
  split
  · next h => exact (Finset.insert_eq_of_mem (mem_keySet.mpr h)).symm
  · exact keySet_insert m k v

theorem keySet_erase (m : UnorderedMap κ ν) (k : κ) : keySet (m.erase k) = m.keySet.erase k := by
  ext x
  simp

theorem keySet_reordered [DecidableEq ν] (m : UnorderedMap κ ν)
    (entries : List (Sigma fun _ : κ => ν)) : keySet (m.reordered entries) = m.keySet := by
  unfold reordered
  split
  · next h =>
    ext x
    rw [mem_keySet, mem_keySet]
    exact AList.mem_of_perm h
  · rfl

/-- No key occurs twice, so the size is the number of keys. -/
theorem card_keySet (m : UnorderedMap κ ν) : m.keySet.card = m.size := by
  rw [keySet, List.toFinset_card_of_nodup m.keys_nodup]
  simp [AList.keys, List.keys, size]

/-- Erasing a key keeps the elements with other keys. -/
theorem mem_entries_erase {m : UnorderedMap κ ν} {k : κ} {e : Sigma fun _ : κ => ν}
    (h : e ∈ m.entries) (hk : e.1 ≠ k) : e ∈ (m.erase k).entries := by
  obtain ⟨x, v⟩ := e
  rw [← AList.mem_lookup_iff, AList.lookup_erase_ne hk]
  exact AList.mem_lookup_iff.mpr h

/-! Assigning through a reference to an element is `AList.replace`. -/

theorem dlookup_kreplace_self {k : κ} {v v' : ν} {l : List (Sigma fun _ : κ => ν)}
    (h : l.dlookup k = some v) : (l.kreplace k v').dlookup k = some v' := by
  induction l with
  | nil => simp at h
  | cons e l ih =>
    obtain ⟨x, w⟩ := e
    by_cases hx : k = x
    · subst hx
      simp [List.kreplace]
    · rw [List.dlookup_cons_ne l ⟨x, w⟩ hx] at h
      simpa [List.kreplace, hx] using ih h

theorem dlookup_kreplace_ne {k k' : κ} (hne : k' ≠ k) (v : ν)
    (l : List (Sigma fun _ : κ => ν)) : (l.kreplace k v).dlookup k' = l.dlookup k' := by
  induction l with
  | nil => rfl
  | cons e l ih =>
    obtain ⟨x, w⟩ := e
    by_cases hx : k = x
    · subst hx
      simp [List.kreplace, hne]
    · by_cases hx' : k' = x
      · subst hx'
        simp [List.kreplace, hx]
      · rw [List.dlookup_cons_ne l ⟨x, w⟩ hx']
        simpa [List.kreplace, hx, hx'] using ih

theorem lookup_replace_self {m : UnorderedMap κ ν} {k : κ} {v v' : ν}
    (h : m.lookup k = some v) : (m.replace k v').lookup k = some v' :=
  dlookup_kreplace_self h

theorem lookup_replace_ne (m : UnorderedMap κ ν) {k k' : κ} (hne : k' ≠ k) (v : ν) :
    (m.replace k v).lookup k' = m.lookup k' :=
  dlookup_kreplace_ne hne v m.entries

theorem keySet_replace (m : UnorderedMap κ ν) (k : κ) (v : ν) :
    keySet (m.replace k v) = m.keySet := by
  ext x
  rw [mem_keySet, mem_keySet, AList.mem_replace]

/-- A map in which just the key `k` is not found any more. -/
theorem keySet_of_lookup {m m' : UnorderedMap κ ν} {k : κ}
    (h : ∀ x, m'.lookup x = if x = k then none else m.lookup x) :
    m'.keySet = m.keySet.erase k := by
  ext x
  rw [mem_keySet, ← AList.lookup_isSome, h, Finset.mem_erase, mem_keySet, ← AList.lookup_isSome]
  by_cases hx : x = k <;> simp [hx]

theorem size_insert {m : UnorderedMap κ ν} {k : κ} (h : k ∉ m) (v : ν) :
    size (m.insert k v) = m.size + 1 := by
  rw [← card_keySet, ← card_keySet, keySet_insert,
    Finset.card_insert_of_notMem (mt mem_keySet.mp h)]

theorem size_reordered [DecidableEq ν] (m : UnorderedMap κ ν)
    (entries : List (Sigma fun _ : κ => ν)) : size (m.reordered entries) = m.size := by
  rw [← card_keySet, ← card_keySet, keySet_reordered]

/-- Erasing a key that is not there changes nothing. -/
theorem erase_of_notMem {m : UnorderedMap κ ν} {k : κ} (h : k ∉ m) : m.erase k = m :=
  AList.ext (List.kerase_of_notMem_keys h)

/-- Erasing a key that is there makes the map smaller by one element. -/
theorem size_erase {m : UnorderedMap κ ν} {k : κ} (h : k ∈ m) :
    size (m.erase k) + 1 = m.size := by
  rw [← card_keySet, ← card_keySet, keySet_erase, Finset.card_erase_add_one (mem_keySet.mpr h)]

end UnorderedMap
