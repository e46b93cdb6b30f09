/-
  OpenFelt.Lib.OrdMap — a finite map as its entries in the order of the keys.

  The order is a field, so a map has each key once and two maps that find the same are
  the same (`ext_find`). `find?` after `insert`, `erase` and `filter` is what the simp set
  knows; `mem_entries` passes between lookups and the entries that are walked in order.
-/

import Mathlib.Data.List.Sort
import Mathlib.Order.Lattice

namespace OpenFelt

structure OrdMap (κ ν : Type*) [LinearOrder κ] where
  entries : List (κ × ν)
  sorted : entries.Pairwise fun a b => a.1 < b.1

namespace OrdMap

variable {κ ν μ : Type*} [LinearOrder κ]

instance [DecidableEq ν] : DecidableEq (OrdMap κ ν) := fun a b =>
  decidable_of_iff (a.entries = b.entries) ⟨fun h => by cases a; cases b; cases h; rfl, fun h => h ▸ rfl⟩

def empty : OrdMap κ ν := ⟨[], .nil⟩

instance : Inhabited (OrdMap κ ν) := ⟨empty⟩

section entries
variable {k k' : κ} {v v' : ν} {l : List (κ × ν)}

/-- The entry put in its place, over the one of that key. -/
def insertEntry (k : κ) (v : ν) : List (κ × ν) → List (κ × ν)
  | [] => [(k, v)]
  | e :: l => if k < e.1 then (k, v) :: e :: l else if e.1 < k then e :: insertEntry k v l else (k, v) :: l

theorem mem_insertEntry {e : κ × ν} (h : e ∈ insertEntry k v l) : e = (k, v) ∨ e ∈ l := by
  induction l with
  | nil => exact Or.inl (List.mem_singleton.mp h)
  | cons a l ih =>
    rw [insertEntry] at h
    split_ifs at h with h1 h2
    · exact (List.mem_cons.mp h).imp id id
    · rcases List.mem_cons.mp h with rfl | h
      · exact Or.inr List.mem_cons_self
      · exact (ih h).imp id (List.mem_cons_of_mem _)
    · exact (List.mem_cons.mp h).imp id (List.mem_cons_of_mem _)

theorem insertEntry_sorted (k : κ) (v : ν) (hs : l.Pairwise fun a b => a.1 < b.1) :
    (insertEntry k v l).Pairwise fun a b => a.1 < b.1 := by
  induction l with
  | nil => exact List.pairwise_singleton _ _
  | cons a l ih =>
    obtain ⟨ha, hl⟩ := List.pairwise_cons.mp hs
    rw [insertEntry]
    split_ifs with h1 h2
    · refine List.pairwise_cons.mpr ⟨fun b hb => ?_, hs⟩
      rcases List.mem_cons.mp hb with rfl | hb
      · exact h1
      · exact h1.trans (ha b hb)
    · refine List.pairwise_cons.mpr ⟨fun b hb => ?_, ih hl⟩
      rcases mem_insertEntry hb with rfl | hb
      · exact h2
      · exact ha b hb
    · have he : a.1 = k := le_antisymm (not_lt.mp h1) (not_lt.mp h2)
      exact List.pairwise_cons.mpr ⟨fun b hb => he ▸ ha b hb, hl⟩

theorem lookup_cons_if (e : κ × ν) (l : List (κ × ν)) (k : κ) :
    (e :: l).lookup k = if k = e.1 then some e.2 else l.lookup k := by
  rw [List.lookup_cons]
  by_cases h : k = e.1
  · rw [if_pos h, beq_iff_eq.mpr h]
  · rw [if_neg h, beq_eq_false_iff_ne.mpr h]

theorem find_insertEntry : (insertEntry k v l).lookup k' = if k' = k then some v else l.lookup k' := by
  induction l with
  | nil => rw [insertEntry, lookup_cons_if]
  | cons a l ih =>
    rw [insertEntry]
    by_cases h1 : k < a.1
    · rw [if_pos h1, lookup_cons_if]
    by_cases h2 : a.1 < k
    · rw [if_neg h1, if_pos h2, lookup_cons_if, lookup_cons_if, ih]
      by_cases h : k' = k
      · rw [if_pos h, if_pos h, if_neg (h ▸ h2.ne')]
      · rw [if_neg h, if_neg h]
    · have he : a.1 = k := le_antisymm (not_lt.mp h1) (not_lt.mp h2)
      rw [if_neg h1, if_neg h2, lookup_cons_if, lookup_cons_if, he]
      by_cases h : k' = k
      · rw [if_pos h, if_pos h]
      · rw [if_neg h, if_neg h, if_neg h]

theorem lookup_filter_key (p : κ → Bool) : (l.filter fun e => p e.1).lookup k = if p k = true then l.lookup k else none := by
  induction l with
  | nil => simp
  | cons a l ih =>
    rw [List.filter_cons]
    by_cases hk : k = a.1
    · subst hk
      by_cases hp : p a.1 = true
      · rw [if_pos hp, if_pos hp, lookup_cons_if, lookup_cons_if, if_pos rfl, if_pos rfl]
      · rw [if_neg hp, ih, if_neg hp, if_neg hp]
    · rw [lookup_cons_if, if_neg hk, ← ih]
      by_cases hp : p a.1 = true
      · rw [if_pos hp, lookup_cons_if, if_neg hk]
      · rw [if_neg hp]

theorem lookup_eq_some (hs : l.Pairwise fun a b => a.1 < b.1) : l.lookup k = some v ↔ (k, v) ∈ l := by
  induction l with
  | nil => simp
  | cons a l ih =>
    obtain ⟨ha, hl⟩ := List.pairwise_cons.mp hs
    rw [lookup_cons_if, List.mem_cons]
    by_cases h : k = a.1
    · subst h
      have hnot : (a.1, v) ∉ l := fun hm => lt_irrefl a.1 (ha (a.1, v) hm)
      simp only [if_true, Option.some.injEq, hnot, or_false]
      exact ⟨fun e => e ▸ rfl, fun e => e ▸ rfl⟩
    · have hnot : (k, v) ≠ a := fun e => h (e ▸ rfl)
      rw [if_neg h, ih hl]
      simp [hnot]

end entries

/-! ## Operations -/

variable (m : OrdMap κ ν)

def find? (k : κ) : Option ν := m.entries.lookup k

def contains (k : κ) : Bool := (m.find? k).isSome

def insert (k : κ) (v : ν) : OrdMap κ ν := ⟨insertEntry k v m.entries, insertEntry_sorted k v m.sorted⟩

/-- The entries whose key passes. -/
def filterKey (p : κ → Bool) : OrdMap κ ν := ⟨m.entries.filter fun e => p e.1, m.sorted.filter _⟩

def erase (k : κ) : OrdMap κ ν := m.filterKey (· ≠ k)

/-- The entries that pass. -/
def retain (p : κ → ν → Bool) : OrdMap κ ν := ⟨m.entries.filter fun e => p e.1 e.2, m.sorted.filter _⟩

/-- The values changed in place. -/
def mapVal (f : κ → ν → μ) : OrdMap κ μ :=
  ⟨m.entries.map fun e => (e.1, f e.1 e.2), m.sorted.map _ fun _ _ h => h⟩

/-- The value of one key changed in place. -/
def modify (k : κ) (f : ν → ν) : OrdMap κ ν := m.mapVal fun k' v => if k' = k then f v else v

def keys : List κ := m.entries.map (·.1)

def values : List ν := m.entries.map (·.2)

def size : Nat := m.entries.length

variable {m} {m' : OrdMap κ ν} {k k' : κ} {v : ν}

theorem mem_entries : (k, v) ∈ m.entries ↔ m.find? k = some v := (lookup_eq_some m.sorted).symm

@[simp] theorem find_empty : (empty : OrdMap κ ν).find? k = none := rfl

theorem find_insert : (m.insert k v).find? k' = if k' = k then some v else m.find? k' := find_insertEntry

@[simp] theorem find_insert_self : (m.insert k v).find? k = some v := by rw [find_insert, if_pos rfl]

theorem find_insert_ne (h : k' ≠ k) : (m.insert k v).find? k' = m.find? k' := by rw [find_insert, if_neg h]

theorem find_filterKey (p : κ → Bool) : (m.filterKey p).find? k = if p k = true then m.find? k else none :=
  lookup_filter_key p

theorem find_erase : (m.erase k).find? k' = if k' = k then none else m.find? k' := by
  rw [erase, find_filterKey]
  by_cases h : k' = k <;> simp [h]

@[simp] theorem find_erase_self : (m.erase k).find? k = none := by rw [find_erase, if_pos rfl]

theorem find_erase_ne (h : k' ≠ k) : (m.erase k).find? k' = m.find? k' := by rw [find_erase, if_neg h]

theorem find_retain (p : κ → ν → Bool) : (m.retain p).find? k = (m.find? k).filter (p k) := by
  refine Option.ext ?_
  intro v
  rw [Option.filter_eq_some_iff, ← mem_entries, ← mem_entries]
  exact List.mem_filter

theorem find_mapVal (f : κ → ν → μ) : (m.mapVal f).find? k = (m.find? k).map (f k) := by
  unfold find? mapVal
  simp only
  induction m.entries with
  | nil => rfl
  | cons a l ih =>
    rw [List.map_cons, lookup_cons_if, lookup_cons_if, ih]
    by_cases h : k = a.1
    · subst h; simp
    · rw [if_neg h, if_neg h]

theorem find_modify (f : ν → ν) : (m.modify k f).find? k' = if k' = k then (m.find? k').map f else m.find? k' := by
  rw [modify, find_mapVal]
  by_cases h : k' = k
  · simp [h]
  · simp [h]

theorem mem_keys : k ∈ m.keys ↔ ∃ v, m.find? k = some v := by
  simp only [keys, List.mem_map, Prod.exists, exists_and_right, exists_eq_right, mem_entries]

theorem mem_values : v ∈ m.values ↔ ∃ k, m.find? k = some v := by
  simp only [values, List.mem_map, Prod.exists, exists_eq_right, mem_entries]

theorem nodup_keys : m.keys.Nodup := List.pairwise_map.mpr (m.sorted.imp ne_of_lt)

theorem contains_iff : m.contains k = true ↔ ∃ v, m.find? k = some v := Option.isSome_iff_exists

/-- A map is what it finds. -/
theorem ext_find (h : ∀ k, m.find? k = m'.find? k) : m = m' := by
  have hmem : ∀ e, e ∈ m.entries ↔ e ∈ m'.entries := fun ⟨k, v⟩ => by rw [mem_entries, mem_entries, h k]
  have hnodup : ∀ m : OrdMap κ ν, m.entries.Nodup := fun m => m.sorted.imp fun hlt he => hlt.ne (congrArg Prod.fst he)
  have hperm : m.entries.Perm m'.entries := (List.perm_ext_iff_of_nodup (hnodup m) (hnodup m')).mpr hmem
  have hentries : m.entries = m'.entries :=
    hperm.eq_of_pairwise (fun a b _ _ hab hba => absurd hba (not_lt.mpr hab.le)) m.sorted m'.sorted
  cases m; cases m'; cases hentries; rfl

theorem insert_same (h : m.find? k = some v) : m.insert k v = m := by
  refine ext_find ?_
  intro k'
  rw [find_insert]
  by_cases hk : k' = k
  · rw [if_pos hk, hk, h]
  · rw [if_neg hk]

theorem insert_twice (v' : ν) : (m.insert k v).insert k v' = m.insert k v' := by
  refine ext_find ?_
  intro k'
  rw [find_insert, find_insert, find_insert]
  by_cases hk : k' = k
  · rw [if_pos hk, if_pos hk]
  · rw [if_neg hk, if_neg hk, if_neg hk]

theorem erase_insert (h : m.find? k = none) : (m.insert k v).erase k = m := by
  refine ext_find ?_
  intro k'
  rw [find_erase, find_insert]
  by_cases hk : k' = k
  · rw [if_pos hk, hk, h]
  · rw [if_neg hk, if_neg hk]

/-! ## Size -/

theorem length_insertEntry_le (k : κ) (v : ν) (l : List (κ × ν)) : (insertEntry k v l).length ≤ l.length + 1 := by
  induction l with
  | nil => exact le_rfl
  | cons e l ih =>
    unfold insertEntry
    split_ifs
    · exact le_rfl
    · simpa using ih
    · simp

theorem size_insert_le (m : OrdMap κ ν) (k : κ) (v : ν) : (m.insert k v).size ≤ m.size + 1 := length_insertEntry_le k v _

theorem size_filterKey_le (m : OrdMap κ ν) (p : κ → Bool) : (m.filterKey p).size ≤ m.size := List.length_filter_le _ _

theorem size_retain_le (m : OrdMap κ ν) (p : κ → ν → Bool) : (m.retain p).size ≤ m.size := List.length_filter_le _ _

theorem size_eq_keys (m : OrdMap κ ν) : m.size = m.keys.length := (List.length_map _).symm

/-- Maps of the same keys are of one size. -/
theorem size_congr {m' : OrdMap κ μ} (h : ∀ k, m.contains k = true ↔ m'.contains k = true) : m.size = m'.size := by
  rw [size_eq_keys, size_eq_keys]
  refine ((List.perm_ext_iff_of_nodup m.nodup_keys m'.nodup_keys).mpr ?_).length_eq
  intro k
  rw [mem_keys, mem_keys, ← contains_iff, ← contains_iff, h k]

theorem size_erase (h : m.find? k = some v) : (m.erase k).size + 1 = m.size := by
  have hperm : m.keys.Perm (k :: (m.erase k).keys) := by
    refine (List.perm_ext_iff_of_nodup m.nodup_keys (List.nodup_cons.mpr ⟨?_, (m.erase k).nodup_keys⟩)).mpr ?_
    · intro hk
      obtain ⟨w, hw⟩ := mem_keys.mp hk
      rw [find_erase_self] at hw
      cases hw
    · intro k'
      rw [List.mem_cons, mem_keys, mem_keys]
      by_cases hk : k' = k
      · rw [hk, h]
        simp
      · rw [find_erase_ne hk]
        simp [hk]
  rw [size_eq_keys, size_eq_keys, hperm.length_eq, List.length_cons]

theorem size_insert_new (v : ν) (h : m.find? k = none) : (m.insert k v).size = m.size + 1 := by
  rw [← size_erase (@find_insert_self _ _ _ m k v), erase_insert h]

theorem size_insert_old (v : ν) (h : m.contains k = true) : (m.insert k v).size = m.size := by
  refine size_congr ?_
  intro k'
  rw [contains, find_insert]
  by_cases hk : k' = k
  · subst hk
    simp [h]
  · rw [if_neg hk]
    rfl

/-! ## Collecting -/

section collect
variable {l : List (κ × ν)}

/-- The last entry of a key counts; without repeats that is the one there is. -/
theorem find_collect (hn : (l.map (·.1)).Nodup) (m : OrdMap κ ν) (k : κ) :
    (l.foldl (fun m (e : κ × ν) => m.insert e.1 e.2) m).find? k = (l.lookup k).or (m.find? k) := by
  induction l generalizing m with
  | nil => rfl
  | cons e rest ih =>
    obtain ⟨hnew, hrest⟩ := List.nodup_cons.mp hn
    rw [List.foldl_cons, ih hrest, find_insert, lookup_cons_if]
    by_cases hk : k = e.1
    · have hnone : rest.lookup k = none := by
        rw [List.lookup_eq_none_iff]
        intro x hx
        rw [bne_iff_ne]
        intro he
        exact hnew (List.mem_map.mpr ⟨x, hx, he.symm.trans hk⟩)
      rw [if_pos hk, if_pos hk, hnone]
      rfl
    · rw [if_neg hk, if_neg hk]

theorem contains_collect (m : OrdMap κ ν) (k : κ) :
    (l.foldl (fun m (e : κ × ν) => m.insert e.1 e.2) m).contains k = true ↔ k ∈ l.map (·.1) ∨ m.contains k = true := by
  induction l generalizing m with
  | nil => simp
  | cons e rest ih =>
    rw [List.foldl_cons, ih, contains, contains, find_insert]
    by_cases hk : k = e.1
    · simp [hk]
    · simp [hk]

/-- Entries that agree on their keys are all found. -/
theorem find_collect_mem (hv : ∀ e ∈ l, ∀ e' ∈ l, e.1 = e'.1 → e.2 = e'.2) {e : κ × ν} (he : e ∈ l) (m : OrdMap κ ν) :
    (l.foldl (fun m (e : κ × ν) => m.insert e.1 e.2) m).find? e.1 = some e.2 := by
  have hkeep : ∀ (rest : List (κ × ν)) (m : OrdMap κ ν), (∀ x ∈ rest, x ∈ l) → m.find? e.1 = some e.2 →
      (rest.foldl (fun m (e : κ × ν) => m.insert e.1 e.2) m).find? e.1 = some e.2 := by
    intro rest
    induction rest with
    | nil => exact fun m _ hm => hm
    | cons x rest ih =>
      intro m hrest hm
      refine ih (m.insert x.1 x.2) (fun y hy => hrest y (List.mem_cons_of_mem _ hy)) ?_
      rw [find_insert]
      by_cases hk : e.1 = x.1
      · rw [if_pos hk, hv e he x (hrest x List.mem_cons_self) hk]
      · rw [if_neg hk]
        exact hm
  obtain ⟨before, after, hsplit⟩ := List.append_of_mem he
  rw [hsplit, List.foldl_append, List.foldl_cons]
  refine hkeep after _ ?_ find_insert_self
  intro x hx
  rw [hsplit]
  exact List.mem_append_right _ (List.mem_cons_of_mem _ hx)

/-- Collecting into a map changes it unless every entry is there. -/
theorem collect_eq_iff (hv : ∀ e ∈ l, ∀ e' ∈ l, e.1 = e'.1 → e.2 = e'.2) (m : OrdMap κ ν) :
    l.foldl (fun m (e : κ × ν) => m.insert e.1 e.2) m = m ↔ ∀ e ∈ l, m.find? e.1 = some e.2 := by
  constructor
  · intro h e he
    rw [← h]
    exact find_collect_mem hv he m
  · intro h
    clear hv
    induction l with
    | nil => rfl
    | cons e rest ih =>
      rw [List.foldl_cons, insert_same (h e List.mem_cons_self)]
      exact ih fun x hx => h x (List.mem_cons_of_mem _ hx)

theorem mem_lookup (hn : (l.map (·.1)).Nodup) : l.lookup k = some v ↔ (k, v) ∈ l := by
  induction l with
  | nil => simp
  | cons e rest ih =>
    obtain ⟨hnew, hrest⟩ := List.nodup_cons.mp hn
    rw [lookup_cons_if, List.mem_cons]
    by_cases hk : k = e.1
    · have hnot : (k, v) ∉ rest := by
        intro hmem
        exact hnew (List.mem_map.mpr ⟨(k, v), hmem, hk⟩)
      rw [if_pos hk]
      constructor
      · intro he
        exact Or.inl (Prod.ext hk (Option.some.inj he).symm)
      · intro h
        rcases h with h | h
        · rw [← h]
        · exact absurd h hnot
    · rw [if_neg hk, ih hrest]
      constructor
      · exact Or.inr
      · intro h
        rcases h with h | h
        · exact absurd (congrArg Prod.fst h) hk
        · exact h

/-- A map that finds what a list without repeats holds is that list in order. -/
theorem perm_entries (hn : (l.map (·.1)).Nodup) (h : ∀ k, m.find? k = l.lookup k) : m.entries.Perm l := by
  refine (List.perm_ext_iff_of_nodup ?_ (List.Nodup.of_map _ hn)).mpr ?_
  · exact List.Nodup.of_map _ m.nodup_keys
  · rintro ⟨k, v⟩
    rw [mem_entries, h, mem_lookup hn]

end collect

end OrdMap

end OpenFelt
