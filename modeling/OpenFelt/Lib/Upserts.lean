/-
  OpenFelt.Lib.Upserts — a log of values that is read back by key.

  Reading puts each value in the place of the one with its key, or behind all of them, so
  what is held is every key once, in the order first seen (`keys_read`), with the value
  the log has last of it (`mem_read`). Two logs that share no key are read apart
  (`read_append`).
-/

import Mathlib.Data.List.Nodup
import Mathlib.Data.List.Induction

namespace OpenFelt.Upserts

variable {α κ : Type*} [DecidableEq κ] (key : α → κ)

/-- In the place of the value with its key, or at the end. -/
def upsert (x : α) : List α → List α
  | [] => [x]
  | y :: ys => if key y = key x then x :: ys else y :: upsert x ys

def write (held log : List α) : List α := log.foldl (fun held x => upsert key x held) held

def read (log : List α) : List α := write key [] log

/-- What the log has last of a key. -/
def last (log : List α) (k : κ) : Option α := log.reverse.find? (key · = k)

variable {key} {x y : α} {xs ys log log' : List α} {k : κ}

/-! ## One value -/

theorem upsert_of_mem (h : key x ∈ xs.map key) : (upsert key x xs).map key = xs.map key := by
  induction xs with
  | nil => simp at h
  | cons y ys ih =>
    rw [upsert]
    by_cases hy : key y = key x
    · simp [hy]
    · rw [if_neg hy]
      have hrest : key x ∈ ys.map key := by
        rcases List.mem_cons.mp h with he | hin
        · exact absurd he.symm hy
        · exact hin
      rw [List.map_cons, List.map_cons, ih hrest]

/-- A key not held goes behind the others. -/
theorem upsert_of_not_mem (h : key x ∉ xs.map key) : upsert key x xs = xs ++ [x] := by
  induction xs with
  | nil => rfl
  | cons y ys ih =>
    simp only [List.map_cons, List.mem_cons, not_or] at h
    rw [upsert, if_neg (fun e => h.1 e.symm), ih h.2, List.cons_append]

theorem keys_upsert : (upsert key x xs).map key = if key x ∈ xs.map key then xs.map key else xs.map key ++ [key x] := by
  by_cases h : key x ∈ xs.map key
  · rw [if_pos h, upsert_of_mem h]
  · rw [if_neg h, upsert_of_not_mem h, List.map_append]
    rfl

/-- The values in front keep their places. -/
theorem upsert_append (h : key x ∉ xs.map key) : upsert key x (xs ++ ys) = xs ++ upsert key x ys := by
  induction xs with
  | nil => rfl
  | cons z zs ih =>
    simp only [List.map_cons, List.mem_cons, not_or] at h
    rw [List.cons_append, upsert, if_neg (fun e => h.1 e.symm), ih h.2, List.cons_append]

theorem mem_upsert (hn : (xs.map key).Nodup) : y ∈ upsert key x xs ↔ y = x ∨ (y ∈ xs ∧ key y ≠ key x) := by
  induction xs with
  | nil => simp [upsert]
  | cons z zs ih =>
    obtain ⟨hz, hn⟩ := List.nodup_cons.mp hn
    rw [upsert]
    by_cases he : key z = key x
    · rw [if_pos he]
      have hother : ∀ w ∈ zs, key w ≠ key x := by
        intro w hw e
        exact hz (by rw [he, ← e]; exact List.mem_map_of_mem hw)
      constructor
      · intro h
        rcases List.mem_cons.mp h with rfl | hin
        · exact Or.inl rfl
        · exact Or.inr ⟨List.mem_cons_of_mem _ hin, hother y hin⟩
      · intro h
        rcases h with rfl | ⟨hin, hne⟩
        · exact List.mem_cons_self
        · rcases List.mem_cons.mp hin with rfl | hin
          · exact absurd he hne
          · exact List.mem_cons_of_mem _ hin
    · rw [if_neg he, List.mem_cons, ih hn, List.mem_cons]
      constructor
      · intro h
        rcases h with rfl | rfl | ⟨hin, hne⟩
        · exact Or.inr ⟨Or.inl rfl, he⟩
        · exact Or.inl rfl
        · exact Or.inr ⟨Or.inr hin, hne⟩
      · intro h
        rcases h with rfl | ⟨rfl | hin, hne⟩
        · exact Or.inr (Or.inl rfl)
        · exact Or.inl rfl
        · exact Or.inr (Or.inr ⟨hin, hne⟩)

/-! ## A log -/

@[simp] theorem write_nil : write key xs [] = xs := rfl

@[simp] theorem write_cons : write key xs (x :: log) = write key (upsert key x xs) log := rfl

theorem write_append : write key xs (log ++ log') = write key (write key xs log) log' := List.foldl_append

theorem read_snoc : read key (log ++ [x]) = upsert key x (read key log) := by
  rw [read, write_append]
  rfl

/-- The values in front keep their places through a log that has none of their keys. -/
theorem write_front (h : ∀ x ∈ log, key x ∉ xs.map key) : write key (xs ++ ys) log = xs ++ write key ys log := by
  induction log generalizing ys with
  | nil => rfl
  | cons x log ih =>
    rw [write_cons, write_cons, upsert_append (h x List.mem_cons_self)]
    exact ih fun z hz => h z (List.mem_cons_of_mem _ hz)

omit [DecidableEq κ] in
theorem removeAll_singleton [BEq κ] [LawfulBEq κ] {l : List κ} : ([k] : List κ).removeAll l = if k ∈ l then [] else [k] := by
  by_cases h : k ∈ l <;> simp [List.removeAll, h]

/-- Every key once, in the order first seen. -/
theorem keys_read [BEq κ] [LawfulBEq κ] : (read key log).map key = (log.map key).eraseDups := by
  induction log using List.reverseRecOn with
  | nil => rfl
  | append_singleton log x ih =>
    rw [read_snoc, keys_upsert, ih, List.map_append, List.eraseDups_append]
    have hmem : key x ∈ (log.map key).eraseDups ↔ key x ∈ log.map key := List.mem_eraseDups
    rw [List.map_singleton, removeAll_singleton]
    by_cases h : key x ∈ log.map key
    · rw [if_pos (hmem.mpr h), if_pos h]
      simp
    · rw [if_neg (fun e => h (hmem.mp e)), if_neg h]
      simp [List.eraseDups_cons]

theorem nodup_read : ((read key log).map key).Nodup := by
  induction log using List.reverseRecOn with
  | nil => exact List.nodup_nil
  | append_singleton log x ih =>
    rw [read_snoc, keys_upsert]
    split
    · exact ih
    · rename_i h
      exact List.nodup_append.mpr ⟨ih, List.nodup_singleton _, fun a ha b hb e => h (by
        rw [← List.mem_singleton.mp hb, ← e]
        exact ha)⟩

theorem last_snoc : last key (log ++ [x]) k = if key x = k then some x else last key log k := by
  rw [last, List.reverse_append, List.reverse_singleton, List.singleton_append, List.find?_cons]
  by_cases h : key x = k <;> simp [h, last]

theorem last_append : last key (log ++ log') k = (last key log' k).or (last key log k) := by
  rw [last, List.reverse_append, List.find?_append]
  rfl

theorem mem_of_last (h : last key log k = some x) : x ∈ log ∧ key x = k := by
  have hkey := List.find?_some h
  exact ⟨List.mem_reverse.mp (List.mem_of_find?_eq_some h), by simpa using hkey⟩

/-- What is held of a key is what the log has last of it. -/
theorem mem_read : x ∈ read key log ↔ last key log (key x) = some x := by
  induction log using List.reverseRecOn with
  | nil => simp [read, last]
  | append_singleton log y ih =>
    rw [read_snoc, mem_upsert nodup_read, last_snoc, ih]
    by_cases h : key y = key x
    · rw [if_pos h]
      constructor
      · intro hx
        rcases hx with rfl | ⟨_, hne⟩
        · rfl
        · exact absurd h.symm hne
      · intro hx
        exact Or.inl (Option.some.inj hx).symm
    · rw [if_neg h]
      constructor
      · intro hx
        rcases hx with rfl | ⟨hlast, _⟩
        · exact absurd rfl h
        · exact hlast
      · intro hlast
        exact Or.inr ⟨hlast, fun e => h e.symm⟩

theorem mem_of_mem_read (h : x ∈ read key log) : x ∈ log := (mem_of_last (mem_read.mp h)).1

/-- Logs without a key in common are read one after the other. -/
theorem read_append (h : ∀ x ∈ log', ∀ y ∈ log, key x ≠ key y) : read key (log ++ log') = read key log ++ read key log' := by
  have hfront : ∀ x ∈ log', key x ∉ (read key log).map key := by
    intro x hx hin
    obtain ⟨y, hy, he⟩ := List.mem_map.mp hin
    exact h x hx y (mem_of_mem_read hy) he.symm
  calc read key (log ++ log') = write key (read key log ++ []) log' := by rw [read, write_append, List.append_nil]; rfl
    _ = read key log ++ read key log' := write_front hfront

end OpenFelt.Upserts
