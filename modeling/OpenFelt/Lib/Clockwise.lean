/-
  OpenFelt.Lib.Clockwise — positions on a ring of `n` places.

  `rot n i k` is the place `k` steps on from `i`; `gap n i j` is how many steps on from
  `i` the place `j` is, in `1 … n` (a full turn from a place to itself). They are
  inverse (`rot_gap`, `gap_rot`), so a search over the offsets `1 … n` in order finds
  the place of least gap (`find_least_gap`).
-/

import Mathlib.Algebra.GroupWithZero.Nat
import Mathlib.Algebra.Ring.Int.Defs

namespace Clockwise

def rot (n i k : Nat) : Nat := (i + k) % n

/-- Steps on from `i` to `j`, a full turn when they are the same place. -/
def gap (n i j : Nat) : Nat := if (j + n - i) % n = 0 then n else (j + n - i) % n

variable {n i j k : Nat}

theorem rot_lt (hn : 0 < n) : rot n i k < n := Nat.mod_lt _ hn

theorem gap_pos (hn : 0 < n) : 0 < gap n i j := by unfold gap; split <;> omega

theorem gap_le (hn : 0 < n) : gap n i j ≤ n := by
  unfold gap; split
  · exact Nat.le_refl n
  · exact Nat.le_of_lt (Nat.mod_lt _ hn)

theorem mod_cases (a : Nat) (h : a < 2 * n) : a % n = a ∧ a < n ∨ a % n = a - n ∧ n ≤ a := by
  by_cases hlt : a < n
  · exact Or.inl ⟨Nat.mod_eq_of_lt hlt, hlt⟩
  · right
    have hle : n ≤ a := by omega
    refine ⟨?_, hle⟩
    rw [Nat.mod_eq_sub_mod hle, Nat.mod_eq_of_lt (by omega)]

theorem rot_gap (hi : i < n) (hj : j < n) : rot n i (gap n i j) = j := by
  unfold rot gap
  rcases mod_cases (n := n) (j + n - i) (by omega) with ⟨h, hlt⟩ | ⟨h, hle⟩
  · rw [h]; split
    · omega
    · rcases mod_cases (n := n) (i + (j + n - i)) (by omega) with ⟨h', _⟩ | ⟨h', _⟩ <;> omega
  · rw [h]; split
    · rcases mod_cases (n := n) (i + n) (by omega) with ⟨h', _⟩ | ⟨h', _⟩ <;> omega
    · rcases mod_cases (n := n) (i + (j + n - i - n)) (by omega) with ⟨h', _⟩ | ⟨h', _⟩ <;> omega

theorem gap_rot (hi : i < n) (hk : 0 < k) (hkn : k ≤ n) : gap n i (rot n i k) = k := by
  unfold rot gap
  rcases mod_cases (n := n) (i + k) (by omega) with ⟨h, hlt⟩ | ⟨h, hle⟩
  · rw [h]
    rcases mod_cases (n := n) (i + k + n - i) (by omega) with ⟨h', _⟩ | ⟨h', _⟩ <;> rw [h'] <;> split <;> omega
  · rw [h]
    rcases mod_cases (n := n) (i + k - n + n - i) (by omega) with ⟨h', _⟩ | ⟨h', _⟩ <;> rw [h'] <;> split <;> omega

theorem gap_inj {j' : Nat} (hi : i < n) (hj : j < n) (hj' : j' < n) (h : gap n i j = gap n i j') : j = j' := by
  rw [← rot_gap hi hj, h, rot_gap hi hj']

theorem gap_eq (hi : i < n) (hj : j < n) : gap n i j = if i < j then j - i else j + n - i := by
  unfold gap
  rcases mod_cases (n := n) (j + n - i) (by omega) with ⟨h, hlt⟩ | ⟨h, hle⟩ <;> rw [h] <;> split <;> split <;> omega

/-- Measured from a place passed on the way. -/
theorem gap_from {p : Nat} (hi : i < n) (hj : j < n) (hp : p < n) (h : gap n i j < gap n i p) :
    gap n j p + gap n i j = gap n i p := by
  rw [gap_eq hi hj, gap_eq hi hp] at *
  rw [gap_eq hj hp]
  split at h <;> split at h <;> simp only [*, if_true, if_false] <;> split <;> omega

/-- How far it is from one place to another, as a third place `b` sees them. -/
theorem gap_seen {b : Nat} (hb : b < n) (hi : i < n) (hj : j < n) :
    gap n i j = if gap n b i < gap n b j then gap n b j - gap n b i else gap n b j + n - gap n b i := by
  rw [gap_eq hi hj, gap_eq hb hi, gap_eq hb hj]
  split <;> split <;> split <;> split <;> omega

/-- Which of two places comes first from `i`, as a third place `b` sees them. -/
theorem gap_le_iff {b p : Nat} (hb : b < n) (hi : i < n) (hj : j < n) (hp : p < n) :
    gap n i j ≤ gap n i p ↔ if gap n b i < gap n b j then gap n b i < gap n b p → gap n b j ≤ gap n b p
      else ¬ gap n b i < gap n b p ∧ gap n b j ≤ gap n b p := by
  have hn : 0 < n := by omega
  have hi' : gap n b i ≤ n := gap_le hn
  have hj' : gap n b j ≤ n := gap_le hn
  have hp' : gap n b p ≤ n := gap_le hn
  have hpos : 0 < gap n b j := gap_pos hn
  rw [gap_seen hb hi hj, gap_seen hb hi hp]
  split <;> split <;> omega

/-- Searching the offsets `1 … n` in order finds the place of least gap. -/
theorem find_least_gap (hi : i < n) (p : Nat → Bool) {s : Nat}
    (h : ((List.range' 1 n).map (rot n i)).find? p = some s) :
    s < n ∧ p s = true ∧ ∀ t < n, p t = true → gap n i s ≤ gap n i t := by
  rw [List.find?_map] at h
  obtain ⟨k, hk, rfl⟩ := Option.map_eq_some_iff.mp h
  obtain ⟨hp, hmem, hbefore⟩ := List.find?_range'_eq_some.mp hk
  rw [List.mem_range'_1] at hmem
  refine ⟨rot_lt (by omega), hp, fun t ht hpt => ?_⟩
  rw [gap_rot hi (by omega) (by omega)]
  by_cases hlt : gap n i t < k
  · have := hbefore (gap n i t) (gap_pos (by omega)) hlt
    simp [rot_gap hi ht, hpt] at this
  · omega

/-- The search fails only when no place satisfies `p`. -/
theorem find_none (hi : i < n) (p : Nat → Bool) (h : ((List.range' 1 n).map (rot n i)).find? p = none) :
    ∀ t < n, p t = false := by
  intro t ht
  have hmem : t ∈ (List.range' 1 n).map (rot n i) := by
    refine List.mem_map.mpr ⟨gap n i t, ?_, rot_gap hi ht⟩
    rw [List.mem_range'_1]
    have := gap_pos (n := n) (i := i) (j := t) (by omega)
    have := gap_le (n := n) (i := i) (j := t) (by omega)
    omega
  simpa using List.find?_eq_none.mp h t hmem

/-- The offsets `0 … n - 1` visit every place. -/
theorem mem_turn (hi : i < n) (hj : j < n) : j ∈ (List.range' 0 n).map (rot n i) := by
  refine List.mem_map.mpr ⟨gap n i j % n, ?_, ?_⟩
  · rw [List.mem_range'_1]
    exact ⟨Nat.zero_le _, by simpa using Nat.mod_lt _ (show 0 < n by omega)⟩
  · have := rot_gap hi hj
    simpa [rot] using this

end Clockwise
