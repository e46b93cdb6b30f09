/-
  OpenFelt.Lib.Layers — cutting a list of amounts into layers.

  Between two consecutive levels every amount that reaches the upper one contributes
  the difference. When the levels are exactly the amounts above the floor, the layers
  add up to what the amounts have above it (`layers_sum`).
-/

import Mathlib.Algebra.GroupWithZero.Nat
import Mathlib.Algebra.Ring.Int.Defs
import Mathlib.Data.List.Sort

namespace Layers

/-- What the layers above `floor` hold: for each level, the step up to it times the
    number of amounts that reach it. -/
def layers (amounts : List Nat) : Nat → List Nat → List Nat
  | _, [] => []
  | floor, level :: levels =>
    (level - floor) * amounts.countP (level ≤ ·) :: layers amounts level levels

theorem step_sum (amounts : List Nat) (floor level : Nat) (h : ∀ x ∈ amounts, x ≤ floor ∨ level ≤ x) (hl : floor ≤ level) :
    (level - floor) * amounts.countP (level ≤ ·) + (amounts.map (· - level)).sum = (amounts.map (· - floor)).sum := by
  induction amounts with
  | nil => simp
  | cons x xs ih =>
    have hx := h x (by simp)
    have hxs := ih fun y hy => h y (by simp [hy])
    simp only [List.countP_cons, List.map_cons, List.sum_cons, Nat.mul_add]
    by_cases hle : level ≤ x
    · simp only [hle, decide_true, if_true, Nat.mul_one]; omega
    · simp only [hle, decide_false, Bool.false_eq_true, if_false, Nat.mul_zero]; omega

/-- With every amount above the floor among the levels, no chip is lost or made. -/
theorem layers_sum (amounts : List Nat) (floor : Nat) (levels : List Nat) (hs : (floor :: levels).Pairwise (· < ·))
    (hx : ∀ x ∈ amounts, floor < x → x ∈ levels) : (layers amounts floor levels).sum = (amounts.map (· - floor)).sum := by
  induction levels generalizing floor with
  | nil =>
    have : ∀ y ∈ amounts.map (· - floor), y = 0 := fun y hy => by
      obtain ⟨x, hxm, rfl⟩ := List.mem_map.mp hy
      by_contra hne
      have : x ∈ ([] : List Nat) := hx x hxm (by omega)
      cases this
    rw [List.sum_eq_zero_iff_forall_eq_nat.mpr this]; rfl
  | cons level levels ih =>
    obtain ⟨hfloor, hrest⟩ := List.pairwise_cons.mp hs
    have habove := (List.pairwise_cons.mp hrest).1
    simp only [layers, List.sum_cons]
    rw [ih level hrest]
    · refine step_sum amounts floor level (fun x hxm => ?_) (Nat.le_of_lt (hfloor level (by simp)))
      by_cases hlt : floor < x
      · rcases List.mem_cons.mp (hx x hxm hlt) with rfl | hm
        · exact Or.inr (Nat.le_refl _)
        · exact Or.inr (Nat.le_of_lt (habove x hm))
      · exact Or.inl (by omega)
    · intro x hxm hlt
      rcases List.mem_cons.mp (hx x hxm (Nat.lt_trans (hfloor level (by simp)) hlt)) with rfl | hm
      · exact absurd hlt (Nat.lt_irrefl _)
      · exact hm

end Layers
