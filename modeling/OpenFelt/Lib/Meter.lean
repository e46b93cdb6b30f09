/-
  OpenFelt.Lib.Meter — a state that an amount is spent on, from mark to mark.

  A state has `room` up to its next mark. Less than that is spent within it (`part`); all
  of it crosses the mark (`cross`), and what is left is spent on from there. `Spends e s t`:
  spending `e` on `s` ends in `t`.

  Where parts add up and a mark does not remember how it was reached (`Additive`), spending
  is additive too (`Spends.add`). Where a measure falls at every mark that costs nothing, and
  rises at none, spending ends, and a loop with that much fuel finds the end (`run_spends`).
-/

import Mathlib.Tactic.TypeStar

namespace OpenFelt

structure Meter (α : Type*) where
  room : α → Nat
  part : Nat → α → α
  cross : α → α

namespace Meter

variable {α : Type*} {m : Meter α} {s t u : α} {a b e : Nat} {P : α → Prop} {μ : α → Nat}

inductive Spends (m : Meter α) : Nat → α → α → Prop
  | done (s : α) : Spends m 0 s s
  | within {e : Nat} {s : α} : 0 < e → e < m.room s → Spends m e s (m.part e s)
  | crossing {e : Nat} {s t : α} : 0 < e → m.room s ≤ e → Spends m (e - m.room s) (m.cross s) t → Spends m e s t

/-- Parts add up, and a mark does not remember how it was reached. -/
structure Additive (m : Meter α) : Prop where
  room : ∀ k s, k < m.room s → m.room (m.part k s) = m.room s - k
  part : ∀ j k s, j + k < m.room s → m.part k (m.part j s) = m.part (j + k) s
  cross : ∀ k s, k < m.room s → m.cross (m.part k s) = m.cross s

theorem Spends.zero (h : Spends m 0 s t) : t = s := by
  cases h with
  | done => rfl
  | within hpos => omega
  | crossing hpos => omega

theorem Spends.unique (h : Spends m e s t) (h' : Spends m e s u) : t = u := by
  induction h with
  | done => exact h'.zero.symm
  | within hpos hlt =>
    cases h' with
    | done => omega
    | within => rfl
    | crossing _ hle => omega
  | crossing hpos hle _ ih =>
    cases h' with
    | done => omega
    | within _ hlt => omega
    | crossing _ _ hrest => exact ih hrest

/-- Spending `a` and then `b` is spending them at once. -/
theorem Spends.add (hm : m.Additive) (h : Spends m a s t) (h' : Spends m b t u) : Spends m (a + b) s u := by
  induction h with
  | done => rwa [Nat.zero_add]
  | @within a s hpos hlt =>
    have hroom := hm.room a s hlt
    cases h' with
    | done => exact .within hpos hlt
    | within hpos' hlt' =>
      rw [hm.part a b s (by omega)]
      exact .within (by omega) (by omega)
    | crossing hpos' hle hrest =>
      rw [hm.cross a s hlt, hroom, show b - (m.room s - a) = a + b - m.room s by omega] at hrest
      exact .crossing (by omega) (by omega) hrest
  | @crossing a s _ hpos hle _ ih =>
    have hrest := ih h'
    rw [show a - m.room s + b = a + b - m.room s by omega] at hrest
    exact .crossing (by omega) (by omega) hrest

/-- A mark that costs nothing lowers the measure, and none raises it. -/
structure Progress (m : Meter α) (P : α → Prop) (μ : α → Nat) : Prop where
  keeps : ∀ s, P s → P (m.cross s)
  lowers : ∀ s, P s → m.room s = 0 → μ (m.cross s) < μ s
  raises : ∀ s, P s → μ (m.cross s) ≤ μ s

/-- The loop that spends, with so many turns. -/
def run (m : Meter α) : Nat → Nat → α → α
  | 0, _, s => s
  | fuel + 1, e, s =>
    if e = 0 then s else if e < m.room s then m.part e s else run m fuel (e - m.room s) (m.cross s)

theorem run_spends (hm : m.Progress P μ) (hs : P s) {fuel : Nat} (hfuel : e + μ s ≤ fuel) : Spends m e s (m.run fuel e s) := by
  induction fuel generalizing e s with
  | zero =>
    obtain rfl : e = 0 := by omega
    exact .done s
  | succ fuel ih =>
    unfold run
    by_cases hzero : e = 0
    · rw [if_pos hzero, hzero]
      exact .done s
    rw [if_neg hzero]
    by_cases hlt : e < m.room s
    · rw [if_pos hlt]
      exact .within (by omega) hlt
    · rw [if_neg hlt]
      have hraise := hm.raises s hs
      refine .crossing (by omega) (by omega) (ih (hm.keeps s hs) ?_)
      by_cases hroom : m.room s = 0
      · have := hm.lowers s hs hroom
        omega
      · omega

/-- What every part and every mark keeps. -/
theorem Spends.invariant {Q : α → Prop} (hpart : ∀ k s, Q s → k < m.room s → Q (m.part k s)) (hcross : ∀ s, Q s → Q (m.cross s))
    (h : Spends m e s t) (hs : Q s) : Q t := by
  induction h with
  | done => exact hs
  | within _ hlt => exact hpart _ _ hs hlt
  | crossing _ _ _ ih => exact ih (hcross _ hs)

end Meter

end OpenFelt
