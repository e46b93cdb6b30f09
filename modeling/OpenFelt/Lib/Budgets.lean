/-
  OpenFelt.Lib.Budgets — so many uses in each window of time.

  A budget is the time its window began and the uses taken since. It is `live` until the
  window is over; a use of a budget that is not begins a window of its own. A budget that is
  over stays over as time goes on (`live_mono`), a use of one that is live keeps its window
  and counts what it grants (`spend_since`, `spend_count`), and no budget goes past the limit
  (`spend_le`).
-/

import Mathlib.Data.List.Basic
import Mathlib.Data.Option.Basic

namespace OpenFelt

structure Budget where
  since : Nat
  count : Nat
  deriving DecidableEq, Repr

namespace Budget

variable {limit window now later : Nat} {b : Option Budget} {budget : Budget}

/-- The window is not over. -/
def fresh (window now : Nat) (budget : Budget) : Bool := now - budget.since < window

def live (window now : Nat) (b : Option Budget) : Option Budget := b.filter (fresh window now)

/-- One use of the budget that is live, or of a new one. -/
def spend (limit now : Nat) (b : Option Budget) : Bool × Budget :=
  let budget := b.getD ⟨now, 0⟩
  if limit ≤ budget.count then (false, budget) else (true, { budget with count := budget.count + 1 })

theorem fresh_mono (h : now ≤ later) (hf : fresh window later budget = true) : fresh window now budget = true := by
  unfold fresh at *
  rw [decide_eq_true_eq] at *
  omega

theorem live_mono (h : now ≤ later) : live window later (live window now b) = live window later b := by
  unfold live
  rw [Option.filter_filter]
  congr 1
  funext budget
  by_cases hf : fresh window later budget = true
  · rw [hf, fresh_mono h hf, Bool.and_self]
  · rw [Bool.eq_false_iff.mpr hf, Bool.and_false]

theorem live_some : live window now b = some budget ↔ b = some budget ∧ now - budget.since < window := by
  unfold live
  rw [Option.filter_eq_some_iff, fresh, decide_eq_true_eq]

/-- What was taken before is not taken from a new budget. -/
theorem spend_none (h : 0 < limit) : spend limit now none = (true, ⟨now, 1⟩) := by
  simp [spend, Nat.not_le.mpr h]

theorem spend_some : spend limit now (some budget) =
    (decide (budget.count < limit), ⟨budget.since, if budget.count < limit then budget.count + 1 else budget.count⟩) := by
  unfold spend
  by_cases h : budget.count < limit
  · simp [h]
  · simp [h, Nat.not_lt.mp h]

/-- A use of a live budget is granted while some of it is left, and keeps its window. -/
theorem spend_since : (spend limit now (some budget)).2.since = budget.since := by rw [spend_some]

theorem spend_count : (spend limit now (some budget)).2.count =
    budget.count + if (spend limit now (some budget)).1 = true then 1 else 0 := by
  rw [spend_some]
  by_cases h : budget.count < limit <;> simp [h]

theorem spend_le (h : ∀ budget, b = some budget → budget.count ≤ limit) : (spend limit now b).2.count ≤ limit := by
  unfold spend
  dsimp only
  split
  · rename_i hle
    cases b with
    | none => exact Nat.zero_le _
    | some budget => exact h budget rfl
  · rename_i hlt
    dsimp only
    omega

end Budget

end OpenFelt
