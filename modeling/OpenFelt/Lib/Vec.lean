/-
  OpenFelt.Lib.Vec — vector operations of the source language's standard library that
  Lean's lists lack: `dedup` (adjacent repeats) and `maxBy` (the last of the greatest);
  the scan that keeps the first of the greatest with its value; and the running maximum
  of a fold.
-/

import Mathlib.Data.List.Sort

namespace Vec

/-! ## `dedup` -/

/-- Keep one of each run of equal neighbours. -/
def dedup {α : Type} [DecidableEq α] : List α → List α
  | [] => []
  | [a] => [a]
  | a :: b :: l => if a = b then dedup (b :: l) else a :: dedup (b :: l)

variable {α : Type} [DecidableEq α]

@[simp] theorem mem_dedup {l : List α} {x : α} : x ∈ dedup l ↔ x ∈ l := by
  induction l using dedup.induct with
  | case1 => simp [dedup]
  | case2 a => simp [dedup]
  | case3 a l ih => simp [dedup, ih]
  | case4 a b l hne ih => simp [dedup, hne, ih]

/-- A list in order keeps one of each value, in strict order. -/
theorem dedup_strict {le lt : α → α → Prop} (hstrict : ∀ a b, le a b → a ≠ b → lt a b)
    (htrans : ∀ a b c, lt a b → le b c → lt a c) {l : List α} (h : l.Pairwise le) : (dedup l).Pairwise lt := by
  induction l using dedup.induct with
  | case1 => simp [dedup]
  | case2 a => simp [dedup]
  | case3 a l ih => simpa [dedup] using ih (List.pairwise_cons.mp h).2
  | case4 a b l hne ih =>
    obtain ⟨ha, hl⟩ := List.pairwise_cons.mp h
    simp only [dedup, hne, if_false]
    refine List.pairwise_cons.mpr ⟨fun x hx => ?_, ih hl⟩
    rw [mem_dedup] at hx
    have hab : lt a b := hstrict a b (ha b (by simp)) hne
    rcases List.mem_cons.mp hx with rfl | hx
    · exact hab
    · exact htrans a b x hab ((List.pairwise_cons.mp hl).1 x hx)

theorem dedup_sorted [LinearOrder α] {l : List α} (h : l.Pairwise (· ≤ ·)) : (dedup l).Pairwise (· < ·) :=
  dedup_strict (fun _ _ => lt_of_le_of_ne) (fun _ _ _ => lt_of_lt_of_le) h

/-! ## `max_by` -/

/-- Scan from the left, replacing the best unless it is strictly greater. -/
def maxBy {β : Type} (cmp : β → β → Ordering) : List β → Option β
  | [] => none
  | x :: xs => some (xs.foldl (fun best y => if cmp best y == .gt then best else y) x)

section maxBy
variable {β : Type} {cmp : β → β → Ordering}

theorem maxBy_isSome {l : List β} (h : l ≠ []) : (maxBy cmp l).isSome := by
  cases l with
  | nil => exact absurd rfl h
  | cons x xs => rfl

/-- The result is in the list, and nothing in the list is above it. -/
theorem maxBy_spec [Std.TransCmp cmp] {l : List β} {b : β} (h : maxBy cmp l = some b) :
    b ∈ l ∧ ∀ x ∈ l, (cmp x b).isLE = true := by
  cases l with
  | nil => cases h
  | cons x xs =>
    simp only [maxBy, Option.some.injEq] at h
    subst h
    induction xs generalizing x with
    | nil => simp [Std.ReflCmp.compare_self]
    | cons y ys ih =>
      rw [List.foldl_cons]
      generalize hz : (if cmp x y == .gt then x else y) = z
      have hxz : (cmp x z).isLE = true ∧ (cmp y z).isLE = true ∧ (z = x ∨ z = y) := by
        by_cases hg : cmp x y = .gt
        · rw [if_pos (by simp [hg])] at hz
          subst hz
          refine ⟨by simp [Std.ReflCmp.compare_self], ?_, Or.inl rfl⟩
          have hswap : cmp y x = (cmp x y).swap := Std.OrientedCmp.eq_swap
          rw [hswap, hg]; rfl
        · rw [if_neg (by simp [hg])] at hz
          subst hz
          refine ⟨?_, by simp [Std.ReflCmp.compare_self], Or.inr rfl⟩
          cases hc : cmp x y <;> simp_all
      obtain ⟨hmem, hle⟩ := ih z
      have hz' := hle z (by simp)
      refine ⟨?_, fun w hw => ?_⟩
      · rcases List.mem_cons.mp hmem with e | hm
        · rw [e]; rcases hxz.2.2 with rfl | rfl <;> simp
        · exact List.mem_cons_of_mem _ (List.mem_cons_of_mem _ hm)
      · rcases List.mem_cons.mp hw with rfl | hw
        · exact Std.TransCmp.isLE_trans hxz.1 hz'
        rcases List.mem_cons.mp hw with rfl | hw
        · exact Std.TransCmp.isLE_trans hxz.2.1 hz'
        · exact hle w (by simp [hw])

end maxBy

/-! ## The first of the greatest -/

/-- Scan from the left with a value for each, replacing the best only by a strictly greater one. -/
def firstBest {β γ : Type} (cmp : β → β → Ordering) (f : γ → β) (best : Option (β × γ)) (l : List γ) : Option (β × γ) :=
  l.foldl
    (fun best x =>
      let value := f x
      match best with
      | none => some (value, x)
      | some (current, _) => if cmp value current == .gt then some (value, x) else best)
    best

section firstBest
variable {β γ : Type} {cmp : β → β → Ordering} {f : γ → β}

/-- From a best one on, it only gets better. -/
theorem firstBest_some [Std.TransCmp cmp] (l : List γ) (x : γ) : ∃ y ∈ x :: l,
    firstBest cmp f (some (f x, x)) l = some (f y, y) ∧ ∀ z ∈ x :: l, (cmp (f z) (f y)).isLE = true := by
  induction l generalizing x with
  | nil => exact ⟨x, List.mem_cons_self, rfl, by simp [Std.ReflCmp.compare_self]⟩
  | cons a l ih =>
    by_cases hgt : cmp (f a) (f x) = .gt
    · obtain ⟨y, hy, hbest, hmax⟩ := ih a
      have hstep : firstBest cmp f (some (f x, x)) (a :: l) = firstBest cmp f (some (f a, a)) l := by
        simp [firstBest, hgt]
      refine ⟨y, List.mem_cons_of_mem _ hy, hstep.trans hbest, ?_⟩
      intro z hz
      rcases List.mem_cons.mp hz with rfl | hz
      · have hle : (cmp (f z) (f a)).isLE = true := by
          have hswap : cmp (f z) (f a) = (cmp (f a) (f z)).swap := Std.OrientedCmp.eq_swap
          rw [hswap, hgt]
          rfl
        exact Std.TransCmp.isLE_trans hle (hmax a List.mem_cons_self)
      · exact hmax z hz
    · obtain ⟨y, hy, hbest, hmax⟩ := ih x
      have hstep : firstBest cmp f (some (f x, x)) (a :: l) = firstBest cmp f (some (f x, x)) l := by
        simp [firstBest, hgt]
      have hle : (cmp (f a) (f x)).isLE = true := by
        cases hc : cmp (f a) (f x) <;> simp_all
      refine ⟨y, ?_, hstep.trans hbest, ?_⟩
      · rcases List.mem_cons.mp hy with rfl | hy
        · exact List.mem_cons_self
        · exact List.mem_cons_of_mem _ (List.mem_cons_of_mem _ hy)
      · intro z hz
        rcases List.mem_cons.mp hz with rfl | hz
        · exact hmax z List.mem_cons_self
        rcases List.mem_cons.mp hz with rfl | hz
        · exact Std.TransCmp.isLE_trans hle (hmax x List.mem_cons_self)
        · exact hmax z (List.mem_cons_of_mem _ hz)

theorem firstBest_spec [Std.TransCmp cmp] {l : List γ} (h : l ≠ []) : ∃ y ∈ l,
    firstBest cmp f none l = some (f y, y) ∧ ∀ z ∈ l, (cmp (f z) (f y)).isLE = true := by
  cases l with
  | nil => exact absurd rfl h
  | cons x l => exact firstBest_some l x

end firstBest

/-! ## Running maximum -/

theorem le_foldl_max (l : List Nat) (a : Nat) : a ≤ l.foldl max a ∧ ∀ x ∈ l, x ≤ l.foldl max a := by
  induction l generalizing a with
  | nil => exact ⟨Nat.le_refl a, fun _ h => absurd h List.not_mem_nil⟩
  | cons y l ih =>
    obtain ⟨h1, h2⟩ := ih (max a y)
    refine ⟨Nat.le_trans (Nat.le_max_left a y) h1, fun x hx => ?_⟩
    rcases List.mem_cons.mp hx with rfl | hx
    · exact Nat.le_trans (Nat.le_max_right a x) h1
    · exact h2 x hx

theorem foldl_max_mem (l : List Nat) (a : Nat) : l.foldl max a = a ∨ l.foldl max a ∈ l := by
  induction l generalizing a with
  | nil => exact Or.inl rfl
  | cons y l ih =>
    rw [List.foldl_cons]
    rcases ih (max a y) with h | h
    · rw [h]
      rcases Nat.le_total a y with hay | hya
      · rw [Nat.max_eq_right hay]; exact Or.inr List.mem_cons_self
      · rw [Nat.max_eq_left hya]; exact Or.inl rfl
    · exact Or.inr (List.mem_cons_of_mem _ h)

end Vec
