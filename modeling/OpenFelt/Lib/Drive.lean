/-
  OpenFelt.Lib.Drive — a machine driven step by step until it rests.

  A step says whether it moved and gives the next state. `Rests step n s t`: from `s`
  exactly `n` steps move, and then the machine stands in `t`. A step that moves while
  a measure falls comes to rest within the measure (`rests_of_measure`), every longer
  drive stays where the machine rests (`Rests.stays`), and a map that commutes with the
  step commutes with the drive (`Rests.map`). Where each input of a run is paid for by a
  potential, the potential pays for the run (`cost_le`).
-/

import Mathlib.Logic.Function.Iterate
import Mathlib.Order.Basic

namespace OpenFelt.Drive

variable {α : Type*} {step : α → Bool × α} {n : Nat} {s t : α}

/-- The state after `n` steps, moved or not. -/
def after (step : α → Bool × α) (n : Nat) (s : α) : α := (fun s => (step s).2)^[n] s

structure Rests (step : α → Bool × α) (n : Nat) (s t : α) : Prop where
  moves : ∀ k < n, (step (after step k s)).1 = true
  arrives : after step n s = t
  still : step t = (false, t)

theorem after_succ (step : α → Bool × α) (n : Nat) (s : α) : after step (n + 1) s = after step n (step s).2 := rfl

theorem Rests.zero (h : step s = (false, s)) : Rests step 0 s s := ⟨fun _ hk => absurd hk (Nat.not_lt_zero _), rfl, h⟩

theorem Rests.succ (hm : (step s).1 = true) (h : Rests step n (step s).2 t) : Rests step (n + 1) s t := by
  refine ⟨fun k hk => ?_, h.arrives, h.still⟩
  cases k with
  | zero => exact hm
  | succ k => exact h.moves k (Nat.lt_of_succ_lt_succ hk)

/-- A machine that keeps `P` and lowers `μ` whenever it moves comes to rest. -/
theorem rests_of_measure {P : α → Prop} {μ : α → Nat}
    (hstep : ∀ s, P s → step s = (false, s) ∨ ((step s).1 = true ∧ P (step s).2 ∧ μ (step s).2 < μ s)) (hs : P s) :
    ∃ n ≤ μ s, ∃ t, P t ∧ Rests step n s t := by
  induction hm : μ s using Nat.strongRecOn generalizing s with
  | ind m ih =>
    rcases hstep s hs with hstill | ⟨hmoved, hnext, hlt⟩
    · exact ⟨0, Nat.zero_le _, s, hs, .zero hstill⟩
    · obtain ⟨n, hn, t, ht, hrests⟩ := ih _ (hm ▸ hlt) hnext rfl
      exact ⟨n + 1, by omega, t, ht, .succ hmoved hrests⟩

theorem Rests.stays (h : Rests step n s t) {k : Nat} (hk : n ≤ k) : after step k s = t := by
  obtain ⟨d, rfl⟩ := Nat.exists_eq_add_of_le hk
  have hrest : ∀ d, after step d t = t := fun d => by
    induction d with
    | zero => rfl
    | succ d ih => rw [after_succ, h.still, ih]
  rw [after, Nat.add_comm, Function.iterate_add_apply]
  exact (congrArg _ h.arrives).trans (hrest d)

theorem Rests.map {f : α → α} (hf : ∀ s, step (f s) = ((step s).1, f (step s).2)) (h : Rests step n s t) :
    Rests step n (f s) (f t) := by
  have hafter : ∀ k s, after step k (f s) = f (after step k s) := fun k => by
    induction k with
    | zero => exact fun s => rfl
    | succ k ih => intro s; rw [after_succ, hf, ih, ← after_succ]
  refine ⟨fun k hk => ?_, by rw [hafter, h.arrives], by rw [hf, h.still]⟩
  rw [hafter, hf]; exact h.moves k hk

/-- The loop `while step` with enough fuel ends where the machine rests. -/
theorem Rests.loop (drain : Nat → α → α) (hzero : ∀ s, drain 0 s = s)
    (hsucc : ∀ fuel s, drain (fuel + 1) s = bif (step s).1 then drain fuel (step s).2 else (step s).2)
    (h : Rests step n s t) {fuel : Nat} (hf : n ≤ fuel) : drain fuel s = t := by
  induction fuel generalizing n s with
  | zero =>
    obtain rfl : n = 0 := Nat.le_zero.mp hf
    exact (hzero s).trans h.arrives
  | succ fuel ih =>
    rw [hsucc]
    cases n with
    | zero =>
      have hst : s = t := h.arrives
      rw [hst, h.still, cond_false]
    | succ n =>
      have hm : (step s).1 = true := h.moves 0 (Nat.succ_pos _)
      rw [hm, cond_true]
      exact ih ⟨fun k hk => h.moves (k + 1) (Nat.succ_lt_succ hk), h.arrives, h.still⟩ (Nat.le_of_succ_le_succ hf)

/-! ## Runs that a potential pays for -/

section cost
variable {ι : Type*} {next : ι → α → α} {price : ι → α → Nat}

/-- What the inputs of a run cost, each where it is taken. -/
def cost (next : ι → α → α) (price : ι → α → Nat) : List ι → α → Nat
  | [], _ => 0
  | i :: inputs, s => price i s + cost next price inputs (next i s)

theorem cost_le {P : α → Prop} {μ : α → Nat} (hstep : ∀ i s, P s → P (next i s) ∧ price i s + μ (next i s) ≤ μ s)
    (hs : P s) (inputs : List ι) : cost next price inputs s + μ (inputs.foldl (fun s i => next i s) s) ≤ μ s := by
  induction inputs generalizing s with
  | nil => simp [cost]
  | cons i inputs ih =>
    obtain ⟨hnext, hpaid⟩ := hstep i s hs
    have hrest := ih hnext
    simp only [cost, List.foldl_cons]
    omega

end cost

end OpenFelt.Drive
