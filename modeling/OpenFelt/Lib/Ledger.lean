/-
  OpenFelt.Lib.Ledger — amounts owed to the members of a list.

  `credited entries p` is what the entries come to for `p`. Over any list of members
  without repeats that names every payee, the members get exactly what was entered
  (`sum_credited`). `share n w i` is the `i`-th of `w` shares of `n`, the first ones a unit
  larger when `w` does not divide `n`; the shares add up to `n` (`sum_shares`), and over
  several amounts the first share leads the last by as many as do not split evenly
  (`shares_spread`).
-/

import Mathlib.Algebra.BigOperators.Group.List.Basic
import Mathlib.Algebra.GroupWithZero.Nat
import Mathlib.Algebra.Ring.Int.Defs
import Mathlib.Data.List.Nodup

namespace Ledger

variable {P : Type} [DecidableEq P]

def credited (entries : List (P × Nat)) (p : P) : Nat := ((entries.filter (·.1 = p)).map (·.2)).sum

@[simp] theorem credited_nil (p : P) : credited [] p = 0 := rfl

@[simp] theorem credited_cons (e : P × Nat) (entries : List (P × Nat)) (p : P) :
    credited (e :: entries) p = (if e.1 = p then e.2 else 0) + credited entries p := by
  by_cases h : e.1 = p <;> simp [credited, h]

@[simp] theorem credited_append (a b : List (P × Nat)) (p : P) : credited (a ++ b) p = credited a p + credited b p := by
  simp [credited]

theorem le_credited {entries : List (P × Nat)} {e : P × Nat} (h : e ∈ entries) : e.2 ≤ credited entries e.1 := by
  induction entries with
  | nil => cases h
  | cons x xs ih =>
    rw [credited_cons]
    rcases List.mem_cons.mp h with rfl | h
    · rw [if_pos rfl]; omega
    · have := ih h; omega

/-- Without repeats, what is credited is the one entry. -/
theorem credited_eq_lookup {entries : List (P × Nat)} (hn : (entries.map (·.1)).Nodup) (p : P) :
    credited entries p = (entries.lookup p).getD 0 := by
  induction entries with
  | nil => rfl
  | cons e es ih =>
    obtain ⟨he, hn⟩ := List.nodup_cons.mp hn
    rw [credited_cons, ih hn, List.lookup_cons]
    by_cases h : e.1 = p
    · have hnone : es.lookup p = none := List.lookup_eq_none_iff.mpr fun x hx => by
        have hne : x.1 ≠ p := fun hxp => he (List.mem_map.mpr ⟨x, hx, hxp.trans h.symm⟩)
        simpa using Ne.symm hne
      simp [h, hnone]
    · have hne : (p == e.1) = false := by simpa using Ne.symm h
      simp [h, hne]

omit [DecidableEq P] in
/-- The members' amounts move by what one member's moves. -/
theorem sum_update {members : List P} (hn : members.Nodup) {p : P} (hp : p ∈ members) {f g : P → Nat}
    (h : ∀ q ∈ members, q ≠ p → g q = f q) : (members.map g).sum + f p = (members.map f).sum + g p := by
  induction members with
  | nil => cases hp
  | cons m ms ih =>
    obtain ⟨hm, hms⟩ := List.nodup_cons.mp hn
    simp only [List.map_cons, List.sum_cons]
    rcases List.mem_cons.mp hp with rfl | hp
    · have hrest : ms.map g = ms.map f :=
        List.map_congr_left fun q hq => h q (List.mem_cons_of_mem _ hq) fun e => hm (e ▸ hq)
      rw [hrest]; omega
    · have := ih hms hp fun q hq => h q (List.mem_cons_of_mem _ hq)
      have := h m List.mem_cons_self fun e => hm (e ▸ hp)
      omega

/-- Without repeats, a member is credited its entry. -/
theorem credited_of_mem {entries : List (P × Nat)} (hn : (entries.map (·.1)).Nodup) {e : P × Nat} (he : e ∈ entries) :
    credited entries e.1 = e.2 := by
  induction entries with
  | nil => cases he
  | cons x xs ih =>
    obtain ⟨hx, hn⟩ := List.nodup_cons.mp hn
    rw [credited_cons]
    rcases List.mem_cons.mp he with rfl | hmem
    · have hnone : credited xs e.1 = 0 := by
        rw [credited, List.filter_eq_nil_iff.mpr fun y hy h => hx (List.mem_map.mpr ⟨y, hy, by simpa using h⟩)]
        rfl
      rw [if_pos rfl, hnone, Nat.add_zero]
    · rw [if_neg fun h => hx (List.mem_map.mpr ⟨e, hmem, h.symm⟩), ih hn hmem, Nat.zero_add]

theorem sum_credited {members : List P} (hn : members.Nodup) {entries : List (P × Nat)}
    (h : ∀ e ∈ entries, e.1 ∈ members) : (members.map (credited entries)).sum = (entries.map (·.2)).sum := by
  induction entries with
  | nil =>
    refine List.sum_eq_zero_iff_forall_eq_nat.mpr fun x hx => ?_
    obtain ⟨p, _, rfl⟩ := List.mem_map.mp hx
    rfl
  | cons e es ih =>
    have hes := ih fun x hx => h x (List.mem_cons_of_mem _ hx)
    have hup := sum_update hn (h e List.mem_cons_self) (f := credited es) (g := credited (e :: es))
      fun q _ hq => by simp [Ne.symm hq]
    simp only [credited_cons, if_true, List.map_cons, List.sum_cons] at hup ⊢
    omega

/-! ## Equal shares -/

def share (n w i : Nat) : Nat := n / w + if i < n % w then 1 else 0

/-- Two shares of one amount differ by a unit, and only if it does not split evenly. -/
theorem share_near (n w i j : Nat) : share n w i ≤ share n w j + if n % w = 0 then 0 else 1 := by
  unfold share
  split
  · rename_i hi
    rw [if_neg (show ¬ n % w = 0 by omega)]
    omega
  · omega

/-- The first share and the last are that far apart. -/
theorem share_spread {n w : Nat} (hw : 0 < w) : share n w 0 = share n w (w - 1) + if n % w = 0 then 0 else 1 := by
  have hmod := Nat.mod_lt n hw
  unfold share
  rw [if_neg (show ¬ w - 1 < n % w by omega)]
  by_cases h : n % w = 0
  · rw [if_pos h, if_neg (by omega)]
  · rw [if_neg h, if_pos (by omega), Nat.add_zero]

theorem sum_ones (r w : Nat) : ((List.range w).map fun i => if i < r then 1 else 0).sum = min r w := by
  induction w with
  | zero => simp
  | succ w ih =>
    rw [List.range_succ, List.map_append, List.sum_append, ih]
    by_cases h : w < r <;> simp [h] <;> omega

theorem sum_shares {n w : Nat} (hw : 0 < w) : ((List.range w).map (share n w)).sum = n := by
  have hmod := Nat.mod_lt n hw
  have hbase : ((List.range w).map fun _ => n / w).sum = w * (n / w) := by simp
  have hsplit : ((List.range w).map (share n w)).sum =
      ((List.range w).map fun _ => n / w).sum + ((List.range w).map fun i => if i < n % w then 1 else 0).sum :=
    List.sum_map_add
  rw [hsplit, hbase, sum_ones, Nat.min_eq_left (Nat.le_of_lt hmod)]
  exact Nat.div_add_mod n w

/-- The amounts that do not split evenly into `w` shares. -/
def uneven (w : Nat) (amounts : List Nat) : Nat := (amounts.map fun n => if n % w = 0 then 0 else 1).sum

/-- Over several amounts, each uneven one may put one member a unit ahead of another. -/
theorem shares_near (w i j : Nat) (amounts : List Nat) :
    (amounts.map fun n => share n w i).sum ≤ (amounts.map fun n => share n w j).sum + uneven w amounts := by
  induction amounts with
  | nil => simp
  | cons n amounts ih =>
    have hone := share_near n w i j
    simp only [uneven, List.map_cons, List.sum_cons] at ih ⊢
    omega

theorem shares_spread {w : Nat} (hw : 0 < w) (amounts : List Nat) :
    (amounts.map fun n => share n w 0).sum = (amounts.map fun n => share n w (w - 1)).sum + uneven w amounts := by
  induction amounts with
  | nil => simp [uneven]
  | cons n amounts ih =>
    have hone := @share_spread n w hw
    simp only [uneven, List.map_cons, List.sum_cons] at ih ⊢
    omega

end Ledger
