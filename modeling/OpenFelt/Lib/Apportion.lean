/-
  OpenFelt.Lib.Apportion — an amount split by shares of a whole, to the last unit.

  Each place takes the whole units of its share, and what rounding leaves goes out one
  unit each to the largest fractions, the better place first:
  - `sum_apportion`: shares that make up the whole split all of the amount.
  - `apportion_mono`: shares that do not grow from place to place make awards that do not.
-/

import Mathlib.Algebra.BigOperators.Group.List.Basic
import Mathlib.Algebra.GroupWithZero.Nat
import Mathlib.Algebra.Order.BigOperators.Group.List
import Mathlib.Algebra.Ring.Int.Defs
import Mathlib.Data.List.Nodup
import Mathlib.Data.List.Sort

namespace OpenFelt.Apportion

/-- A place, its whole units and the fraction it falls short by. -/
abbrev Quota := Nat × Nat × Nat

/-- The larger fraction first, of equal ones the better place. -/
def Before (a b : Quota) : Prop := b.2.2 < a.2.2 ∨ a.2.2 = b.2.2 ∧ a.1 ≤ b.1

instance : DecidableRel Before := fun a b => inferInstanceAs (Decidable (b.2.2 < a.2.2 ∨ a.2.2 = b.2.2 ∧ a.1 ≤ b.1))

instance : IsTrans Quota Before := ⟨fun a b c hab hbc => by unfold Before at *; omega⟩

instance : Std.Total Before := ⟨fun a b => by unfold Before; omega⟩

/-- What place `i + 1` has of `amount`, with its share in units of `1 / d`. -/
def quota (amount d : Nat) (share : Nat × Nat) : Quota := (share.2 + 1, amount * share.1 / d, amount * share.1 % d)

def quotas (amount d : Nat) (shares : List Nat) : List Quota := shares.zipIdx.map (quota amount d)

/-- A unit more for the first `left`. -/
def topUp (left : Nat) (q : Quota × Nat) : Quota := (q.1.1, q.1.2.1 + (if q.2 < left then 1 else 0), q.1.2.2)

/-- What rounding leaves of the amount. -/
def leftOver (amount d : Nat) (shares : List Nat) : Nat := amount - ((quotas amount d shares).map fun q => q.2.1).sum

def apportion (amount d : Nat) (shares : List Nat) : List Quota :=
  ((quotas amount d shares).insertionSort Before).zipIdx.map (topUp (leftOver amount d shares))

section sums
variable {amount d : Nat} {shares : List Nat}

theorem sum_div_mod (amount d : Nat) (shares : List (Nat × Nat)) :
    d * ((shares.map (quota amount d)).map fun q => q.2.1).sum + ((shares.map (quota amount d)).map fun q => q.2.2).sum =
      amount * (shares.map (·.1)).sum := by
  induction shares with
  | nil => simp
  | cons s rest ih =>
    have hs : d * (amount * s.1 / d) + amount * s.1 % d = amount * s.1 := Nat.div_add_mod _ _
    simp only [List.map_cons, List.sum_cons, quota, Nat.mul_add] at ih ⊢
    omega

theorem fractions_le (amount d : Nat) (hd : 0 < d) (shares : List (Nat × Nat)) :
    ((shares.map (quota amount d)).map fun q => q.2.2).sum ≤ shares.length * (d - 1) := by
  induction shares with
  | nil => simp
  | cons s rest ih =>
    have hs : amount * s.1 % d < d := Nat.mod_lt _ hd
    simp only [List.map_cons, List.sum_cons, List.length_cons, Nat.add_mul, quota] at ih ⊢
    omega

/-- What rounding leaves is less than a unit a place. -/
theorem leftOver_spec (hd : 0 < d) (hwhole : shares.sum = d) :
    ((quotas amount d shares).map fun q => q.2.1).sum + leftOver amount d shares = amount ∧
      leftOver amount d shares ≤ shares.length := by
  have hsum := sum_div_mod amount d shares.zipIdx
  have hfractions := fractions_le amount d hd shares.zipIdx
  rw [List.zipIdx_map_fst, hwhole] at hsum
  rw [List.length_zipIdx] at hfractions
  unfold leftOver quotas
  generalize ((shares.zipIdx.map (quota amount d)).map fun q => q.2.1).sum = wholes at *
  generalize ((shares.zipIdx.map (quota amount d)).map fun q => q.2.2).sum = fractions at *
  have hle : wholes ≤ amount := by
    refine Nat.le_of_mul_le_mul_left ?_ hd
    rw [Nat.mul_comm d amount]
    omega
  refine ⟨by omega, Nat.le_of_mul_le_mul_left ?_ hd⟩
  have hshort : d * (amount - wholes) = fractions := by
    rw [Nat.mul_sub, Nat.mul_comm d amount]
    omega
  have hpred : shares.length * (d - 1) ≤ shares.length * d := Nat.mul_le_mul_left _ (Nat.sub_le _ _)
  rw [hshort, Nat.mul_comm d]
  omega

theorem sum_topUp (left : Nat) (ranked : List Quota) (start : Nat) :
    (((ranked.zipIdx start).map (topUp left)).map fun q => q.2.1).sum =
      (ranked.map fun q => q.2.1).sum + min (left - start) ranked.length := by
  induction ranked generalizing start with
  | nil => simp
  | cons q rest ih =>
    simp only [List.zipIdx_cons, List.map_cons, List.sum_cons, ih, topUp, List.length_cons]
    split <;> omega

theorem ranked_perm (amount d : Nat) (shares : List Nat) :
    ((quotas amount d shares).insertionSort Before).Perm (quotas amount d shares) := List.perm_insertionSort _ _

theorem sum_apportion (hd : 0 < d) (hwhole : shares.sum = d) : ((apportion amount d shares).map fun q => q.2.1).sum = amount := by
  obtain ⟨hsum, hleft⟩ := @leftOver_spec amount _ _ hd hwhole
  have hlength : ((quotas amount d shares).insertionSort Before).length = shares.length := by
    rw [List.length_insertionSort, quotas, List.length_map, List.length_zipIdx]
  rw [apportion, sum_topUp, ((ranked_perm amount d shares).map _).sum_eq, hlength, Nat.sub_zero, Nat.min_eq_left hleft, hsum]

/-- The awards stand in the order of the ranking. -/
theorem apportion_ranked (amount d : Nat) (shares : List Nat) :
    (apportion amount d shares).map (·.1) = ((quotas amount d shares).insertionSort Before).map (·.1) := by
  rw [apportion, List.map_map]
  conv_rhs => rw [← List.zipIdx_map_fst 0 ((quotas amount d shares).insertionSort Before), List.map_map]
  rfl

/-- Each place has its award. -/
theorem places_apportion (amount d : Nat) (shares : List Nat) :
    ((apportion amount d shares).map (·.1)).Perm (List.range' 1 shares.length) := by
  have hplaces : (quotas amount d shares).map (·.1) = List.range' 1 shares.length := by
    have hcount : shares.zipIdx.map (fun s => s.2 + 1) = (shares.zipIdx.map (·.2)).map (1 + ·) := by
      rw [List.map_map]
      exact List.map_congr_left fun s _ => Nat.add_comm _ _
    rw [quotas, List.map_map]
    show shares.zipIdx.map (fun s => s.2 + 1) = _
    rw [hcount, List.zipIdx_map_snd, List.map_add_range']
  rw [apportion_ranked, ← hplaces]
  exact (ranked_perm amount d shares).map _

end sums

/-! ## Order -/

section order
variable {amount d : Nat} {shares : List Nat} {x y : Quota}

/-- An award is a ranked quota, topped up by its rank. -/
theorem mem_apportion (hx : x ∈ apportion amount d shares) : ∃ (i : Nat) (q : Quota),
    ((quotas amount d shares).insertionSort Before)[i]? = some q ∧ x = topUp (leftOver amount d shares) (q, i) := by
  obtain ⟨⟨q, i⟩, hmem, rfl⟩ := List.mem_map.mp hx
  exact ⟨i, q, List.mem_zipIdx_iff_getElem?.mp hmem, rfl⟩

theorem mem_quotas {q : Quota} (hq : q ∈ quotas amount d shares) : ∃ i share, shares[i]? = some share ∧
    q = (i + 1, amount * share / d, amount * share % d) := by
  obtain ⟨⟨share, i⟩, hmem, rfl⟩ := List.mem_map.mp hq
  exact ⟨i, share, List.mem_zipIdx_iff_getElem?.mp hmem, rfl⟩

theorem nodup_ranked_places (amount d : Nat) (shares : List Nat) :
    (((quotas amount d shares).insertionSort Before).map (·.1)).Nodup := by
  rw [← apportion_ranked, (places_apportion amount d shares).nodup_iff]
  exact List.nodup_range'

/-- With shares that do not grow, no place takes less than a worse one. -/
theorem apportion_mono (hshares : shares.Pairwise (· ≥ ·)) (hx : x ∈ apportion amount d shares)
    (hy : y ∈ apportion amount d shares) (hplace : x.1 ≤ y.1) : y.2.1 ≤ x.2.1 := by
  obtain ⟨i, q, hi, rfl⟩ := mem_apportion hx
  obtain ⟨j, r, hj, rfl⟩ := mem_apportion hy
  have hplace : q.1 ≤ r.1 := hplace
  obtain ⟨a, s, hs, rfl⟩ := mem_quotas ((List.mem_insertionSort Before).mp (List.mem_of_getElem? hi))
  obtain ⟨b, t, ht, rfl⟩ := mem_quotas ((List.mem_insertionSort Before).mp (List.mem_of_getElem? hj))
  have hab : a ≤ b := by
    dsimp only at hplace
    omega
  have hst : t ≤ s := by
    rcases Nat.lt_or_eq_of_le hab with hlt | rfl
    · obtain ⟨ha, rfl⟩ := List.getElem?_eq_some_iff.mp hs
      obtain ⟨hb, rfl⟩ := List.getElem?_eq_some_iff.mp ht
      exact List.pairwise_iff_getElem.mp hshares a b ha hb hlt
    · rw [hs] at ht
      cases ht
      exact le_rfl
  have hwhole : amount * t / d ≤ amount * s / d := Nat.div_le_div_right (Nat.mul_le_mul_left _ hst)
  simp only [topUp]
  rcases Nat.lt_or_eq_of_le hwhole with hlt | heq
  · split <;> split <;> omega
  -- equal whole units: the better place has the fraction that is ranked first
  have hfraction : amount * t % d ≤ amount * s % d := by
    have ht := Nat.div_add_mod (amount * t) d
    have hs := Nat.div_add_mod (amount * s) d
    have hle : amount * t ≤ amount * s := Nat.mul_le_mul_left _ hst
    rw [heq] at ht
    omega
  have hrank : i ≤ j := by
    by_contra hlt
    have hpair := List.pairwise_insertionSort Before (quotas amount d shares)
    obtain ⟨hi', hqi⟩ := List.getElem?_eq_some_iff.mp hi
    obtain ⟨hj', hrj⟩ := List.getElem?_eq_some_iff.mp hj
    have hbefore := List.pairwise_iff_getElem.mp hpair j i hj' hi' (Nat.lt_of_not_le hlt)
    rw [hqi, hrj] at hbefore
    have hsame : a = b := by
      unfold Before at hbefore
      dsimp only at hbefore
      omega
    have hij := (@List.Nodup.getElem_inj_iff _ _ (nodup_ranked_places amount d shares) i (by simpa using hi') j
      (by simpa using hj')).mp (by simp [hqi, hrj, hsame])
    omega
  rw [heq]
  split <;> split <;> omega

end order

end OpenFelt.Apportion
