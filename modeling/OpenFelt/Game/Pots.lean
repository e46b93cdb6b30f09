/-
  OpenFelt.Game.Pots — the layers `build_pots` cuts.

  Proved, for any contributions:
  - pots and returns together hold what was contributed (`buildPots_sum`);
  - a pot's eligible seats are the eligible contributors that reach its level
    (`mem_pots`), a return goes to a contributor (`mem_returned`);
  - the only return is the lead of a contributor alone on top (`mem_returned_lead`,
    `returned_of_top`);
  - no layer leaves `u32` while the contributions fit (`layersInRange_of_fits`).
-/

import Mathlib.Algebra.Order.BigOperators.Group.List
import Mathlib.Algebra.Order.Group.Nat
import OpenFelt.Game.Multiway
import OpenFelt.Lib.Layers

namespace OpenFelt

variable (contributions : List Contribution)

def amounts : List Nat := contributions.map (·.amount)

/-- The contributors that reach a level. -/
def reaching (level : Nat) : List Contribution := contributions.filter fun entry => level ≤ entry.amount

variable {contributions} {previous level : Nat} {levels : List Nat}

theorem reaching_length : (reaching contributions level).length = (amounts contributions).countP (level ≤ ·) := by
  rw [reaching, ← List.countP_eq_length_filter, amounts, List.countP_map]
  rfl

/-! ## Levels -/

theorem mem_potLevels : level ∈ potLevels contributions ↔ 0 < level ∧ level ∈ amounts contributions := by
  simp only [potLevels, Vec.mem_dedup, List.mem_insertionSort, List.mem_map, List.mem_filter, decide_eq_true_eq, amounts]
  constructor
  · rintro ⟨entry, ⟨hm, hpos⟩, rfl⟩; exact ⟨hpos, entry, hm, rfl⟩
  · rintro ⟨hpos, entry, hm, rfl⟩; exact ⟨entry, ⟨hm, hpos⟩, rfl⟩

theorem potLevels_sorted : (0 :: potLevels contributions).Pairwise (· < ·) :=
  List.pairwise_cons.mpr ⟨fun _ hl => (mem_potLevels.mp hl).1, Vec.dedup_sorted (List.pairwise_insertionSort (· ≤ ·) _)⟩

/-! ## Layers -/

/-- One layer up: returned to a sole contributor, a pot of several, nothing of nobody. -/
theorem buildLayers_cons (contributions : List Contribution) (previous level : Nat) (levels : List Nat) :
    ∃ pots returned, buildLayers contributions previous (level :: levels) =
      ⟨pots ++ (buildLayers contributions level levels).pots, returned ++ (buildLayers contributions level levels).returned⟩ ∧
    ((pots = [] ∧ ∃ only, reaching contributions level = [only] ∧ returned = [⟨only.seat, (level - previous) * 1⟩]) ∨
      (returned = [] ∧ (reaching contributions level).length ≠ 1 ∧
        0 < (level - previous) * (reaching contributions level).length ∧
        pots = [⟨(level - previous) * (reaching contributions level).length,
          ((reaching contributions level).filter (·.eligible)).map (·.seat)⟩]) ∨
      (returned = [] ∧ pots = [] ∧ (level - previous) * (reaching contributions level).length = 0)) := by
  rw [buildLayers]
  rw [show (contributions.filter fun entry => level ≤ entry.amount) = reaching contributions level from rfl]
  rcases hr : reaching contributions level with _ | ⟨only, _ | ⟨next, rest⟩⟩
  · exact ⟨[], [], by simp, Or.inr (Or.inr (by simp))⟩
  · exact ⟨[], _, rfl, Or.inl ⟨rfl, only, rfl, rfl⟩⟩
  · by_cases hpos : 0 < (level - previous) * (only :: next :: rest).length
    · exact ⟨[_], [], by simp only [if_pos hpos]; rfl, Or.inr (Or.inl ⟨rfl, by simp, hpos, rfl⟩)⟩
    · exact ⟨[], [], by simp only [if_neg hpos]; rfl, Or.inr (Or.inr ⟨rfl, rfl, by omega⟩)⟩

def PotBuild.total (build : PotBuild) : Nat := (build.pots.map (·.amount)).sum + (build.returned.map (·.amount)).sum

theorem buildLayers_total : (buildLayers contributions previous levels).total =
    (Layers.layers (amounts contributions) previous levels).sum := by
  induction levels generalizing previous with
  | nil => rfl
  | cons level levels ih =>
    obtain ⟨pots, returned, hb, hcase⟩ := buildLayers_cons contributions previous level levels
    have hrest := @ih level
    simp only [PotBuild.total] at hrest
    simp only [hb, PotBuild.total, List.map_append, List.sum_append, Layers.layers, List.sum_cons, ← reaching_length, ← hrest]
    rcases hcase with ⟨rfl, only, hr, rfl⟩ | ⟨rfl, _, _, rfl⟩ | ⟨rfl, rfl, hz⟩
    · simp [hr]; omega
    · simp; omega
    · simp [hz]

/-- No chip is lost or made. -/
theorem buildPots_sum (contributions : List Contribution) : (buildPots contributions).total = (amounts contributions).sum := by
  rw [buildPots, buildLayers_total, Layers.layers_sum _ _ _ potLevels_sorted fun x hx hpos => mem_potLevels.mpr ⟨hpos, hx⟩]
  simp

/-- Each pot is a level's, for the eligible seats that reach it. -/
theorem mem_layers_pots {pot : Pot} (h : pot ∈ (buildLayers contributions previous levels).pots) :
    0 < pot.amount ∧ ∃ level ∈ levels, pot.eligible = ((reaching contributions level).filter (·.eligible)).map (·.seat) := by
  induction levels generalizing previous with
  | nil => cases h
  | cons level levels ih =>
    obtain ⟨pots, returned, hb, hcase⟩ := buildLayers_cons contributions previous level levels
    rw [hb] at h
    rcases List.mem_append.mp h with hm | hm
    · rcases hcase with ⟨rfl, _⟩ | ⟨_, _, hpos, rfl⟩ | ⟨_, rfl, _⟩
      · cases hm
      · obtain rfl := List.mem_singleton.mp hm
        exact ⟨hpos, level, by simp, rfl⟩
      · cases hm
    · obtain ⟨hpos, l, hl, he⟩ := ih hm
      exact ⟨hpos, l, List.mem_cons_of_mem _ hl, he⟩

theorem mem_pots {pot : Pot} (h : pot ∈ (buildPots contributions).pots) : 0 < pot.amount ∧
    ∃ level, 0 < level ∧ level ∈ amounts contributions ∧
      ∀ seat, seat ∈ pot.eligible ↔
        ∃ entry ∈ contributions, entry.seat = seat ∧ entry.eligible = true ∧ level ≤ entry.amount := by
  obtain ⟨hpos, level, hl, he⟩ := mem_layers_pots h
  obtain ⟨h1, h2⟩ := mem_potLevels.mp hl
  refine ⟨hpos, level, h1, h2, fun seat => ?_⟩
  simp only [he, List.mem_map, List.mem_filter, reaching, decide_eq_true_eq]
  constructor
  · rintro ⟨entry, ⟨⟨hm, hle⟩, hel⟩, rfl⟩; exact ⟨entry, hm, rfl, hel, hle⟩
  · rintro ⟨entry, hm, rfl, hel, hle⟩; exact ⟨entry, ⟨⟨hm, hle⟩, hel⟩, rfl⟩

theorem pots_nodup {pot : Pot} (hn : (contributions.map (·.seat)).Nodup) (h : pot ∈ (buildPots contributions).pots) :
    pot.eligible.Nodup := by
  obtain ⟨_, level, _, he⟩ := mem_layers_pots h
  rw [he, reaching, List.filter_filter]
  exact hn.sublist (List.filter_sublist.map _)

theorem mem_layers_returned {returned : ReturnedExcess} (h : returned ∈ (buildLayers contributions previous levels).returned) :
    ∃ entry ∈ contributions, entry.seat = returned.seat := by
  induction levels generalizing previous with
  | nil => cases h
  | cons level levels ih =>
    obtain ⟨pots, given, hb, hcase⟩ := buildLayers_cons contributions previous level levels
    rw [hb] at h
    rcases List.mem_append.mp h with hm | hm
    · rcases hcase with ⟨_, only, hr, rfl⟩ | ⟨rfl, _⟩ | ⟨rfl, _⟩
      · obtain rfl := List.mem_singleton.mp hm
        have : only ∈ reaching contributions level := by rw [hr]; simp
        exact ⟨only, (List.mem_filter.mp this).1, rfl⟩
      · cases hm
      · cases hm
    · exact ih hm

theorem mem_returned {returned : ReturnedExcess} (h : returned ∈ (buildPots contributions).returned) :
    ∃ entry ∈ contributions, entry.seat = returned.seat := mem_layers_returned h

/-- The chips returned are those by which one contributor leads all the others. -/
structure Lead (contributions : List Contribution) (top : Contribution) (amount : Nat) : Prop where
  mem : top ∈ contributions
  positive : 0 < amount
  others : ∀ e ∈ contributions, e ≠ top → e.amount + amount ≤ top.amount
  second : ∀ e ∈ contributions, e ≠ top → ∃ e' ∈ contributions, e' ≠ top ∧ e'.amount + amount = top.amount

theorem mem_layers_lead (hs : (previous :: levels).Pairwise (· < ·)) (hmem : ∀ l ∈ levels, l ∈ amounts contributions)
    (hx : ∀ e ∈ contributions, previous < e.amount → e.amount ∈ levels)
    (hprevious : previous = 0 ∨ previous ∈ amounts contributions) {returned : ReturnedExcess}
    (h : returned ∈ (buildLayers contributions previous levels).returned) :
    ∃ top, top.seat = returned.seat ∧ Lead contributions top returned.amount := by
  induction levels generalizing previous with
  | nil => cases h
  | cons level levels ih =>
    obtain ⟨hfloor, hrest⟩ := List.pairwise_cons.mp hs
    have habove := (List.pairwise_cons.mp hrest).1
    have hlt := hfloor level (by simp)
    obtain ⟨pots, given, hb, hcase⟩ := buildLayers_cons contributions previous level levels
    rw [hb] at h
    rcases List.mem_append.mp h with hm | hm
    · rcases hcase with ⟨_, only, hr, rfl⟩ | ⟨rfl, _⟩ | ⟨rfl, _⟩
      · obtain rfl := List.mem_singleton.mp hm
        have hreach : ∀ e, e ∈ contributions ∧ level ≤ e.amount ↔ e = only := fun e => by
          have hmem : e ∈ reaching contributions level ↔ e ∈ [only] := by rw [hr]
          simpa [reaching] using hmem
        obtain ⟨hin, _⟩ := (hreach only).mpr rfl
        have hlevel : only.amount = level := by
          obtain ⟨e, he, hel⟩ := List.mem_map.mp (hmem level (by simp))
          rw [← (hreach e).mp ⟨he, Nat.le_of_eq hel.symm⟩]; exact hel
        have hbelow : ∀ e ∈ contributions, e ≠ only → e.amount ≤ previous := fun e he hne => by
          by_contra hgt
          have hshort : ¬ level ≤ e.amount := fun hle => hne ((hreach e).mp ⟨he, hle⟩)
          rcases List.mem_cons.mp (hx e he (by omega)) with heq | hlater
          · omega
          · have := habove _ hlater; omega
        refine ⟨only, rfl, hin, by simp only [Nat.mul_one]; omega, fun e he hne => ?_, fun e he hne => ?_⟩
        · have := hbelow e he hne
          simp only [Nat.mul_one]; omega
        · rcases hprevious with hzero | hprevious
          · have := hbelow e he hne
            exact ⟨e, he, hne, by simp only [Nat.mul_one]; omega⟩
          · obtain ⟨e', he', heq⟩ := List.mem_map.mp hprevious
            exact ⟨e', he', fun e => by rw [e, hlevel] at heq; omega, by simp only [Nat.mul_one]; omega⟩
      · cases hm
      · cases hm
    · refine ih hrest (fun l hl => hmem l (List.mem_cons_of_mem _ hl)) (fun e he hgt => ?_)
        (Or.inr (hmem level (by simp))) hm
      rcases List.mem_cons.mp (hx e he (by omega)) with heq | hlater
      · omega
      · exact hlater

theorem mem_returned_lead {returned : ReturnedExcess} (h : returned ∈ (buildPots contributions).returned) :
    ∃ top, top.seat = returned.seat ∧ Lead contributions top returned.amount :=
  mem_layers_lead potLevels_sorted (fun _ hl => (mem_potLevels.mp hl).2)
    (fun _ he hpos => mem_potLevels.mpr ⟨hpos, List.mem_map_of_mem he⟩) (Or.inl rfl) h

theorem layers_returned_of_top (hs : (previous :: levels).Pairwise (· < ·)) {top : Contribution}
    (hreach : reaching contributions top.amount = [top]) (hlevel : top.amount ∈ levels) :
    ∃ returned ∈ (buildLayers contributions previous levels).returned, returned.seat = top.seat := by
  induction levels generalizing previous with
  | nil => cases hlevel
  | cons level levels ih =>
    obtain ⟨hfloor, hrest⟩ := List.pairwise_cons.mp hs
    obtain ⟨pots, given, hb, hcase⟩ := buildLayers_cons contributions previous level levels
    rw [hb]
    rcases List.mem_cons.mp hlevel with rfl | hlater
    · have hlt := hfloor top.amount (by simp)
      rcases hcase with ⟨_, only, hr, rfl⟩ | ⟨_, hmany, _⟩ | ⟨_, _, hz⟩
      · rw [hreach] at hr
        cases hr
        exact ⟨_, List.mem_append_left _ (List.mem_singleton_self _), rfl⟩
      · rw [hreach] at hmany
        exact absurd rfl hmany
      · rw [hreach, List.length_singleton, Nat.mul_one] at hz
        omega
    · obtain ⟨returned, hm, hseat⟩ := ih hrest hlater
      exact ⟨returned, List.mem_append_right _ hm, hseat⟩

/-- A contributor alone on top gets the lead back. -/
theorem returned_of_top (hn : (contributions.map (·.seat)).Nodup) {top : Contribution} (hmem : top ∈ contributions)
    (hpos : 0 < top.amount) (htop : ∀ e ∈ contributions, e ≠ top → e.amount < top.amount) :
    ∃ returned ∈ (buildPots contributions).returned, returned.seat = top.seat := by
  refine layers_returned_of_top potLevels_sorted ?_ (mem_potLevels.mpr ⟨hpos, List.mem_map_of_mem hmem⟩)
  have hfilter : reaching contributions top.amount = contributions.filter (· == top) := by
    refine List.filter_congr fun e he => ?_
    by_cases heq : e = top
    · simp [heq]
    · have := htop e he heq
      rw [beq_eq_false_iff_ne.mpr heq, decide_eq_false (by omega)]
  rw [hfilter, List.filter_beq, List.count_eq_one_of_mem (List.Nodup.of_map _ hn) hmem, List.replicate_one]

/-! ## Range -/

theorem layersInRange_of_le (hs : (previous :: levels).Pairwise (· < ·))
    (hfit : (Layers.layers (amounts contributions) previous levels).sum ≤ u32Max) :
    layersInRange contributions previous levels = true := by
  induction levels generalizing previous with
  | nil => rfl
  | cons level levels ih =>
    obtain ⟨hlt, hrest⟩ := List.pairwise_cons.mp hs
    simp only [Layers.layers, List.sum_cons, ← reaching_length] at hfit
    simp only [layersInRange, Bool.and_eq_true, decide_eq_true_eq, fitsU32]
    refine ⟨⟨Nat.le_of_lt (hlt level (by simp)), ?_⟩, ih hrest (by omega)⟩
    rw [show (contributions.filter fun entry => level ≤ entry.amount) = reaching contributions level from rfl]
    omega

theorem layersInRange_of_fits (hfit : (amounts contributions).sum ≤ u32Max) :
    layersInRange contributions 0 (potLevels contributions) = true := by
  refine layersInRange_of_le potLevels_sorted ?_
  rw [← buildLayers_total, ← buildPots, buildPots_sum]; exact hfit

end OpenFelt
