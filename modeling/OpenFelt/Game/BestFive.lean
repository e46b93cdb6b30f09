/-
  OpenFelt.Game.BestFive — a hand is worth its best five cards (`src/game/hand.rs`).

  Five cards are worth the same in any order (`evaluateFive_perm`), and the combinations
  are the ways to pick five. Proved: a hand of five or more cards has the value of some
  five of them, and no other five have more (`evaluateHand_best`); so more cards are
  never worth less, and the same cards are worth the same however they are split.
-/

import OpenFelt.Game.HandRank
import Mathlib.Data.List.Sublists

namespace OpenFelt

section evaluating
variable {cards cards' five holeCards board : List Card} {e e' : HandEvaluation}

/-! ## Five cards in any order -/

theorem Rank.value_inj {r s : Rank} (h : r.value = s.value) : r = s := by
  cases r <;> cases s <;> first | rfl | (exact absurd h (by decide))

theorem Rank.mem_all (r : Rank) : r ∈ Rank.all := by cases r <;> decide

theorem sortDescending_sorted (ranks : List Rank) : (sortDescending ranks).Pairwise fun a b => b.value ≤ a.value := by
  have : Std.Total fun a b : Rank => b.value ≤ a.value := ⟨fun a b => Nat.le_total b.value a.value⟩
  have : IsTrans Rank fun a b => b.value ≤ a.value := ⟨fun _ _ _ hab hbc => Nat.le_trans hbc hab⟩
  exact List.pairwise_insertionSort _ _

theorem sortDescending_perm (ranks : List Rank) : (sortDescending ranks).Perm ranks := List.perm_insertionSort _ _

/-- Ranks in descending order are determined by which there are. -/
theorem descending_eq {l l' : List Rank} (hl : l.Pairwise fun a b => b.value ≤ a.value)
    (hl' : l'.Pairwise fun a b => b.value ≤ a.value) (h : l.Perm l') : l = l' :=
  h.eq_of_pairwise (fun _ _ _ _ hab hba => Rank.value_inj (Nat.le_antisymm hba hab)) hl hl'

theorem sortDescending_congr {l l' : List Rank} (h : l.Perm l') : sortDescending l = sortDescending l' :=
  descending_eq (sortDescending_sorted l) (sortDescending_sorted l')
    ((sortDescending_perm l).trans (h.trans (sortDescending_perm l').symm))

theorem rankCount_eq (cards : List Card) (r : Rank) : rankCount cards r = (cards.map (·.rank)).count r := by
  rw [rankCount, List.count_eq_countP, List.countP_map]
  rfl

/-- One suit five times. -/
def isFlush (cards : List Card) : Bool := [Suit.spades, .hearts, .diamonds, .clubs].any fun suit => 5 ≤ suitCount cards suit

/-- The value is that of the ranks and of whether it is a flush. -/
theorem evaluateFive_congr (hranks : (cards.map (·.rank)).Perm (cards'.map (·.rank))) (hflush : isFlush cards = isFlush cards') :
    evaluateFive cards = evaluateFive cards' := by
  have hcount : rankCount cards = rankCount cards' := by
    funext r
    rw [rankCount_eq, rankCount_eq, hranks.count_eq]
  unfold evaluateFive
  rw [hcount, sortDescending_congr hranks]
  unfold isFlush at hflush
  rw [hflush]

theorem evaluateFive_perm (h : cards.Perm cards') : evaluateFive cards = evaluateFive cards' := by
  refine evaluateFive_congr (h.map _) ?_
  have hsuit : suitCount cards = suitCount cards' := funext fun suit => h.countP_eq _
  rw [isFlush, isFlush, hsuit]

/-! ## The combinations -/

theorem mem_combinations {k : Nat} : five ∈ combinations k cards ↔ five.Sublist cards ∧ five.length = k := by
  induction cards generalizing k five with
  | nil =>
    cases k with
    | zero => simp [combinations]
    | succ k =>
      simp only [combinations, List.not_mem_nil, List.sublist_nil, false_iff, not_and]
      rintro rfl
      simp
  | cons card cards ih =>
    cases k with
    | zero =>
      simp only [combinations, List.mem_singleton, List.length_eq_zero_iff]
      exact ⟨fun h => ⟨h ▸ List.nil_sublist _, h⟩, fun h => h.2⟩
    | succ k =>
      rw [combinations, List.mem_append, List.mem_map, ih]
      constructor
      · intro h
        rcases h with ⟨rest, hrest, rfl⟩ | ⟨hsub, hlen⟩
        · obtain ⟨hsub, hlen⟩ := ih.mp hrest
          exact ⟨hsub.cons_cons card, by rw [List.length_cons, hlen]⟩
        · exact ⟨hsub.cons card, hlen⟩
      · intro h
        obtain ⟨hsub, hlen⟩ := h
        cases hsub with
        | cons _ hsub => exact Or.inr ⟨hsub, hlen⟩
        | cons_cons _ hsub =>
          exact Or.inl ⟨_, ih.mpr ⟨hsub, by simpa using hlen⟩, rfl⟩

/-- `e` is the value of five of the cards, and no five of them have more. -/
structure BestFive (cards : List Card) (e : HandEvaluation) : Prop where
  attained : ∃ five : List Card, five.Subperm cards ∧ five.length = 5 ∧ e = evaluateFive five
  greatest : ∀ five : List Card, five.Subperm cards → five.length = 5 → (compareHands (evaluateFive five) e).isLE = true

theorem evaluateBestFive_eq (holeCards board : List Card) : evaluateBestFive holeCards board =
    Vec.firstBest compareHands evaluateFive none (combinations 5 (holeCards ++ board)) := by
  unfold evaluateBestFive Vec.firstBest
  refine congrArg (fun step => List.foldl step none _) ?_
  funext best cards
  cases best <;> rfl

theorem evaluateHand_best (h : 5 ≤ (holeCards ++ board).length) :
    BestFive (holeCards ++ board) (evaluateHand holeCards board) := by
  have hsome : combinations 5 (holeCards ++ board) ≠ [] := by
    refine List.ne_nil_of_mem (mem_combinations.mpr ⟨List.take_sublist 5 _, ?_⟩)
    rw [List.length_take]
    omega
  obtain ⟨five, hfive, hbest, hmax⟩ : ∃ five ∈ combinations 5 (holeCards ++ board),
      Vec.firstBest compareHands evaluateFive none (combinations 5 (holeCards ++ board)) = some (evaluateFive five, five) ∧
        ∀ other ∈ combinations 5 (holeCards ++ board), (compareHands (evaluateFive other) (evaluateFive five)).isLE = true :=
    Vec.firstBest_spec hsome
  obtain ⟨hsub, hlen⟩ := mem_combinations.mp hfive
  have hvalue : evaluateHand holeCards board = evaluateFive five := by
    rw [evaluateHand, if_neg (by omega), evaluateBestFive_eq, hbest]
  rw [hvalue]
  refine ⟨⟨five, hsub.subperm, hlen, rfl⟩, ?_⟩
  intro other hother hcount
  obtain ⟨picked, hperm, hpicked⟩ := hother
  rw [← evaluateFive_perm hperm]
  exact hmax picked (mem_combinations.mpr ⟨hpicked, hperm.length_eq.trans hcount⟩)

/-- More cards are never worth less. -/
theorem BestFive.mono (h : BestFive cards e) (h' : BestFive cards' e') (hmore : cards.Subperm cards') :
    (compareHands e e').isLE = true := by
  obtain ⟨five, hfive, hlen, rfl⟩ := h.attained
  exact h'.greatest five (hfive.trans hmore) hlen

theorem compareHands_eq (h : compareHands e e' = .eq) : e.rank = e'.rank ∧ e.kickers = e'.kickers := by
  obtain ⟨hrank, hkickers⟩ := compareLex_eq_eq.mp h
  refine ⟨?_, ?_⟩
  · have hvalue : e.rank.value = e'.rank.value := by simpa [compareOn] using hrank
    generalize e.rank = r at hvalue
    generalize e'.rank = s at hvalue
    cases r <;> cases s <;> first | rfl | (exact absurd hvalue (by decide))
  · unfold compareKickers at hkickers
    generalize e.kickers = l at hkickers
    generalize e'.kickers = l' at hkickers
    induction l generalizing l' with
    | nil =>
      cases l' with
      | nil => rfl
      | cons s l' => cases hkickers
    | cons r l ih =>
      cases l' with
      | nil => cases hkickers
      | cons s l' =>
        rw [List.compareLex_cons_cons, Ordering.then_eq_eq] at hkickers
        have hvalue : r.value = s.value := by simpa [compareOn] using hkickers.1
        rw [Rank.value_inj hvalue, ih l' hkickers.2]

/-- The same cards are worth the same. -/
theorem BestFive.congr (h : BestFive cards e) (h' : BestFive cards' e') (hsame : cards.Perm cards') :
    e.rank = e'.rank ∧ e.kickers = e'.kickers := by
  have hle := h.mono h' hsame.subperm
  have hge := h'.mono h hsame.symm.subperm
  refine compareHands_eq ?_
  have hswap : compareHands e' e = (compareHands e e').swap := Std.OrientedCmp.eq_swap
  rw [hswap] at hge
  cases hc : compareHands e e' <;> simp_all

end evaluating

end OpenFelt
