/-
  OpenFelt.Game.PokerOrder — the value of five cards against the rules (`src/game/hand.rs`).

  The rules: a hand is of the strongest category it makes (`Category`). Two of one
  category compare by the ranks held most often, then by the others, each from the
  strongest down; straights by their highest card, where an ace under a five is low
  (`RunTo`). They tie when they hold the same ranks and both or neither are of one suit.

  Proved: the value computed for five cards is the category and those ranks, so comparing
  two values is comparing two hands under the rules (`evaluateFive_plays`, `beats_iff`,
  `ties_iff`), and a hand of more cards is worth its best five (`best_five_wins`).
-/

import OpenFelt.Game.BestFive
import Mathlib.Algebra.BigOperators.Group.List.Basic

namespace OpenFelt

/-! ## The rules -/

def Suited (cards : List Card) : Prop := ∃ suit, ∀ card ∈ cards, card.suit = suit

/-- The ace of a straight to the five. -/
def Rank.lowValue : Rank → Nat
  | .ace => 1
  | rank => rank.value

/-- A straight with `top` its highest card. -/
def RunTo (cards : List Card) (top : Rank) : Prop :=
  (cards.map (·.rank.value)).Perm [top.value, top.value - 1, top.value - 2, top.value - 3, top.value - 4] ∨
    (top = .five ∧ (cards.map (·.rank.lowValue)).Perm [5, 4, 3, 2, 1])

/-- What cards make, whatever else they make. -/
def Made (cards : List Card) : HandRank → Prop
  | .highCard => True
  | .pair => ∃ r, rankCount cards r = 2
  | .twoPair => ∃ r s, r ≠ s ∧ rankCount cards r = 2 ∧ rankCount cards s = 2
  | .threeOfAKind => ∃ r, rankCount cards r = 3
  | .straight => ∃ top, RunTo cards top
  | .flush => Suited cards
  | .fullHouse => ∃ r s, rankCount cards r = 3 ∧ rankCount cards s = 2
  | .fourOfAKind => ∃ r, rankCount cards r = 4
  | .straightFlush => Suited cards ∧ ∃ top, RunTo cards top

structure Category (cards : List Card) (rank : HandRank) : Prop where
  made : Made cards rank
  highest : ∀ rank', Made cards rank' → rank'.value ≤ rank.value

/-- The ranks held so many times, strongest first. -/
def held (cards : List Card) (k : Nat) : List Rank := Rank.all.reverse.filter fun r => rankCount cards r = k

/-- The ranks, those held most often first. -/
def groups (cards : List Card) : List Rank := held cards 4 ++ held cards 3 ++ held cards 2 ++ held cards 1

/-- What a hand counts for in its category. -/
structure Plays (cards : List Card) (rank : HandRank) (ranks : List Rank) : Prop where
  category : Category cards rank
  run : rank = .straight ∨ rank = .straightFlush → ∃ top, RunTo cards top ∧ ranks = [top]
  made : rank ≠ .straight → rank ≠ .straightFlush → ranks = groups cards

def Beats (a b : List Card) : Prop := ∃ rank ranks rank' ranks', Plays a rank ranks ∧ Plays b rank' ranks' ∧
  (rank'.value < rank.value ∨ rank' = rank ∧ ranks'.map Rank.value < ranks.map Rank.value)

def Ties (a b : List Card) : Prop := (a.map (·.rank)).Perm (b.map (·.rank)) ∧ (Suited a ↔ Suited b)

section rules
variable {cards : List Card} {r s : Rank} {k : Nat}

/-! ## Counting ranks -/

theorem mem_held : r ∈ held cards k ↔ rankCount cards r = k := by
  simp [held, Rank.mem_all]

theorem descending_all : Rank.all.reverse.Pairwise fun a b => b.value < a.value := by decide

theorem held_sorted : (held cards k).Pairwise fun a b => b.value < a.value := descending_all.filter _

/-- Strictly descending ranks are determined by which there are. -/
theorem strictly_eq {l l' : List Rank} (hl : l.Pairwise fun a b => b.value < a.value)
    (hl' : l'.Pairwise fun a b => b.value < a.value) (h : ∀ r, r ∈ l ↔ r ∈ l') : l = l' := by
  have hantisymm : Std.Antisymm fun a b : Rank => b.value < a.value := ⟨fun _ _ hab hba => absurd hab (Nat.lt_asymm hba)⟩
  have hirrefl : Std.Irrefl fun a b : Rank => b.value < a.value := ⟨fun _ => Nat.lt_irrefl _⟩
  exact hl.eq_of_mem_iff hl' h

/-- The distinct ranks of the cards, strongest first. -/
def ranksOf (cards : List Card) : List Rank := Vec.dedup (sortDescending (cards.map (·.rank)))

theorem mem_ranksOf : r ∈ ranksOf cards ↔ 0 < rankCount cards r := by
  rw [ranksOf, Vec.mem_dedup, (sortDescending_perm _).mem_iff, rankCount_eq, List.count_pos_iff]

theorem ranksOf_sorted (cards : List Card) : (ranksOf cards).Pairwise fun a b => b.value < a.value := by
  refine Vec.dedup_strict ?_ ?_ (sortDescending_sorted _)
  · intro a b hle hne
    exact Nat.lt_of_le_of_ne hle fun he => hne (Rank.value_inj he.symm)
  · intro a b c hlt hle
    exact Nat.lt_of_le_of_lt hle hlt

theorem rankCount_cons (card : Card) (cards : List Card) (r : Rank) :
    rankCount (card :: cards) r = rankCount cards r + if card.rank = r then 1 else 0 := by
  rw [rankCount, List.countP_cons]
  simp [rankCount]

theorem sum_rankCount (cards : List Card) : (Rank.all.map (rankCount cards)).sum = cards.length := by
  induction cards with
  | nil => decide
  | cons card cards ih =>
    have hcons : rankCount (card :: cards) = fun r => rankCount cards r + if card.rank = r then 1 else 0 :=
      funext (rankCount_cons card cards)
    rw [hcons, List.sum_map_add, ih, List.length_cons]
    have hone : (Rank.all.map fun r => if card.rank = r then 1 else 0).sum = 1 := by
      cases card.rank <;> decide
    rw [hone]

/-- Counting by how often. -/
theorem sum_by_count {f : Rank → Nat} (hf : ∀ r, f r ≤ 4) (l : List Rank) : (l.map f).sum =
    (l.filter fun r => f r = 1).length + 2 * (l.filter fun r => f r = 2).length + 3 * (l.filter fun r => f r = 3).length +
      4 * (l.filter fun r => f r = 4).length := by
  induction l with
  | nil => rfl
  | cons r l ih =>
    have hr := hf r
    rw [List.map_cons, List.sum_cons, ih]
    simp only [List.filter_cons]
    obtain h | h | h | h | h : f r = 0 ∨ f r = 1 ∨ f r = 2 ∨ f r = 3 ∨ f r = 4 := by omega
    all_goals simp [h] <;> omega

/-- No rank has a fifth card. -/
theorem rankCount_le_four (hn : cards.Nodup) (r : Rank) : rankCount cards r ≤ 4 := by
  have hsuits : ((cards.filter fun card => card.rank == r).map (·.suit)).Nodup := by
    refine (hn.filter _).map_on ?_
    intro a ha b hb he
    have hra : a.rank = r := by simpa using (List.mem_filter.mp ha).2
    have hrb : b.rank = r := by simpa using (List.mem_filter.mp hb).2
    cases a
    cases b
    simp_all
  have hsub : ((cards.filter fun card => card.rank == r).map (·.suit)).Subperm [.spades, .hearts, .diamonds, .clubs] :=
    hsuits.subperm fun suit _ => by cases suit <;> decide
  have hlen := hsub.length_le
  rw [List.length_map, ← List.countP_eq_length_filter] at hlen
  exact hlen

/-- Cards of one suit are of different ranks. -/
theorem Suited.rankCount_le (hs : Suited cards) (hn : cards.Nodup) (r : Rank) : rankCount cards r ≤ 1 := by
  obtain ⟨suit, hsuit⟩ := hs
  have hsub : (cards.filter fun card => card.rank == r).Subperm [⟨r, suit⟩] := by
    refine (hn.filter _).subperm ?_
    intro card hcard
    obtain ⟨hmem, hrank⟩ := List.mem_filter.mp hcard
    have hr : card.rank = r := by simpa using hrank
    have hs := hsuit card hmem
    cases card
    simp_all
  have hlen := hsub.length_le
  rw [← List.countP_eq_length_filter] at hlen
  exact hlen

theorem isFlush_iff (hlen : cards.length = 5) : isFlush cards = true ↔ Suited cards := by
  have hall : ∀ suit, 5 ≤ suitCount cards suit ↔ ∀ card ∈ cards, card.suit = suit := by
    intro suit
    have hle : suitCount cards suit ≤ cards.length := List.countP_le_length
    have heq : suitCount cards suit = cards.length ↔ ∀ card ∈ cards, card.suit = suit := by
      rw [suitCount, List.countP_eq_length]
      simp
    rw [← heq]
    omega
  rw [isFlush, List.any_eq_true, Suited]
  constructor
  · intro h
    obtain ⟨suit, _, hsuit⟩ := h
    exact ⟨suit, (hall suit).mp (by simpa using hsuit)⟩
  · intro h
    obtain ⟨suit, hsuit⟩ := h
    exact ⟨suit, by cases suit <;> decide, by simpa using (hall suit).mpr hsuit⟩

/-- How many ranks are held once, twice, three and four times. -/
theorem held_lengths (hlen : cards.length = 5) (hn : cards.Nodup) : (held cards 1).length + 2 * (held cards 2).length +
    3 * (held cards 3).length + 4 * (held cards 4).length = 5 := by
  have hsum := sum_by_count (rankCount_le_four hn) Rank.all.reverse
  rw [List.map_reverse, List.sum_reverse, sum_rankCount, hlen] at hsum
  exact hsum.symm

/-! ## Straights -/

theorem ranksOf_length (cards : List Card) : (ranksOf cards).length ≤ cards.length := by
  have hsub : (ranksOf cards).Subperm (cards.map (·.rank)) := by
    refine List.Nodup.subperm ((ranksOf_sorted cards).imp fun h he => by rw [he] at h; exact Nat.lt_irrefl _ h) ?_
    intro r hr
    rw [mem_ranksOf, rankCount_eq, List.count_pos_iff] at hr
    exact hr
  simpa using hsub.length_le

/-- Five different ranks are those of the cards. -/
theorem ranksOf_perm (hlen : cards.length = 5) (hfive : (ranksOf cards).length = 5) :
    (cards.map (·.rank)).Perm (ranksOf cards) := by
  have hnodup : (ranksOf cards).Nodup := (ranksOf_sorted cards).imp fun h he => by rw [he] at h; exact Nat.lt_irrefl _ h
  have hsub : (ranksOf cards).Subperm (cards.map (·.rank)) := by
    refine hnodup.subperm ?_
    intro r hr
    rw [mem_ranksOf, rankCount_eq, List.count_pos_iff] at hr
    exact hr
  exact (hsub.perm_of_length_le (by rw [List.length_map]; omega)).symm

theorem rank_values (f : Rank → Nat) (cards : List Card) : (cards.map fun card => f card.rank) = (cards.map (·.rank)).map f := by
  rw [List.map_map]
  rfl

/-- Without the low ace, a straight is to the six or higher. -/
theorem six_le_top {top : Rank}
    (h : (cards.map (·.rank.value)).Perm [top.value, top.value - 1, top.value - 2, top.value - 3, top.value - 4]) :
    6 ≤ top.value := by
  have hmem : top.value - 4 ∈ cards.map (·.rank.value) := h.mem_iff.mpr (by simp)
  obtain ⟨card, _, hcard⟩ := List.mem_map.mp hmem
  have hlow : 2 ≤ card.rank.value := by cases card.rank <;> decide
  omega

/-- The ranks of a straight are different. -/
theorem RunTo.nodup {top : Rank} (h : RunTo cards top) : (cards.map (·.rank)).Nodup := by
  rcases h with h | ⟨_, h⟩
  · have hsix := six_le_top h
    have hdistinct := h.nodup_iff.mpr (by simp; omega)
    rw [rank_values Rank.value] at hdistinct
    exact hdistinct.of_map
  · have hdistinct := h.nodup_iff.mpr (by decide)
    rw [rank_values Rank.lowValue] at hdistinct
    exact hdistinct.of_map

theorem checkStraight_five (a b c d e : Rank) : checkStraight [a, b, c, d, e] =
    if [Rank.ace, .two, .three, .four, .five].all [a, b, c, d, e].contains then some .five
    else if a.value = e.value + 4 then some a else none := by
  have hwindow : (List.range ([a, b, c, d, e].length - 4)).map (fun i => ([a, b, c, d, e].drop i).take 5) =
      [[a, b, c, d, e]] := rfl
  have hlong : ¬[a, b, c, d, e].length < 5 := Nat.lt_irrefl 5
  rw [checkStraight, if_neg hlong, hwindow]
  refine if_congr Iff.rfl rfl ?_
  by_cases h : a.value = e.value + 4 <;> simp [h]

theorem Rank.lowValue_inj {r s : Rank} (h : r.lowValue = s.lowValue) : r = s := by
  cases r <;> cases s <;> first | rfl | (exact absurd h (by decide))

section straights
variable {a b c d e top : Rank}

/-- An ace and the low four make the straight to the five, and no other. -/
theorem wheel_iff (hvalues : (cards.map (·.rank.value)).Perm ([a, b, c, d, e].map Rank.value))
    (hlows : (cards.map (·.rank.lowValue)).Perm ([a, b, c, d, e].map Rank.lowValue))
    (hwheel : [Rank.ace, .two, .three, .four, .five].all [a, b, c, d, e].contains = true) :
    some Rank.five = some top ↔ RunTo cards top := by
  have hall : [Rank.ace, .two, .three, .four, .five].Subperm [a, b, c, d, e] := by
    refine List.Nodup.subperm (by decide) ?_
    intro r hr
    simpa using List.all_eq_true.mp hwheel r hr
  have hsame := hall.perm_of_length_le (Nat.le_refl _)
  constructor
  · intro h
    refine Or.inr ⟨(Option.some.inj h).symm, hlows.trans ((hsame.symm.map Rank.lowValue).trans ?_)⟩
    decide
  · intro h
    rcases h with h | h
    · have hvals := hvalues.symm.trans h
      have hace : (14 : Nat) ∈ [top.value, top.value - 1, top.value - 2, top.value - 3, top.value - 4] :=
        hvals.mem_iff.mp ((hsame.map Rank.value).mem_iff.mp (by decide))
      have htwo : (2 : Nat) ∈ [top.value, top.value - 1, top.value - 2, top.value - 3, top.value - 4] :=
        hvals.mem_iff.mp ((hsame.map Rank.value).mem_iff.mp (by decide))
      simp only [List.mem_cons, List.not_mem_nil, or_false] at hace htwo
      have htop : top.value ≤ 14 := by cases top <;> decide
      omega
    · rw [h.1]

/-- Five other ranks are a straight when the first is four above the last. -/
theorem span_iff (hvalues : (cards.map (·.rank.value)).Perm ([a, b, c, d, e].map Rank.value))
    (hlows : (cards.map (·.rank.lowValue)).Perm ([a, b, c, d, e].map Rank.lowValue))
    (hab : b.value < a.value) (hbc : c.value < b.value) (hcd : d.value < c.value) (hde : e.value < d.value)
    (hwheel : ¬[Rank.ace, .two, .three, .four, .five].all [a, b, c, d, e].contains = true) :
    (if a.value = e.value + 4 then some a else none) = some top ↔ RunTo cards top := by
  constructor
  · intro h
    split at h
    · rename_i hspan
      obtain rfl := Option.some.inj h
      refine Or.inl (hvalues.trans ?_)
      have hb : b.value = a.value - 1 := by omega
      have hc : c.value = a.value - 2 := by omega
      have hd : d.value = a.value - 3 := by omega
      have he : e.value = a.value - 4 := by omega
      simp only [List.map_cons, List.map_nil, hb, hc, hd, he]
      exact List.Perm.refl _
    · cases h
  · intro h
    rcases h with h | ⟨_, h⟩
    · have hvals : [a.value, b.value, c.value, d.value, e.value].Perm
          [top.value, top.value - 1, top.value - 2, top.value - 3, top.value - 4] := hvalues.symm.trans h
      have hfirst : top.value ∈ [a.value, b.value, c.value, d.value, e.value] := hvals.mem_iff.mpr (by simp)
      have hlast : top.value - 4 ∈ [a.value, b.value, c.value, d.value, e.value] := hvals.mem_iff.mpr (by simp)
      have hhigh : a.value ∈ [top.value, top.value - 1, top.value - 2, top.value - 3, top.value - 4] :=
        hvals.mem_iff.mp (by simp)
      have hend : e.value ∈ [top.value, top.value - 1, top.value - 2, top.value - 3, top.value - 4] :=
        hvals.mem_iff.mp (by simp)
      simp only [List.mem_cons, List.not_mem_nil, or_false] at hfirst hlast hhigh hend
      have hlow : 2 ≤ e.value := by cases e <;> decide
      rw [if_pos (by omega), Rank.value_inj (show a.value = top.value by omega)]
    · refine absurd ?_ hwheel
      rw [List.all_eq_true]
      intro r hr
      have hmem : r.lowValue ∈ [a, b, c, d, e].map Rank.lowValue := by
        refine (hlows.symm.trans h).mem_iff.mpr ?_
        simp only [List.mem_cons, List.not_mem_nil, or_false] at hr
        rcases hr with rfl | rfl | rfl | rfl | rfl <;> decide
      obtain ⟨s, hs, he⟩ := List.mem_map.mp hmem
      rw [Rank.lowValue_inj he] at hs
      simpa using hs

end straights

/-- The straight found is the one the rules have. -/
theorem checkStraight_iff (hlen : cards.length = 5) {top : Rank} :
    checkStraight (ranksOf cards) = some top ↔ RunTo cards top := by
  by_cases hfive : (ranksOf cards).length = 5
  · have hperm := ranksOf_perm hlen hfive
    have hsorted := ranksOf_sorted cards
    obtain ⟨a, b, c, d, e, hranks⟩ : ∃ a b c d e, ranksOf cards = [a, b, c, d, e] := by
      match hl : ranksOf cards, hfive with
      | [a, b, c, d, e], _ => exact ⟨a, b, c, d, e, rfl⟩
    rw [hranks] at hperm hsorted ⊢
    have hvalues := hperm.map Rank.value
    have hlows := hperm.map Rank.lowValue
    rw [List.map_map] at hvalues hlows
    simp only [List.pairwise_cons, List.mem_cons, List.not_mem_nil, or_false, forall_eq_or_imp, forall_eq] at hsorted
    obtain ⟨⟨hab, _⟩, ⟨hbc, _⟩, ⟨hcd, _⟩, hde, _⟩ := hsorted
    rw [checkStraight_five]
    by_cases hwheel : [Rank.ace, .two, .three, .four, .five].all [a, b, c, d, e].contains = true
    · rw [if_pos hwheel]
      exact wheel_iff hvalues hlows hwheel
    · rw [if_neg hwheel]
      exact span_iff hvalues hlows hab hbc hcd hde hwheel
  · have hrun : ∀ top, ¬RunTo cards top := by
      intro top h
      refine hfive ?_
      have hsub : (cards.map (·.rank)).Subperm (ranksOf cards) := h.nodup.subperm fun r hr => by
        rw [mem_ranksOf, rankCount_eq, List.count_pos_iff]
        exact hr
      have hle := hsub.length_le
      rw [List.length_map] at hle
      have hge := ranksOf_length cards
      omega
    have hfew : (ranksOf cards).length < 5 := by
      have hge := ranksOf_length cards
      omega
    simp [checkStraight, hfew, hrun]

/-! ## The value of five cards -/

theorem find_none (h : (Rank.all.find? fun rank => rankCount cards rank == k) = none) : held cards k = [] := by
  refine List.eq_nil_iff_forall_not_mem.mpr ?_
  intro r hr
  have hno := List.find?_eq_none.mp h r (Rank.mem_all r)
  exact hno (by simpa using mem_held.mp hr)

theorem find_some (h : (Rank.all.find? fun rank => rankCount cards rank == k) = some r) : r ∈ held cards k :=
  mem_held.mpr (by simpa using List.find?_some h)

theorem pairs_eq (cards : List Card) : sortDescending (Rank.all.filter fun rank => rankCount cards rank == 2) = held cards 2 := by
  refine descending_eq (sortDescending_sorted _) (held_sorted.imp fun h => Nat.le_of_lt h) ?_
  refine (sortDescending_perm _).trans ?_
  rw [held, List.filter_reverse]
  exact (List.reverse_perm _).symm

theorem rankCount_ne (h : held cards k = []) (r : Rank) : rankCount cards r ≠ k := by
  intro hr
  have hmem := mem_held.mpr hr
  rw [h] at hmem
  cases hmem

theorem held_nil (h : ∀ r, rankCount cards r ≠ k) : held cards k = [] :=
  List.eq_nil_iff_forall_not_mem.mpr fun r hr => h r (mem_held.mp hr)

/-- A rank with company is among the made ones. -/
theorem two_le_rankCount (hn : cards.Nodup) (r : Rank) :
    2 ≤ rankCount cards r ↔ r ∈ held cards 4 ∨ r ∈ held cards 3 ∨ r ∈ held cards 2 := by
  have hfour := rankCount_le_four hn r
  rw [mem_held, mem_held, mem_held]
  omega

/-- The kickers are what is left without the made ranks. -/
theorem kickers_eq {p : Rank → Bool} (hp : ∀ r, p r = false ↔ 2 ≤ rankCount cards r) :
    (ranksOf cards).filter p = held cards 1 := by
  refine strictly_eq ((ranksOf_sorted cards).filter _) held_sorted ?_
  intro r
  have hr := hp r
  rw [List.mem_filter, mem_ranksOf, mem_held]
  cases hpr : p r with
  | false =>
    have htwo := hr.mp hpr
    simp only [Bool.false_eq_true, and_false, false_iff]
    omega
  | true =>
    have htwo : ¬2 ≤ rankCount cards r := fun h => by rw [hr.mpr h] at hpr; cases hpr
    simp only [and_true]
    omega

/-- Without company every rank is a kicker. -/
theorem ranksOf_eq (h : ∀ r, rankCount cards r ≤ 1) : ranksOf cards = groups cards := by
  have hnil : ∀ k, 2 ≤ k → held cards k = [] := fun k hk => held_nil fun r hr => by
    have hle := h r
    omega
  have hkickers : (ranksOf cards).filter (fun _ => true) = held cards 1 := kickers_eq fun r => by
    have hle := h r
    simp only [Bool.true_eq_false, false_iff]
    omega
  rw [groups, hnil 4 (by decide), hnil 3 (by decide), hnil 2 (by decide), ← hkickers, List.filter_true]
  rfl

theorem Category.of {rank : HandRank} (hmade : Made cards rank) (h : ∀ rank', rank.value < rank'.value → ¬Made cards rank') :
    Category cards rank :=
  ⟨hmade, fun rank' hmade' => Nat.le_of_not_lt fun hlt => h rank' hlt hmade'⟩

theorem Category.plays_run {rank : HandRank} {top : Rank} (hc : Category cards rank)
    (hrank : rank = .straight ∨ rank = .straightFlush)
    (htop : RunTo cards top) : Plays cards rank [top] :=
  ⟨hc, fun _ => ⟨top, htop, rfl⟩, fun hne hne' => (hrank.elim hne hne').elim⟩

theorem Category.plays_groups {rank : HandRank} {ranks : List Rank} (hc : Category cards rank)
    (hrank : ¬(rank = .straight ∨ rank = .straightFlush)) (h : ranks = groups cards) : Plays cards rank ranks :=
  ⟨hc, fun hrun => absurd hrun hrank, fun _ _ => h⟩

theorem singleton_of {l : List Rank} (hr : r ∈ l) (hlen : l.length ≤ 1) : l = [r] := by
  match l, hr, hlen with
  | [s], hr, _ => rw [List.mem_singleton.mp hr]

theorem nil_of {l : List Rank} (hlen : l.length = 0) : l = [] := List.eq_nil_of_length_eq_zero hlen

theorem HandRank.value_inj {rank rank' : HandRank} (h : rank.value = rank'.value) : rank = rank' := by
  cases rank <;> cases rank' <;> first | rfl | (exact absurd h (by decide))

/-- Nothing stronger is made. -/
def Tops (cards : List Card) (rank : HandRank) : Prop := ∀ rank', rank.value < rank'.value → ¬Made cards rank'

theorem tops_straightFlush : Tops cards .straightFlush := by
  intro rank' hlt
  cases rank' <;> exact absurd hlt (by decide)

/-- The next category down. -/
theorem Tops.next {rank lower : HandRank} (h : Tops cards rank) (hno : ¬Made cards rank) (hv : rank.value = lower.value + 1) :
    Tops cards lower := by
  intro rank' hlt
  by_cases hsame : rank'.value = rank.value
  · rwa [HandRank.value_inj hsame]
  · exact h rank' (by omega)

/-! ### One category at a time -/

theorem plays_four (hlen : cards.length = 5) (hn : cards.Nodup) (htops : Tops cards .fourOfAKind)
    (hr : r ∈ held cards 4) :
    Plays cards .fourOfAKind (r :: (ranksOf cards).filter (· != r)) := by
  have hlengths := held_lengths hlen hn
  have hpos := List.length_pos_of_mem hr
  have hfours := singleton_of hr (by omega)
  have hthrees : held cards 3 = [] := nil_of (by omega)
  have htwos : held cards 2 = [] := nil_of (by omega)
  have hc : Category cards .fourOfAKind := .of ⟨r, mem_held.mp hr⟩ htops
  refine hc.plays_groups (by decide) ?_
  rw [groups, hfours, hthrees, htwos, kickers_eq]
  · rfl
  · intro t
    rw [two_le_rankCount hn, hfours, hthrees, htwos]
    simp

theorem plays_fullHouse (hlen : cards.length = 5) (hn : cards.Nodup) (htops : Tops cards .fullHouse)
    (hr : r ∈ held cards 3) (hs : s ∈ held cards 2) :
    Plays cards .fullHouse [r, s] := by
  have hlengths := held_lengths hlen hn
  have hpos := List.length_pos_of_mem hr
  have hpos' := List.length_pos_of_mem hs
  have hc : Category cards .fullHouse := .of ⟨r, s, mem_held.mp hr, mem_held.mp hs⟩ htops
  have hfours : held cards 4 = [] := nil_of (by omega)
  have hkickers : held cards 1 = [] := nil_of (by omega)
  refine hc.plays_groups (by decide) ?_
  rw [groups, hfours, singleton_of hr (by omega), singleton_of hs (by omega), hkickers]
  rfl

theorem plays_three (hlen : cards.length = 5) (hn : cards.Nodup) (htops : Tops cards .threeOfAKind)
    (hFull : ¬Made cards .fullHouse) (hr : r ∈ held cards 3) :
    Plays cards .threeOfAKind (r :: (ranksOf cards).filter (· != r)) := by
  have hlengths := held_lengths hlen hn
  have hpos := List.length_pos_of_mem hr
  have hthrees := singleton_of hr (by omega)
  have hfours : held cards 4 = [] := nil_of (by omega)
  have htwos : held cards 2 = [] := held_nil fun s hs => hFull ⟨r, s, mem_held.mp hr, hs⟩
  have hc : Category cards .threeOfAKind := .of ⟨r, mem_held.mp hr⟩ htops
  refine hc.plays_groups (by decide) ?_
  rw [groups, hfours, hthrees, htwos, kickers_eq]
  · rfl
  · intro t
    rw [two_le_rankCount hn, hfours, hthrees, htwos]
    simp

theorem plays_twoPair {high low : Rank} {rest : List Rank} (hlen : cards.length = 5) (hn : cards.Nodup)
    (htops : Tops cards .twoPair) (hthrees : held cards 3 = [])
    (htwos : held cards 2 = high :: low :: rest) :
    Plays cards .twoPair (high :: low :: rest ++ (ranksOf cards).filter fun rank => rank != high && rank != low) := by
  have hlengths := held_lengths hlen hn
  have hsorted : (held cards 2).Pairwise fun a b => b.value < a.value := held_sorted
  rw [htwos] at hlengths hsorted
  simp only [List.length_cons] at hlengths
  have hrest : rest = [] := nil_of (by omega)
  subst hrest
  have hfours : held cards 4 = [] := nil_of (by omega)
  have hdiffer : high ≠ low := by
    have hlt := (List.pairwise_cons.mp hsorted).1 low List.mem_cons_self
    exact fun he => Nat.lt_irrefl _ (he ▸ hlt)
  have hhigh : high ∈ held cards 2 := htwos ▸ List.mem_cons_self
  have hlow : low ∈ held cards 2 := htwos ▸ List.mem_cons_of_mem _ List.mem_cons_self
  have hc : Category cards .twoPair := .of ⟨high, low, hdiffer, mem_held.mp hhigh, mem_held.mp hlow⟩ htops
  refine hc.plays_groups (by decide) ?_
  rw [groups, hfours, hthrees, htwos, kickers_eq]
  · rfl
  · intro t
    rw [two_le_rankCount hn, hfours, hthrees, htwos]
    by_cases ht : t = high <;> simp [ht]

theorem plays_flush (hn : cards.Nodup) (htops : Tops cards .flush) (hsuited : Suited cards) :
    Plays cards .flush (ranksOf cards) := by
  have hc : Category cards .flush := .of hsuited htops
  exact hc.plays_groups (by decide) (ranksOf_eq (hsuited.rankCount_le hn))

theorem plays_pair (hn : cards.Nodup) (htops : Tops cards .twoPair) (hfours : held cards 4 = [])
    (hthrees : held cards 3 = []) (htwos : held cards 2 = [r]) :
    Plays cards .pair (r :: (ranksOf cards).filter (· != r)) := by
  have hr : r ∈ held cards 2 := htwos ▸ List.mem_cons_self
  have hTwoPair : ¬Made cards .twoPair := by
    intro hmade
    obtain ⟨t, u, hne, ht, hu⟩ := hmade
    have ht' := mem_held.mpr ht
    have hu' := mem_held.mpr hu
    rw [htwos, List.mem_singleton] at ht' hu'
    exact hne (ht'.trans hu'.symm)
  have hc : Category cards .pair := .of ⟨r, mem_held.mp hr⟩ (htops.next hTwoPair rfl)
  refine hc.plays_groups (by decide) ?_
  rw [groups, hfours, hthrees, htwos, kickers_eq]
  · rfl
  · intro t
    rw [two_le_rankCount hn, hfours, hthrees, htwos]
    simp

theorem plays_highCard (hn : cards.Nodup) (htops : Tops cards .twoPair) (hfours : held cards 4 = [])
    (hthrees : held cards 3 = []) (htwos : held cards 2 = []) : Plays cards .highCard (ranksOf cards) := by
  have hTwoPair : ¬Made cards .twoPair := by
    intro hmade
    obtain ⟨t, _, _, ht, _⟩ := hmade
    exact rankCount_ne htwos t ht
  have hPair : ¬Made cards .pair := fun hmade => hmade.elim (rankCount_ne htwos)
  have hc : Category cards .highCard := .of trivial ((htops.next hTwoPair rfl).next hPair rfl)
  refine hc.plays_groups (by decide) (ranksOf_eq fun t => ?_)
  have hcount := two_le_rankCount hn t
  rw [hfours, hthrees, htwos] at hcount
  simp only [List.not_mem_nil, or_self, iff_false] at hcount
  omega

/-- The value is read off from the strongest category down; each branch has refused the ones above it. -/
theorem evaluateFive_plays (hlen : cards.length = 5) (hn : cards.Nodup) :
    Plays cards (evaluateFive cards).rank (evaluateFive cards).kickers := by
  have hflush := isFlush_iff hlen
  have hrun : ∀ top, checkStraight (ranksOf cards) = some top ↔ RunTo cards top := fun top => checkStraight_iff hlen
  unfold evaluateFive
  dsimp only
  rw [← ranksOf, pairs_eq, ← isFlush]
  split
  · rename_i high hf hs
    have htop := (hrun high).mp hs
    have hc : Category cards .straightFlush := .of ⟨hflush.mp hf, high, htop⟩ tops_straightFlush
    exact hc.plays_run (Or.inr rfl) htop
  rename_i hboth
  have hSF : ¬Made cards .straightFlush := by
    intro hmade
    obtain ⟨hsuited, top, htop⟩ := hmade
    exact hboth top (hflush.mpr hsuited) ((hrun top).mpr htop)
  have htops : Tops cards .fourOfAKind := tops_straightFlush.next hSF rfl
  split
  · rename_i rank h4
    exact plays_four hlen hn htops (find_some h4)
  rename_i h4
  have hfours := find_none h4
  have htops : Tops cards .fullHouse := htops.next (fun hmade => hmade.elim (rankCount_ne hfours)) rfl
  split
  · rename_i trips pair h3 h2
    exact plays_fullHouse hlen hn htops (find_some h3) (find_some h2)
  rename_i hnot
  have hFull : ¬Made cards .fullHouse := by
    intro hmade
    obtain ⟨r, s, hr, hs⟩ := hmade
    cases h3 : Rank.all.find? fun rank => rankCount cards rank == 3 with
    | none => exact rankCount_ne (find_none h3) r hr
    | some trips =>
      cases h2 : Rank.all.find? fun rank => rankCount cards rank == 2 with
      | none => exact rankCount_ne (find_none h2) s hs
      | some pair => exact hnot trips pair h3 h2
  have htops : Tops cards .flush := htops.next hFull rfl
  split
  · rename_i hf
    exact plays_flush hn htops (hflush.mp hf)
  rename_i hf
  have htops : Tops cards .straight := htops.next (fun hmade => hf (hflush.mpr hmade)) rfl
  split
  · rename_i high hs
    have htop := (hrun high).mp hs
    have hc : Category cards .straight := .of ⟨high, htop⟩ htops
    exact hc.plays_run (Or.inl rfl) htop
  rename_i hs
  have hStraight : ¬Made cards .straight := by
    intro hmade
    obtain ⟨top, htop⟩ := hmade
    rw [(hrun top).mpr htop] at hs
    cases hs
  have htops : Tops cards .threeOfAKind := htops.next hStraight rfl
  split
  · rename_i rank h3
    exact plays_three hlen hn htops hFull (find_some h3)
  rename_i h3
  have hthrees := find_none h3
  have htops : Tops cards .twoPair := htops.next (fun hmade => hmade.elim (rankCount_ne hthrees)) rfl
  split
  · rename_i high low rest htwos
    exact plays_twoPair hlen hn htops hthrees htwos
  · rename_i rank htwos
    exact plays_pair hn htops hfours hthrees htwos
  · rename_i htwos
    exact plays_highCard hn htops hfours hthrees htwos

/-! ## Comparing -/

section comparing
variable {a b : List Card} {rank rank' : HandRank} {ranks ranks' : List Rank} {e e' : HandEvaluation} {top top' : Rank}

theorem Category.unique (h : Category cards rank) (h' : Category cards rank') : rank = rank' :=
  HandRank.value_inj (Nat.le_antisymm (h'.highest rank h.made) (h.highest rank' h'.made))

theorem RunTo.unique (hlen : cards.length = 5) (h : RunTo cards top) (h' : RunTo cards top') : top = top' := by
  have hfound := (checkStraight_iff hlen).mpr h
  rw [(checkStraight_iff hlen).mpr h'] at hfound
  exact (Option.some.inj hfound).symm

theorem Plays.unique (hlen : cards.length = 5) (h : Plays cards rank ranks) (h' : Plays cards rank' ranks') :
    rank = rank' ∧ ranks = ranks' := by
  obtain rfl := h.category.unique h'.category
  refine ⟨rfl, ?_⟩
  by_cases hrun : rank = .straight ∨ rank = .straightFlush
  · obtain ⟨top, htop, rfl⟩ := h.run hrun
    obtain ⟨top', htop', rfl⟩ := h'.run hrun
    rw [htop.unique hlen htop']
  · rw [not_or] at hrun
    rw [h.made hrun.1 hrun.2, h'.made hrun.1 hrun.2]

theorem compareKickers_gt : compareKickers ranks ranks' = .gt ↔ ranks'.map Rank.value < ranks.map Rank.value := by
  unfold compareKickers
  induction ranks generalizing ranks' with
  | nil =>
    cases ranks' with
    | nil => simp [List.compareLex]
    | cons s ranks' => simp [List.compareLex]
  | cons r ranks ih =>
    cases ranks' with
    | nil => simp [List.compareLex]
    | cons s ranks' =>
      rw [List.compareLex_cons_cons, List.map_cons, List.map_cons, List.cons_lt_cons_iff, ← ih]
      rcases Nat.lt_trichotomy r.value s.value with hlt | heq | hgt
      · have hcmp : compareOn Rank.value r s = .lt := Nat.compare_eq_lt.mpr hlt
        rw [hcmp]
        simp
        omega
      · have hcmp : compareOn Rank.value r s = .eq := by simpa [compareOn] using heq
        rw [hcmp]
        simp [heq]
      · have hcmp : compareOn Rank.value r s = .gt := Nat.compare_eq_gt.mpr hgt
        rw [hcmp]
        simp [hgt]

theorem compareHands_gt : compareHands e e' = .gt ↔
    e'.rank.value < e.rank.value ∨ e'.rank = e.rank ∧ e'.kickers.map Rank.value < e.kickers.map Rank.value := by
  rw [← compareKickers_gt, compareHands, compareLex]
  rcases Nat.lt_trichotomy e.rank.value e'.rank.value with hlt | heq | hgt
  · have hcmp : compareOn (fun e : HandEvaluation => e.rank.value) e e' = .lt := Nat.compare_eq_lt.mpr hlt
    have hne : e'.rank ≠ e.rank := fun he => by rw [he] at hlt; exact Nat.lt_irrefl _ hlt
    rw [hcmp]
    simp [hne]
    omega
  · have hcmp : compareOn (fun e : HandEvaluation => e.rank.value) e e' = .eq := by simpa [compareOn] using heq
    rw [hcmp]
    simp [HandRank.value_inj heq]
  · have hcmp : compareOn (fun e : HandEvaluation => e.rank.value) e e' = .gt := Nat.compare_eq_gt.mpr hgt
    rw [hcmp]
    simp [hgt]

/-- The greater value is the stronger hand. -/
theorem beats_iff (ha : a.length = 5) (hna : a.Nodup) (hb : b.length = 5) (hnb : b.Nodup) :
    compareHands (evaluateFive a) (evaluateFive b) = .gt ↔ Beats a b := by
  rw [compareHands_gt]
  constructor
  · intro h
    exact ⟨_, _, _, _, evaluateFive_plays ha hna, evaluateFive_plays hb hnb, h⟩
  · intro h
    obtain ⟨rank, ranks, rank', ranks', hpa, hpb, hwins⟩ := h
    obtain ⟨rfl, rfl⟩ := hpa.unique ha (evaluateFive_plays ha hna)
    obtain ⟨rfl, rfl⟩ := hpb.unique hb (evaluateFive_plays hb hnb)
    exact hwins

theorem exists_held : (∃ r, rankCount cards r = k) ↔ 0 < (held cards k).length := by
  rw [List.length_pos_iff_exists_mem]
  exact exists_congr fun r => mem_held.symm

theorem made_twoPair : Made cards .twoPair ↔ 2 ≤ (held cards 2).length := by
  constructor
  · intro hmade
    obtain ⟨r, s, hne, hr, hs⟩ := hmade
    have hsub : [r, s].Subperm (held cards 2) := List.Nodup.subperm (by simpa using hne) fun x hx => by
      rcases List.mem_cons.mp hx with rfl | hx
      · exact mem_held.mpr hr
      · rw [List.mem_singleton.mp hx]
        exact mem_held.mpr hs
    exact hsub.length_le
  · intro hlen
    have hsorted : (held cards 2).Pairwise fun a b => b.value < a.value := held_sorted
    match hl : held cards 2, hlen with
    | r :: s :: rest, _ =>
      rw [hl] at hsorted
      have hlt := (List.pairwise_cons.mp hsorted).1 s List.mem_cons_self
      refine ⟨r, s, fun he => Nat.lt_irrefl _ (he ▸ hlt), mem_held.mp ?_, mem_held.mp ?_⟩
      · rw [hl]; exact List.mem_cons_self
      · rw [hl]; exact List.mem_cons_of_mem _ List.mem_cons_self

theorem made_fullHouse : Made cards .fullHouse ↔ 0 < (held cards 3).length ∧ 0 < (held cards 2).length := by
  rw [← exists_held, ← exists_held]
  exact ⟨fun ⟨r, s, hr, hs⟩ => ⟨⟨r, hr⟩, s, hs⟩, fun ⟨⟨r, hr⟩, s, hs⟩ => ⟨r, s, hr, hs⟩⟩

/-- How many ranks of each kind a category has. -/
def HandRank.shape : HandRank → Nat × Nat × Nat × Nat
  | .fourOfAKind => (1, 0, 0, 1)
  | .fullHouse => (0, 1, 1, 0)
  | .threeOfAKind => (0, 1, 0, 2)
  | .twoPair => (0, 0, 2, 1)
  | .pair => (0, 0, 1, 3)
  | _ => (0, 0, 0, 5)

theorem Category.shape (hlen : cards.length = 5) (hn : cards.Nodup) (hc : Category cards rank)
    (hrun : ¬(rank = .straight ∨ rank = .straightFlush)) :
    ((held cards 4).length, (held cards 3).length, (held cards 2).length, (held cards 1).length) = rank.shape := by
  have hlengths := held_lengths hlen hn
  have hnot : ∀ rank', rank.value < rank'.value → ¬Made cards rank' := fun rank' hlt hmade =>
    absurd (hc.highest rank' hmade) (Nat.not_le_of_lt hlt)
  have hmade := hc.made
  have hfour : Made cards .fourOfAKind ↔ 0 < (held cards 4).length := exists_held
  have hthree : Made cards .threeOfAKind ↔ 0 < (held cards 3).length := exists_held
  have hpair : Made cards .pair ↔ 0 < (held cards 2).length := exists_held
  have htwoPair : Made cards .twoPair ↔ 2 ≤ (held cards 2).length := made_twoPair
  have hfull : Made cards .fullHouse ↔ 0 < (held cards 3).length ∧ 0 < (held cards 2).length := made_fullHouse
  have hno4 := hnot .fourOfAKind
  have hno32 := hnot .fullHouse
  have hno3 := hnot .threeOfAKind
  have hno22 := hnot .twoPair
  have hno2 := hnot .pair
  rw [hfour] at hno4
  rw [hfull] at hno32
  rw [hthree] at hno3
  rw [htwoPair] at hno22
  rw [hpair] at hno2
  cases rank with
  | straight => exact absurd (Or.inl rfl) hrun
  | straightFlush => exact absurd (Or.inr rfl) hrun
  | flush =>
    have hone : ∀ k, 2 ≤ k → (held cards k).length = 0 := fun k hk => by
      rw [held_nil fun r hr => ?_]
      · rfl
      · have hle := Suited.rankCount_le hmade hn r
        omega
    have h4 := hone 4 (by decide)
    have h3 := hone 3 (by decide)
    have h2 := hone 2 (by decide)
    simp only [HandRank.shape, Prod.mk.injEq]
    omega
  | fourOfAKind =>
    rw [hfour] at hmade
    simp only [HandRank.shape, Prod.mk.injEq]
    omega
  | fullHouse =>
    rw [hfull] at hmade
    simp only [HandRank.shape, Prod.mk.injEq]
    omega
  | threeOfAKind =>
    rw [hthree] at hmade
    have hno32 := hno32 (by decide)
    simp only [HandRank.shape, Prod.mk.injEq]
    omega
  | twoPair =>
    rw [htwoPair] at hmade
    have hno3 := hno3 (by decide)
    simp only [HandRank.shape, Prod.mk.injEq]
    omega
  | pair =>
    rw [hpair] at hmade
    have hno3 := hno3 (by decide)
    have hno22 := hno22 (by decide)
    simp only [HandRank.shape, Prod.mk.injEq]
    omega
  | highCard =>
    have hno4 := hno4 (by decide)
    have hno3 := hno3 (by decide)
    have hno2 := hno2 (by decide)
    simp only [HandRank.shape, Prod.mk.injEq]
    omega

/-- The ranks that count tell all the ranks. -/
theorem Category.ranks_perm (ha : a.length = 5) (hna : a.Nodup) (hb : b.length = 5) (hnb : b.Nodup) (hca : Category a rank)
    (hcb : Category b rank) (hrun : ¬(rank = .straight ∨ rank = .straightFlush)) (hgroups : groups a = groups b) :
    (a.map (·.rank)).Perm (b.map (·.rank)) := by
  have hshape := (hca.shape ha hna hrun).trans (hcb.shape hb hnb hrun).symm
  simp only [Prod.mk.injEq] at hshape
  obtain ⟨h4, h3, h2, h1⟩ := hshape
  unfold groups at hgroups
  rw [List.append_assoc, List.append_assoc, List.append_assoc, List.append_assoc] at hgroups
  obtain ⟨hfours, hgroups⟩ := List.append_inj hgroups h4
  obtain ⟨hthrees, hgroups⟩ := List.append_inj hgroups h3
  obtain ⟨htwos, hones⟩ := List.append_inj hgroups h2
  refine List.perm_iff_count.mpr ?_
  intro r
  rw [← rankCount_eq, ← rankCount_eq]
  have hfour : rankCount a r = 4 ↔ rankCount b r = 4 := by rw [← mem_held, ← mem_held, hfours]
  have hthree : rankCount a r = 3 ↔ rankCount b r = 3 := by rw [← mem_held, ← mem_held, hthrees]
  have htwo : rankCount a r = 2 ↔ rankCount b r = 2 := by rw [← mem_held, ← mem_held, htwos]
  have hone : rankCount a r = 1 ↔ rankCount b r = 1 := by rw [← mem_held, ← mem_held, hones]
  have hle := rankCount_le_four hna r
  have hle' := rankCount_le_four hnb r
  omega

/-- So does the highest card of a straight. -/
theorem RunTo.ranks_perm (ha : RunTo a top) (hb : RunTo b top) : (a.map (·.rank)).Perm (b.map (·.rank)) := by
  rcases ha with ha | ⟨hfive, ha⟩ <;> rcases hb with hb | ⟨hfive', hb⟩
  · have hvalues := ha.trans hb.symm
    rw [rank_values Rank.value, rank_values Rank.value] at hvalues
    exact (List.map_perm_map_iff fun _ _ => Rank.value_inj).mp hvalues
  · have hsix := six_le_top ha
    rw [hfive'] at hsix
    exact absurd hsix (by decide)
  · have hsix := six_le_top hb
    rw [hfive] at hsix
    exact absurd hsix (by decide)
  · have hvalues := ha.trans hb.symm
    rw [rank_values Rank.lowValue, rank_values Rank.lowValue] at hvalues
    exact (List.map_perm_map_iff fun _ _ => Rank.lowValue_inj).mp hvalues

/-- One suit shows in the category. -/
theorem Category.suited (hn : cards.Nodup) (hc : Category cards rank) :
    Suited cards ↔ rank = .flush ∨ rank = .straightFlush := by
  constructor
  · intro hs
    have hge := hc.highest .flush hs
    have hmade := hc.made
    cases rank with
    | flush => exact Or.inl rfl
    | straightFlush => exact Or.inr rfl
    | fullHouse =>
      obtain ⟨r, _, hr, _⟩ := hmade
      have hle := hs.rankCount_le hn r
      omega
    | fourOfAKind =>
      obtain ⟨r, hr⟩ := hmade
      have hle := hs.rankCount_le hn r
      omega
    | highCard | pair | twoPair | threeOfAKind | straight => exact absurd hge (by decide)
  · intro h
    rcases h with rfl | rfl
    · exact hc.made
    · exact hc.made.1

/-- Equal values are the hands the rules tie. -/
theorem ties_iff (ha : a.length = 5) (hna : a.Nodup) (hb : b.length = 5) (hnb : b.Nodup) :
    ((evaluateFive a).rank = (evaluateFive b).rank ∧ (evaluateFive a).kickers = (evaluateFive b).kickers) ↔ Ties a b := by
  have hpa := evaluateFive_plays ha hna
  have hpb := evaluateFive_plays hb hnb
  constructor
  · intro h
    obtain ⟨hrank, hkickers⟩ := h
    rw [← hrank, ← hkickers] at hpb
    refine ⟨?_, (hpa.category.suited hna).trans (hpb.category.suited hnb).symm⟩
    by_cases hrun : (evaluateFive a).rank = .straight ∨ (evaluateFive a).rank = .straightFlush
    · obtain ⟨top, htop, he⟩ := hpa.run hrun
      obtain ⟨top', htop', he'⟩ := hpb.run hrun
      obtain rfl : top = top' := by simpa using he.symm.trans he'
      exact htop.ranks_perm htop'
    · have hne := not_or.mp hrun
      exact hpa.category.ranks_perm ha hna hb hnb hpb.category hrun
        ((hpa.made hne.1 hne.2).symm.trans (hpb.made hne.1 hne.2))
  · intro h
    obtain ⟨hranks, hsuited⟩ := h
    have hflush : isFlush a = isFlush b := by rw [Bool.eq_iff_iff, isFlush_iff ha, isFlush_iff hb, hsuited]
    rw [evaluateFive_congr hranks hflush]
    exact ⟨rfl, rfl⟩

/-- No straight is below the one to the five. -/
theorem wheel_lowest (ha : a.length = 5) (hna : a.Nodup) (hb : b.length = 5) (hnb : b.Nodup)
    (hrank : rank = .straight ∨ rank = .straightFlush) (hca : Category a rank) (hcb : Category b rank) (hwheel : RunTo a .five) :
    (compareHands (evaluateFive a) (evaluateFive b)).isLE = true := by
  have hpa := evaluateFive_plays ha hna
  have hpb := evaluateFive_plays hb hnb
  have hra := hpa.category.unique hca
  have hrb := hpb.category.unique hcb
  obtain ⟨top, htop, he⟩ := hpa.run (hra ▸ hrank)
  obtain ⟨top', htop', he'⟩ := hpb.run (hrb ▸ hrank)
  obtain rfl := htop.unique ha hwheel
  have hfive : 5 ≤ top'.value := by
    rcases htop' with h | ⟨rfl, _⟩
    · have hsix := six_le_top h
      omega
    · decide
  cases hcmp : compareHands (evaluateFive a) (evaluateFive b) with
  | lt => rfl
  | eq => rfl
  | gt =>
    rcases compareHands_gt.mp hcmp with hlt | ⟨_, hlt⟩
    · rw [hra, hrb] at hlt
      exact absurd hlt (Nat.lt_irrefl _)
    · rw [he, he'] at hlt
      rcases List.cons_lt_cons_iff.mp hlt with hlt | ⟨_, hlt⟩
      · exact absurd hlt (Nat.not_lt_of_le hfive)
      · cases hlt

end comparing

end rules

/-- A hand of five or more cards has the value of its best five, whatever their order and however
    they are split, and another card never lowers it; and the values of two hands of five compare
    as the rules say, with the straight to the five the lowest. -/
theorem best_five_wins :
    (∀ holeCards board : List Card, 5 ≤ (holeCards ++ board).length →
      BestFive (holeCards ++ board) (evaluateHand holeCards board) ∧
      (∀ holeCards' board', (holeCards ++ board).Perm (holeCards' ++ board') →
        (evaluateHand holeCards board).rank = (evaluateHand holeCards' board').rank ∧
          (evaluateHand holeCards board).kickers = (evaluateHand holeCards' board').kickers) ∧
      ∀ card holeCards' board', (card :: (holeCards ++ board)).Perm (holeCards' ++ board') →
        (compareHands (evaluateHand holeCards board) (evaluateHand holeCards' board')).isLE = true) ∧
      ∀ a b : List Card, a.length = 5 → a.Nodup → b.length = 5 → b.Nodup →
        (compareHands (evaluateFive a) (evaluateFive b) = .gt ↔ Beats a b) ∧
        ((evaluateFive a).rank = (evaluateFive b).rank ∧ (evaluateFive a).kickers = (evaluateFive b).kickers ↔ Ties a b) ∧
        ∀ rank, rank = .straight ∨ rank = .straightFlush → Category a rank → Category b rank → RunTo a .five →
          (compareHands (evaluateFive a) (evaluateFive b)).isLE = true := by
  constructor
  · intro holeCards board hlen
    have hbest := evaluateHand_best hlen
    refine ⟨hbest, ?_, ?_⟩
    · intro holeCards' board' hperm
      exact hbest.congr (evaluateHand_best (hperm.length_eq ▸ hlen)) hperm
    · intro card holeCards' board' hperm
      have hlen' : 5 ≤ (holeCards' ++ board').length := by
        rw [← hperm.length_eq, List.length_cons]
        omega
      exact hbest.mono (evaluateHand_best hlen') ((List.sublist_cons_self _ _).subperm.trans hperm.subperm)
  · intro a b ha hna hb hnb
    exact ⟨beats_iff ha hna hb hnb, ties_iff ha hna hb hnb, fun rank hrank hca hcb => wheel_lowest ha hna hb hnb hrank hca hcb⟩

end OpenFelt
