/-
  OpenFelt.Game.HandRank — hand evaluation (`src/game/hand.rs`).

  A hand of five or more cards is worth the best of its five-card combinations; two
  values compare by category, then by kickers lexicographically (`compareHands`).
  The source counts ranks and suits in hash maps whose iteration order is
  unspecified; every search it makes over them has at most one answer in the cards it
  is made for, so the model searches the ranks in a fixed order.
-/

import OpenFelt.Game.Card
import OpenFelt.Lib.Vec

namespace OpenFelt

inductive HandRank where
  | highCard
  | pair
  | twoPair
  | threeOfAKind
  | straight
  | flush
  | fullHouse
  | fourOfAKind
  | straightFlush
  deriving DecidableEq, Repr, Inhabited

/-- The discriminant `rank as u32`. -/
def HandRank.value : HandRank → Nat
  | highCard => 0
  | pair => 1
  | twoPair => 2
  | threeOfAKind => 3
  | straight => 4
  | flush => 5
  | fullHouse => 6
  | fourOfAKind => 7
  | straightFlush => 8

structure HandEvaluation where
  rank : HandRank
  /-- Category-defining ranks, then every remaining kicker, strongest first. -/
  kickers : List Rank
  description : String
  deriving DecidableEq, Repr, Inhabited

def rankName : Rank → String
  | .two => "twos"
  | .three => "threes"
  | .four => "fours"
  | .five => "fives"
  | .six => "sixes"
  | .seven => "sevens"
  | .eight => "eights"
  | .nine => "nines"
  | .ten => "tens"
  | .jack => "jacks"
  | .queen => "queens"
  | .king => "kings"
  | .ace => "aces"

/-! ## Comparing -/

def compareKickers : List Rank → List Rank → Ordering := List.compareLex (compareOn Rank.value)

def compareHands (left right : HandEvaluation) : Ordering :=
  compareLex (compareOn fun e => e.rank.value) (fun l r => compareKickers l.kickers r.kickers) left right

/-! ## Five cards -/

def rankCount (cards : List Card) (rank : Rank) : Nat := cards.countP (·.rank == rank)

def suitCount (cards : List Card) (suit : Suit) : Nat := cards.countP (·.suit == suit)

def sortDescending (ranks : List Rank) : List Rank := ranks.insertionSort fun a b => b.value ≤ a.value

/-- The high card of a straight among ranks sorted downwards; a wheel is five high. -/
def checkStraight (sortedRanks : List Rank) : Option Rank :=
  if sortedRanks.length < 5 then none
  else if [Rank.ace, .two, .three, .four, .five].all sortedRanks.contains then some .five
  else ((List.range (sortedRanks.length - 4)).map fun i => (sortedRanks.drop i).take 5).findSome? fun window =>
    match window with
    | [high, _, _, _, low] => if high.value = low.value + 4 then some high else none
    | _ => none

def evaluateFive (cards : List Card) : HandEvaluation :=
  let isFlush := [Suit.spades, .hearts, .diamonds, .clubs].any fun suit => 5 ≤ suitCount cards suit
  let ranks := Vec.dedup (sortDescending (cards.map (·.rank)))
  let straightHigh := checkStraight ranks
  let trips := Rank.all.find? fun rank => rankCount cards rank == 3
  let pair := Rank.all.find? fun rank => rankCount cards rank == 2
  let pairs := sortDescending (Rank.all.filter fun rank => rankCount cards rank == 2)
  match isFlush, straightHigh with
  | true, some high => ⟨.straightFlush, [high], rankName high ++ " high straight flush"⟩
  | _, _ =>
  match Rank.all.find? fun rank => rankCount cards rank == 4 with
  | some rank => ⟨.fourOfAKind, rank :: ranks.filter (· != rank), "Four of a kind, " ++ rankName rank⟩
  | none =>
  match trips, pair with
  | some trips, some pair =>
    ⟨.fullHouse, [trips, pair], "Full house, " ++ rankName trips ++ " full of " ++ rankName pair⟩
  | _, _ =>
  if isFlush then ⟨.flush, ranks, rankName (ranks.headD .two) ++ " high flush"⟩
  else
  match straightHigh with
  | some high => ⟨.straight, [high], rankName high ++ " high straight"⟩
  | none =>
  match trips with
  | some rank => ⟨.threeOfAKind, rank :: ranks.filter (· != rank), "Three of a kind, " ++ rankName rank⟩
  | none =>
  match pairs with
  | high :: low :: rest =>
    ⟨.twoPair, high :: low :: rest ++ ranks.filter (fun rank => rank != high && rank != low),
      "Two pair, " ++ rankName high ++ " and " ++ rankName low⟩
  | [rank] => ⟨.pair, rank :: ranks.filter (· != rank), "Pair of " ++ rankName rank⟩
  | [] => ⟨.highCard, ranks, rankName (ranks.headD .two) ++ " high"⟩

/-! ## All the cards -/

/-- Fewer than five cards: an estimate by made ranks only. -/
def evaluatePartial (cards : List Card) : HandEvaluation :=
  let ranks := sortDescending (cards.map (·.rank))
  let pairs := sortDescending (Rank.all.filter fun rank => rankCount cards rank == 2)
  match ranks with
  | [] => ⟨.highCard, [], "No cards"⟩
  | highCard :: _ =>
  match Rank.all.find? fun rank => rankCount cards rank == 4 with
  | some rank => ⟨.fourOfAKind, [rank], "Four of a kind, " ++ rankName rank⟩
  | none =>
  match Rank.all.find? fun rank => rankCount cards rank == 3 with
  | some rank => ⟨.threeOfAKind, [rank], "Three of a kind, " ++ rankName rank⟩
  | none =>
  match pairs with
  | high :: _ :: _ => ⟨.twoPair, [high], "Two pair"⟩
  | [rank] => ⟨.pair, [rank], "Pair of " ++ rankName rank⟩
  | [] => ⟨.highCard, ranks, rankName highCard ++ " high"⟩

def combinations : Nat → List Card → List (List Card)
  | 0, _ => [[]]
  | _ + 1, [] => []
  | k + 1, card :: rest => (combinations k rest).map (card :: ·) ++ combinations (k + 1) rest

/-- The best five cards, the first of equals, with its value. -/
def evaluateBestFive (holeCards board : List Card) : Option (HandEvaluation × List Card) :=
  (combinations 5 (holeCards ++ board)).foldl
    (fun best cards =>
      let evaluation := evaluateFive cards
      match best with
      | none => some (evaluation, cards)
      | some (current, _) => if compareHands evaluation current == .gt then some (evaluation, cards) else best)
    none

def evaluateHand (holeCards board : List Card) : HandEvaluation :=
  let allCards := holeCards ++ board
  if allCards.length < 5 then evaluatePartial allCards
  else
    match evaluateBestFive holeCards board with
    | some (evaluation, _) => evaluation
    | none => ⟨.highCard, [], "Unknown"⟩

/-! ## `compareHands` is a total preorder -/

instance : Std.TransCmp compareKickers := inferInstanceAs (Std.TransCmp (List.compareLex _))

instance : Std.TransCmp fun l r : HandEvaluation => compareKickers l.kickers r.kickers where
  eq_swap := (inferInstance : Std.OrientedCmp compareKickers).eq_swap
  isLE_trans := (inferInstance : Std.TransCmp compareKickers).isLE_trans

instance : Std.TransCmp compareHands := inferInstanceAs (Std.TransCmp (compareLex _ _))

end OpenFelt
