/-
  OpenFelt.Game.Card — cards and the deck (`src/game/deck.rs`).

  A deck is its card order and the index of the next card to deal. Shuffling is the
  environment's: a hand is started from any order of the 52 cards (`Deck.Shuffled`).
-/

import Mathlib.Algebra.GroupWithZero.Nat
import Mathlib.Algebra.Ring.Int.Defs

namespace OpenFelt

inductive Suit where
  | spades
  | hearts
  | diamonds
  | clubs
  deriving DecidableEq, Repr

inductive Rank where
  | two
  | three
  | four
  | five
  | six
  | seven
  | eight
  | nine
  | ten
  | jack
  | queen
  | king
  | ace
  deriving DecidableEq, Repr

/-- The discriminant `rank as u8`. -/
def Rank.value : Rank → Nat
  | two => 2
  | three => 3
  | four => 4
  | five => 5
  | six => 6
  | seven => 7
  | eight => 8
  | nine => 9
  | ten => 10
  | jack => 11
  | queen => 12
  | king => 13
  | ace => 14

def Rank.all : List Rank :=
  [.two, .three, .four, .five, .six, .seven, .eight, .nine, .ten, .jack, .queen, .king, .ace]

structure Card where
  rank : Rank
  suit : Suit
  deriving DecidableEq, Repr

structure Deck where
  cards : List Card
  index : Nat
  deriving DecidableEq, Repr

namespace Deck

def new : Deck :=
  ⟨[Suit.spades, Suit.hearts, Suit.diamonds, Suit.clubs].flatMap fun suit => Rank.all.map fun rank => ⟨rank, suit⟩, 0⟩

def deal (d : Deck) : Option Card × Deck :=
  match d.cards[d.index]? with
  | some card => (some card, { d with index := d.index + 1 })
  | none => (none, d)

def dealN (d : Deck) : Nat → List Card × Deck
  | 0 => ([], d)
  | n + 1 =>
    match d.deal with
    | (some card, d') => let (rest, d'') := dealN d' n; (card :: rest, d'')
    | (none, d') => dealN d' n

/-- Any order `shuffle_with` can leave: the 52 cards, dealt from the first. -/
def Shuffled (d : Deck) : Prop := d.cards.Perm new.cards ∧ d.index = 0

theorem new_shuffled : new.Shuffled := ⟨.refl _, rfl⟩

/-- The next `n` cards, fewer when the deck runs out. -/
def upcoming (d : Deck) (n : Nat) : List Card := (d.cards.drop d.index).take n

@[simp] theorem dealN_zero (d : Deck) : d.dealN 0 = ([], d) := rfl

theorem deal_of_lt {d : Deck} (h : d.index < d.cards.length) :
    d.deal = (some d.cards[d.index], { d with index := d.index + 1 }) := by
  simp [deal, List.getElem?_eq_getElem h]

theorem deal_of_le {d : Deck} (h : d.cards.length ≤ d.index) : d.deal = (none, d) := by
  simp [deal, List.getElem?_eq_none h]

/-- Dealing `n` cards hands out the next `n` and moves the index past them. -/
theorem dealN_eq (d : Deck) (n : Nat) (h : d.index + n ≤ d.cards.length) :
    d.dealN n = (d.upcoming n, { d with index := d.index + n }) := by
  induction n generalizing d with
  | zero => simp [upcoming]
  | succ n ih =>
    have hlt : d.index < d.cards.length := by omega
    have hd := List.drop_eq_getElem_cons hlt
    simp only [dealN, deal_of_lt hlt]
    rw [ih _ (by simp only; omega)]
    simp only [upcoming, hd, List.take_succ_cons, Nat.add_assoc, Nat.add_comm 1 n]

theorem upcoming_length (d : Deck) (n : Nat) (h : d.index + n ≤ d.cards.length) : (d.upcoming n).length = n := by
  simp only [upcoming, List.length_take, List.length_drop]; omega

theorem new_length : new.cards.length = 52 := rfl

theorem Shuffled.length {d : Deck} (h : d.Shuffled) : d.cards.length = 52 := h.1.length_eq.trans new_length

end Deck

end OpenFelt
