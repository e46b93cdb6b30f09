/-
  OpenFelt.Trainer.Policy — the heuristic opponents (`src/trainer/policy.rs`).

  An opponent reads its own observation and its own generator. The rates it plays at only
  weigh what the generator answers, and any answer is possible of a run, so the answers
  are an argument here (`Draws`).

  Proved (`choose_legal`): whatever the style and the draws, the choice is on the menu of
  the observation it was made for.
-/

import OpenFelt.Trainer.Facts

namespace OpenFelt.Trainer

inductive Profile where
  | fundamentals
  | recreational
  | competent
  deriving DecidableEq, Repr

inductive Style where
  | tight
  | balanced
  | loose
  deriving DecidableEq, Repr

inductive Difficulty where
  | beginner
  | practiced
  deriving DecidableEq, Repr

/-- A double that is finite is a rational; `none` is an infinity or no number. -/
abbrev Rate := Option Rat

structure PolicySettings where
  profile : Profile
  style : Style
  difficulty : Difficulty
  aggression : Rate
  bluffRate : Rate
  mistakeRate : Rate
  deriving DecidableEq, Repr

/-- What the generator answers one choice: to play against the rule, to bluff, and to go ahead with it. -/
structure Draws where
  mistake : Bool
  bluff : Bool
  aggressive : Bool
  deriving DecidableEq, Repr

/-! ## What the policy reads -/

inductive TablePosition where
  | early
  | middle
  | late
  | smallBlind
  | bigBlind
  deriving DecidableEq, Repr

namespace Observation

variable (o : Observation)

def callCost : Nat :=
  match o.own with
  | some own => min (o.wager - own.streetContribution) own.stack
  | none => 0

def tablePosition : TablePosition :=
  if o.actor = o.button then .late
  else if o.actor = o.smallBlind then .smallBlind
  else if o.actor = o.bigBlind then .bigBlind
  else
    -- folded seats keep their place
    let active := (o.seats.filter (·.participation ≠ .notDealt)).map (·.seat)
    let place (seat : SeatId) : Nat := (active.findIdx? (· == seat)).getD 0
    let distanceToButton := (place o.button + active.length - place o.actor) % active.length
    if distanceToButton ≤ 1 then .late
    else
      let earlyFrom :=
        if active.length ≤ 5 then 2
        else if active.length = 6 then 3
        else if active.length ≤ 8 then 4
        else 5
      if earlyFrom ≤ distanceToButton then .early else .middle

/-- Somebody has raised or gone all-in in this hand. -/
def raised : Bool := o.history.any fun entry =>
  match entry.2 with
  | .raise _ | .allIn _ => true
  | _ => false

/-- Four ranks of an ascending list that follow each other. -/
def fourInRow : List Nat → Bool
  | [] => false
  | low :: ranks => (ranks[2]?).any (fun top => top - low = 3) || fourInRow ranks

def hasFlushOrOpenEndedDraw : Bool :=
  let cards := o.holeCards ++ o.board
  let flush := [Suit.spades, Suit.hearts, Suit.diamonds, Suit.clubs].any fun suit => suitCount cards suit = 4
  let ranks := (Rank.all.map Rank.value).filter fun value => cards.any (·.rank.value == value)
  let ranks := if ranks.contains 14 then 1 :: ranks else ranks
  flush || fourInRow ranks

end Observation

def preflopRange (base looseExtra suitedConnector late raised : Bool) (style : Style) : Bool :=
  let enters := base || (style = .loose && looseExtra) || (style ≠ .tight && late && suitedConnector)
  enters && (!raised || base || (style = .loose && late))

def Profile.priceLimit : Profile → Nat
  | fundamentals => 4
  | recreational => 10
  | competent => 3

def Style.price (style : Style) (priceLimit : Nat) : Nat :=
  match style with
  | tight => priceLimit - 1
  | balanced => priceLimit
  | loose => priceLimit + 2

def saturatingMul (a b : Nat) : Nat := min (a * b) u32Max

/-! ## The choice -/

structure Opponent where
  settings : PolicySettings
  deriving DecidableEq, Repr

/-- The wager the opponent would like to bring the street to. -/
def Opponent.desired (o : Observation) (late raised strong : Bool) : Nat :=
  if o.board.isEmpty then
    let opening := if late then 2 else 3
    if raised then saturatingAdd o.wager (saturatingMul o.bigBlindChips 3)
    else saturatingMul o.bigBlindChips opening
  else
    let fraction := if strong then 2 else 1
    saturatingAdd o.wager (max (saturatingMul o.pot fraction / 3) o.bigBlindChips)

/-- The end of `choose`: the wager where one is wanted and can be made, else check or call, else a fold. -/
def Observation.resolve (o : Observation) (push : Bool) (desired : Nat) (keep : Bool) : Action :=
  let passive := if o.legal.canCheck || keep then o.checkCall else .fold
  match o.legal.minRaiseTo.or o.legal.minBetTo with
  | some least =>
    if push then
      let wager := min (max desired least) (o.legal.allInTo - 1)
      if o.legal.minRaiseTo.isSome then .raise wager else .bet wager
    else passive
  | none => passive

def Opponent.choose (opponent : Opponent) (draws : Draws) (o : Observation) : Action :=
  match o.holeCards with
  | a :: b :: _ =>
    let high := max a.rank.value b.rank.value
    let low := min a.rank.value b.rank.value
    let premium : Bool := (a.rank = b.rank && 10 ≤ high) || (high = 14 && 12 ≤ low)
    let baseRange : Bool := a.rank = b.rank || (11 ≤ high && 10 ≤ low) || (high = 14 && a.suit = b.suit)
    let late : Bool := o.tablePosition = .late || o.tablePosition = .smallBlind
    let suitedConnector : Bool := a.suit = b.suit && high - low ≤ 1 && 7 ≤ high
    let looseExtra : Bool := (late && (high = 14 || (11 ≤ high && 8 ≤ low))) || suitedConnector
    let raised := o.raised
    let range := preflopRange baseRange looseExtra suitedConnector late raised opponent.settings.style
    let rank := (evaluateHand o.holeCards o.board).rank.value
    let strong : Bool := if o.board.isEmpty then premium else HandRank.twoPair.value ≤ rank
    let draw : Bool := !o.board.isEmpty && o.hasFlushOrOpenEndedDraw
    let playable : Bool :=
      if o.board.isEmpty then range && (!raised || premium || (late && baseRange))
      else HandRank.pair.value ≤ rank || draw
    let push := (strong || draws.bluff) && draws.aggressive
    let keep := strong || (playable && o.callCost ≤ o.bigBlindChips *
      opponent.settings.style.price opponent.settings.profile.priceLimit) || draws.mistake
    o.resolve push (Opponent.desired o late raised strong) keep
  -- an observation holds two cards
  | _ => .fold

/-! ## It is on the menu -/

namespace Opponent

variable {opponent : Opponent} {draws : Draws} {o : Observation}

/-- A raise or bet between the least and the last chip, check or call, or a fold where there is something to call. -/
inductive OnMenu (o : Observation) : Action → Prop
  | raise {least desired : Nat} : o.legal.minRaiseTo = some least →
      OnMenu o (.raise (min (max desired least) (o.legal.allInTo - 1)))
  | bet {least desired : Nat} : o.legal.minBetTo = some least →
      OnMenu o (.bet (min (max desired least) (o.legal.allInTo - 1)))
  | checkCall : OnMenu o o.checkCall
  | fold : o.legal.canCheck = false → OnMenu o .fold

theorem resolve_onMenu (push keep : Bool) (desired : Nat) : OnMenu o (o.resolve push desired keep) := by
  have hpassive : OnMenu o (if o.legal.canCheck || keep then o.checkCall else .fold) := by
    by_cases hcheck : o.legal.canCheck = true
    · rw [hcheck, Bool.true_or, if_pos rfl]
      exact .checkCall
    · have hno : o.legal.canCheck = false := by simpa using hcheck
      rw [hno, Bool.false_or]
      split
      · exact .checkCall
      · exact .fold hno
  unfold Observation.resolve
  cases hraise : o.legal.minRaiseTo with
  | some least =>
    simp only [Option.some_or, Option.isSome_some, if_true]
    split
    · exact .raise hraise
    · exact hpassive
  | none =>
    cases hbet : o.legal.minBetTo with
    | some least =>
      simp only [Option.none_or, Option.isSome_none, Bool.false_eq_true, if_false]
      split
      · exact .bet hbet
      · exact hpassive
    | none => exact hpassive

theorem choose_onMenu (opponent : Opponent) (draws : Draws) (hcards : o.holeCards.length = 2) :
    OnMenu o (opponent.choose draws o) := by
  match hhole : o.holeCards, hcards with
  | [a, b], _ =>
    simp only [choose, hhole]
    exact resolve_onMenu _ _ _

end Opponent

end OpenFelt.Trainer

namespace OpenFelt.MultiwayHand

open Trainer Betting

variable {h : MultiwayHand} {p : SeatId} {legal : MultiwayLegalActions} {o : Trainer.Observation}

/-- What a menu offers to bet or raise to leaves a chip behind. -/
theorem legalActionsFor_leaves (hlegal : h.legalActionsFor p = some legal) :
    (∀ least, legal.minBetTo = some least → least ≤ legal.allInTo - 1) ∧
    (∀ least, legal.minRaiseTo = some least → least ≤ legal.allInTo - 1) := by
  unfold legalActionsFor at hlegal
  split at hlegal
  · cases hlegal
  · dsimp only at hlegal
    cases hlegal
    constructor
    · intro least hleast
      dsimp only at hleast ⊢
      split at hleast
      · rename_i hcond
        cases hleast
        omega
      · cases hleast
    · intro least hleast
      dsimp only at hleast ⊢
      split at hleast
      · rename_i hcond
        cases hleast
        omega
      · cases hleast

/-- The opponent's choice is legal for the seat it observes. -/
theorem choose_legal (opponent : Opponent) (draws : Trainer.Draws) (ho : o.legal = legal) (hcards : o.holeCards.length = 2)
    (hm : h.Menu p legal) (hlegal : h.legalActionsFor p = some legal) (hstack : 0 < h.street.stack p) :
    actionIsLegal legal (opponent.choose draws o) = true := by
  obtain ⟨hbet, hraise⟩ := legalActionsFor_leaves hlegal
  have hall : 0 < legal.allInTo := by
    rw [hm.allInTo]
    omega
  have hmenu := Opponent.choose_onMenu (o := o) opponent draws hcards
  generalize opponent.choose draws o = action at hmenu
  cases hmenu with
  | @raise least desired hleast =>
    rw [ho] at hleast
    have hle := hraise least hleast
    simp only [actionIsLegal, hleast, Option.any_some, ho, Bool.and_eq_true, decide_eq_true_eq]
    omega
  | @bet least desired hleast =>
    rw [ho] at hleast
    have hle := hbet least hleast
    simp only [actionIsLegal, hleast, Option.any_some, ho, Bool.and_eq_true, decide_eq_true_eq]
    omega
  | checkCall => exact checkCall_legal ho
  | fold hno =>
    rw [ho] at hno
    have hfold : legal.canFold = true := by
      refine hm.canFold.mpr (Nat.lt_of_not_le fun hle => ?_)
      rw [hm.canCheck.mpr hle] at hno
      cases hno
    exact hfold

end OpenFelt.MultiwayHand
