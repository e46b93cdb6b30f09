/-
  OpenFelt.Game.Command — controller requests and the reasons they are refused
  (`src/game/actions.rs`, `src/game/command.rs`), and the two blinds a ring game posts
  (`src/game/state.rs`).
-/

import OpenFelt.Game.Seat

namespace OpenFelt

def bigBlind : Nat := 2

def smallBlind : Nat := 1

inductive Action where
  | fold
  | check
  /-- The chips a call adds. -/
  | call (amount : Nat)
  /-- The street total a bet, a raise or an all-in brings its seat to. -/
  | bet (target : Nat)
  | raise (target : Nat)
  | allIn (target : Nat)
  deriving DecidableEq, Repr

structure SeatCommand where
  seat : SeatId
  action : Action
  deriving DecidableEq, Repr

inductive ActionError where
  | foldNotAllowed
  | checkNotAllowed
  | callNotAllowed
  | invalidCall (expected actual : Nat)
  | betNotAllowed
  | betOutOfRange (min max actual : Nat)
  | raiseNotAllowed
  | raiseNotReopened
  | raiseOutOfRange (min max actual : Nat)
  | invalidAllIn (expected actual : Nat)
  deriving DecidableEq, Repr

inductive CommandError where
  | handNotActive
  | seatNotOccupied (seat : SeatId)
  | seatNotEligible (seat : SeatId)
  | outOfTurn (expected actual : SeatId)
  | illegalAction (error : ActionError)
  deriving DecidableEq, Repr

/-- `Display for ActionError`. -/
def ActionError.message : ActionError → String
  | foldNotAllowed => "fold is only legal when facing a bet"
  | checkNotAllowed => "check is not legal when facing a bet"
  | callNotAllowed => "call is not legal in this state"
  | invalidCall expected actual => "call must add " ++ toString expected ++ " chips, received " ++ toString actual
  | betNotAllowed => "bet is not legal when facing a bet"
  | betOutOfRange min max actual =>
    "bet-to amount must be between " ++ toString min ++ " and " ++ toString max ++ ", received " ++ toString actual
  | raiseNotAllowed => "raise is not legal without a bet to face"
  | raiseNotReopened => "raising is not reopened for this seat by the latest wager increase"
  | raiseOutOfRange min max actual =>
    "raise-to amount must be between " ++ toString min ++ " and " ++ toString max ++ ", received " ++ toString actual
  | invalidAllIn expected actual =>
    "all-in amount must be the actor's total street commitment " ++ toString expected ++ ", received " ++ toString actual

/-- `Display for CommandError`. -/
def CommandError.message : CommandError → String
  | handNotActive => "the hand is not accepting actions"
  | seatNotOccupied seat => "seat " ++ toString seat.val ++ " is not occupied"
  | seatNotEligible seat => "seat " ++ toString seat.val ++ " is not eligible to act"
  | outOfTurn expected actual =>
    "seat " ++ toString actual.val ++ " acted out of turn; seat " ++ toString expected.val ++ " is expected"
  | illegalAction error => "illegal action: " ++ error.message

end OpenFelt
