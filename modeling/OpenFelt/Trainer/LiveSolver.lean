/-
  OpenFelt.Trainer.LiveSolver — what the river solver is given of a decision
  (`src/trainer/live_solver.rs` up to `context`, `src/trainer/ranges.rs`).

  The solver itself is a package (`PostflopSolver`), and so is here what it parses and
  counts. The weights of the ranges are floating point: the text of a range and its
  examples are an argument, and only who is in and out of position is worked out.
  What the source subtracts, indexes or unwraps unchecked may panic here.
-/

import Mathlib.Data.Fin.VecNotation
import OpenFelt.Lib.Fallible
import OpenFelt.Game.HeadsUp
import OpenFelt.Trainer.Observations

namespace OpenFelt

def Suit.ascii : Suit → String
  | .spades => "s"
  | .hearts => "h"
  | .diamonds => "d"
  | .clubs => "c"

def Rank.symbol : Rank → String
  | .two => "2"
  | .three => "3"
  | .four => "4"
  | .five => "5"
  | .six => "6"
  | .seven => "7"
  | .eight => "8"
  | .nine => "9"
  | .ten => "10"
  | .jack => "J"
  | .queen => "Q"
  | .king => "K"
  | .ace => "A"

/-- `card_ascii`. -/
def Card.ascii (card : Card) : String := (if card.rank = .ten then "T" else card.rank.symbol) ++ card.suit.ascii

/-- `phase_index`. -/
def MultiwayPhase.index : MultiwayPhase → Nat
  | .preflop => 0
  | .flop => 1
  | .turn => 2
  | .river => 3
  | .showdown => 4
  | .handComplete => 5

namespace Trainer

/-! ## Which decisions are reviewed -/

def maxHistory : Nat := 6
def maxRangeChars : Nat := 32000

namespace Observation

variable (o : Observation)

/-- The river's records. -/
def river : List PublicAction := o.publicHistory.filter (·.phase = .river)

def liveSeats : List PublicSeat := o.seats.filter (·.participation = .live)

/-- The public history has every action of the hand, street after street. -/
def streetAware : Bool :=
  !o.publicHistory.isEmpty && o.publicHistory.length = o.history.length && o.revision = o.publicHistory.length &&
    (o.publicHistory.zip o.history).all (fun pair => pair.1.seat = pair.2.1 && pair.1.action = pair.2.2) &&
    !((o.publicHistory.zip o.publicHistory.tail).any fun pair => pair.2.phase.index < pair.1.phase.index) &&
    !(o.publicHistory.any fun a => 3 < a.phase.index)

end Observation

def eligibility (d : Decision) : Except String Unit :=
  let o := d.observation
  if o.phase ≠ .river ∨ o.board.length ≠ 5 ∨ o.holeCards.length ≠ 2 then
    .error "Solver review supports river decisions with five board cards"
  else
    match o.liveSeats with
    | [first, second] =>
      let live := [first, second]
      if o.seats.any (·.participation = .allIn) then
        .error "Solver review requires two live players and no all-in side pot"
      else if !live.any (·.seat = o.actor) || live.any (·.stack = 0) then
        .error "The acting player and opponent must both have chips"
      else if maxHistory < o.river.length then .error "River betting history exceeds the supported depth"
      else if o.river.any fun a => !a.action.stays || !live.any (·.seat = a.seat) then
        .error "River history includes a fold, all-in, or third player"
      else if o.seats.any fun s => s.participation ≠ .live && s.streetContribution ≠ 0 then
        .error "River side contributions are unsupported"
      else if first.handContribution < first.streetContribution ∨ second.handContribution < second.streetContribution ∨
          first.handContribution - first.streetContribution ≠ second.handContribution - second.streetContribution then
        .error "Unequal earlier contributions need a side-pot model"
      else if !fitsU32 (first.streetContribution + second.streetContribution) then .error "River contribution overflow"
      else if o.pot = 0 ∨ 1000000 < o.pot ∨ o.pot < first.streetContribution + second.streetContribution then
        .error "River pot or contributions are inconsistent"
      else if o.wager ≠ max first.streetContribution second.streetContribution then
        .error "Current wager is inconsistent with river contributions"
      else if !o.streetAware then .error "Street-aware public history is required for solver review"
      else o.validateAccepted d.acceptedAction
    | _ => .error "Solver review requires two live players and no all-in side pot"

/-! ## Who is in position -/

structure LiveRanges where
  oop : String
  ip : String
  oopSeat : SeatId
  ipSeat : SeatId
  modelVersion : String
  assumptions : List String
  deriving DecidableEq, Repr

def rangeModelVersion : String := "public-action-heuristic-v1"

/-- Clockwise of the button at a table of this many seats, the button itself last. -/
def distanceAfterButton (tableSize : Nat) (button seat : SeatId) : Fallible String Nat := do
  let span ← Fallible.sub (seat.val + tableSize) button.val
  if tableSize = 0 then .panics
  else if span % tableSize = 0 then .done tableSize
  else .done (span % tableSize)

/-- `ranges_from_observation`, with the text of each range and its examples as given. -/
def Observation.ranges (o : Observation) (weightedRange : Observation → SeatId → Bool → String × List String) :
    Fallible String LiveRanges := do
  Fallible.refuseIf (o.phase ≠ .river ∨ o.board.length ≠ 5) "Live solver ranges require a five-card river decision"
  Fallible.refuseIf (o.publicHistory = []) "Live solver ranges require street-aware public action history"
  match (o.seats.filter PublicSeat.contesting).map (·.seat) with
  | [first, second] =>
    let tableSize := o.seats.length % 256
    let a ← distanceAfterButton tableSize o.button first
    let b ← distanceAfterButton tableSize o.button second
    -- of two equally far the later is taken
    let ipSeat := if a ≤ b then second else first
    let oopSeat ← Fallible.unwrap ([first, second].find? (· ≠ ipSeat))
    let (oop, oopExamples) := weightedRange o oopSeat false
    let (ip, ipExamples) := weightedRange o ipSeat true
    pure {
      oop := oop
      ip := ip
      oopSeat := oopSeat
      ipSeat := ipSeat
      modelVersion := rangeModelVersion
      assumptions := [
        "Range model: " ++ rangeModelVersion ++ ".",
        "Ranges use a broad positive preflop position prior and public actions through the turn only.",
        "Action likelihood uses only cards public on that action's street; river action is replayed by the solver.",
        "Weights are an explainable teaching heuristic, not a calibrated posterior or GTO range.",
        "Opponent weights do not use the hero's private cards; the final public river board removes impossible combinations.",
        "OOP highest-weight examples: " ++ ", ".intercalate oopExamples ++ ".",
        "IP highest-weight examples: " ++ ", ".intercalate ipExamples ++ "."] }
  | _ => .refused "Live solver ranges require exactly two active players"

/-! ## The solver's package -/

/-- An action of the solver's tree; the amounts are what the player has in on the river. -/
inductive SolverAction where
  | fold
  | check
  | call
  | bet (amount : Int)
  | raise (amount : Int)
  | allIn (amount : Int)
  deriving DecidableEq, Repr

/-- What `context` asks of the package: cards are numbers below 52. -/
structure PostflopSolver where
  Range : Type
  cardFromStr : String → Except String (Fin 52)
  parseRange : String → Except String Range
  /-- The weight of a hand is at most zero. -/
  weightless : Range → Fin 52 → Fin 52 → Bool
  /-- The hands of a range that miss the cards of a mask. -/
  getHands : Range → Nat → List (Fin 52 × Fin 52)

/-- An error of `context` itself, or of the package. -/
inductive ContextError where
  | message (text : String)
  | outside (text : String)
  deriving DecidableEq, Repr

/-- `as i32`. -/
def asI32 (n : Nat) : Int := (BitVec.ofNat 32 n).toInt

/-! ## The river from its records -/

def mapAction (action : Action) (currentWager effectiveStack : Nat) : Except ContextError SolverAction :=
  let unrepresented : Except ContextError SolverAction :=
    .error (.message "Action size cannot be represented exactly in the effective-stack tree")
  match action with
  | .fold => .ok .fold
  | .check => .ok .check
  | .call _ => .ok .call
  | .bet v =>
    if currentWager = 0 ∧ v = effectiveStack then .ok (.allIn (asI32 v))
    else if currentWager = 0 ∧ v < effectiveStack then .ok (.bet (asI32 v))
    else unrepresented
  | .raise v =>
    if 0 < currentWager ∧ v = effectiveStack then .ok (.allIn (asI32 v))
    else if 0 < currentWager ∧ v < effectiveStack then .ok (.raise (asI32 v))
    else unrepresented
  | .allIn v => if v = effectiveStack ∧ currentWager < v then .ok (.allIn (asI32 v)) else unrepresented

/-- What the replay has built so far: what each has in on the river, out of position first. -/
structure Replay where
  contributions : Fin 2 → Nat
  wager : Nat
  history : List SolverAction

/-- The last check of a record, against the wager it states. -/
def Replay.followed (r : Replay) (record : PublicAction) (contributions : Fin 2 → Nat) (wager : Nat) (action : SolverAction) :
    Except ContextError Replay :=
  if record.wagerAfter ≠ wager then .error (.message "River history wager does not match the action")
  else .ok ⟨contributions, wager, r.history ++ [action]⟩

/-- A bet or a raise to `v`. -/
def Replay.raised (r : Replay) (effectiveStack : Nat) (record : PublicAction) (actor : Fin 2) (v : Nat) :
    Except ContextError Replay :=
  match mapAction record.action r.wager effectiveStack with
  | .error error => .error error
  | .ok action => r.followed record (Function.update r.contributions actor v) v action

def replayRecord (effectiveStack : Nat) (record : PublicAction) (actor : Fin 2) (r : Replay) : Except ContextError Replay :=
  let before := r.wager
  let own := r.contributions actor
  let unsupported : Except ContextError Replay := .error (.message "River history contains an unsupported action or amount")
  let raised (v : Nat) : Except ContextError Replay := r.raised effectiveStack record actor v
  match record.action with
  | .check => if own = before then r.followed record r.contributions before .check else unsupported
  | .call cost =>
    if own < before ∧ cost = before - own then r.followed record (Function.update r.contributions actor before) before .call
    else unsupported
  | .bet v => if before = 0 ∧ own = 0 ∧ 0 < v ∧ v ≤ effectiveStack then raised v else unsupported
  | .raise v => if own < before ∧ before < v ∧ v ≤ effectiveStack then raised v else unsupported
  | .fold | .allIn _ => unsupported

/-- One record, in its place. -/
def replayTurn (effectiveStack : Nat) (players : Fin 2 → SeatId) (r : Replay) (turn : PublicAction × Nat) :
    Except ContextError Replay :=
  if turn.1.seat ≠ players (turnAfter turn.2) then .error (.message "River action order does not match heads-up positions")
  else replayRecord effectiveStack turn.1 (turnAfter turn.2) r

def replayRiver (effectiveStack : Nat) (players : Fin 2 → SeatId) (river : List PublicAction) : Except ContextError Replay :=
  river.zipIdx.foldlM (replayTurn effectiveStack players) ⟨fun _ => 0, 0, []⟩

/-! ## The context -/

section context
variable (x : PostflopSolver)

/-- The cards and ranges as the package has them. -/
structure Cards where
  board : List (Fin 52)
  heroCards : Fin 52 × Fin 52
  ranges : Fin 2 → x.Range

structure Context where
  rootPot : Int
  effectiveStack : Int
  heroPlayer : Fin 2
  board : List (Fin 52)
  heroCards : Fin 52 × Fin 52
  history : List SolverAction
  accepted : SolverAction
  ranges : Fin 2 → x.Range
  assumptions : List String

/-- `?` on a result of the package. -/
def fromPackage {α : Type} (result : Except String α) : Fallible ContextError α := Fallible.lift (result.mapError .outside)

/-- `?` on a guard. -/
def refuse (bad : Prop) [Decidable bad] (text : String) : Fallible ContextError Unit := Fallible.refuseIf bad (.message text)

def Observation.readCards (o : Observation) (r : LiveRanges) (heroPlayer : Fin 2) : Fallible ContextError (Cards x) := do
  let board ← fromPackage (o.board.mapM fun card => x.cardFromStr card.ascii)
  refuse (board.length ≠ 5) "Expected five board cards"
  let first ← Fallible.unwrap o.holeCards[0]?
  let firstCard ← fromPackage (x.cardFromStr first.ascii)
  let second ← Fallible.unwrap o.holeCards[1]?
  let secondCard ← fromPackage (x.cardFromStr second.ascii)
  refuse (firstCard = secondCard ∨ firstCard ∈ board ∨ secondCard ∈ board) "Hero cards overlap the board"
  let oop ← fromPackage (x.parseRange r.oop)
  let ip ← fromPackage (x.parseRange r.ip)
  let ranges := ![oop, ip]
  refuse (x.weightless (ranges heroPlayer) firstCard secondCard) "The actual hand has no weight in the inferred range"
  let boardMask := board.foldl (fun mask c => mask ||| 1 <<< c.val) 0
  refuse (((List.range 64).filter boardMask.testBit).length ≠ 5) "Board cards must be distinct"
  let heroHands := x.getHands (ranges heroPlayer) boardMask
  let opponentHands := x.getHands (ranges (1 - heroPlayer)) boardMask
  refuse (heroHands = [] ∨ opponentHands = []) "Inferred ranges have no live combinations"
  refuse (¬ ∃ hand ∈ opponentHands, hand.1 ≠ firstCard ∧ hand.1 ≠ secondCard ∧ hand.2 ≠ firstCard ∧ hand.2 ≠ secondCard)
    "The actual hand has zero compatible opponent reach"
  pure ⟨board, (firstCard, secondCard), ranges⟩

/-- A seat of the observation. -/
def Observation.seated (o : Observation) (seat : SeatId) (missing : String) : Fallible ContextError PublicSeat :=
  match o.seats.find? (·.seat == seat) with
  | none => .refused (.message missing)
  | some s => .done s

/-- `stack + street_contribution`, checked. -/
def PublicSeat.riverStack (s : PublicSeat) (overflow : String) : Fallible ContextError Nat := do
  refuse (¬ fitsU32 (s.stack + s.streetContribution)) overflow
  pure (s.stack + s.streetContribution)

def context (d : Decision) (r : LiveRanges) : Fallible ContextError (Context x) := do
  let o := d.observation
  refuse (maxRangeChars < r.oop.utf8ByteSize ∨ maxRangeChars < r.ip.utf8ByteSize) "Inferred range is too large for local review"
  let oop ← o.seated r.oopSeat "Missing OOP seat"
  let ip ← o.seated r.ipSeat "Missing IP seat"
  refuse (oop.seat = ip.seat ∨ oop.participation ≠ .live ∨ ip.participation ≠ .live)
    "Range positions do not match the two live players"
  let rest ← Fallible.sub o.pot oop.streetContribution
  let rootPot ← Fallible.sub rest ip.streetContribution
  refuse (rootPot = 0) "River starting pot must be positive"
  let totalOop ← oop.riverStack "OOP stack overflow"
  let totalIp ← ip.riverStack "IP stack overflow"
  let effectiveStack := min totalOop totalIp
  refuse (effectiveStack = 0 ∨ 100000 < effectiveStack ∨ 1000000 < rootPot) "River pot or effective stack exceeds review limits"
  let heroPlayer : Fin 2 := if o.actor = oop.seat then 0 else 1
  let cards ← o.readCards x r heroPlayer
  let players := ![oop.seat, ip.seat]
  let replay ← Fallible.lift (replayRiver effectiveStack players o.river)
  refuse (replay.contributions ≠ ![oop.streetContribution, ip.streetContribution] ∨ replay.wager ≠ o.wager)
    "River history does not reproduce current contributions"
  refuse (o.actor ≠ players (turnAfter o.river.length)) "Current actor does not match river history"
  let accepted ← Fallible.lift (mapAction d.acceptedAction replay.wager effectiveStack)
  pure {
    rootPot := asI32 rootPot
    effectiveStack := asI32 effectiveStack
    heroPlayer := heroPlayer
    board := cards.board
    heroCards := cards.heroCards
    history := replay.history
    accepted := accepted
    ranges := cards.ranges
    assumptions := r.assumptions }

end context

end Trainer

end OpenFelt
