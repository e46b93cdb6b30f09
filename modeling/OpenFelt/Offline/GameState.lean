/-
  OpenFelt.Offline.GameState — the heads-up game played offline (`src/game/state.rs`).

  Translation. The table has two seats and both are taken from the first hand on, so the
  seats are a pair (`HeadsUp`), and the next eligible seat, which leaves the start out, is
  the other one or nobody (`next_of_two`). A `u32` or `u8` sum wraps, as a release build's
  does, and `overflowed` is set where a debug build stops; `panicked` is set where an
  `expect` finds nothing. A hand is given the deck its shuffle leaves.
-/

import OpenFelt.Game.HandRank
import OpenFelt.Game.Table

namespace OpenFelt

/-! ## Two seats -/

inductive HeadsUpSeat where
  | first
  | second
  deriving DecidableEq, Repr

namespace HeadsUpSeat

def other : HeadsUpSeat → HeadsUpSeat
  | first => second
  | second => first

def seatId : HeadsUpSeat → SeatId
  | first => 0
  | second => 1

/-- The seat of that number, if the table has it. -/
def ofSeat (seat : SeatId) : Option HeadsUpSeat :=
  if seat = 0 then some first else if seat = 1 then some second else none

@[simp] theorem other_other (p : HeadsUpSeat) : p.other.other = p := by cases p <;> rfl

@[simp] theorem other_ne (p : HeadsUpSeat) : p.other ≠ p := by cases p <;> decide

@[simp] theorem ne_other (p : HeadsUpSeat) : p ≠ p.other := by cases p <;> decide

theorem eq_or_other (p q : HeadsUpSeat) : q = p ∨ q = p.other := by cases p <;> cases q <;> decide

@[simp] theorem ofSeat_seatId (p : HeadsUpSeat) : ofSeat p.seatId = some p := by cases p <;> rfl

/-- On a table of two the search that leaves the start out tries the other seat only. -/
theorem next_of_two {size : TableSize} (hsize : size.get = 2) (p : HeadsUpSeat) (eligible : SeatId → Bool) :
    size.nextEligible p.seatId eligible = if eligible p.other.seatId then some p.other.seatId else none := by
  obtain ⟨n, h2, h9⟩ := size
  subst hsize
  have hturn : clockwiseFrom ⟨2, h2, h9⟩ p.seatId 1 (2 - 1) = [p.other.seatId] := by
    cases p <;> simp [clockwiseFrom, seatId, other, seatWrapped]
  have hin : TableSize.contains ⟨2, h2, h9⟩ p.seatId = true := by cases p <;> rfl
  unfold TableSize.nextEligible
  rw [if_pos hin, hturn, List.find?_singleton]

end HeadsUpSeat

/-- One of each for the two seats. -/
structure HeadsUp (α : Type) where
  first : α
  second : α
  deriving DecidableEq, Repr

namespace HeadsUp

variable {α : Type} (t : HeadsUp α) (p : HeadsUpSeat)

def get : HeadsUpSeat → α
  | .first => t.first
  | .second => t.second

def modify (f : α → α) : HeadsUp α :=
  match p with
  | .first => { t with first := f t.first }
  | .second => { t with second := f t.second }

@[simp] theorem get_modify (f : α → α) : (t.modify p f).get p = f (t.get p) := by cases p <;> rfl

@[simp] theorem get_modify_other (f : α → α) : (t.modify p f).get p.other = t.get p.other := by cases p <;> rfl

@[simp] theorem get_other_modify (f : α → α) : (t.modify p.other f).get p = t.get p := by cases p <;> rfl

end HeadsUp

/-! ## Arithmetic -/

def wrap32 (n : Nat) : Nat := n % 2 ^ 32

def wrap8 (n : Nat) : Nat := n % 2 ^ 8

def u8Max : Nat := 2 ^ 8 - 1

theorem wrap32_of_le {n : Nat} (h : n ≤ u32Max) : wrap32 n = n := Nat.mod_eq_of_lt (by unfold u32Max at h; omega)

theorem wrap32_le (n : Nat) : wrap32 n ≤ u32Max := by
  have := Nat.mod_lt n (show 0 < 2 ^ 32 by decide)
  unfold wrap32 u32Max
  omega

/-! ## The game -/

def SeatState.eligibleToAct (st : SeatState) : Bool := 0 < st.stack && st.handParticipation = .live

def SeatState.eligibleForPot (st : SeatState) : Bool := st.handParticipation = .live || st.handParticipation = .allIn

inductive GamePhase where
  | preflop
  | flop
  | turn
  | river
  | showdown
  | handComplete
  | sessionEnd
  | summary
  deriving DecidableEq, Repr

/-- The phases in which commands are taken. -/
def GamePhase.betting : GamePhase → Bool
  | preflop | flop | turn | river => true
  | showdown | handComplete | sessionEnd | summary => false

structure SeatSessionStats where
  handsWon : Nat
  biggestPotWon : Nat
  biggestPotLost : Nat
  deriving DecidableEq, Repr

structure SeatHandEvaluation where
  seat : HeadsUpSeat
  hand : HandEvaluation
  deriving DecidableEq, Repr

structure ShowdownResult where
  winner : Option HeadsUpSeat
  hands : List SeatHandEvaluation
  potWon : Nat
  deriving DecidableEq, Repr

structure GameState where
  phase : GamePhase
  deck : Deck
  seats : HeadsUp SeatState
  board : List Card
  pot : Nat
  toAct : HeadsUpSeat
  button : HeadsUpSeat
  lastAggressor : Option HeadsUpSeat
  preflopAggressor : Option HeadsUpSeat
  lastRaiseSize : Nat
  handNumber : Nat
  handsPlayed : Nat
  lastAction : Option (HeadsUpSeat × Action)
  showdownResult : Option ShowdownResult
  actionsThisStreet : Nat
  seatStats : HeadsUp SeatSessionStats
  overflowed : Bool
  panicked : Bool
  deriving DecidableEq, Repr

structure HeadsUpPositions where
  smallBlind : HeadsUpSeat
  bigBlind : HeadsUpSeat
  firstPreflop : HeadsUpSeat
  deriving DecidableEq, Repr

namespace GameState

variable (g : GameState)

abbrev seat (p : HeadsUpSeat) : SeatState := g.seats.get p

def stack (p : HeadsUpSeat) : Nat := (g.seat p).stack

def streetBet (p : HeadsUpSeat) : Nat := (g.seat p).streetBet

/-- Record that an operation left its range unless `fits`. -/
def arith (fits : Bool) : GameState := { g with overflowed := g.overflowed || !fits }

/-- Record that the source stops here unless `found`. -/
def expect (found : Bool) : GameState := { g with panicked := g.panicked || !found }

def seatMut (p : HeadsUpSeat) (f : SeatState → SeatState) : GameState := { g with seats := g.seats.modify p f }

def nextEligible (eligible : SeatState → Bool) (after : HeadsUpSeat) : Option HeadsUpSeat :=
  if eligible (g.seat after.other) then some after.other else none

def nextForHand (after : HeadsUpSeat) : Option HeadsUpSeat := g.nextEligible (·.eligibleForNextHand) after

def nextToAct (after : HeadsUpSeat) : Option HeadsUpSeat := g.nextEligible (·.eligibleToAct) after

def nextForPot (after : HeadsUpSeat) : Option HeadsUpSeat := g.nextEligible (·.eligibleForPot) after

/-- With two players the button posts the small blind and acts first. -/
def positions (button : HeadsUpSeat) : Option HeadsUpPositions :=
  if (g.seat button).eligibleForNextHand && (g.seat button.other).eligibleForNextHand then
    some ⟨button, button.other, button⟩
  else none

def maxBet : Nat := max (g.streetBet .first) (g.streetBet .second)

def amountToCall (p : HeadsUpSeat) : Nat := g.maxBet - g.streetBet p

/-! ### Chips -/

def addChips (p : HeadsUpSeat) (amount : Nat) : GameState :=
  let actual := min amount (g.stack p)
  let g' := g.seatMut p fun st => { st with stack := st.stack - actual, streetBet := wrap32 (st.streetBet + actual) }
  { g' with
    pot := wrap32 (g.pot + actual)
    overflowed := g.overflowed || !(fitsU32 (g.streetBet p + actual) && fitsU32 (g.pot + actual)) }

def postBlind (p : HeadsUpSeat) (blind : Nat) : GameState :=
  let g := g.addChips p blind
  if g.stack p = 0 then g.seatMut p fun st => { st with handParticipation := .allIn } else g

/-- `excess` of the seat's street bet goes from the pot back to its stack. -/
def refund (p : HeadsUpSeat) (excess : Nat) : GameState :=
  let g' := g.seatMut p fun st => { st with stack := wrap32 (st.stack + excess), streetBet := st.streetBet - excess }
  { g' with
    pot := wrap32 (g.pot + 2 ^ 32 - excess)
    overflowed := g.overflowed || !(fitsU32 (g.stack p + excess) && excess ≤ g.pot) }

def returnUncalledHeadsUpExcess : GameState :=
  let firstBet := g.streetBet .first
  let secondBet := g.streetBet .second
  if firstBet = secondBet then g
  else
    let effective := min firstBet secondBet
    let excessSeat := if effective < firstBet then HeadsUpSeat.first else .second
    g.refund excessSeat (g.streetBet excessSeat - effective)

/-- `self.seat_mut(seat).stack += amount`. -/
def pay (p : HeadsUpSeat) (amount : Nat) : GameState :=
  (g.seatMut p fun st => { st with stack := wrap32 (st.stack + amount) }).arith (fitsU32 (g.stack p + amount))

def recordResult (winner : HeadsUpSeat) (pot : Nat) : GameState :=
  let won := g.seatStats.modify winner fun stats =>
    { stats with handsWon := wrap32 (stats.handsWon + 1), biggestPotWon := max stats.biggestPotWon pot }
  let lost := won.modify winner.other fun stats => { stats with biggestPotLost := max stats.biggestPotLost pot }
  ({ g with seatStats := lost }).arith (fitsU32 ((g.seatStats.get winner).handsWon + 1))

/-- The pot is gone and the hand counted. -/
def endHand (phase : GamePhase) : GameState :=
  ({ g with pot := 0, handsPlayed := wrap32 (g.handsPlayed + 1), phase := phase }).arith (fitsU32 (g.handsPlayed + 1))

def handleFold (folder : HeadsUpSeat) : GameState :=
  let g := g.seatMut folder fun st => { st with handParticipation := .folded }
  let winner := g.nextForPot folder
  let pot := g.pot
  (((g.expect winner.isSome).pay (winner.getD folder) pot).recordResult (winner.getD folder) pot).endHand .handComplete

def showdownWinner (first second : HandEvaluation) : Option HeadsUpSeat :=
  match compareHands first second with
  | .gt => some .first
  | .lt => some .second
  | .eq => none

def resolveShowdown : GameState :=
  let firstEval := evaluateHand (g.seat .first).holeCards g.board
  let secondEval := evaluateHand (g.seat .second).holeCards g.board
  let winner := showdownWinner firstEval secondEval
  let pot := g.pot
  let paid :=
    match winner with
    | some winner => (g.pay winner pot).recordResult winner pot
    | none =>
      let half := pot / 2
      let remainder := pot % 2
      let odd := g.nextForPot g.button
      ((g.expect odd.isSome).pay .first (half + if odd = some HeadsUpSeat.first then remainder else 0)).pay .second
        (half + if odd = some HeadsUpSeat.second then remainder else 0)
  ({ paid with showdownResult := some ⟨winner, [⟨.first, firstEval⟩, ⟨.second, secondEval⟩], pot⟩ }).endHand .showdown

/-! ### Streets -/

def clearStreetBets : GameState :=
  { g with seats := ⟨{ g.seats.first with streetBet := 0 }, { g.seats.second with streetBet := 0 }⟩ }

/-- The next street's cards, and who opens it. -/
def openStreet (cards : Nat) (phase : GamePhase) : GameState :=
  let dealt := g.deck.dealN cards
  let g := { g with board := g.board ++ dealt.1, deck := dealt.2, phase := phase }
  { g with toAct := (g.nextToAct g.button).getD g.toAct }

/-- The uncalled excess goes back and the street's bets stay in the pot. -/
def collectBets : GameState :=
  { g.returnUncalledHeadsUpExcess.clearStreetBets with lastAggressor := none, actionsThisStreet := 0 }

def advancePhase : GameState :=
  let g := g.collectBets
  match g.phase with
  | .preflop => g.openStreet 3 .flop
  | .flop => g.openStreet 1 .turn
  | .turn => g.openStreet 1 .river
  | .river => g.resolveShowdown
  | _ => g

def isBettingRoundComplete : Bool :=
  let firstStack := g.stack .first
  let secondStack := g.stack .second
  let firstBet := g.streetBet .first
  let secondBet := g.streetBet .second
  if firstStack = 0 ∧ secondStack = 0 then true
  else if firstStack = 0 ∨ secondStack = 0 then
    let (allInBet, otherBet) := if firstStack = 0 then (firstBet, secondBet) else (secondBet, firstBet)
    if allInBet ≤ otherBet then true else firstBet = secondBet
  else if firstBet ≠ secondBet then false
  else if g.phase = .preflop ∧ g.lastAggressor = none then
    let bigBlind := (g.positions g.button).map (·.bigBlind)
    g.lastAction.any fun (actor, action) => some actor = bigBlind ∧ action = .check
  else if g.lastAggressor = none then 2 ≤ g.actionsThisStreet
  else true

/-! ### Hands -/

def dealSeat (p : HeadsUpSeat) : GameState :=
  if (g.seat p).eligibleForNextHand then
    let dealt := g.deck.dealN 2
    { g.seatMut p fun st => { st with holeCards := dealt.1, streetBet := 0, handParticipation := .live } with deck := dealt.2 }
  else g

/-- The hand's record before its cards. -/
def clearHand (button : HeadsUpSeat) (deck : Deck) : GameState :=
  { g with
    handNumber := wrap32 (g.handNumber + 1)
    button := button
    phase := .preflop
    deck := deck
    board := []
    pot := 0
    lastAggressor := none
    preflopAggressor := none
    lastRaiseSize := bigBlind
    lastAction := none
    showdownResult := none
    actionsThisStreet := 0
    overflowed := g.overflowed || !fitsU32 (g.handNumber + 1) }

def dealHands : GameState := (g.dealSeat .first).dealSeat .second

def postBlinds (positions : HeadsUpPositions) : GameState :=
  { (g.postBlind positions.smallBlind smallBlind).postBlind positions.bigBlind bigBlind with toAct := positions.firstPreflop }

def startNewHand (deck : Deck) : GameState :=
  let next := g.nextForHand g.button
  let button := next.getD g.button
  let dealt := ((g.expect next.isSome).clearHand button deck).dealHands
  let positions := dealt.positions button
  (dealt.expect positions.isSome).postBlinds (positions.getD ⟨button, button.other, button⟩)

/-- The table before its first hand. -/
def unplayed (startingStackBb : Nat) : GameState where
  phase := .preflop
  deck := .new
  seats := ⟨.seated ⟨1⟩ (wrap32 (startingStackBb * bigBlind)), .seated ⟨2⟩ (wrap32 (startingStackBb * bigBlind))⟩
  board := []
  pot := 0
  toAct := .first
  button := .second
  lastAggressor := none
  preflopAggressor := none
  lastRaiseSize := bigBlind
  handNumber := 0
  handsPlayed := 0
  lastAction := none
  showdownResult := none
  actionsThisStreet := 0
  seatStats := ⟨⟨0, 0, 0⟩, ⟨0, 0, 0⟩⟩
  overflowed := !fitsU32 (startingStackBb * bigBlind)
  panicked := false

/-- `new` and `new_seeded_for_review`. -/
def new (startingStackBb : Nat) (deck : Deck) : GameState := (unplayed startingStackBb).startNewHand deck

/-! ### Commands -/

def validateAction (p : HeadsUpSeat) (action : Action) : Except ActionError Unit :=
  let toCall := g.amountToCall p
  let stack := g.stack p
  let maximumTotal := saturatingAdd (g.streetBet p) stack
  let minimumRaiseTo := saturatingAdd g.maxBet (max g.lastRaiseSize bigBlind)
  let maximum := maximumTotal - 1
  match action with
  | .fold => if 0 < toCall then .ok () else .error .foldNotAllowed
  | .check => if toCall = 0 then .ok () else .error .checkNotAllowed
  | .call actual =>
    if toCall = 0 ∨ stack ≤ toCall then .error .callNotAllowed
    else if actual = toCall then .ok ()
    else .error (.invalidCall toCall actual)
  | .bet actual =>
    if 0 < toCall then .error .betNotAllowed
    else
      let minimum := if g.maxBet = 0 then bigBlind else minimumRaiseTo
      if minimum ≤ actual ∧ actual ≤ maximum then .ok () else .error (.betOutOfRange minimum maximum actual)
  | .raise actual =>
    if toCall = 0 then .error .raiseNotAllowed
    else if minimumRaiseTo ≤ actual ∧ actual ≤ maximum then .ok ()
    else .error (.raiseOutOfRange minimumRaiseTo maximum actual)
  | .allIn actual => if actual = maximumTotal ∧ 0 < stack then .ok () else .error (.invalidAllIn maximumTotal actual)

def validateCommand (command : SeatCommand) : Except CommandError Unit :=
  if !g.phase.betting then .error .handNotActive
  else
    match HeadsUpSeat.ofSeat command.seat with
    | none => .error (.seatNotOccupied command.seat)
    | some p =>
      if !(g.seat p).eligibleToAct then .error (.seatNotEligible command.seat)
      else if p ≠ g.toAct then .error (.outOfTurn g.toAct.seatId command.seat)
      else
        match g.validateAction p command.action with
        | .error error => .error (.illegalAction error)
        | .ok () => .ok ()

/-- The action noted and counted. -/
def note (p : HeadsUpSeat) (action : Action) : GameState :=
  ({ g with
    lastAction := some (p, action)
    actionsThisStreet := wrap8 (g.actionsThisStreet + 1) }).arith (g.actionsThisStreet + 1 ≤ u8Max)

/-- The chips of a bet, a raise or an all-in to `amount`. -/
def wagerTo (p : HeadsUpSeat) (amount : Nat) : GameState :=
  (g.arith (g.streetBet p ≤ amount)).addChips p (amount - g.streetBet p)

/-- The seat has raised the street's highest bet from `oldMax` to `amount`. -/
def raised (p : HeadsUpSeat) (amount oldMax : Nat) : GameState :=
  ({ g with
    lastAggressor := some p
    lastRaiseSize := amount - oldMax
    preflopAggressor := if g.phase = GamePhase.preflop then some p else g.preflopAggressor }).arith (oldMax ≤ amount)

/-- What the action does to the chips; a fold is `handleFold`. -/
def wager (p : HeadsUpSeat) : Action → GameState
  | .fold | .check => g
  | .call amount => g.addChips p amount
  | .bet amount | .raise amount => (g.wagerTo p amount).raised p amount g.maxBet
  | .allIn amount =>
    let g' := (g.wagerTo p amount).seatMut p fun st => { st with handParticipation := .allIn }
    if g.maxBet < amount then g'.raised p amount g.maxBet else g'

/-- The street is over, or the next seat's turn. -/
def conclude (p : HeadsUpSeat) : GameState :=
  if g.isBettingRoundComplete then g.advancePhase
  else { g.expect (g.nextToAct p).isSome with toAct := (g.nextToAct p).getD g.toAct }

def applyValidatedAction (p : HeadsUpSeat) (action : Action) : GameState :=
  let g := g.note p action
  if action = .fold then g.handleFold p else (g.wager p action).conclude p

def applyCommand (command : SeatCommand) : Except CommandError Unit × GameState :=
  match g.validateCommand command with
  | .error error => (.error error, g)
  | .ok () => (.ok (), g.applyValidatedAction ((HeadsUpSeat.ofSeat command.seat).getD g.toAct) command.action)

/-! ## What each operation does -/

section Operations

variable {g g' g'' : GameState} {p q : HeadsUpSeat} {amount : Nat}

@[simp] theorem seat_seatMut (f : SeatState → SeatState) : (g.seatMut p f).seat p = f (g.seat p) := HeadsUp.get_modify ..

@[simp] theorem seat_seatMut_other (f : SeatState → SeatState) : (g.seatMut p f).seat p.other = g.seat p.other :=
  HeadsUp.get_modify_other ..

@[simp] theorem seat_other_seatMut (f : SeatState → SeatState) : (g.seatMut p.other f).seat p = g.seat p :=
  HeadsUp.get_other_modify ..

/-- Chips moved between the seats and the pot, and the betting's record moved with them. -/
structure OnlyChips (g g' : GameState) : Prop where
  phase : g'.phase = g.phase
  button : g'.button = g.button
  toAct : g'.toAct = g.toAct
  board : g'.board = g.board
  deck : g'.deck = g.deck
  panicked : g'.panicked = g.panicked
  handNumber : g'.handNumber = g.handNumber
  handsPlayed : g'.handsPlayed = g.handsPlayed
  seatStats : g'.seatStats = g.seatStats
  table : ∀ p, (g'.seat p).tableParticipation = (g.seat p).tableParticipation
  cards : ∀ p, (g'.seat p).holeCards = (g.seat p).holeCards

theorem OnlyChips.refl (g : GameState) : OnlyChips g g :=
  ⟨rfl, rfl, rfl, rfl, rfl, rfl, rfl, rfl, rfl, fun _ => rfl, fun _ => rfl⟩

theorem OnlyChips.trans (h : OnlyChips g g') (h' : OnlyChips g' g'') : OnlyChips g g'' :=
  ⟨h'.phase.trans h.phase, h'.button.trans h.button, h'.toAct.trans h.toAct, h'.board.trans h.board, h'.deck.trans h.deck,
    h'.panicked.trans h.panicked, h'.handNumber.trans h.handNumber, h'.handsPlayed.trans h.handsPlayed,
    h'.seatStats.trans h.seatStats, fun p => (h'.table p).trans (h.table p), fun p => (h'.cards p).trans (h.cards p)⟩

/-- A change to one seat that keeps its place at the table and its cards. -/
theorem OnlyChips.seatMut {f : SeatState → SeatState} (htable : ∀ st, (f st).tableParticipation = st.tableParticipation)
    (hcards : ∀ st, (f st).holeCards = st.holeCards) : OnlyChips g (g.seatMut p f) := by
  refine ⟨rfl, rfl, rfl, rfl, rfl, rfl, rfl, rfl, rfl, ?_, ?_⟩ <;> intro q <;> obtain rfl | rfl := p.eq_or_other q <;>
    simp [htable, hcards]

theorem addChips_only : OnlyChips g (g.addChips p amount) := by
  have h : OnlyChips g (g.seatMut p fun st =>
      { st with stack := st.stack - min amount (g.stack p), streetBet := wrap32 (st.streetBet + min amount (g.stack p)) }) :=
    .seatMut (fun _ => rfl) fun _ => rfl
  exact ⟨h.phase, h.button, h.toAct, h.board, h.deck, h.panicked, h.handNumber, h.handsPlayed, h.seatStats, h.table, h.cards⟩

theorem postBlind_only : OnlyChips g (g.postBlind p amount) := by
  simp only [postBlind]
  split
  · exact addChips_only.trans (.seatMut (fun _ => rfl) fun _ => rfl)
  · exact addChips_only

theorem wagerTo_only : OnlyChips g (g.wagerTo p amount) := by
  have hchecked : OnlyChips g (g.arith (g.streetBet p ≤ amount)) :=
    ⟨rfl, rfl, rfl, rfl, rfl, rfl, rfl, rfl, rfl, fun _ => rfl, fun _ => rfl⟩
  exact hchecked.trans addChips_only

theorem raised_only {oldMax : Nat} : OnlyChips g (g.raised p amount oldMax) :=
  ⟨rfl, rfl, rfl, rfl, rfl, rfl, rfl, rfl, rfl, fun _ => rfl, fun _ => rfl⟩

theorem wager_only (action : Action) : OnlyChips g (g.wager p action) := by
  cases action with
  | fold | check => exact .refl g
  | call amount => exact addChips_only
  | bet amount | raise amount => exact wagerTo_only.trans raised_only
  | allIn amount =>
    have h : OnlyChips g ((g.wagerTo p amount).seatMut p fun st => { st with handParticipation := .allIn }) :=
      wagerTo_only.trans (.seatMut (fun _ => rfl) fun _ => rfl)
    simp only [wager]
    split
    · exact h.trans raised_only
    · exact h

theorem refund_only : OnlyChips g (g.refund p amount) := by
  have h : OnlyChips g (g.seatMut p fun st =>
      { st with stack := wrap32 (st.stack + amount), streetBet := st.streetBet - amount }) :=
    .seatMut (fun _ => rfl) fun _ => rfl
  exact ⟨h.phase, h.button, h.toAct, h.board, h.deck, h.panicked, h.handNumber, h.handsPlayed, h.seatStats, h.table, h.cards⟩

theorem returnUncalled_only : OnlyChips g g.returnUncalledHeadsUpExcess := by
  simp only [returnUncalledHeadsUpExcess]
  split
  · exact .refl g
  · exact refund_only

theorem collectBets_only : OnlyChips g g.collectBets := by
  refine returnUncalled_only.trans ⟨rfl, rfl, rfl, rfl, rfl, rfl, rfl, rfl, rfl, ?_, ?_⟩ <;> intro q <;> cases q <;> rfl

/-- No seat has more than a `u32` in front of it and behind. -/
def InRange (g : GameState) : Prop := ∀ p, g.stack p + g.streetBet p ≤ u32Max

@[simp] theorem addChips_seat_other : (g.addChips p amount).seat p.other = g.seat p.other := seat_seatMut_other ..

theorem addChips_seat (hr : g.InRange) (hle : amount ≤ g.stack p) :
    (g.addChips p amount).seat p = { g.seat p with stack := g.stack p - amount, streetBet := g.streetBet p + amount } := by
  have hp := hr p
  have hbet : wrap32 (g.streetBet p + amount) = g.streetBet p + amount := wrap32_of_le (by omega)
  have h : (g.addChips p amount).seat p = { g.seat p with
      stack := g.stack p - min amount (g.stack p), streetBet := wrap32 (g.streetBet p + min amount (g.stack p)) } :=
    seat_seatMut ..
  rw [h, Nat.min_eq_left hle, hbet]

end Operations

end GameState

end OpenFelt
