/-
  OpenFelt.Game.Multiway — the hand authority (`src/game/multiway.rs`,
  `src/game/multiway/showdown.rs`).

  Translation. A `&mut self` method is a function from the hand to the hand; one that
  returns a `Result` gives the result and the hand left behind, so that what a refused
  call changes can be asked. `u32` amounts are `Nat`; `panicked` is set, and stays
  set, once a checked `u32` operation leaves its range, an `expect` finds nothing or a
  `debug_assert` fails, where the source would stop. `seats` is the source's
  `Vec<Option<MultiwaySeatState>>`, a `BTreeMap` or `BTreeSet` keyed by seats is the
  list of its entries.
-/

import OpenFelt.Game.Command
import OpenFelt.Game.HandRank

namespace OpenFelt

def u32Max : Nat := 2 ^ 32 - 1

def fitsU32 (n : Nat) : Bool := n ≤ u32Max

/-- `u32::saturating_add`. -/
def saturatingAdd (a b : Nat) : Nat := min (a + b) u32Max

inductive HandParticipation where
  | notDealt
  | live
  | folded
  | allIn
  deriving DecidableEq, Repr

inductive MultiwayPhase where
  | preflop
  | flop
  | turn
  | river
  | showdown
  | handComplete
  deriving DecidableEq, Repr

def MultiwayPhase.acceptsActions : MultiwayPhase → Bool
  | preflop | flop | turn | river => true
  | showdown | handComplete => false

/-- The betting streets from this one on. -/
def MultiwayPhase.streetsLeft : MultiwayPhase → Nat
  | preflop => 4
  | flop => 3
  | turn => 2
  | river => 1
  | showdown | handComplete => 0

theorem MultiwayPhase.streetsLeft_pos {phase : MultiwayPhase} (ha : phase.acceptsActions = true) : 0 < phase.streetsLeft := by
  cases phase with
  | preflop | flop | turn | river => decide
  | showdown | handComplete => cases ha

structure MultiwaySeatState where
  holeCards : List Card
  stack : Nat
  streetContribution : Nat
  handContribution : Nat
  participation : HandParticipation
  /-- The wager this seat last acted against on this street; `none` while it still owes
      its first response. -/
  lastActionWager : Option Nat
  deriving DecidableEq, Repr

namespace MultiwaySeatState

def new (stack : Nat) : MultiwaySeatState := ⟨[], stack, 0, 0, .live, none⟩

/-- What reading an empty seat gives; the source stops there. -/
def vacant : MultiwaySeatState := ⟨[], 0, 0, 0, .notDealt, none⟩

def canAct (st : MultiwaySeatState) : Bool := 0 < st.stack && st.participation == .live

def eligibleForPot (st : MultiwaySeatState) : Bool := st.participation == .live || st.participation == .allIn

end MultiwaySeatState

structure MultiwayLegalActions where
  canFold : Bool
  canCheck : Bool
  callAmount : Option Nat
  minBetTo : Option Nat
  minRaiseTo : Option Nat
  allInTo : Nat
  raiseReopened : Bool
  deriving DecidableEq, Repr, Inhabited

/-- `can_all_in`: an all-in either raises with reopened action or is an exact or short call. -/
def MultiwayLegalActions.canAllIn (legal : MultiwayLegalActions) : Bool :=
  legal.raiseReopened || (!legal.canCheck && legal.callAmount.isNone)

structure MultiwayActionRecord where
  sequence : Nat
  phase : MultiwayPhase
  seat : SeatId
  action : Action
  wagerAfter : Nat
  deriving DecidableEq, Repr

structure ForcedPost where
  seat : SeatId
  amount : Nat
  live : Bool
  deriving DecidableEq, Repr

structure BlindValues where
  smallBlind : Nat
  bigBlind : Nat
  ante : Nat
  deriving DecidableEq, Repr

def BlindValues.default : BlindValues := ⟨OpenFelt.smallBlind, OpenFelt.bigBlind, 0⟩

/-- `BlindValues::new(..).is_some()`. -/
def BlindValues.accepted (b : BlindValues) : Bool :=
  0 < b.smallBlind && b.smallBlind < b.bigBlind && b.ante ≤ b.bigBlind

structure Pot where
  amount : Nat
  eligible : List SeatId
  deriving DecidableEq, Repr

structure Contribution where
  seat : SeatId
  amount : Nat
  eligible : Bool
  deriving DecidableEq, Repr

structure ReturnedExcess where
  seat : SeatId
  amount : Nat
  deriving DecidableEq, Repr

structure PotBuild where
  pots : List Pot
  returned : List ReturnedExcess
  deriving DecidableEq, Repr

structure SeatPayout where
  seat : SeatId
  amount : Nat
  deriving DecidableEq, Repr

structure PotAward where
  potIndex : Nat
  amount : Nat
  eligible : List SeatId
  winners : List SeatId
  payouts : List SeatPayout
  deriving DecidableEq, Repr

structure RevealedHand where
  seat : SeatId
  description : String
  deriving DecidableEq, Repr

structure ShowdownProgress where
  allIn : Bool
  order : List SeatId
  cursor : Nat
  mucked : List SeatId
  deriving DecidableEq, Repr

inductive MultiwayConfigError where
  | tooFewPlayers (count : Nat)
  | seatOutsideTable (seat : SeatId)
  | duplicateSeat (seat : SeatId)
  | emptyStack (seat : SeatId)
  | buttonNotOccupied (seat : SeatId)
  | chipTotalOverflow
  | invalidBlinds
  deriving DecidableEq, Repr

structure MultiwayHand where
  phase : MultiwayPhase
  tableSize : TableSize
  seats : List (Option MultiwaySeatState)
  board : List Card
  button : SeatId
  smallBlind : SeatId
  bigBlind : SeatId
  blindValues : BlindValues
  toAct : Option SeatId
  currentWager : Nat
  lastFullRaiseSize : Nat
  actionHistory : List MultiwayActionRecord
  pots : List Pot
  returnedExcess : List ReturnedExcess
  awards : List PotAward
  revealedHands : List RevealedHand
  settledContributions : List Contribution
  showdownProgress : Option ShowdownProgress
  muckedHands : List SeatId
  alwaysShow : List SeatId
  pacedShowdown : Bool
  showdownEvaluations : List (SeatId × HandEvaluation)
  initialTotal : Nat
  deck : Deck
  panicked : Bool
  deriving DecidableEq, Repr

/-! ## Pots -/

/-- The distinct positive contribution levels, upwards. -/
def potLevels (contributions : List Contribution) : List Nat :=
  Vec.dedup (((contributions.filter fun entry => 0 < entry.amount).map (·.amount)).insertionSort (· ≤ ·))

/-- The layers from `previous` up: one reached by a single contributor is returned. -/
def buildLayers (contributions : List Contribution) : Nat → List Nat → PotBuild
  | _, [] => ⟨[], []⟩
  | previous, level :: levels =>
    let contributors := contributions.filter fun entry => level ≤ entry.amount
    let layer := (level - previous) * contributors.length
    let rest := buildLayers contributions level levels
    match contributors with
    | [only] => { rest with returned := ⟨only.seat, layer⟩ :: rest.returned }
    | _ =>
      if 0 < layer then
        { rest with pots := ⟨layer, (contributors.filter (·.eligible)).map (·.seat)⟩ :: rest.pots }
      else rest

def buildPots (contributions : List Contribution) : PotBuild := buildLayers contributions 0 (potLevels contributions)

/-- No subtraction or product of `build_pots` leaves `u32`. -/
def layersInRange (contributions : List Contribution) : Nat → List Nat → Bool
  | _, [] => true
  | previous, level :: levels =>
    previous ≤ level && fitsU32 ((level - previous) * (contributions.filter fun entry => level ≤ entry.amount).length) &&
      layersInRange contributions level levels

/-! ## Seats -/

def seatIn (seats : List (Option MultiwaySeatState)) (seat : SeatId) : Option MultiwaySeatState := seats[seat.val]?.join

def seatOf (seats : List (Option MultiwaySeatState)) (seat : SeatId) : MultiwaySeatState :=
  (seatIn seats seat).getD .vacant

def occupiedIn (seats : List (Option MultiwaySeatState)) (seat : SeatId) : Bool := (seatIn seats seat).isSome

/-- A write at one seat, if it is occupied. -/
def modifySeat (seats : List (Option MultiwaySeatState)) (seat : SeatId) (f : MultiwaySeatState → MultiwaySeatState) :
    List (Option MultiwaySeatState) :=
  seats.modify seat.val (Option.map f)

/-- `clockwise_occupied`. -/
def clockwiseOccupied (size : TableSize) (seats : List (Option MultiwaySeatState)) (after : SeatId) : List SeatId :=
  (clockwiseFrom size after 1 size.get).filter (occupiedIn seats)

/-- `next_occupied`. -/
def nextOccupied (size : TableSize) (seats : List (Option MultiwaySeatState)) (after : SeatId) : Option SeatId :=
  (clockwiseFrom size after 1 size.get).find? (occupiedIn seats)

namespace MultiwayHand

variable (h : MultiwayHand)

/-- Record that the source would stop here unless `ok`. -/
def check (ok : Bool) : MultiwayHand := { h with panicked := h.panicked || !ok }

abbrev seat (seat : SeatId) : MultiwaySeatState := seatOf h.seats seat

/-- A write through `seat_mut`, which stops at an empty seat. -/
def updateSeat (seat : SeatId) (f : MultiwaySeatState → MultiwaySeatState) : MultiwayHand :=
  { h with
    seats := modifySeat h.seats seat f
    panicked := h.panicked || !occupiedIn h.seats seat }

abbrev occupiedSeats : List SeatId := h.tableSize.seats.filter (occupiedIn h.seats)

/-- The same write to every occupied seat in turn. -/
def updateOccupied (f : MultiwaySeatState → MultiwaySeatState) : MultiwayHand :=
  h.occupiedSeats.foldl (fun h seat => h.updateSeat seat f) h

/-- A `u32` total over the occupied seats. -/
def sumSeats (f : MultiwaySeatState → Nat) : Nat := (h.occupiedSeats.map fun seat => f (h.seat seat)).sum

def totalChips : Nat := h.sumSeats (·.stack) + h.sumSeats (·.handContribution)

def amountToCall (seat : SeatId) : Nat := h.currentWager - (h.seat seat).streetContribution

def raiseReopenedFor (seat : SeatId) : Bool :=
  match (h.seat seat).lastActionWager with
  | none => true
  | some priorWager => h.lastFullRaiseSize ≤ h.currentWager - priorWager

def potEligibleCount : Nat := (h.occupiedSeats.filter fun seat => (h.seat seat).eligibleForPot).length

def needsAction (seat : SeatId) : Bool :=
  let state := h.seat seat
  state.canAct && (state.lastActionWager.isNone || state.streetContribution < h.currentWager)

def bettingRoundComplete : Bool :=
  match h.occupiedSeats.filter fun seat => (h.seat seat).canAct with
  | [] => true
  | [only] => h.currentWager ≤ (h.seat only).streetContribution
  | live => live.all fun seat => !h.needsAction seat

def firstNeedingFrom (start : SeatId) : Option SeatId :=
  (clockwiseFrom h.tableSize start 0 h.tableSize.get).find? fun seat => occupiedIn h.seats seat && h.needsAction seat

def nextNeedingAfter (after : SeatId) : Option SeatId :=
  (clockwiseFrom h.tableSize after 1 h.tableSize.get).find? fun seat => occupiedIn h.seats seat && h.needsAction seat

def nextLiveAfter (after : SeatId) : Option SeatId :=
  (clockwiseFrom h.tableSize after 1 h.tableSize.get).find? fun seat =>
    occupiedIn h.seats seat && (h.seat seat).canAct

/-! ## Legality -/

def legalActionsFor (seat : SeatId) : Option MultiwayLegalActions :=
  if !h.phase.acceptsActions || h.toAct != some seat || !(h.seat seat).canAct then none
  else
    let state := h.seat seat
    let toCall := h.amountToCall seat
    let allInTo := saturatingAdd state.streetContribution state.stack
    let otherLive := h.occupiedSeats.any fun other => other != seat && (h.seat other).canAct
    let raiseReopened := h.raiseReopenedFor seat
    let maximumNonAllIn := allInTo - 1
    let minimumRaise := saturatingAdd h.currentWager h.lastFullRaiseSize
    some {
      canFold := 0 < toCall
      canCheck := toCall = 0
      callAmount := if 0 < toCall ∧ toCall < state.stack then some toCall else none
      minBetTo :=
        if h.currentWager = 0 ∧ otherLive ∧ h.blindValues.bigBlind ≤ maximumNonAllIn then some h.blindValues.bigBlind
        else none
      minRaiseTo :=
        if 0 < h.currentWager ∧ otherLive ∧ raiseReopened ∧ minimumRaise ≤ maximumNonAllIn then some minimumRaise
        else none
      allInTo := allInTo
      raiseReopened := raiseReopened }

/-- `validate_action`; `validateCommand` has made sure there are legal actions. -/
def validateAction (seat : SeatId) (action : Action) : Except ActionError Unit :=
  let legal := (h.legalActionsFor seat).getD default
  let current := (h.seat seat).streetContribution
  let maximumNonAllIn := legal.allInTo - 1
  match action with
  | .fold => if legal.canFold then .ok () else .error .foldNotAllowed
  | .check => if legal.canCheck then .ok () else .error .checkNotAllowed
  | .call actual =>
    match legal.callAmount with
    | some expected => if expected = actual then .ok () else .error (.invalidCall expected actual)
    | none => .error .callNotAllowed
  | .bet actual =>
    match legal.minBetTo with
    | some minimum =>
      if minimum ≤ actual ∧ actual ≤ maximumNonAllIn then .ok ()
      else .error (.betOutOfRange minimum maximumNonAllIn actual)
    | none => .error .betNotAllowed
  | .raise actual =>
    if !legal.raiseReopened then .error .raiseNotReopened
    else
      match legal.minRaiseTo with
      | some minimum =>
        if minimum ≤ actual ∧ actual ≤ maximumNonAllIn then .ok ()
        else .error (.raiseOutOfRange minimum maximumNonAllIn actual)
      | none => .error .raiseNotAllowed
  | .allIn actual =>
    if h.currentWager < actual ∧ !legal.raiseReopened then .error .raiseNotReopened
    else if actual = legal.allInTo ∧ current < actual then .ok ()
    else .error (.invalidAllIn legal.allInTo actual)

def validateCommand (command : SeatCommand) : Except CommandError Unit :=
  if !h.phase.acceptsActions then .error .handNotActive
  else
    match seatIn h.seats command.seat with
    | none => .error (.seatNotOccupied command.seat)
    | some state =>
      if !state.canAct then .error (.seatNotEligible command.seat)
      else
        match h.toAct with
        | none => .error .handNotActive
        | some expected =>
          if command.seat ≠ expected then .error (.outOfTurn expected command.seat)
          else (h.validateAction command.seat command.action).mapError .illegalAction

/-! ## Chips -/

def commitChips (seat : SeatId) (requested : Nat) : MultiwayHand :=
  let state := h.seat seat
  let actual := min requested state.stack
  let h := h.check (fitsU32 (state.streetContribution + actual) && fitsU32 (state.handContribution + actual))
  h.updateSeat seat fun state =>
    { state with
      stack := state.stack - actual
      streetContribution := state.streetContribution + actual
      handContribution := state.handContribution + actual
      participation := if state.stack - actual = 0 then .allIn else state.participation }

def commitDeadChips (seat : SeatId) (requested : Nat) : MultiwayHand :=
  let state := h.seat seat
  let actual := min requested state.stack
  let h := h.check (fitsU32 (state.handContribution + actual))
  h.updateSeat seat fun state =>
    { state with
      stack := state.stack - actual
      handContribution := state.handContribution + actual
      participation := if state.stack - actual = 0 then .allIn else state.participation }

def commitTo (seat : SeatId) (target : Nat) : MultiwayHand :=
  h.commitChips seat (target - (h.seat seat).streetContribution)

/-- `stack += amount`. -/
def credit (seat : SeatId) (amount : Nat) : MultiwayHand :=
  (h.check (fitsU32 ((h.seat seat).stack + amount))).updateSeat seat fun state =>
    { state with stack := state.stack + amount }

def contributionSnapshot : List Contribution :=
  h.occupiedSeats.map fun seat => ⟨seat, (h.seat seat).handContribution, (h.seat seat).eligibleForPot⟩

def clearContributions : MultiwayHand :=
  h.updateOccupied fun state =>
    { state with streetContribution := 0, handContribution := 0, lastActionWager := none }

/-! ## Settlement -/

def awardFold : MultiwayHand :=
  let h := { h with showdownProgress := none }
  match h.occupiedSeats.find? fun seat => (h.seat seat).eligibleForPot with
  | none => h.check false
  | some winner =>
    let amount := h.sumSeats (·.handContribution)
    let h := h.check (fitsU32 amount)
    let h := { h with settledContributions := h.contributionSnapshot }
    let h := h.credit winner amount
    let h := { h with awards := [⟨0, amount, [winner], [winner], [⟨winner, amount⟩]⟩] }
    { h.clearContributions with toAct := none, phase := .handComplete }

def evaluationOf (seat : SeatId) : Option HandEvaluation := h.showdownEvaluations.lookup seat

def evaluateShowdownOnce : MultiwayHand :=
  if h.showdownEvaluations.isEmpty then
    { h with
      showdownEvaluations := (h.occupiedSeats.filter fun seat => (h.seat seat).eligibleForPot).map fun seat =>
        (seat, evaluateHand (h.seat seat).holeCards h.board) }
  else h

def awardOrder (seats : List SeatId) : List SeatId :=
  seats.insertionSort fun a b =>
    clockwiseAwardKey h.tableSize h.button a ≤ clockwiseAwardKey h.tableSize h.button b

def showOrder : List SeatId :=
  let first := (h.actionHistory.reverse.find? fun record =>
    record.phase == .river && match record.action with
      | .bet _ | .raise _ => true
      | _ => false).map (·.seat)
  let order := h.awardOrder (h.occupiedSeats.filter fun seat => (h.seat seat).eligibleForPot)
  match first.bind fun seat => order.idxOf? seat with
  | some index => order.drop index ++ order.take index
  | none => order

/-- What a hand is tabled as. -/
def tabledAs (seat : SeatId) : String :=
  match h.evaluationOf seat with
  | some evaluation => evaluation.description
  | none => "All-in - board pending"

def tableCards (seat : SeatId) : MultiwayHand :=
  if h.revealedHands.any (·.seat == seat) then h
  else { h with revealedHands := h.revealedHands ++ [⟨seat, h.tabledAs seat⟩] }

def strictlyBetter (shown seat : SeatId) : Bool :=
  compareHands ((h.evaluationOf shown).getD default) ((h.evaluationOf seat).getD default) == .gt

/-- Only hands already tabled justify a muck: one strictly better in each pot. -/
def beatenByTabledHands (seat : SeatId) : Bool :=
  let relevant := (buildPots h.contributionSnapshot).pots.filter fun pot => pot.eligible.contains seat
  !relevant.isEmpty && relevant.all fun pot =>
    h.revealedHands.any fun shown => pot.eligible.contains shown.seat && h.strictlyBetter shown.seat seat

def anyAllIn : Bool := h.occupiedSeats.any fun seat => (h.seat seat).participation == .allIn

def revealSynchronously : MultiwayHand :=
  let allIn := h.anyAllIn
  h.showOrder.foldl
    (fun h seat =>
      if allIn || h.alwaysShow.contains seat || !h.beatenByTabledHands seat then h.tableCards seat
      else { h with muckedHands := h.muckedHands ++ [seat] })
    h

def describeRevealed : MultiwayHand :=
  { h with
    revealedHands := h.revealedHands.map fun shown =>
      match h.evaluationOf shown.seat with
      | some evaluation => { shown with description := evaluation.description }
      | none => shown }

def potPayouts (amount : Nat) (winners : List SeatId) : List SeatPayout :=
  winners.zipIdx.map fun (seat, index) =>
    ⟨seat, amount / winners.length + if index < amount % winners.length then 1 else 0⟩

/-- The best hand among a pot's eligible seats. -/
def bestOf (pot : Pot) : Option HandEvaluation := Vec.maxBy compareHands (pot.eligible.filterMap h.evaluationOf)

def winnersOf (pot : Pot) (best : HandEvaluation) : List SeatId :=
  h.awardOrder (pot.eligible.filter fun seat =>
    match h.evaluationOf seat with
    | some hand => compareHands hand best == .eq
    | none => false)

def potAward (pot : Pot) (potIndex : Nat) (best : HandEvaluation) : PotAward :=
  let winners := h.winnersOf pot best
  ⟨potIndex, pot.amount, pot.eligible, winners, potPayouts pot.amount winners⟩

/-- One turn of the award loop; a pot without an evaluated eligible hand stops it. -/
def awardPot (pot : Pot) (potIndex : Nat) : MultiwayHand :=
  match h.bestOf pot with
  | none => h.check false
  | some best =>
    let award := h.potAward pot potIndex best
    let h := h.check (award.payouts.all fun payout => fitsU32 payout.amount)
    let h := award.payouts.foldl (fun h payout => h.credit payout.seat payout.amount) h
    { h with awards := h.awards ++ [award] }

/-- The pots cut, the unmatched chips given back. -/
def returnUnmatched : MultiwayHand :=
  let h := { h with settledContributions := h.contributionSnapshot }
  let build := buildPots h.settledContributions
  let h := h.check (layersInRange h.settledContributions 0 (potLevels h.settledContributions))
  let h := { h with pots := build.pots, returnedExcess := build.returned }
  h.returnedExcess.foldl (fun h returned => h.credit returned.seat returned.amount) h

/-- The hands tabled if none is yet, each with its value. -/
def publishHands : MultiwayHand :=
  (if h.revealedHands.isEmpty then h.revealSynchronously else h).describeRevealed

def payPots : MultiwayHand := h.pots.zipIdx.foldl (fun h x => h.awardPot x.1 x.2) h

def closeShowdown : MultiwayHand :=
  let h := { h.clearContributions with toAct := none, phase := .showdown }
  h.check (fitsU32 h.totalChips && h.totalChips = h.initialTotal)

def resolveShowdown : MultiwayHand :=
  h.returnUnmatched.evaluateShowdownOnce.publishHands.payPots.closeShowdown

/-! ## Showdown -/

/-- The reveal loop over `order[cursor..]`: stops at the first hand that becomes public. -/
def revealFrom : List SeatId → MultiwayHand → Bool × MultiwayHand
  | [], h => (false, h)
  | seat :: rest, h =>
    let h := { h with showdownProgress := h.showdownProgress.map fun (p : ShowdownProgress) => { p with cursor := p.cursor + 1 } }
    if h.alwaysShow.contains seat || !h.beatenByTabledHands seat then (true, h.tableCards seat)
    else
      let h := { h with muckedHands := h.muckedHands ++ [seat] }
      revealFrom rest { h with showdownProgress := h.showdownProgress.map fun (p : ShowdownProgress) =>
        { p with mucked := h.muckedHands } }

def dealBoard (count : Nat) : MultiwayHand :=
  let (cards, deck) := h.deck.dealN count
  { h with board := h.board ++ cards, deck := deck }

/-- Cards a runout deals next, and the phase the board then shows. -/
def runoutCards : Nat := if h.board.isEmpty then 3 else 1

def runoutPhase : MultiwayPhase :=
  match h.board.length with
  | 3 => .flop
  | 4 => .turn
  | _ => .river

def advanceShowdown : Bool × MultiwayHand :=
  match h.showdownProgress with
  | none => (false, h)
  | some progress =>
    if h.potEligibleCount = 1 then (true, h.awardFold)
    else if progress.allIn && h.board.length < 5 then
      let h := h.dealBoard h.runoutCards
      (true, { h with phase := h.runoutPhase })
    else
      match revealFrom (progress.order.drop progress.cursor) h with
      | (true, h) => (true, h)
      | (false, h) => (true, { h with showdownProgress := none }.resolveShowdown)

/-- More than the calls `while self.advance_showdown()` makes: see `drained`. -/
def showdownFuel : Nat :=
  match h.showdownProgress with
  | none => 0
  | some progress => (5 - h.board.length) + (progress.order.length - progress.cursor) + 1

/-- `while self.advance_showdown() {}`. -/
def drainShowdown : Nat → MultiwayHand → MultiwayHand
  | 0, h => h
  | fuel + 1, h =>
    match h.advanceShowdown with
    | (true, h') => drainShowdown fuel h'
    | (false, h') => h'

/-- The reveal order set, and the hands that are public from the start. -/
def openShowdown (allIn : Bool) : MultiwayHand :=
  let h := { h with toAct := none }
  let h := if allIn then h else h.evaluateShowdownOnce
  let order := h.showOrder
  if allIn then
    { order.foldl tableCards h with showdownProgress := some ⟨allIn, order, order.length, []⟩ }
  else
    match order with
    | first :: _ => { h.tableCards first with showdownProgress := some ⟨allIn, order, 1, []⟩ }
    | [] => { h with showdownProgress := some ⟨allIn, order, 0, []⟩ }

def beginShowdown (allIn : Bool) : MultiwayHand :=
  if h.potEligibleCount = 1 then h.awardFold
  else
    let h := h.openShowdown allIn
    if h.pacedShowdown then h else h.drainShowdown h.showdownFuel

/-! ## Streets -/

def bettingLocked : Bool := (h.occupiedSeats.filter fun seat => (h.seat seat).canAct).length ≤ 1

/-- The street's marks and wager cleared before the next cards. -/
def clearStreet : MultiwayHand :=
  { h.updateOccupied fun state => { state with streetContribution := 0, lastActionWager := none } with
    currentWager := 0
    lastFullRaiseSize := h.blindValues.bigBlind
    toAct := none }

def firstPostflop : Option SeatId :=
  (h.nextLiveAfter h.button).or (h.occupiedSeats.find? fun seat => (h.seat seat).canAct)

/-- The seat that opens the street just dealt. -/
def openStreet : MultiwayHand := { h with toAct := h.firstPostflop.bind h.firstNeedingFrom }

/-- `advance_street`, which calls itself when the new street has no betting: at most once
    for each street left. -/
def advanceStreetFrom : Nat → MultiwayHand → MultiwayHand
  | 0, h => h
  | fuel + 1, h =>
    if h.potEligibleCount = 1 then h.awardFold
    else
      let anyAllIn := h.anyAllIn
      if h.phase = .river ∨ (h.bettingLocked ∧ anyAllIn) then h.beginShowdown anyAllIn
      else
        let h := h.clearStreet
        let settleOpen (h : MultiwayHand) : MultiwayHand :=
          let h := h.openStreet
          if h.bettingRoundComplete then advanceStreetFrom fuel h else h
        match h.phase with
        | .preflop => settleOpen { h.dealBoard 3 with phase := .flop }
        | .flop => settleOpen { h.dealBoard 1 with phase := .turn }
        | .turn => settleOpen { h.dealBoard 1 with phase := .river }
        | .river => h.resolveShowdown
        | _ => h

def advanceStreet : MultiwayHand := advanceStreetFrom (h.phase.streetsLeft + 1) h

def advanceAutomaticallyIfNeeded : MultiwayHand :=
  if h.phase.acceptsActions && h.bettingRoundComplete then h.advanceStreet else h

/-! ## Actions -/

/-- The chips and the wager an action moves. -/
def moveChips (seat : SeatId) (action : Action) : MultiwayHand :=
  let oldWager := h.currentWager
  match action with
  | .fold => h.updateSeat seat fun state => { state with participation := .folded }
  | .check => h
  | .call amount =>
    let target := (h.seat seat).streetContribution + amount
    (h.check (fitsU32 target)).commitTo seat target
  | .bet target | .raise target =>
    { h.commitTo seat target with currentWager := target, lastFullRaiseSize := target - oldWager }
  | .allIn target =>
    let h := h.commitTo seat target
    let h :=
      if oldWager < target then
        let increase := target - oldWager
        let fullRaise :=
          if oldWager = 0 then h.blindValues.bigBlind ≤ target else h.lastFullRaiseSize ≤ increase
        { h with
          currentWager := target
          lastFullRaiseSize := if fullRaise then increase else h.lastFullRaiseSize }
      else h
    h.updateSeat seat fun state => { state with participation := .allIn }

/-- A seat still live has now acted against the current wager. -/
def markResponse (seat : SeatId) : MultiwayHand :=
  if (h.seat seat).participation = .live then
    h.updateSeat seat fun state => { state with lastActionWager := some h.currentWager }
  else h

/-- The action's effect on the books: chips, the response mark, the history. -/
def recordAction (seat : SeatId) (action : Action) : MultiwayHand :=
  let phase := h.phase
  let h := (h.moveChips seat action).markResponse seat
  { h with
    actionHistory := h.actionHistory ++ [⟨h.actionHistory.length + 1, phase, seat, action, h.currentWager⟩] }

def applyValidatedAction (seat : SeatId) (action : Action) : MultiwayHand :=
  let h := h.recordAction seat action
  if h.potEligibleCount = 1 then h.awardFold
  else if h.bettingRoundComplete then h.advanceStreet
  else
    let toAct := h.nextNeedingAfter seat
    { h with toAct := toAct }.check toAct.isSome

def applyCommand (command : SeatCommand) : Except CommandError Unit × MultiwayHand :=
  match h.validateCommand command with
  | .error error => (.error error, h)
  | .ok () => (.ok (), h.applyValidatedAction command.seat command.action)

def setAlwaysShow (seat : SeatId) (value : Bool) : Except CommandError Unit × MultiwayHand :=
  if !h.occupiedSeats.any (· == seat) then (.error (.seatNotOccupied seat), h)
  else if !h.phase.acceptsActions || h.showdownProgress.isSome then (.error .handNotActive, h)
  else (.ok (), { h with alwaysShow := if value then h.alwaysShow.insert seat else h.alwaysShow.filter (· != seat) })

def enablePacedShowdown : MultiwayHand := { h with pacedShowdown := true }

/-! ## Construction -/

/-- The configured seats, in order: each in the table, new, with chips, the total in `u32`. -/
def placeStacks (size : TableSize) :
    List (SeatId × Nat) → List (Option MultiwaySeatState) → Nat →
      Except MultiwayConfigError (List (Option MultiwaySeatState) × Nat)
  | [], seats, total => .ok (seats, total)
  | (seat, stack) :: rest, seats, total =>
    if !size.contains seat then .error (.seatOutsideTable seat)
    else if occupiedIn seats seat then .error (.duplicateSeat seat)
    else if stack = 0 then .error (.emptyStack seat)
    else if !fitsU32 (total + stack) then .error .chipTotalOverflow
    else placeStacks size rest (seats.set seat.val (some (.new stack))) (total + stack)

/-- One card to each seat in turn. -/
def dealHoleCards : List SeatId → MultiwayHand → MultiwayHand
  | [], h => h
  | seat :: rest, h =>
    match h.deck.deal with
    | (some card, deck) =>
      dealHoleCards rest ({ h with deck := deck }.updateSeat seat fun state =>
        { state with holeCards := state.holeCards ++ [card] })
    | (none, _) => dealHoleCards rest (h.check false)

/-- The forced posts, in order; one at an empty seat refuses the configuration. -/
def postForced : List ForcedPost → MultiwayHand → Except MultiwayConfigError MultiwayHand
  | [], h => .ok h
  | post :: rest, h =>
    if !h.occupiedSeats.any (· == post.seat) then .error (.seatOutsideTable post.seat)
    else postForced rest (if post.live then h.commitChips post.seat post.amount else h.commitDeadChips post.seat post.amount)

/-- Small blind, big blind and first to act before the flop. -/
def openingPositions (size : TableSize) (seats : List (Option MultiwaySeatState)) (button : SeatId) (players : Nat) :
    Option (SeatId × SeatId × SeatId) :=
  if players = 2 then do
    let bigBlind ← nextOccupied size seats button
    return (button, bigBlind, button)
  else do
    let smallBlind ← nextOccupied size seats button
    let bigBlind ← nextOccupied size seats smallBlind
    let firstPreflop ← nextOccupied size seats bigBlind
    return (smallBlind, bigBlind, firstPreflop)

/-- The seated hand before any card or chip moves. -/
def seated (tableSize : TableSize) (seats : List (Option MultiwaySeatState)) (button smallBlind bigBlind : SeatId)
    (blindValues : BlindValues) (initialTotal : Nat) (deck : Deck) : MultiwayHand where
  phase := .preflop
  tableSize := tableSize
  seats := seats
  board := []
  button := button
  smallBlind := smallBlind
  bigBlind := bigBlind
  blindValues := blindValues
  toAct := none
  currentWager := 0
  lastFullRaiseSize := blindValues.bigBlind
  actionHistory := []
  pots := []
  returnedExcess := []
  awards := []
  revealedHands := []
  settledContributions := []
  showdownProgress := none
  muckedHands := []
  alwaysShow := []
  pacedShowdown := true
  showdownEvaluations := []
  initialTotal := initialTotal
  deck := deck
  panicked := false

def postAntes : MultiwayHand :=
  if 0 < h.blindValues.ante then
    h.occupiedSeats.foldl (fun hand seat => hand.commitDeadChips seat h.blindValues.ante) h
  else h

def postBlinds : MultiwayHand :=
  (h.commitChips h.smallBlind h.blindValues.smallBlind).commitChips h.bigBlind h.blindValues.bigBlind

/-- The opening wager and actor once everything is posted. -/
def openPreflop (firstPreflop : SeatId) : MultiwayHand :=
  let h := { h with
    currentWager := (h.occupiedSeats.map fun seat => (h.seat seat).streetContribution).foldl max 0 }
  let h := { h with toAct := h.firstNeedingFrom firstPreflop }
  { h.advanceAutomaticallyIfNeeded with pacedShowdown := false }

def withPreparedDeck (tableSize : TableSize) (button : SeatId) (seatStacks : List (SeatId × Nat))
    (forcedPosts : List ForcedPost) (blindValues : BlindValues) (deck : Deck) :
    Except MultiwayConfigError MultiwayHand :=
  if !blindValues.accepted then .error .invalidBlinds
  else if seatStacks.length < 2 then .error (.tooFewPlayers seatStacks.length)
  else
    match placeStacks tableSize seatStacks (List.replicate tableSize.get none) 0 with
    | .error error => .error error
    | .ok (seats, initialTotal) =>
      if !occupiedIn seats button then .error (.buttonNotOccupied button)
      else
        let positions := openingPositions tableSize seats button seatStacks.length
        let (smallBlind, bigBlind, firstPreflop) := positions.getD (button, button, button)
        let hand := (seated tableSize seats button smallBlind bigBlind blindValues initialTotal deck).check positions.isSome
        let occupied := clockwiseOccupied tableSize seats button
        let hand := dealHoleCards occupied (dealHoleCards occupied hand)
        match postForced forcedPosts hand.postAntes.postBlinds with
        | .error error => .error error
        | .ok hand => .ok (hand.openPreflop firstPreflop)

end MultiwayHand

end OpenFelt
