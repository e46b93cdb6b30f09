/-
  OpenFelt.Game.TableLifecycle — a table's roster and its hands (`src/game/lifecycle.rs`).

  Translation. A `&mut self` method gives its result and the table left behind. A
  `BTreeMap` is an `OrdMap`; `u64` counters are `Nat`. Where the source says `expect`
  because the value is there (the seat of a player just found, positions among two
  eligible seats), the default taken here is never used: `Ring.beginHand_positions`.
-/

import OpenFelt.Game.Lifecycle
import OpenFelt.Lib.OrdMap

namespace OpenFelt

inductive TableRunState where
  | waiting
  | running
  | paused
  | closed
  deriving DecidableEq, Repr

inductive PendingSeatTransition where
  | sitOut
  | return
  | leave
  deriving DecidableEq, Repr

structure HandStart where
  number : Nat
  button : SeatId
  seatStacks : List (SeatId × Nat)
  forcedPosts : List ForcedPost
  deriving DecidableEq, Repr

structure BetweenHandSeat where
  seat : SeatId
  player : PlayerId
  stack : Nat
  participation : TableParticipation
  blindObligation : BlindObligation
  deriving DecidableEq, Repr

structure BetweenHandLifecycle where
  tableSize : TableSize
  seats : List BetweenHandSeat
  state : TableRunState
  lastButton : Option SeatId
  nextHandNumber : Nat
  deriving DecidableEq, Repr

inductive RingEntryChoice where
  | waitForBigBlind
  | postLiveBigBlind
  deriving DecidableEq, Repr

inductive MissedBlind where
  | small
  | big
  deriving DecidableEq, Repr

inductive LifecycleError where
  | closed
  | handActive
  | noActiveHand
  | tooFewEligiblePlayers (count : Nat)
  | invalidStack
  | seatOutsideTable (seat : SeatId)
  | seatOccupied (seat : SeatId)
  | seatVacant (seat : SeatId)
  | seatNotReserved (seat : SeatId)
  | reservationOwnedByAnotherPlayer (seat : SeatId)
  | identityAlreadyAtTable (player : PlayerId)
  | playerNotSeated (player : PlayerId)
  | missingHandSeat (seat : SeatId)
  | unexpectedHandSeat (seat : SeatId)
  | duplicateHandSeat (seat : SeatId)
  | chipTotalMismatch (expected actual : Nat)
  | invalidCheckpoint
  deriving DecidableEq, Repr

/-- `map_seat_error`. -/
def SeatMapError.toLifecycle : SeatMapError → LifecycleError
  | seatOutsideTable seat _ => .seatOutsideTable seat
  | seatOccupied seat => .seatOccupied seat
  | seatVacant seat => .seatVacant seat
  | duplicatePlayer player => .identityAlreadyAtTable player

/-- The `match` of `record_missed_blind`. -/
def BlindObligation.missed : BlindObligation → MissedBlind → BlindObligation
  | clear, .small => owesSmallBlind
  | clear, .big => owesBigBlind
  | owesSmallBlind, .big => owesBoth
  | owesBigBlind, .small => owesBoth
  | existing, _ => existing

/-- Where a player asking back is put. -/
def BlindObligation.reentry (obligation : BlindObligation) (entry : RingEntryChoice) : TableParticipation :=
  if obligation = clear then .active
  else
    match entry with
    | .waitForBigBlind => .waitingForBlind
    | .postLiveBigBlind => .active

/-- A `u32` total, `none` once it overflows. -/
def checkedTotal (amounts : List Nat) : Option Nat :=
  amounts.foldl
    (fun total stack => total.bind fun total => if total + stack ≤ u32Max then some (total + stack) else none) (some 0)

/-- `into_hand_with_blinds`; `into_hand` is its case `BlindValues.default`. The deck stands for the shuffle. -/
def HandStart.intoHand (start : HandStart) (tableSize : TableSize) (blindValues : BlindValues) (deck : Deck) : HandConfig where
  tableSize := tableSize
  button := start.button
  seatStacks := start.seatStacks
  forcedPosts := start.forcedPosts
  blindValues := blindValues
  deck := deck

/-- What a checkpoint keeps of a player. -/
def BetweenHandSeat.taken (occupant : SeatId × SeatState) : BetweenHandSeat where
  seat := occupant.1
  player := occupant.2.playerId
  stack := occupant.2.stack
  participation := occupant.2.tableParticipation
  blindObligation := occupant.2.blindObligation

/-- The seat a checkpoint restores. -/
def BetweenHandSeat.restored (entry : BetweenHandSeat) : SeatState :=
  { SeatState.seated entry.player entry.stack with
    connection := .disconnected
    tableParticipation := entry.participation
    blindObligation := entry.blindObligation }

structure TableLifecycle where
  tableSize : TableSize
  seats : TableSeats
  reservations : OrdMap SeatId PlayerId
  pending : OrdMap PlayerId PendingSeatTransition
  state : TableRunState
  activeHand : Option HandStart
  lastButton : Option SeatId
  nextHandNumber : Nat

namespace TableLifecycle

variable (t : TableLifecycle)

def new (tableSize : TableSize) : TableLifecycle where
  tableSize := tableSize
  seats := .new tableSize
  reservations := .empty
  pending := .empty
  state := .waiting
  activeHand := none
  lastButton := none
  nextHandNumber := 1

def handActive : Bool := t.activeHand.isSome

/-- A write through `seat_mut`. -/
def modifySeat (seat : SeatId) (f : SeatState → SeatState) (hf : ∀ st, (f st).playerId = st.playerId) : TableLifecycle :=
  { t with seats := t.seats.modify seat f hf }

def eligibleCount : Nat := t.seats.eligibleCount

def ensureOpen : Except LifecycleError Unit := if t.state = .closed then .error .closed else .ok ()

def ensureSeat (seat : SeatId) : Except LifecycleError Unit :=
  if t.tableSize.contains seat then .ok () else .error (.seatOutsideTable seat)

def identityPresent (player : PlayerId) : Bool :=
  (t.seats.seatForPlayer player).isSome || t.reservations.values.any (· = player)

def refreshBetweenHandState : TableLifecycle :=
  if t.state = .closed || t.handActive then t
  else
    { t with state :=
        if t.seats.occupiedCount = 0 then .waiting
        else
          match t.state with
          | .running | .paused => if 2 ≤ t.eligibleCount then .running else .paused
          | _ => .waiting }

/-! ## Checkpoints -/

def betweenHandCheckpoint : Except LifecycleError BetweenHandLifecycle :=
  if t.handActive then .error .handActive
  else if t.pending.size ≠ 0 then .error .handActive
  else
    .ok {
      tableSize := t.tableSize
      seats := t.seats.occupied.map BetweenHandSeat.taken
      state := t.state
      lastButton := t.lastButton
      nextHandNumber := t.nextHandNumber }

def restoreSeats (tableSize : TableSize) : List BetweenHandSeat → TableSeats → Except LifecycleError TableSeats
  | [], seats => .ok seats
  | entry :: rest, seats =>
    if !tableSize.contains entry.seat || entry.participation = .leaving then .error .invalidCheckpoint
    else
      match seats.occupy entry.seat entry.restored with
      | .error error => .error error.toLifecycle
      | .ok seats => restoreSeats tableSize rest seats

/-- The run states a checkpoint may be in. -/
def stateValid (state : TableRunState) (nextHandNumber occupied eligible : Nat) : Bool :=
  match state with
  | .waiting => occupied = 0 || nextHandNumber = 1
  | .running => 2 ≤ eligible
  | .paused => 0 < occupied && eligible < 2
  | .closed => false

def restoreBetweenHand (checkpoint : BetweenHandLifecycle) : Except LifecycleError TableLifecycle :=
  if checkpoint.nextHandNumber = 0 || checkpoint.lastButton.any (fun seat => !checkpoint.tableSize.contains seat) ||
      checkpoint.state = .closed then
    .error .invalidCheckpoint
  else
    match restoreSeats checkpoint.tableSize checkpoint.seats (.new checkpoint.tableSize) with
    | .error error => .error error
    | .ok seats =>
      let lifecycle : TableLifecycle := {
        tableSize := checkpoint.tableSize
        seats := seats
        reservations := .empty
        pending := .empty
        state := checkpoint.state
        activeHand := none
        lastButton := checkpoint.lastButton
        nextHandNumber := checkpoint.nextHandNumber }
      if stateValid checkpoint.state checkpoint.nextHandNumber seats.occupiedCount lifecycle.eligibleCount then .ok lifecycle
      else .error .invalidCheckpoint

/-! ## Seating -/

def reserve (player : PlayerId) (seat : SeatId) : Except LifecycleError Unit × TableLifecycle :=
  match t.ensureOpen, t.ensureSeat seat with
  | .error error, _ => (.error error, t)
  | .ok (), .error error => (.error error, t)
  | .ok (), .ok () =>
    if t.identityPresent player then (.error (.identityAlreadyAtTable player), t)
    else if (t.seats.seat seat).isSome then (.error (.seatOccupied seat), t)
    else if t.reservations.contains seat then (.error (.reservationOwnedByAnotherPlayer seat), t)
    else (.ok (), { t with reservations := t.reservations.insert seat player })

def cancelReservation (player : PlayerId) (seat : SeatId) : Except LifecycleError Unit × TableLifecycle :=
  match t.ensureOpen, t.reservations.find? seat with
  | .error error, _ => (.error error, t)
  | .ok (), none => (.error (.seatNotReserved seat), t)
  | .ok (), some owner =>
    if owner ≠ player then (.error (.reservationOwnedByAnotherPlayer seat), t)
    else (.ok (), { t with reservations := t.reservations.erase seat })

def occupy (player : PlayerId) (seat : SeatId) (stack : Nat) : Except LifecycleError Unit × TableLifecycle :=
  match t.ensureOpen with
  | .error error => (.error error, t)
  | .ok () =>
    if t.handActive then (.error .handActive, t)
    else if stack = 0 then (.error .invalidStack, t)
    else
      match t.ensureSeat seat with
      | .error error => (.error error, t)
      | .ok () =>
        if (t.seats.seatForPlayer player).isSome then (.error (.identityAlreadyAtTable player), t)
        else
          match t.reservations.find? seat with
          | none => (.error (.seatNotReserved seat), t)
          | some owner =>
            if owner ≠ player then (.error (.reservationOwnedByAnotherPlayer seat), t)
            else
              match t.seats.occupy seat (.seated player stack) with
              | .error error => (.error error.toLifecycle, t)
              | .ok seats =>
                (.ok (), { t with seats := seats, reservations := t.reservations.erase seat }.refreshBetweenHandState)

def join (player : PlayerId) (seat : SeatId) (stack : Nat) : Except LifecycleError Unit × TableLifecycle :=
  if stack = 0 then (.error .invalidStack, t)
  else
    match t.reserve player seat with
    | (.error error, t) => (.error error, t)
    | (.ok (), t) =>
      match t.occupy player seat stack with
      | (.error error, t) => (.error error, { t with reservations := t.reservations.erase seat })
      | (.ok (), t) => (.ok (), t)

/-- A new player's debt and participation once hands have been dealt. -/
def entering (entry : RingEntryChoice) (st : SeatState) : SeatState :=
  { st with
    blindObligation := .owesBigBlind
    tableParticipation :=
      match entry with
      | .waitForBigBlind => .waitingForBlind
      | .postLiveBigBlind => .active }

def joinWithEntry (player : PlayerId) (seat : SeatId) (stack : Nat) (entry : RingEntryChoice) :
    Except LifecycleError Unit × TableLifecycle :=
  match t.join player seat stack with
  | (.error error, t) => (.error error, t)
  | (.ok (), t) =>
    if 1 < t.nextHandNumber then
      (.ok (), (t.modifySeat seat (entering entry) fun _ => rfl).refreshBetweenHandState)
    else (.ok (), t)

/-! ## Debts, connections and transitions -/

def recordMissedBlind (player : PlayerId) (missed : MissedBlind) : Except LifecycleError Unit × TableLifecycle :=
  match t.ensureOpen with
  | .error error => (.error error, t)
  | .ok () =>
    if t.handActive then (.error .handActive, t)
    else
      match t.seats.seatForPlayer player with
      | none => (.error (.playerNotSeated player), t)
      | some seat =>
        (.ok (), t.modifySeat seat (fun st => { st with blindObligation := st.blindObligation.missed missed }) fun _ => rfl)

def requestReturnWithEntry (player : PlayerId) (entry : RingEntryChoice) : Except LifecycleError Unit × TableLifecycle :=
  match t.ensureOpen with
  | .error error => (.error error, t)
  | .ok () =>
    if t.handActive then (.error .handActive, t)
    else
      match t.seats.seatForPlayer player with
      | none => (.error (.playerNotSeated player), t)
      | some seat =>
        (.ok (), (t.modifySeat seat (fun st => { st with tableParticipation := st.blindObligation.reentry entry })
          fun _ => rfl).refreshBetweenHandState)

def setConnection (player : PlayerId) (connection : ConnectionState) : Except LifecycleError Unit × TableLifecycle :=
  match t.seats.seatForPlayer player with
  | none => (.error (.playerNotSeated player), t)
  | some seat =>
    (.ok (), t.modifySeat seat (fun st => { st with connection := connection }) fun _ => rfl)

def applyTransition (player : PlayerId) (transition : PendingSeatTransition) : TableLifecycle :=
  match t.seats.seatForPlayer player with
  | none => t
  | some seat =>
    match transition with
    | .sitOut => t.modifySeat seat (fun st => { st with tableParticipation := .sittingOut }) fun _ => rfl
    | .return =>
      t.modifySeat seat (fun st => { st with tableParticipation := st.blindObligation.reentry .waitForBigBlind }) fun _ => rfl
    | .leave => { t with seats := t.seats.vacate seat }

def requestTransition (player : PlayerId) (transition : PendingSeatTransition) : Except LifecycleError Unit × TableLifecycle :=
  match t.ensureOpen with
  | .error error => (.error error, t)
  | .ok () =>
    if (t.seats.seatForPlayer player).isNone then (.error (.playerNotSeated player), t)
    else if t.handActive then
      if t.pending.find? player ≠ some .leave then (.ok (), { t with pending := t.pending.insert player transition })
      else (.ok (), t)
    else (.ok (), (t.applyTransition player transition).refreshBetweenHandState)

def requestSitOut (player : PlayerId) : Except LifecycleError Unit × TableLifecycle := t.requestTransition player .sitOut

def requestReturn (player : PlayerId) : Except LifecycleError Unit × TableLifecycle := t.requestTransition player .return

def requestLeave (player : PlayerId) : Except LifecycleError Unit × TableLifecycle := t.requestTransition player .leave

def applyPending : TableLifecycle :=
  t.pending.entries.foldl (fun t (player, transition) => t.applyTransition player transition) { t with pending := .empty }

/-! ## Hands -/

def nextButton : Option SeatId :=
  match t.lastButton with
  | some last => t.seats.nextForHand last
  | none => t.tableSize.seats.find? t.seats.eligible

/-- The hand were the waiting seat `candidate` dealt in. -/
def prospective (candidate seat : SeatId) : Bool := t.seats.eligible seat || (t.seats.seat seat).isSome && seat = candidate

/-- That hand's big blind. -/
def prospectiveBigBlind (candidate : SeatId) : Option SeatId :=
  let players := (t.seats.occupied.filter fun (seat, _) => t.prospective candidate seat).length
  if players < 2 then none
  else
    let button :=
      match t.lastButton with
      | some last => t.tableSize.nextEligible last (t.prospective candidate)
      | none => t.tableSize.seats.find? (t.prospective candidate)
    button.map fun button =>
      let first := (t.tableSize.nextEligible button (t.prospective candidate)).getD button
      if players = 2 then first else (t.tableSize.nextEligible first (t.prospective candidate)).getD button

/-- The seats that wait for the big blind, in order. -/
def waiters : List SeatId :=
  (t.seats.occupied.filter fun (_, st) => st.tableParticipation = .waitingForBlind).map (·.1)

/-- The first waiting seat whose big blind has come. -/
def promoted : Option SeatId := t.waiters.find? fun candidate => t.prospectiveBigBlind candidate = some candidate

def promoteNaturalBigBlindWaiter : TableLifecycle :=
  match t.promoted with
  | none => t
  | some candidate =>
    t.modifySeat candidate (fun st => { st with tableParticipation := .active, blindObligation := .clear }) fun _ => rfl

/-- The seats dealt in, with what they owe. -/
def dealtObligations : List (SeatId × BlindObligation) :=
  (t.seats.occupied.filter fun (_, st) => st.eligibleForNextHand).map fun (seat, st) => (seat, st.blindObligation)

def dealtStacks : List (SeatId × Nat) :=
  (t.seats.occupied.filter fun (_, st) => st.eligibleForNextHand).map fun (seat, st) => (seat, st.stack)

def dealIn (st : SeatState) : SeatState := { st with blindObligation := .clear, handParticipation := .live }

/-- The blind seats of the hand that `begin_hand` starts from this button. -/
def blindsFrom (button : SeatId) : HandPositions :=
  match t.seats.positions button with
  | .ok positions => positions
  | .error _ => ⟨button, button, button, button, button⟩

/-- The hand that two eligible seats or more start. -/
def handStart : HandStart :=
  let button := t.nextButton.getD 0
  let positions := t.blindsFrom button
  { number := t.nextHandNumber
    button := button
    seatStacks := t.dealtStacks
    forcedPosts := forcedPosts positions.smallBlind positions.bigBlind t.dealtObligations }

/-- The table while that hand is played. -/
def dealHand : TableLifecycle :=
  { t with
    seats := t.dealtStacks.foldl (fun seats (seat, _) => seats.modify seat dealIn fun _ => rfl) t.seats
    nextHandNumber := t.nextHandNumber + 1
    lastButton := some t.handStart.button
    activeHand := some t.handStart
    state := .running }

def beginHand : Except LifecycleError HandStart × TableLifecycle :=
  match t.ensureOpen with
  | .error error => (.error error, t)
  | .ok () =>
    if t.handActive then (.error .handActive, t)
    else
      let t := t.promoteNaturalBigBlindWaiter
      let eligible := t.eligibleCount
      if eligible < 2 then
        (.error (.tooFewEligiblePlayers eligible),
          { t with state := if t.seats.occupiedCount = 0 then .waiting else .paused })
      else (.ok t.handStart, t.dealHand)

/-- The reported stacks by seat: each seat of the hand, once. -/
def reported (expected : OrdMap SeatId Nat) :
    List (SeatId × Nat) → OrdMap SeatId Nat → Except LifecycleError (OrdMap SeatId Nat)
  | [], actual => .ok actual
  | (seat, stack) :: rest, actual =>
    if actual.contains seat then .error (.duplicateHandSeat seat)
    else if !expected.contains seat then .error (.unexpectedHandSeat seat)
    else reported expected rest (actual.insert seat stack)

def settleSeat (stack : Nat) (st : SeatState) : SeatState :=
  { st with stack := stack, streetBet := 0, holeCards := [], handParticipation := .notDealt }

def completeHand (finalStacks : List (SeatId × Nat)) : Except LifecycleError Unit × TableLifecycle :=
  match t.activeHand with
  | none => (.error .noActiveHand, t)
  | some start =>
    let expected := start.seatStacks.foldl (fun m (seat, stack) => m.insert seat stack) (.empty : OrdMap SeatId Nat)
    match reported expected finalStacks .empty with
    | .error error => (.error error, t)
    | .ok actual =>
      match expected.keys.find? fun seat => !actual.contains seat with
      | some seat => (.error (.missingHandSeat seat), t)
      | none =>
        match checkedTotal expected.values with
        | none => (.error (.chipTotalMismatch u32Max u32Max), t)
        | some expectedTotal =>
          match checkedTotal actual.values with
          | none => (.error (.chipTotalMismatch expectedTotal u32Max), t)
          | some actualTotal =>
            if actualTotal ≠ expectedTotal then (.error (.chipTotalMismatch expectedTotal actualTotal), t)
            else
              let settled := { t with
                seats := actual.entries.foldl (fun seats (seat, stack) =>
                  seats.modify seat (settleSeat stack) fun _ => rfl) t.seats
                activeHand := none }
              (.ok (), settled.applyPending.refreshBetweenHandState)

def close : Except LifecycleError Unit × TableLifecycle :=
  match t.ensureOpen with
  | .error error => (.error error, t)
  | .ok () =>
    if t.handActive then (.error .handActive, t)
    else (.ok (), { t with state := .closed, reservations := .empty, pending := .empty })

end TableLifecycle

end OpenFelt
