/-
  OpenFelt.Training.Arena — one hand played by policies (`src/training/`).

  Translation. `step` and the runs take the arena to their result and the arena they
  leave. A boxed `dyn Policy` is a state and what it selects in it. `u16`, `u32` and `u64`
  values are `Nat`, with their saturation written out; the maps are the lists of their
  entries. The loop `while let Some(observation) = ..` has fuel, and `none` is its
  running out (`playOut_some`).
-/

import OpenFelt.Protocol.RingHistory

namespace OpenFelt

/-! ## Deals -/

def dealPlanVersion : Nat := 1

structure DealPlanV1 where
  version : Nat
  cards : List Card
  deriving DecidableEq, Repr

/-- The errors of plans; those of weighted ranges are left out. -/
inductive DealPlanError where
  | unsupportedVersion (version : Nat)
  | wrongCardCount (count : Nat)
  | duplicateCard (card : Card)
  | invalidOccupancy (count : Nat)
  | seatOutsideTable (seat : SeatId)
  | duplicateSeat (seat : SeatId)
  | buttonNotOccupied (seat : SeatId)
  | holeAssignmentMismatch
  | invalidRunoutSeatCount (count : Nat)
  deriving DecidableEq, Repr

/-- `ensure_unique`; `seen` are the cards before. -/
def ensureUnique : List Card → List Card → Except DealPlanError Unit
  | _, [] => .ok ()
  | seen, card :: rest => if seen.contains card then .error (.duplicateCard card) else ensureUnique (card :: seen) rest

def DealPlanV1.validate (plan : DealPlanV1) : Except DealPlanError Unit :=
  if plan.version ≠ dealPlanVersion then .error (.unsupportedVersion plan.version)
  else if plan.cards.length ≠ 52 then .error (.wrongCardCount plan.cards.length)
  else ensureUnique [] plan.cards

def DealPlanV1.intoDeck (plan : DealPlanV1) : Except DealPlanError Deck :=
  plan.validate.map fun () => ⟨plan.cards, 0⟩

/-! ## Observations -/

def policyObservationVersion : Nat := 1

structure PolicyPublicActionV1 where
  revision : Nat
  seat : SeatId
  phase : MultiwayPhase
  action : Action
  nextToAct : Option SeatId
  potAfter : Nat
  deriving DecidableEq, Repr

structure PolicySeatV1 where
  seat : SeatId
  stack : Nat
  streetContribution : Nat
  handContribution : Nat
  participation : HandParticipation
  deriving DecidableEq, Repr

structure PolicyObservationV1 where
  version : Nat
  tableId : TableId
  handId : HandId
  revision : Nat
  actingSeat : SeatId
  tableSize : TableSize
  phase : MultiwayPhase
  button : SeatId
  smallBlind : SeatId
  bigBlind : SeatId
  bigBlindAmount : Nat
  holeCards : Card × Card
  board : List Card
  seats : List PolicySeatV1
  currentWager : Nat
  potTotal : Nat
  amountToCall : Nat
  effectiveStack : Nat
  /-- Effective stack divided by pot, scaled by 1,000; `none` for an empty pot. -/
  stackToPotMilli : Option Nat
  /-- Call cost divided by pot after calling, scaled by 1,000,000. -/
  potOddsMillionths : Option Nat
  legalActions : MultiwayLegalActions
  actionHistory : List PolicyPublicActionV1
  deriving DecidableEq, Repr

inductive PolicyObservationError where
  | unsupportedProtocolVersion (version : Nat)
  | spectatorProjection
  | audienceMismatch
  | actorNotFound
  | ownCardsUnavailable
  | ownCardCount (count : Nat)
  | notActing
  | legalActionsUnavailable
  | tooManyActions (count : Nat)
  | incompleteHistory (revision actions : Nat)
  | wrongEventScope
  | nonMonotonicEventRevision
  deriving DecidableEq, Repr

/-- `scaled_ratio`; the callers' denominators are positive. -/
def scaledRatio (numerator denominator scale : Nat) : Nat := min (numerator * scale / denominator) u32Max

def EventEnvelope.policyAction (event : EventEnvelope) : Option PolicyPublicActionV1 :=
  match event.event with
  | .actionAccepted seat action phase nextToAct potTotal =>
    some ⟨event.revision, seat, phase, action, nextToAct, potTotal⟩
  | .showdownAdvanced | .showdownPreferenceAccepted _ => none

namespace PolicyObservationV1

/-- The loop over the accepted events, from `index`. -/
def readHistory (envelope : SnapshotEnvelope) : Nat → List EventEnvelope →
    Except PolicyObservationError (List PolicyPublicActionV1)
  | _, [] => .ok []
  | index, event :: rest =>
    if event.version ≠ protocolVersion ∨ event.tableId ≠ envelope.tableId ∨ event.handId ≠ envelope.handId ∨
        envelope.revision < event.revision then .error .wrongEventScope
    else if event.revision ≠ index + 1 then .error .nonMonotonicEventRevision
    else (readHistory envelope (index + 1) rest).map (event.policyAction.toList ++ ·)

def fromAuthorized (envelope : SnapshotEnvelope) (acceptedEvents : List EventEnvelope) :
    Except PolicyObservationError PolicyObservationV1 :=
  let view := envelope.snapshot
  if envelope.version ≠ protocolVersion then .error (.unsupportedProtocolVersion envelope.version)
  else if maxHistoryActions < acceptedEvents.length then .error (.tooManyActions acceptedEvents.length)
  else if envelope.revision ≠ acceptedEvents.length then
    .error (.incompleteHistory envelope.revision acceptedEvents.length)
  else
    match view.audience with
    | .spectator => .error .spectatorProjection
    | .player actingSeat =>
      if view.toAct ≠ some actingSeat then .error .notActing
      else
        match view.legalActions with
        | none => .error .legalActionsUnavailable
        | some legalActions =>
          match view.seats.find? fun seat => seat.seat = actingSeat with
          | none => .error .actorNotFound
          | some actor =>
            match actor.holeCards with
            | none => .error .ownCardsUnavailable
            | some [first, second] =>
              let amountToCall := view.currentWager - actor.streetContribution
              let largestOpponentStack := (((view.seats.filter fun seat => seat.seat ≠ actingSeat).filter fun seat =>
                seat.participation = .live ∨ seat.participation = .allIn).map (·.stack)).foldl max 0
              let effectiveStack := min actor.stack largestOpponentStack
              let potAfterCall := saturatingAdd view.potTotal amountToCall
              (readHistory envelope 0 acceptedEvents).map fun actionHistory => {
                version := policyObservationVersion
                tableId := envelope.tableId
                handId := envelope.handId
                revision := envelope.revision
                actingSeat := actingSeat
                tableSize := view.tableSize
                phase := view.phase
                button := view.button
                smallBlind := view.smallBlind
                bigBlind := view.bigBlind
                bigBlindAmount := OpenFelt.bigBlind
                holeCards := (first, second)
                board := view.board
                seats := view.seats.map fun seat =>
                  ⟨seat.seat, seat.stack, seat.streetContribution, seat.handContribution, seat.participation⟩
                currentWager := view.currentWager
                potTotal := view.potTotal
                amountToCall := amountToCall
                effectiveStack := effectiveStack
                stackToPotMilli :=
                  if 0 < view.potTotal then some (scaledRatio effectiveStack view.potTotal 1000) else none
                potOddsMillionths :=
                  if 0 < amountToCall ∧ 0 < potAfterCall then some (scaledRatio amountToCall potAfterCall 1000000) else none
                legalActions := legalActions
                actionHistory := actionHistory }
            | some cards => .error (.ownCardCount cards.length)

/-- `acting_seat_state().street_contribution`; observations hold the acting seat. -/
def actingContribution (observation : PolicyObservationV1) : Nat :=
  ((observation.seats.find? fun seat => seat.seat = observation.actingSeat).map (·.streetContribution)).getD 0

end PolicyObservationV1

/-! ## Policy actions -/

inductive PolicyActionV1 where
  | fold
  | check
  | call
  | betRaiseQuarterPot
  | betRaiseHalfPot
  | betRaiseThreeQuarterPot
  | betRaisePot
  | betRaiseOneAndHalfPot
  | allIn
  deriving DecidableEq, Repr

inductive PolicyActionError where
  | masked (action : PolicyActionV1)
  deriving DecidableEq, Repr

/-- The integer ceiling of a fraction. -/
def ceilFraction (value numerator denominator : Nat) : Nat := min ((value * numerator + denominator - 1) / denominator) u32Max

/-- The wager a bet or raise aims at, clamped to the least one and to an all-in. -/
def clampTarget (legal : MultiwayLegalActions) (minimum desired : Nat) (wager : Nat → Action) : Action :=
  let target := max desired minimum
  if legal.allInTo ≤ target then .allIn legal.allInTo
  else
    let target := min target (legal.allInTo - 1)
    if target < minimum then .allIn legal.allInTo else wager target

def mapFraction (observation : PolicyObservationV1) (policyAction : PolicyActionV1) (numerator denominator : Nat) :
    Except PolicyActionError Action :=
  let legal := observation.legalActions
  let contribution := observation.actingContribution
  match legal.minBetTo, legal.minRaiseTo with
  | some minimum, _ =>
    let increment := ceilFraction observation.potTotal numerator denominator
    .ok (clampTarget legal minimum (saturatingAdd contribution increment) .bet)
  | none, some minimum =>
    let potAfterCall := saturatingAdd observation.potTotal observation.amountToCall
    let increment := ceilFraction potAfterCall numerator denominator
    .ok (clampTarget legal minimum (saturatingAdd observation.currentWager increment) .raise)
  | none, none =>
    if contribution < legal.allInTo ∧ legal.canAllIn then .ok (.allIn legal.allInTo) else .error (.masked policyAction)

def mapPolicyAction (observation : PolicyObservationV1) (policyAction : PolicyActionV1) : Except PolicyActionError Action :=
  let legal := observation.legalActions
  let contribution := observation.actingContribution
  match policyAction with
  | .fold => if legal.canFold then .ok .fold else .error (.masked policyAction)
  | .check => if legal.canCheck then .ok .check else .error (.masked policyAction)
  | .call =>
    match legal.callAmount with
    | some amount => .ok (.call amount)
    | none =>
      if 0 < observation.amountToCall ∧ contribution < legal.allInTo then .ok (.allIn legal.allInTo)
      else .error (.masked policyAction)
  | .betRaiseQuarterPot => mapFraction observation policyAction 1 4
  | .betRaiseHalfPot => mapFraction observation policyAction 1 2
  | .betRaiseThreeQuarterPot => mapFraction observation policyAction 3 4
  | .betRaisePot => mapFraction observation policyAction 1 1
  | .betRaiseOneAndHalfPot => mapFraction observation policyAction 3 2
  | .allIn =>
    if contribution < legal.allInTo ∧ legal.canAllIn then .ok (.allIn legal.allInTo) else .error (.masked policyAction)

/-- A boxed `dyn Policy`. -/
structure Policy (σ : Type) where
  state : σ
  select : σ → PolicyObservationV1 → Except PolicyActionError PolicyActionV1 × σ

/-! ## The arena -/

def trainingEpisodeVersion : Nat := 1

def trainingRunSummaryVersion : Nat := 1

inductive ArenaRecordingMode where
  | minimal
  | full
  deriving DecidableEq, Repr

structure ArenaConfig where
  tableId : TableId
  handId : HandId
  tableSize : TableSize
  button : SeatId
  seatStacks : List (SeatId × Nat)
  forcedPosts : List ForcedPost
  maxActions : Nat
  recording : ArenaRecordingMode
  deriving DecidableEq, Repr

/-- `ArenaConfig::heads_up`. -/
def ArenaConfig.headsUp (startingStack : Nat) : ArenaConfig where
  tableId := ⟨1⟩
  handId := ⟨1⟩
  tableSize := .two
  button := 0
  seatStacks := [(0, startingStack), (1, startingStack)]
  forcedPosts := []
  maxActions := maxHistoryActions
  recording := .full

structure TrainingDecisionV1 where
  observation : PolicyObservationV1
  policyAction : PolicyActionV1
  authoritativeAction : Action
  acceptedEvent : EventEnvelope
  deriving DecidableEq, Repr

structure TrainingEpisodeV1 where
  version : Nat
  decisions : List TrainingDecisionV1
  terminalPublicSnapshot : SnapshotEnvelope
  safeHistory : SafeRingHandHistory
  chipDeltas : List (SeatId × Int)
  deriving DecidableEq, Repr

structure TrainingRunSummaryV1 where
  version : Nat
  acceptedActions : Nat
  terminalPhase : MultiwayPhase
  chipDeltas : List (SeatId × Int)
  deriving DecidableEq, Repr

inductive ArenaError where
  | dealPlan (error : DealPlanError)
  | invalidHand (error : MultiwayConfigError)
  | projection
  | observation (error : PolicyObservationError)
  | policyAction (error : PolicyActionError)
  | authorityRejected (code : ProtocolErrorCode)
  | missingPolicy (seat : SeatId)
  | handAlreadyTerminal
  | handNotTerminal
  | actionLimitReached (limit : Nat)
  | safeHistory (error : HistoryError)
  deriving DecidableEq, Repr

structure TrainingArena where
  authority : ProtocolAuthority
  initialStacks : List (SeatId × Nat)
  acceptedEvents : List EventEnvelope
  decisions : List TrainingDecisionV1
  maxActions : Nat
  recording : ArenaRecordingMode
  deriving DecidableEq, Repr

namespace TrainingArena

def new (config : ArenaConfig) (deal : DealPlanV1) : Except ArenaError TrainingArena :=
  if config.maxActions = 0 ∨ maxHistoryActions < config.maxActions then .error (.actionLimitReached config.maxActions)
  else
    match deal.intoDeck with
    | .error error => .error (.dealPlan error)
    | .ok deck =>
      match MultiwayHand.withPreparedDeck config.tableSize config.button config.seatStacks config.forcedPosts .default deck with
      | .error error => .error (.invalidHand error)
      | .ok hand => .ok {
          authority := .new config.tableId config.handId hand
          initialStacks := config.seatStacks
          acceptedEvents := []
          decisions := []
          maxActions := config.maxActions
          recording := config.recording }

variable (arena : TrainingArena)

def currentObservation : Except ArenaError (Option PolicyObservationV1) :=
  match arena.authority.snapshot .spectator with
  | .error _ => .error .projection
  | .ok envelope =>
    match envelope.snapshot.toAct with
    | none => .ok none
    | some actor =>
      match arena.authority.snapshot (.player actor) with
      | .error _ => .error .projection
      | .ok privateView =>
        ((PolicyObservationV1.fromAuthorized privateView arena.acceptedEvents).map some).mapError .observation

/-- The decision an observed seat's action leads to. -/
def act (observation : PolicyObservationV1) (policyAction : PolicyActionV1) :
    Except ArenaError TrainingDecisionV1 × TrainingArena :=
  match mapPolicyAction observation policyAction with
  | .error error => (.error (.policyAction error), arena)
  | .ok authoritativeAction =>
    let command := CommandEnvelope.actForHand ("train-" ++ toString (observation.revision + 1)) observation.tableId
      observation.handId observation.revision observation.actingSeat authoritativeAction
    let (receipt, authority) := arena.authority.submitWithAcknowledgement command
    let arena := { arena with authority := authority }
    match receipt.outcome with
    | .rejected error => (.error (.authorityRejected error.error.code), arena)
    | .accepted acceptedEvent =>
      let decision := ⟨observation, policyAction, authoritativeAction, acceptedEvent⟩
      (.ok decision, { arena with
        acceptedEvents := arena.acceptedEvents ++ [acceptedEvent]
        decisions := if arena.recording = .full then arena.decisions ++ [decision] else arena.decisions })

def step (policyAction : PolicyActionV1) : Except ArenaError TrainingDecisionV1 × TrainingArena :=
  if arena.maxActions ≤ arena.acceptedEvents.length then (.error (.actionLimitReached arena.maxActions), arena)
  else
    match arena.currentObservation with
    | .error error => (.error error, arena)
    | .ok none => (.error .handAlreadyTerminal, arena)
    | .ok (some observation) => arena.act observation policyAction

/-- The policy of a seat asked, and the policies after. -/
def consult {σ : Type} (policies : List (SeatId × Policy σ)) (observation : PolicyObservationV1) :
    Except ArenaError PolicyActionV1 × List (SeatId × Policy σ) :=
  match policies.lookup observation.actingSeat with
  | none => (.error (.missingPolicy observation.actingSeat), policies)
  | some policy =>
    let (selected, state) := policy.select policy.state observation
    (selected.mapError .policyAction,
      policies.map fun entry => if entry.1 = observation.actingSeat then (entry.1, { policy with state := state }) else entry)

/-- The loop both runs start with. -/
def playOut {σ : Type} : Nat → TrainingArena → List (SeatId × Policy σ) →
    Option (Except ArenaError Unit × TrainingArena × List (SeatId × Policy σ))
  | 0, _, _ => none
  | fuel + 1, arena, policies =>
    match arena.currentObservation with
    | .error error => some (.error error, arena, policies)
    | .ok none => some (.ok (), arena, policies)
    | .ok (some observation) =>
      match consult policies observation with
      | (.error error, policies) => some (.error error, arena, policies)
      | (.ok policyAction, policies) =>
        match arena.step policyAction with
        | (.error error, arena) => some (.error error, arena, policies)
        | (.ok _, arena) => playOut fuel arena policies

def terminalSnapshot : Except ArenaError SnapshotEnvelope :=
  match arena.authority.snapshot .spectator with
  | .error _ => .error .projection
  | .ok terminal => if terminal.snapshot.phase.terminal then .ok terminal else .error .handNotTerminal

def chipDeltas (terminal : SnapshotEnvelope) : List (SeatId × Int) :=
  terminal.snapshot.seats.map fun seat => (seat.seat, (seat.stack : Int) - ((arena.initialStacks.lookup seat.seat).getD 0 : Nat))

def episode : Except ArenaError TrainingEpisodeV1 :=
  match arena.terminalSnapshot with
  | .error error => .error error
  | .ok terminal =>
    match SafeRingHandHistory.fromPublicTerminal terminal arena.acceptedEvents with
    | .error error => .error (.safeHistory error)
    | .ok safeHistory => .ok ⟨trainingEpisodeVersion, arena.decisions, terminal, safeHistory, arena.chipDeltas terminal⟩

def summary : Except ArenaError TrainingRunSummaryV1 :=
  match arena.terminalSnapshot with
  | .error error => .error error
  | .ok terminal =>
    .ok ⟨trainingRunSummaryVersion, arena.acceptedEvents.length, terminal.snapshot.phase, arena.chipDeltas terminal⟩

/-- More turns than the action limit leaves: see `playOut_some`. -/
def fuel : Nat := arena.maxActions - arena.acceptedEvents.length + 1

def runToTerminal {σ : Type} (policies : List (SeatId × Policy σ)) : Option (Except ArenaError TrainingEpisodeV1) :=
  (playOut arena.fuel arena policies).map fun (result, arena, _) =>
    match result with
    | .error error => .error error
    | .ok () => arena.episode

def runToTerminalSummary {σ : Type} (policies : List (SeatId × Policy σ)) : Option (Except ArenaError TrainingRunSummaryV1) :=
  (playOut arena.fuel arena policies).map fun (result, arena, _) =>
    match result with
    | .error error => .error error
    | .ok () => arena.summary

end TrainingArena

end OpenFelt
