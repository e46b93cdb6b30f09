/-
  OpenFelt.Trainer.Session — the trainer's local table (`src/trainer/mod.rs`, the records
  of `src/trainer/facts.rs`, `src/trainer/storage.rs` and `src/trainer/replay.rs`).

  A session drives one hand at a time: the hero is seat 0, every other seat is an
  opponent. The hand comes from the constructor that paces nothing, so only commands move
  it; after each decision of the hero the session pauses for feedback. The random choices
  of the source are arguments: the shuffled deck of each hand, an opponent's draws and the
  session's id. What the coaching module says of a decision is an argument as well.
-/

import OpenFelt.Trainer.Policy

namespace OpenFelt.Trainer

/-! ## Settings -/

def hero : SeatId := 0

structure ProviderSettings where
  model : String
  timeoutSeconds : Nat
  maxOutputTokens : Nat
  maxRequests : Nat
  inputUsdPerMillion : Option Rate
  outputUsdPerMillion : Option Rate
  budgetUsd : Option Rate
  pricingAsOf : Option String
  deriving DecidableEq, Repr

/-- The characters `str::trim` takes off. -/
def whiteSpace (c : Char) : Bool :=
  let n := c.toNat
  (9 ≤ n && n ≤ 13) || (0x2000 ≤ n && n ≤ 0x200a) ||
    [0x20, 0x85, 0xa0, 0x1680, 0x2028, 0x2029, 0x202f, 0x205f, 0x3000].contains n

def ProviderSettings.validate (p : ProviderSettings) : Except String Unit :=
  let nameable (c : Char) : Bool := c.isAlphanum || ['-', '_', '.', ':', '/'].contains c
  let missing : Option Rate → Bool := Option.isNone
  if 128 < p.model.utf8ByteSize || !p.model.toList.all nameable then .error "Invalid model ID"
  else if !(1 ≤ p.timeoutSeconds && p.timeoutSeconds ≤ 120) || !(128 ≤ p.maxOutputTokens && p.maxOutputTokens ≤ 4096) ||
      !(1 ≤ p.maxRequests && p.maxRequests ≤ 1000) then .error "Invalid coaching limits"
  else if [p.inputUsdPerMillion, p.outputUsdPerMillion, p.budgetUsd].reduceOption.any (fun price => !price.any (0 ≤ ·)) then
    .error "Pricing and budget must be finite and nonnegative"
  else if p.budgetUsd.isSome && (missing p.inputUsdPerMillion || missing p.outputUsdPerMillion ||
      p.pricingAsOf.all fun date => date.toList.all whiteSpace) then
    .error "Budget estimates require both token prices and a pricing date/source"
  else .ok ()

/-- Learn pauses after each decision; Play goes on and reviews at the end of the hand. -/
inductive PracticePace where
  | learn
  | play
  deriving DecidableEq, Repr

structure Settings where
  seats : Nat
  smallBlind : Nat
  bigBlind : Nat
  opponents : PolicySettings
  solverFeedback : Bool
  practicePace : PracticePace
  cloud : ProviderSettings
  deriving DecidableEq, Repr

def Settings.validate (s : Settings) : Except String Unit :=
  if !(2 ≤ s.seats && s.seats ≤ 9) || s.smallBlind = 0 || s.bigBlind ≤ s.smallBlind || 10000 < s.bigBlind then
    .error "Use 2–9 seats and blinds 0 < small < big <= 10000"
  else if [s.opponents.aggression, s.opponents.bluffRate, s.opponents.mistakeRate].any fun rate =>
      !rate.any fun r => 0 ≤ r && r ≤ 1 then
    .error "Policy probabilities must be between 0 and 1"
  else s.cloud.validate

/-! ## Decisions -/

namespace Observation

variable (o : Observation)

def position : String :=
  if o.actor = o.button then "Button (last to act postflop while still in the hand)"
  else if o.actor = o.smallBlind then "Small blind (early postflop)"
  else if o.actor = o.bigBlind then "Big blind"
  else
    let n := o.seats.length
    "Seat " ++ toString ((o.actor.val + n - o.bigBlind.val) % n) ++ " after the big blind"

end Observation

structure Facts where
  callCost : Nat
  contestablePotAfterCall : Nat
  handClassification : String
  position : String
  effectiveRemainingByOpponent : List (SeatId × Nat)
  assumptions : List String
  deriving DecidableEq, Repr

def PublicSeat.contesting (s : PublicSeat) : Bool := s.participation = .live || s.participation = .allIn

def Facts.calculate (o : Observation) : Facts :=
  let callCost := o.callCost
  let contributions : List Contribution := o.seats.map fun s =>
    ⟨s.seat, s.handContribution + if s.seat = o.actor then callCost else 0, s.contesting⟩
  let ownStack := (o.own.map (·.stack)).getD 0
  { callCost := callCost
    contestablePotAfterCall := (((buildPots contributions).pots.filter (·.eligible.contains o.actor)).map (·.amount)).sum
    handClassification := (evaluateHand o.holeCards o.board).description
    position := o.position
    effectiveRemainingByOpponent := (o.seats.filter fun s => s.seat ≠ o.actor ∧ s.contesting).map fun s =>
      (s.seat, min (ownStack - callCost) s.stack)
    assumptions := [
      "Contestable pot assumes this call and no further contributions; " ++
        "excludes unmatched excess and pots this player cannot win.",
      "No equity or EV calculated. Different side pots can require different winning probabilities. " ++
        "Earlier streets can involve future betting.",
      "Effective remaining stacks are measured after this hypothetical call, separately for each opponent; " ++
        "zero for an all-in opponent."] }

structure Decision where
  version : Nat
  observation : Observation
  acceptedAction : Action
  facts : Facts
  deriving DecidableEq, Repr

structure Feedback where
  version : Nat
  handId : Nat
  revision : Nat
  assessment : String
  explanation : String
  concept : String
  assumptions : List String
  evidenceBasis : String
  alternativeAction : Option String
  deriving DecidableEq, Repr

structure ReplayDecision where
  decision : Decision
  feedback : Feedback
  deriving DecidableEq, Repr

def replayVersion : Nat := 1

structure CompletedHand where
  version : Nat
  sessionId : String
  handId : String
  sequence : Nat
  decisions : List ReplayDecision
  /-- What may be shown once the hand is over. -/
  outcome : TableProjection
  deriving DecidableEq, Repr

structure CashEvent where
  handId : Nat
  seat : SeatId
  added : Nat
  withdrawn : Nat
  deriving DecidableEq, Repr

/-! ## The session -/

inductive SessionError where
  | message (text : String)
  | config (error : MultiwayConfigError)
  | refused (error : CommandError)
  deriving DecidableEq, Repr

structure Session where
  hand : MultiwayHand
  handId : Nat
  settings : Settings
  bots : List Opponent
  coaching : Option Decision
  frozenView : Option TableProjection
  cashEvents : List CashEvent
  openingHeroStack : Nat
  sessionProfit : Int
  settled : Bool
  completedHands : Nat
  sessionId : String
  replayDecisions : List ReplayDecision
  replayReady : List CompletedHand
  deriving DecidableEq, Repr

/-- Any order of the cards a hand can be dealt from. -/
abbrev Shuffle := {deck : Deck // deck.Shuffled}

namespace Session

/-- Everybody at the table with a hundred big blinds, the hero on the button. -/
def opening (settings : Settings) (table : TableSize) (deck : Shuffle) : HandConfig where
  tableSize := table
  button := hero
  seatStacks := table.seats.map fun seat => (seat, settings.bigBlind * 100)
  forcedPosts := []
  blindValues := ⟨settings.smallBlind, settings.bigBlind, 0⟩
  deck := deck.val

def new (settings : Settings) (deck : Shuffle) (sessionId : String) : Except SessionError Session :=
  match settings.validate with
  | .error text => .error (.message text)
  | .ok () =>
    match TableSize.new settings.seats with
    | none => .error (.message "a table size must be between two and nine seats")
    | some table =>
      if !(opening settings table deck).blindValues.accepted then .error (.message "Invalid blinds")
      else
        match (opening settings table deck).build with
        | .error error => .error (.config error)
        | .ok hand =>
          .ok {
            hand := hand
            handId := 1
            settings := settings
            bots := table.seats.map fun _ => ⟨settings.opponents⟩
            coaching := none
            frozenView := none
            cashEvents := []
            openingHeroStack := settings.bigBlind * 100
            sessionProfit := 0
            settled := false
            completedHands := 0
            sessionId := sessionId
            replayDecisions := []
            replayReady := [] }

variable (s : Session)

/-- The hero's projection; the source expects the hero at the table. -/
def projected : Option TableProjection := (s.hand.projectHand ⟨s.handId⟩ (.player hero)).toOption

def view : Option TableProjection := s.frozenView.or s.projected

def observation (actor : SeatId) : Except String Observation := s.hand.observation ⟨s.handId⟩ actor

def finished : Bool := s.coaching.isNone && s.hand.phase.terminal

def heroStack : Nat := (s.hand.seat hero).stack

def settle : Session :=
  if s.finished && !s.settled then
    match s.projected with
    | none => s
    | some outcome =>
      { s with
        sessionProfit := s.sessionProfit + ((s.heroStack : Int) - s.openingHeroStack)
        completedHands := s.completedHands + 1
        replayReady := s.replayReady ++
          [⟨replayVersion, s.sessionId, s.sessionId ++ "-" ++ toString s.handId, s.handId, s.replayDecisions, outcome⟩]
        replayDecisions := []
        settled := true }
  else s

def submit (localFeedback : Decision → Feedback) (action : Action) : Except SessionError Decision × Session :=
  if s.coaching.isSome then (.error (.message "Press Enter to continue the hand first"), s)
  else
    match s.observation hero with
    | .error text => (.error (.message text), s)
    | .ok observation =>
      match s.hand.applyCommand ⟨hero, action⟩ with
      | (.error error, _) => (.error (.refused error), s)
      | (.ok (), hand) =>
        let decision : Decision := ⟨1, observation, action, Facts.calculate observation⟩
        (.ok decision, { s with
          hand := hand
          coaching := some decision
          replayDecisions := s.replayDecisions ++ [⟨decision, localFeedback decision⟩]
          frozenView := s.view })

def continueHand : Session := { s with coaching := none, frozenView := none }.settle

def stepBot (draws : Draws) : Except SessionError Bool × Session :=
  if s.coaching.isSome || s.finished then (.ok false, s)
  else
    match s.hand.toAct with
    | none => (.ok false, s)
    | some actor =>
      if actor = hero then (.ok false, s)
      else
        match s.observation actor, s.bots[actor.val]? with
        | .error text, _ => (.error (.message text), s)
        -- every seat of the table has its opponent
        | .ok _, none => (.ok false, s)
        | .ok o, some bot =>
          match s.hand.applyCommand ⟨actor, bot.choose draws o⟩ with
          | (.error error, _) => (.error (.refused error), s)
          | (.ok (), hand) => (.ok true, { s with hand := hand }.settle)

/-! ## Between hands -/

/-- The hand with the hero's stack written over. -/
def withHeroStack (stack : Nat) : MultiwayHand := s.hand.updateSeat hero fun state => { state with stack := stack }

def topUp : Except SessionError Nat × Session :=
  if !s.finished then (.error (.message "Top up only between hands"), s)
  else
    let added := s.settings.bigBlind * 100 - s.heroStack
    (.ok added, { s with
      hand := s.withHeroStack (s.heroStack + added)
      cashEvents := s.cashEvents ++ if 0 < added then [⟨s.handId, hero, added, 0⟩] else [] })

def withdraw (amount : Nat) : Except SessionError Unit × Session :=
  if !s.finished || s.heroStack < amount then (.error (.message "Withdraw only available chips between hands"), s)
  else
    (.ok (), { s with
      hand := s.withHeroStack (s.heroStack - amount)
      cashEvents := s.cashEvents ++ [⟨s.handId, hero, 0, amount⟩] })

/-- What a busted opponent is given. -/
def rebuy (seat : SeatId) : Nat :=
  if seat ≠ hero ∧ (s.hand.seat seat).stack = 0 then s.settings.bigBlind * 100 else 0

def rebuys : List CashEvent :=
  (s.hand.occupiedSeats.filter fun seat => 0 < s.rebuy seat).map fun seat => ⟨s.handId, seat, s.rebuy seat, 0⟩

/-- The seat the button is moved to; the source expects a seat of the largest table. -/
def nextButton : Option SeatId :=
  let seat := (s.hand.button.val + 1) % s.settings.seats
  if h : seat < maxTableSeats then some ⟨seat, h⟩ else none

/-- What the next hand is built of. -/
def nextConfig (button : SeatId) (deck : Shuffle) : HandConfig where
  tableSize := s.hand.tableSize
  button := button
  seatStacks := s.hand.occupiedSeats.map fun seat => (seat, (s.hand.seat seat).stack + s.rebuy seat)
  forcedPosts := []
  blindValues := s.hand.blindValues
  deck := deck.val

def nextHand (deck : Shuffle) : Except SessionError Unit × Session :=
  if !s.finished then (.error (.message "Finish this hand first"), s)
  else if s.heroStack = 0 then (.error (.message "Press B to rebuy before the next hand"), s)
  else
    match s.nextButton with
    | none => (.error (.message "table seat"), s)
    | some button =>
      let s' := { s with cashEvents := s.cashEvents ++ s.rebuys, openingHeroStack := s.heroStack }
      match (s.nextConfig button deck).build with
      | .error error => (.error (.config error), s')
      | .ok hand => (.ok (), { s' with hand := hand, handId := s.handId + 1, replayDecisions := [], settled := false })

/-! ## Reviews -/

/-- Only for the decision the session still pauses on. -/
def recordSolverFeedback (feedback : Feedback) : Bool × Session :=
  match s.coaching with
  | none => (false, s)
  | some decision =>
    if feedback.handId ≠ decision.observation.handId || feedback.revision ≠ decision.observation.revision then (false, s)
    else
      match s.replayDecisions.getLast? with
      | none => (false, s)
      | some record =>
        if record.decision ≠ decision then (false, s)
        else (true, { s with replayDecisions := s.replayDecisions.dropLast ++ [{ record with feedback := feedback }] })

end Session

/-- The decision a review is about. -/
def ReplayDecision.matches (feedback : Feedback) (record : ReplayDecision) : Bool :=
  record.decision.observation.handId = feedback.handId && record.decision.observation.revision = feedback.revision

def Feedback.solver (feedback : Feedback) : Bool := "solver".toList.isPrefixOf feedback.evidenceBasis.toList

/-- Amends the first matching record: whether one was found, whether it was written, and the records. -/
def amend (feedback : Feedback) : List ReplayDecision → Bool × Bool × List ReplayDecision
  | [] => (false, false, [])
  | record :: records =>
    if record.matches feedback then
      if record.feedback.solver && !feedback.solver then (true, false, record :: records)
      else (true, true, { record with feedback := feedback } :: records)
    else
      let (found, written, rest) := amend feedback records
      (found, written, record :: rest)

/-- The same over the completed hands in order. -/
def amendHands (feedback : Feedback) : List CompletedHand → Bool × List CompletedHand
  | [] => (false, [])
  | hand :: hands =>
    let (found, written, decisions) := amend feedback hand.decisions
    if found then (written, { hand with decisions := decisions } :: hands)
    else
      let (written, rest) := amendHands feedback hands
      (written, hand :: rest)

namespace Session

variable (s : Session)

def recordReviewFeedback (feedback : Feedback) : Bool × Session :=
  let (found, written, decisions) := amend feedback s.replayDecisions
  if found then (written, { s with replayDecisions := decisions })
  else
    let (written, ready) := amendHands feedback s.replayReady
    (written, { s with replayReady := ready })

/-- `apply_saved_settings` on the session it keeps. -/
def saveSettings (settings : Settings) : Session :=
  let s := { s with settings := settings }
  if s.coaching.isSome && settings.practicePace = .play then s.continueHand else s

end Session

end OpenFelt.Trainer
