/-
  OpenFelt.Protocol.AuthorizedTable — sessions, deadlines and subscriptions in front of
  one authority (`src/authorized_table.rs`, `src/table_actor.rs`).

  Translation. A request the runtime answers takes its state to the answer and the state
  left. The two mailboxes serve one request at a time, so a request is one step; the
  actor answers as long as the runtime lives. A subscription's channel is the list of
  the updates not yet received, with whether anybody still listens. Ticks and counters
  are `Nat`; `Instant`s are milliseconds, given to the call that reads the clock. The
  counters that only `metrics` reads are left out.
-/

import OpenFelt.Lib.OrdMap
import OpenFelt.Protocol.Authority
import Mathlib.Data.String.Basic

namespace OpenFelt

def subscriptionBufferCapacity : Nat := 4

def actionTimeoutTicks : Nat := 60

def actionWarningTicks : Nat := 10

def maxGuestSessionIdBytes : Nat := 64

/-- Between two steps of a paced showdown. -/
def showdownStepMillis : Nat := 1500

structure GuestSessionId where
  value : String
  deriving DecidableEq, Repr

instance : LinearOrder GuestSessionId :=
  LinearOrder.lift' GuestSessionId.value fun ⟨_⟩ ⟨_⟩ h => congrArg GuestSessionId.mk h

inductive SessionRole where
  | player (seat : SeatId)
  | spectator
  deriving DecidableEq, Repr

def SessionRole.audience : SessionRole → ProjectionAudience
  | player seat => .player seat
  | spectator => .spectator

def SessionRole.seat : SessionRole → Option SeatId
  | player seat => some seat
  | spectator => none

inductive AuthorizedTableErrorCode where
  | invalidSessionId
  | unknownSession
  | sessionAlreadyBound
  | seatAlreadyOwned
  | sessionDisconnected
  | spectatorCannotAct
  | unauthorizedSeat
  | wrongTable
  | wrongHand
  | subscriptionAlreadyExists
  | clockRegression
  | deadlineUnavailable
  | runtimeClosed
  | internalAuthorityFailure
  deriving DecidableEq, Repr

def AuthorizedTableErrorCode.name : AuthorizedTableErrorCode → String
  | invalidSessionId => "invalid_session_id"
  | unknownSession => "unknown_session"
  | sessionAlreadyBound => "session_already_bound"
  | seatAlreadyOwned => "seat_already_owned"
  | sessionDisconnected => "session_disconnected"
  | spectatorCannotAct => "spectator_cannot_act"
  | unauthorizedSeat => "unauthorized_seat"
  | wrongTable => "wrong_table"
  | wrongHand => "wrong_hand"
  | subscriptionAlreadyExists => "subscription_already_exists"
  | clockRegression => "clock_regression"
  | deadlineUnavailable => "deadline_unavailable"
  | runtimeClosed => "runtime_closed"
  | internalAuthorityFailure => "internal_authority_failure"

structure AuthorizedTableError where
  code : AuthorizedTableErrorCode
  message : String
  deriving DecidableEq, Repr

namespace AuthorizedTableError

def authorityFailure : AuthorizedTableError :=
  ⟨.internalAuthorityFailure, "table authority could not complete the request"⟩

def unboundSession : AuthorizedTableError := ⟨.unknownSession, "guest session is not bound to this table"⟩

end AuthorizedTableError

def GuestSessionId.new (value : String) : Except AuthorizedTableError GuestSessionId :=
  if value.isEmpty || maxGuestSessionIdBytes < value.utf8ByteSize || !value.toList.all idCharacter then
    .error ⟨.invalidSessionId,
      "guest session ID must contain 1 to " ++ toString maxGuestSessionIdBytes ++ " safe ASCII bytes"⟩
  else .ok ⟨value⟩

structure ActionDeadline where
  seat : SeatId
  warningTick : Nat
  dueTick : Nat
  warningEmitted : Bool
  generation : Nat
  deriving DecidableEq, Repr

inductive SubscriptionReason where
  | initial
  | actionAccepted
  | deadlineWarning (seat : SeatId) (remainingTicks : Nat)
  | timeoutAction (seat : SeatId) (action : Action)
  | connectionStateChanged (seat : Option SeatId) (connected : Bool)
  deriving DecidableEq, Repr

structure SubscriptionUpdate where
  streamSequence : Nat
  reason : SubscriptionReason
  event : Option EventEnvelope
  snapshot : SnapshotEnvelope
  deadline : Option ActionDeadline
  deriving DecidableEq, Repr

structure AuthorizedTableResponse where
  receipt : SubmissionReceipt
  snapshot : SnapshotEnvelope
  deadline : Option ActionDeadline
  streamSequence : Nat
  deriving DecidableEq, Repr

structure TickResult where
  nowTick : Nat
  warningEmitted : Bool
  timeoutEvent : Option EventEnvelope
  timeoutAction : Option Action
  deadline : Option ActionDeadline
  streamSequence : Nat
  deriving DecidableEq, Repr

structure SessionBinding where
  role : SessionRole
  connected : Bool
  deriving DecidableEq, Repr

/-- A subscription's channel. -/
structure Subscriber where
  updates : List SubscriptionUpdate
  listening : Bool
  deriving DecidableEq, Repr

structure RuntimeState where
  table : ProtocolAuthority
  tableId : TableId
  handId : HandId
  sessions : OrdMap GuestSessionId SessionBinding
  subscribers : OrdMap GuestSessionId Subscriber
  nowTick : Nat
  deadline : Option ActionDeadline
  deadlineGeneration : Nat
  streamSequence : Nat
  acceptedEvents : List EventEnvelope
  nextShowdownStep : Option Nat

/-! ## The table actor -/

structure TableActorResponse where
  receipt : SubmissionReceipt
  snapshot : SnapshotEnvelope
  deriving DecidableEq, Repr

/-- `TableActorRequest::Submit`: an audience that has no view submits nothing. -/
def ProtocolAuthority.serve (a : ProtocolAuthority) (command : CommandEnvelope) (audience : ProjectionAudience)
    (serverGenerated : Bool) : Except ProjectionError TableActorResponse × ProtocolAuthority :=
  match a.snapshot audience with
  | .error error => (.error error, a)
  | .ok _ =>
    let (receipt, a) := a.submitFrom command serverGenerated
    ((a.snapshot audience).map fun snapshot => ⟨receipt, snapshot⟩, a)

/-- `accepted_event`. -/
def SubmissionReceipt.acceptedEvent (receipt : SubmissionReceipt) : Option EventEnvelope :=
  match receipt.outcome with
  | .accepted event => some event
  | .rejected _ => none

/-- Accepted now, and not the answer to an earlier submission. -/
def SubmissionReceipt.acceptedNew (receipt : SubmissionReceipt) : Bool :=
  receipt.acknowledgement.delivery = .processed && receipt.acknowledgement.result = .accepted

def TableEvent.isAction : TableEvent → Bool
  | actionAccepted .. => true
  | showdownAdvanced | showdownPreferenceAccepted _ => false

/-- The id of the command a deadline submits for its seat. -/
def timeoutCommandId (handId : HandId) (generation : Nat) : String :=
  "srv-timeout-h" ++ toString handId.id ++ "-g" ++ toString generation

namespace RuntimeState

open AuthorizedTableError

variable (s : RuntimeState)

/-- A view for the runtime's own use. -/
def view (audience : ProjectionAudience) : Except AuthorizedTableError SnapshotEnvelope :=
  (s.table.snapshot audience).mapError fun _ => authorityFailure

def tickResult (warningEmitted : Bool) (timeoutEvent : Option EventEnvelope) (timeoutAction : Option Action) : TickResult :=
  ⟨s.nowTick, warningEmitted, timeoutEvent, timeoutAction, s.deadline, s.streamSequence⟩

def rescheduleDeadline : Except AuthorizedTableError Unit × RuntimeState :=
  match s.view .spectator with
  | .error error => (.error error, s)
  | .ok envelope =>
    match envelope.snapshot.toAct with
    | none => (.ok (), { s with deadline := none })
    | some seat =>
      let generation := s.deadlineGeneration + 1
      let dueTick := s.nowTick + actionTimeoutTicks
      (.ok (), { s with
        deadline := some ⟨seat, dueTick - actionWarningTicks, dueTick, false, generation⟩
        deadlineGeneration := generation })

/-! ## Broadcasts -/

/-- An update put to one subscriber: `none` when the channel is full or nobody listens. -/
def trySend (subscriber : Subscriber) (update : SubscriptionUpdate) : Option Subscriber :=
  if subscriber.listening && subscriber.updates.length < subscriptionBufferCapacity then
    some { subscriber with updates := subscriber.updates ++ [update] }
  else none

/-- The update put to each session in turn; the answer lists the subscriptions to drop. -/
def deliver (reason : SubscriptionReason) (event : Option EventEnvelope) :
    List GuestSessionId → OrdMap GuestSessionId Subscriber →
      Except AuthorizedTableError (List GuestSessionId) × OrdMap GuestSessionId Subscriber
  | [], subscribers => (.ok [], subscribers)
  | session :: rest, subscribers =>
    let dropped := fun subscribers =>
      let (remove, subscribers) := deliver reason event rest subscribers
      (remove.map (session :: ·), subscribers)
    match s.sessions.find? session with
    | none => dropped subscribers
    | some binding =>
      if !binding.connected then dropped subscribers
      else
        match s.view binding.role.audience with
        | .error error => (.error error, subscribers)
        | .ok snapshot =>
          match subscribers.find? session with
          | none => deliver reason event rest subscribers
          | some subscriber =>
            match trySend subscriber ⟨s.streamSequence, reason, event, snapshot, s.deadline⟩ with
            | some subscriber => deliver reason event rest (subscribers.insert session subscriber)
            | none => dropped subscribers

def broadcast (reason : SubscriptionReason) (event : Option EventEnvelope) :
    Except AuthorizedTableError Unit × RuntimeState :=
  let s := { s with streamSequence := s.streamSequence + 1 }
  match s.deliver reason event s.subscribers.keys s.subscribers with
  | (.error error, subscribers) => (.error error, { s with subscribers := subscribers })
  | (.ok remove, subscribers) => (.ok (), { s with subscribers := subscribers.filterKey fun session => !remove.contains session })

/-! ## Requests -/

/-- The runtime a new authority is given to. -/
def spawn (table : ProtocolAuthority) : RuntimeState :=
  let s : RuntimeState := {
    table := table
    tableId := table.tableId
    handId := table.handId
    sessions := .empty
    subscribers := .empty
    nowTick := 0
    deadline := none
    deadlineGeneration := 0
    streamSequence := 0
    acceptedEvents := []
    nextShowdownStep := none }
  s.rescheduleDeadline.2

/-- The server's clock moves a paced showdown; `now` is the time of the call. -/
def progressShowdown (now : Nat) : Except AuthorizedTableError Unit × RuntimeState :=
  match s.view .spectator with
  | .error error => (.error error, s)
  | .ok envelope =>
    match envelope.snapshot.showdown with
    | none => (.ok (), { s with nextShowdownStep := none })
    | some _ =>
      let due := s.nextShowdownStep.getD (now + showdownStepMillis)
      let s := { s with nextShowdownStep := some due }
      if now < due then (.ok (), s)
      else
        match s.table.advanceShowdown with
        | (none, table) => (.ok (), { s with table := table, nextShowdownStep := some (now + showdownStepMillis) })
        | (some event, table) =>
          match { s with table := table, acceptedEvents := s.acceptedEvents ++ [event] }.rescheduleDeadline with
          | (.error error, s) => (.error error, s)
          | (.ok (), s) =>
            match s.broadcast .actionAccepted (some event) with
            | (.error error, s) => (.error error, s)
            | (.ok (), s) => (.ok (), { s with nextShowdownStep := some (now + showdownStepMillis) })

def bind (session : GuestSessionId) (tableId : TableId) (handId : HandId) (role : SessionRole) :
    Except AuthorizedTableError Unit × RuntimeState :=
  if tableId ≠ s.tableId then (.error ⟨.wrongTable, "session binding targets a different table"⟩, s)
  else if handId ≠ s.handId then (.error ⟨.wrongHand, "session binding targets a different hand"⟩, s)
  else if s.sessions.contains session then
    (.error ⟨.sessionAlreadyBound, "guest session already has a table role"⟩, s)
  else
    match role with
    | .spectator => (.ok (), { s with sessions := s.sessions.insert session ⟨.spectator, true⟩ })
    | .player seat =>
      if s.sessions.values.any (·.role = .player seat) then
        (.error ⟨.seatAlreadyOwned, "player seat already has a guest session owner"⟩, s)
      else
        match s.table.snapshot (.player seat) with
        | .error _ => (.error ⟨.unauthorizedSeat, "player seat is not available in this hand"⟩, s)
        | .ok _ => (.ok (), { s with sessions := s.sessions.insert session ⟨.player seat, true⟩ })

def connectedBinding (session : GuestSessionId) : Except AuthorizedTableError SessionBinding :=
  match s.sessions.find? session with
  | none => .error unboundSession
  | some binding =>
    if binding.connected then .ok binding else .error ⟨.sessionDisconnected, "guest session is disconnected"⟩

/-- What follows a submission accepted for the first time. -/
def published (receipt : SubmissionReceipt) : Except AuthorizedTableError Unit × RuntimeState :=
  let event := receipt.acceptedEvent
  let rescheduled : Except AuthorizedTableError Unit × RuntimeState :=
    if event.any (·.event.isAction) then s.rescheduleDeadline else (.ok (), s)
  match rescheduled with
  | (.error error, s) => (.error error, s)
  | (.ok (), s) => { s with acceptedEvents := s.acceptedEvents ++ event.toList }.broadcast .actionAccepted event

def submit (session : GuestSessionId) (command : CommandEnvelope) :
    Except AuthorizedTableError AuthorizedTableResponse × RuntimeState :=
  match s.connectedBinding session with
  | .error error => (.error error, s)
  | .ok binding =>
    match binding.role with
    | .spectator => (.error ⟨.spectatorCannotAct, "spectator sessions cannot submit gameplay commands"⟩, s)
    | .player seat =>
      if command.tableId ≠ s.tableId then (.error ⟨.wrongTable, "command targets a different table"⟩, s)
      else if command.handId ≠ s.handId then (.error ⟨.wrongHand, "command targets a different hand"⟩, s)
      else if command.payload.seat ≠ seat then
        (.error ⟨.unauthorizedSeat, "command seat is not owned by this guest session"⟩, s)
      else
        match s.table.serve command (.player seat) false with
        | (.error _, table) => (.error authorityFailure, { s with table := table })
        | (.ok response, table) =>
          let s := { s with table := table }
          let after : Except AuthorizedTableError Unit × RuntimeState :=
            if response.receipt.acceptedNew then s.published response.receipt else (.ok (), s)
          match after with
          | (.error error, s) => (.error error, s)
          | (.ok (), s) => (.ok ⟨response.receipt, response.snapshot, s.deadline, s.streamSequence⟩, s)

def snapshot (session : GuestSessionId) : Except AuthorizedTableError SnapshotEnvelope :=
  match s.connectedBinding session with
  | .error error => .error error
  | .ok binding => s.view binding.role.audience

def boundSnapshot (session : GuestSessionId) : Except AuthorizedTableError SnapshotEnvelope :=
  match s.sessions.find? session with
  | none => .error unboundSession
  | some binding => s.view binding.role.audience

def safeHistoryMaterial : Except AuthorizedTableError (SnapshotEnvelope × List EventEnvelope) :=
  (s.view .spectator).map fun snapshot => (snapshot, s.acceptedEvents)

def subscribe (session : GuestSessionId) : Except AuthorizedTableError Unit × RuntimeState :=
  match s.connectedBinding session with
  | .error error => (.error error, s)
  | .ok binding =>
    if s.subscribers.contains session then
      (.error ⟨.subscriptionAlreadyExists, "guest session already has an active table subscription"⟩, s)
    else
      match s.view binding.role.audience with
      | .error error => (.error error, s)
      | .ok snapshot =>
        let initial : SubscriptionUpdate := ⟨s.streamSequence, .initial, none, snapshot, s.deadline⟩
        (.ok (), { s with subscribers := s.subscribers.insert session ⟨[initial], true⟩ })

/-- The connection of a bound session set and announced, unless it is so already. -/
def setConnected (session : GuestSessionId) (connected : Bool) (subscribers : OrdMap GuestSessionId Subscriber) :
    Except AuthorizedTableError Unit × RuntimeState :=
  match s.sessions.find? session with
  | none => (.error unboundSession, s)
  | some binding =>
    if binding.connected = connected then (.ok (), s)
    else
      { s with
        sessions := s.sessions.insert session { binding with connected := connected }
        subscribers := subscribers }.broadcast (.connectionStateChanged binding.role.seat connected) none

def disconnect (session : GuestSessionId) : Except AuthorizedTableError Unit × RuntimeState :=
  s.setConnected session false (s.subscribers.erase session)

def reconnect (session : GuestSessionId) : Except AuthorizedTableError Unit × RuntimeState :=
  s.setConnected session true s.subscribers

/-! ## Deadlines -/

/-- The action a deadline takes for its seat. -/
def timeoutAction (legal : MultiwayLegalActions) : Option Action :=
  if legal.canCheck then some .check else if legal.canFold then some .fold else none

def expireDeadline (deadline : ActionDeadline) : Except AuthorizedTableError TickResult × RuntimeState :=
  match s.view (.player deadline.seat) with
  | .error error => (.error error, s)
  | .ok privateView =>
    match privateView.snapshot.legalActions with
    | none => (.error ⟨.deadlineUnavailable, "deadline actor has no legal action"⟩, s)
    | some legal =>
      match timeoutAction legal with
      | none => (.error ⟨.deadlineUnavailable, "deadline actor can neither check nor fold"⟩, s)
      | some action =>
        let command := CommandEnvelope.actForHand (timeoutCommandId s.handId deadline.generation) s.tableId s.handId
          privateView.revision deadline.seat action
        match s.table.serve command .spectator true with
        | (.error _, table) => (.error authorityFailure, { s with table := table })
        | (.ok response, table) =>
          let s := { s with table := table }
          match response.receipt.acceptedNew, response.receipt.acceptedEvent with
          | true, some event =>
            match { s with acceptedEvents := s.acceptedEvents ++ [event] }.rescheduleDeadline with
            | (.error error, s) => (.error error, s)
            | (.ok (), s) =>
              match s.broadcast (.timeoutAction deadline.seat action) (some event) with
              | (.error error, s) => (.error error, s)
              | (.ok (), s) => (.ok (s.tickResult false (some event) (some action)), s)
          | _, _ => (.error authorityFailure, s)

def advanceTime (nowTick : Nat) : Except AuthorizedTableError TickResult × RuntimeState :=
  if nowTick < s.nowTick then
    (.error ⟨.clockRegression, "authoritative logical time cannot move backwards"⟩, s)
  else
    let s := { s with nowTick := nowTick }
    match s.deadline with
    | none => (.ok (s.tickResult false none none), s)
    | some deadline =>
      if deadline.dueTick ≤ nowTick then s.expireDeadline deadline
      else if deadline.warningTick ≤ nowTick && !deadline.warningEmitted then
        match { s with deadline := some { deadline with warningEmitted := true } }.broadcast
            (.deadlineWarning deadline.seat (deadline.dueTick - nowTick)) none with
        | (.error error, s) => (.error error, s)
        | (.ok (), s) => (.ok (s.tickResult true none none), s)
      else (.ok (s.tickResult false none none), s)

end RuntimeState

end OpenFelt
