/-
  OpenFelt.Protocol.Authority — versioned commands against one hand
  (`src/protocol.rs`).

  Translation. `submit_from` and `advance_showdown` take the authority to their result
  and the authority they leave. `u16` and `u64` values are `Nat`; the `BTreeMap` of
  recorded commands is the list of its entries, oldest first. A refusal's `command_id`
  and text are the source's.
-/

import OpenFelt.Protocol.Projection

namespace OpenFelt

def protocolVersion : Nat := 4

def maxCommandIdBytes : Nat := 64

def maxPublicErrorMessageBytes : Nat := 160

def maxRecordedCommandsPerHand : Nat := 256

inductive CommandPayload where
  | act (seat : SeatId) (action : Action)
  | showdownPreference (seat : SeatId) (alwaysShow : Bool)
  deriving DecidableEq, Repr

def CommandPayload.seat : CommandPayload → SeatId
  | act seat _ => seat
  | showdownPreference seat _ => seat

structure CommandEnvelope where
  version : Nat
  commandId : String
  tableId : TableId
  handId : HandId
  expectedRevision : Nat
  payload : CommandPayload
  deriving DecidableEq, Repr

def CommandEnvelope.actForHand (commandId : String) (tableId : TableId) (handId : HandId) (expectedRevision : Nat)
    (seat : SeatId) (action : Action) : CommandEnvelope :=
  ⟨protocolVersion, commandId, tableId, handId, expectedRevision, .act seat action⟩

inductive TableEvent where
  | showdownAdvanced
  | showdownPreferenceAccepted (seat : SeatId)
  | actionAccepted (seat : SeatId) (action : Action) (phase : MultiwayPhase) (nextToAct : Option SeatId) (potTotal : Nat)
  deriving DecidableEq, Repr

structure EventEnvelope where
  version : Nat
  commandId : String
  tableId : TableId
  handId : HandId
  revision : Nat
  event : TableEvent
  deriving DecidableEq, Repr

inductive ProtocolErrorCode where
  | unsupportedVersion
  | invalidCommandId
  | wrongTable
  | wrongHand
  | reservedCommandId
  | commandIdConflict
  | commandLedgerFull
  | messageTooLarge
  | malformedMessage
  | staleRevision
  | handNotActive
  | seatNotOccupied
  | seatNotEligible
  | outOfTurn
  | illegalAction
  deriving DecidableEq, Repr

structure PublicProtocolError where
  code : ProtocolErrorCode
  message : String
  deriving DecidableEq, Repr

structure ErrorEnvelope where
  version : Nat
  commandId : Option String
  tableId : TableId
  handId : HandId
  revision : Nat
  error : PublicProtocolError
  deriving DecidableEq, Repr

inductive AcknowledgementResult where
  | accepted
  | rejected
  deriving DecidableEq, Repr

inductive AcknowledgementDelivery where
  | processed
  | replayed
  deriving DecidableEq, Repr

structure AcknowledgementEnvelope where
  version : Nat
  commandId : Option String
  tableId : TableId
  handId : HandId
  revision : Nat
  result : AcknowledgementResult
  delivery : AcknowledgementDelivery
  deriving DecidableEq, Repr

inductive CommandOutcome where
  | accepted (event : EventEnvelope)
  | rejected (error : ErrorEnvelope)
  deriving DecidableEq, Repr

namespace CommandOutcome

def revision : CommandOutcome → Nat
  | accepted event => event.revision
  | rejected error => error.revision

def commandId : CommandOutcome → Option String
  | accepted event => some event.commandId
  | rejected error => error.commandId

def result : CommandOutcome → AcknowledgementResult
  | accepted _ => .accepted
  | rejected _ => .rejected

end CommandOutcome

structure SubmissionReceipt where
  acknowledgement : AcknowledgementEnvelope
  outcome : CommandOutcome
  deriving DecidableEq, Repr

structure CommandFingerprint where
  expectedRevision : Nat
  payload : CommandPayload
  deriving DecidableEq, Repr

def CommandEnvelope.fingerprint (envelope : CommandEnvelope) : CommandFingerprint :=
  ⟨envelope.expectedRevision, envelope.payload⟩

structure RecordedCommand where
  fingerprint : CommandFingerprint
  outcome : CommandOutcome
  deriving DecidableEq, Repr

structure SnapshotEnvelope where
  version : Nat
  tableId : TableId
  handId : HandId
  revision : Nat
  snapshot : TableProjection
  deriving DecidableEq, Repr

structure ProtocolAuthority where
  tableId : TableId
  handId : HandId
  revision : Nat
  hand : MultiwayHand
  recordedCommands : List (String × RecordedCommand)
  deriving DecidableEq, Repr

/-! ## Command ids and messages -/

/-- The bytes an id may hold; every other character has a byte outside them. -/
def idCharacter (c : Char) : Bool := c.isAlphanum || c == '-' || c == '_'

def validCommandId (commandId : String) : Bool :=
  !commandId.isEmpty && commandId.utf8ByteSize ≤ maxCommandIdBytes && commandId.toList.all idCharacter

def reservedServerCommandId (commandId : String) : Bool := "srv-".toList.isPrefixOf commandId.toList

/-- The characters that end within the first `limit` bytes. -/
def charsWithin : Nat → List Char → List Char
  | _, [] => []
  | limit, c :: rest => if c.utf8Size ≤ limit then c :: charsWithin (limit - c.utf8Size) rest else []

/-- Cut at the last character boundary within the limit. -/
def boundedPublicMessage (message : String) : String :=
  if message.utf8ByteSize ≤ maxPublicErrorMessageBytes then message
  else String.ofList (charsWithin maxPublicErrorMessageBytes message.toList)

def domainErrorCode : CommandError → ProtocolErrorCode
  | .handNotActive => .handNotActive
  | .seatNotOccupied _ => .seatNotOccupied
  | .seatNotEligible _ => .seatNotEligible
  | .outOfTurn _ _ => .outOfTurn
  | .illegalAction _ => .illegalAction

namespace ProtocolAuthority

variable (a : ProtocolAuthority)

def new (tableId : TableId) (handId : HandId) (hand : MultiwayHand) : ProtocolAuthority := ⟨tableId, handId, 0, hand, []⟩

def newPaced (tableId : TableId) (handId : HandId) (hand : MultiwayHand) : ProtocolAuthority :=
  new tableId handId hand.enablePacedShowdown

def recorded (commandId : String) : Option RecordedCommand := a.recordedCommands.lookup commandId

def advanceShowdown : Option EventEnvelope × ProtocolAuthority :=
  match a.hand.advanceShowdown with
  | (false, hand) => (none, { a with hand := hand })
  | (true, hand) =>
    let revision := a.revision + 1
    (some ⟨protocolVersion, "srv-showdown-" ++ toString revision, a.tableId, a.handId, revision, .showdownAdvanced⟩,
      { a with hand := hand, revision := revision })

def error (commandId : Option String) (code : ProtocolErrorCode) (message : String) : ErrorEnvelope :=
  ⟨protocolVersion, commandId, a.tableId, a.handId, a.revision, ⟨code, boundedPublicMessage message⟩⟩

def receipt (outcome : CommandOutcome) (delivery : AcknowledgementDelivery) : SubmissionReceipt :=
  ⟨⟨protocolVersion, outcome.commandId, a.tableId, a.handId, outcome.revision, outcome.result, delivery⟩, outcome⟩

/-- What a command's framing is refused for, before the ledger is read. -/
def framingRefusal (envelope : CommandEnvelope) (allowReservedCommandId : Bool) : Option ErrorEnvelope :=
  let echoedId := if validCommandId envelope.commandId then some envelope.commandId else none
  if envelope.version ≠ protocolVersion then
    some (a.error echoedId .unsupportedVersion
      ("protocol version " ++ toString envelope.version ++ " is unsupported; expected " ++ toString protocolVersion))
  else if echoedId.isNone then
    some (a.error none .invalidCommandId
      ("command ID must contain 1 to " ++ toString maxCommandIdBytes ++ " ASCII letters, digits, '-' or '_'"))
  else if !allowReservedCommandId && reservedServerCommandId envelope.commandId then
    some (a.error echoedId .reservedCommandId "command ID uses the reserved server namespace")
  else if envelope.tableId ≠ a.tableId then
    some (a.error echoedId .wrongTable "command targets a different table")
  else if envelope.handId ≠ a.handId then
    some (a.error echoedId .wrongHand "command targets a different hand")
  else none

/-- The payload put to the hand. -/
def applyPayload : CommandPayload → Except CommandError Unit × MultiwayHand
  | .act seat action => a.hand.applyCommand ⟨seat, action⟩
  | .showdownPreference seat alwaysShow => a.hand.setAlwaysShow seat alwaysShow

/-- The event an accepted payload publishes; `hand` is the hand it left. -/
def acceptedEvent (hand : MultiwayHand) : CommandPayload → TableEvent
  | .act seat action => .actionAccepted seat action a.hand.phase hand.toAct hand.projectionPotTotal
  | .showdownPreference seat _ => .showdownPreferenceAccepted seat

/-- A command whose id is new: stale, refused by the hand or accepted. -/
def execute (envelope : CommandEnvelope) : CommandOutcome × ProtocolAuthority :=
  let echoedId := some envelope.commandId
  if envelope.expectedRevision ≠ a.revision then
    (.rejected (a.error echoedId .staleRevision
      ("expected revision " ++ toString envelope.expectedRevision ++ " does not match authoritative revision " ++
        toString a.revision)), a)
  else
    match a.applyPayload envelope.payload with
    | (.ok (), hand) =>
      (.accepted ⟨protocolVersion, envelope.commandId, a.tableId, a.handId, a.revision + 1,
        a.acceptedEvent hand envelope.payload⟩, { a with hand := hand, revision := a.revision + 1 })
    | (.error error, hand) =>
      (.rejected (a.error echoedId (domainErrorCode error) error.message), { a with hand := hand })

/-- `recorded_commands.insert`, of a new id. -/
def record (commandId : String) (entry : RecordedCommand) : ProtocolAuthority :=
  { a with recordedCommands := a.recordedCommands ++ [(commandId, entry)] }

def submitFrom (envelope : CommandEnvelope) (allowReservedCommandId : Bool) : SubmissionReceipt × ProtocolAuthority :=
  match a.framingRefusal envelope allowReservedCommandId with
  | some error => (a.receipt (.rejected error) .processed, a)
  | none =>
    match a.recorded envelope.commandId with
    | some recorded =>
      if recorded.fingerprint = envelope.fingerprint then (a.receipt recorded.outcome .replayed, a)
      else
        (a.receipt (.rejected (a.error (some envelope.commandId) .commandIdConflict
          "command ID was already used for different intent")) .processed, a)
    | none =>
      if maxRecordedCommandsPerHand ≤ a.recordedCommands.length then
        (a.receipt (.rejected (a.error (some envelope.commandId) .commandLedgerFull
          "command ledger is full for this hand")) .processed, a)
      else
        let (outcome, a) := a.execute envelope
        (a.receipt outcome .processed, a.record envelope.commandId ⟨envelope.fingerprint, outcome⟩)

def submitWithAcknowledgement (envelope : CommandEnvelope) : SubmissionReceipt × ProtocolAuthority :=
  a.submitFrom envelope false

def submitServerWithAcknowledgement (envelope : CommandEnvelope) : SubmissionReceipt × ProtocolAuthority :=
  a.submitFrom envelope true

def snapshot (audience : ProjectionAudience) : Except ProjectionError SnapshotEnvelope :=
  (a.hand.projectHand a.handId audience).map fun view => ⟨protocolVersion, a.tableId, a.handId, a.revision, view⟩

end ProtocolAuthority

end OpenFelt
