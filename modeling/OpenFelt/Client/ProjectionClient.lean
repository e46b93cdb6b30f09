/-
  OpenFelt.Client.ProjectionClient — the client's side of a table
  (`src/network_client.rs`, `src/ui/network_app.rs`).

  Translation. A call that may fail takes the client to its result and the client left.
  Stream sequences and revisions are `Nat`; `command_sequence` is a `u64` and wraps. The
  lines that a client and its app keep for the screen are left out: the activity, the
  logs, the last command and outcome, the count of server errors.
-/

import OpenFelt.Protocol.AuthorizedTable

namespace OpenFelt

inductive ClientConnectionState where
  | connected
  | awaitingResynchronization
  | disconnected
  deriving DecidableEq, Repr

structure PendingCommand where
  commandId : String
  expectedRevision : Nat
  action : Option Action
  deriving DecidableEq, Repr

inductive UpdateDisposition where
  | applied
  | duplicateOrStale
  | resynchronizationRequired (expected received : Nat)
  deriving DecidableEq, Repr

inductive ProjectionClientErrorCode where
  | noSnapshot
  | unsupportedVersion
  | identityChanged
  | audienceChanged
  | spectatorCannotAct
  | notAuthorizedToAct
  | illegalAction
  | commandPending
  | awaitingResynchronization
  | disconnected
  | responseCommandMismatch
  deriving DecidableEq, Repr

structure ProjectionClientError where
  code : ProjectionClientErrorCode
  message : String
  deriving DecidableEq, Repr

structure ProjectionClient where
  snapshot : SnapshotEnvelope
  connection : ClientConnectionState
  pending : Option PendingCommand
  deadline : Option ActionDeadline
  lastStreamSequence : Nat
  receivedBroadcast : Bool
  deriving DecidableEq, Repr

def actionIsLegal (legal : MultiwayLegalActions) : Action → Bool
  | .fold => legal.canFold
  | .check => legal.canCheck
  | .call amount => legal.callAmount = some amount
  | .bet amount => legal.minBetTo.any fun minimum => minimum ≤ amount && amount < legal.allInTo
  | .raise amount => legal.minRaiseTo.any fun minimum => minimum ≤ amount && amount < legal.allInTo
  | .allIn amount => amount = legal.allInTo && legal.canAllIn

def validateVersion (snapshot : SnapshotEnvelope) : Except ProjectionClientError Unit :=
  if snapshot.version ≠ protocolVersion then
    .error ⟨.unsupportedVersion, "the client supports only the current protocol version"⟩
  else .ok ()

namespace ProjectionClient

def bootstrap (snapshot : SnapshotEnvelope) (streamSequence : Nat) : Except ProjectionClientError ProjectionClient :=
  match validateVersion snapshot with
  | .error error => .error error
  | .ok () => .ok ⟨snapshot, .connected, none, none, streamSequence, false⟩

def bootstrapFromUpdate (update : SubscriptionUpdate) : Except ProjectionClientError ProjectionClient :=
  match bootstrap update.snapshot update.streamSequence with
  | .error error => .error error
  | .ok client => .ok { client with deadline := update.deadline, receivedBroadcast := update.reason ≠ .initial }

variable (client : ProjectionClient)

def controlsEnabled : Bool :=
  if client.connection ≠ .connected || client.pending.isSome then false
  else
    match client.snapshot.snapshot.audience with
    | .player seat => client.snapshot.snapshot.toAct = some seat && client.snapshot.snapshot.legalActions.isSome
    | .spectator => false

def prepareShowdownPreference (commandId : String) (alwaysShow : Bool) :
    Except ProjectionClientError CommandEnvelope × ProjectionClient :=
  if client.connection ≠ .connected || client.pending.isSome then
    (.error ⟨.notAuthorizedToAct, "wait for an authoritative connection before changing showdown preference"⟩, client)
  else
    match client.snapshot.snapshot.audience with
    | .spectator => (.error ⟨.spectatorCannotAct, "spectators have no showdown preference"⟩, client)
    | .player seat =>
      if client.snapshot.snapshot.showdown.isSome || client.snapshot.snapshot.phase.terminal then
        (.error ⟨.notAuthorizedToAct, "select showdown preference before the reveal begins"⟩, client)
      else
        (.ok ⟨protocolVersion, commandId, client.snapshot.tableId, client.snapshot.handId, client.snapshot.revision,
          .showdownPreference seat alwaysShow⟩, { client with pending := some ⟨commandId, client.snapshot.revision, none⟩ })

def prepareAction (commandId : String) (action : Action) : Except ProjectionClientError CommandEnvelope × ProjectionClient :=
  match client.connection with
  | .awaitingResynchronization =>
    (.error ⟨.awaitingResynchronization, "authoritative controls remain disabled until a fresh snapshot arrives"⟩, client)
  | .disconnected => (.error ⟨.disconnected, "disconnected clients cannot submit gameplay intentions"⟩, client)
  | .connected =>
    if client.pending.isSome then
      (.error ⟨.commandPending, "one gameplay command is already awaiting authority"⟩, client)
    else
      match client.snapshot.snapshot.audience with
      | .spectator => (.error ⟨.spectatorCannotAct, "spectator projections never enable gameplay controls"⟩, client)
      | .player seat =>
        if client.snapshot.snapshot.toAct ≠ some seat then
          (.error ⟨.notAuthorizedToAct, "the latest authoritative projection does not assign action to this seat"⟩, client)
        else
          match client.snapshot.snapshot.legalActions with
          | none =>
            (.error ⟨.notAuthorizedToAct, "the latest projection contains no legal actions for this audience"⟩, client)
          | some legal =>
            if !actionIsLegal legal action then
              (.error ⟨.illegalAction, "the intention is outside the authoritative legal-action bounds"⟩, client)
            else
              (.ok (.actForHand commandId client.snapshot.tableId client.snapshot.handId client.snapshot.revision seat action),
                { client with pending := some ⟨commandId, client.snapshot.revision, some action⟩ })

def validateIdentityAndAudience (snapshot : SnapshotEnvelope) : Except ProjectionClientError Unit :=
  match validateVersion snapshot with
  | .error error => .error error
  | .ok () =>
    if snapshot.tableId ≠ client.snapshot.tableId ∨ snapshot.handId ≠ client.snapshot.handId then
      .error ⟨.identityChanged, "authoritative table or hand identity changed without a new client session"⟩
    else if snapshot.snapshot.audience ≠ client.snapshot.snapshot.audience then
      .error ⟨.audienceChanged, "a client cannot change its authorized projection audience"⟩
    else .ok ()

def applyResponse (response : AuthorizedTableResponse) : Except ProjectionClientError Unit × ProjectionClient :=
  match client.validateIdentityAndAudience response.snapshot with
  | .error error => (.error error, client)
  | .ok () =>
    match client.pending with
    | none =>
      (.error ⟨.responseCommandMismatch, "received a command response while no command was pending"⟩, client)
    | some pending =>
      if response.receipt.acknowledgement.commandId ≠ some pending.commandId then
        (.error ⟨.responseCommandMismatch, "the response command ID does not match the pending intention"⟩, client)
      else
        (.ok (), { client with
          snapshot := if client.snapshot.revision ≤ response.snapshot.revision then response.snapshot else client.snapshot
          deadline := response.deadline
          lastStreamSequence := max client.lastStreamSequence response.streamSequence
          pending := none })

/-- Whether an update makes the pending command obsolete. -/
def settles (update : SubscriptionUpdate) : Bool :=
  match update.event with
  | some event =>
    client.pending.any fun pending => pending.commandId = event.commandId || pending.expectedRevision < event.revision
  | none => client.snapshot.revision < update.snapshot.revision

def applyUpdate (update : SubscriptionUpdate) : Except ProjectionClientError UpdateDisposition × ProjectionClient :=
  match client.validateIdentityAndAudience update.snapshot with
  | .error error => (.error error, client)
  | .ok () =>
    if update.streamSequence ≤ client.lastStreamSequence then (.ok .duplicateOrStale, client)
    else if client.receivedBroadcast && update.streamSequence ≠ client.lastStreamSequence + 1 then
      (.ok (.resynchronizationRequired (client.lastStreamSequence + 1) update.streamSequence),
        { client with connection := .awaitingResynchronization, pending := none })
    else if update.snapshot.revision < client.snapshot.revision then
      (.ok .duplicateOrStale, { client with lastStreamSequence := update.streamSequence, receivedBroadcast := true })
    else
      (.ok .applied,
        { snapshot := update.snapshot
          connection := .connected
          pending := if client.settles update then none else client.pending
          deadline := update.deadline
          lastStreamSequence := update.streamSequence
          receivedBroadcast := update.reason ≠ .initial })

def resynchronize (snapshot : SnapshotEnvelope) (streamSequence : Nat) : Except ProjectionClientError Unit × ProjectionClient :=
  match client.validateIdentityAndAudience snapshot with
  | .error error => (.error error, client)
  | .ok () =>
    if snapshot.revision < client.snapshot.revision then
      (.error ⟨.identityChanged, "resynchronization cannot regress the authoritative revision"⟩, client)
    else
      (.ok (), { client with
        snapshot := snapshot
        lastStreamSequence := streamSequence
        receivedBroadcast := true
        pending := none
        connection := .connected })

def resynchronizeFromUpdate (update : SubscriptionUpdate) : Except ProjectionClientError Unit × ProjectionClient :=
  match client.resynchronize update.snapshot update.streamSequence with
  | (.error error, client) => (.error error, client)
  | (.ok (), client) => (.ok (), { client with deadline := update.deadline })

def markDisconnected : ProjectionClient := { client with connection := .disconnected, pending := none }

end ProjectionClient

/-! ## The app and its messages -/

structure PublicWireError where
  code : String
  message : String
  deriving DecidableEq, Repr

/-- What the server's wire carries; what the lobby's messages say is left out. -/
inductive ServerWireMessage where
  | lobbyWelcome
  | lobby
  | lobbyError
  | welcome (update : SubscriptionUpdate)
  | response (response : AuthorizedTableResponse)
  | update (update : SubscriptionUpdate)
  | error (error : PublicWireError)
  | goodbye
  deriving DecidableEq, Repr

structure NetworkApp where
  client : ProjectionClient
  commandSequence : Nat
  commandPrefix : String
  deriving DecidableEq, Repr

def hexDigit (n : Nat) : Char := if n < 10 then Char.ofNat (48 + n) else Char.ofNat (87 + n)

/-- `{:032x}` of a `u128`. -/
def hex32 (n : Nat) : String := String.ofList ((List.range 32).map fun i => hexDigit (n / 16 ^ (31 - i) % 16))

namespace NetworkApp

/-- `nonce` is the random number of the prefix. -/
def new (client : ProjectionClient) (nonce : Nat) : NetworkApp := ⟨client, 0, "ui-" ++ hex32 nonce⟩

variable (app : NetworkApp)

def prepareShowdownPreference (alwaysShow : Bool) : Except ProjectionClientError CommandEnvelope × NetworkApp :=
  let sequence := (app.commandSequence + 1) % 2 ^ 64
  let id := app.commandPrefix ++ "-show-" ++ toString sequence
  let (result, client) := app.client.prepareShowdownPreference id alwaysShow
  (result, { app with client := client, commandSequence := sequence })

def prepareAction (action : Action) : Except ProjectionClientError CommandEnvelope × NetworkApp :=
  let sequence := (app.commandSequence + 1) % 2 ^ 64
  let commandId := app.commandPrefix ++ "-" ++ toString sequence
  let (result, client) := app.client.prepareAction commandId action
  (result, { app with client := client, commandSequence := sequence })

def applyMessage : ServerWireMessage → Except ProjectionClientError Unit × NetworkApp
  | .lobbyWelcome | .lobby | .lobbyError => (.ok (), app)
  | .welcome update =>
    let (result, client) := app.client.resynchronizeFromUpdate update
    (result, { app with client := client })
  | .response response =>
    let (result, client) := app.client.applyResponse response
    (result, { app with client := client })
  | .update update =>
    let (result, client) := app.client.applyUpdate update
    (result.map fun _ => (), { app with client := client })
  | .error _ => (.ok (), app)
  | .goodbye => (.ok (), { app with client := app.client.markDisconnected })

def markDisconnected : NetworkApp := { app with client := app.client.markDisconnected }

end NetworkApp

end OpenFelt
