/-
  OpenFelt.Registry.Checkpoints — the registry written to a file and read back
  (`src/table_registry.rs`, `save_checkpoint`, `load_checkpoint` and `start_restored_hands`).

  Translation. The document is JSON: `CheckpointCodec` stands for the library that writes
  and reads it. A save gives the bytes it publishes; whether the disk takes them is for the
  caller to say, for a save replaces the file at once or leaves it. That a path names a
  file, and what only `health` reads, is left out.
-/

import OpenFelt.Registry.Vault
import OpenFelt.Registry.TableRegistry

namespace OpenFelt

def registryCheckpointVersion : Nat := 4

def maxRegistryCheckpointBytes : Nat := 1048576

def registryCheckpointFormat : String := "terminal-poker-registry"

structure CheckpointTable where
  tableId : TableId
  config : PublicTableConfig
  accessVerifier : Option AccessVerifier
  deterministicSeed : Option Nat
  tournament : Option TournamentController
  lifecycle : BetweenHandLifecycle

structure CheckpointSession where
  principalId : String
  tableId : TableId
  playerId : PlayerId
  seat : SeatId
  deriving DecidableEq, Repr

structure RegistryCheckpointPayload where
  maxTables : Nat
  nextTableId : Nat
  nextPlayerId : Nat
  nextHandId : Nat
  registryRevision : Nat
  credentialCapacity : Nat
  tables : List CheckpointTable
  sessions : List CheckpointSession
  credentials : List DurableCredentialRecord

structure RegistryCheckpointEnvelope where
  format : String
  version : Nat
  checksum : String
  payload : RegistryCheckpointPayload

structure RegistryCheckpointReceipt where
  version : Nat
  checksum : String
  bytes : Nat
  tables : Nat
  sessions : Nat
  registryRevision : Nat
  deriving DecidableEq, Repr

/-- `serde_json`: a payload's canonical bytes, and an envelope printed and read. -/
structure CheckpointCodec where
  toVec : RegistryCheckpointPayload → List UInt8
  toVecPretty : RegistryCheckpointEnvelope → List UInt8
  fromSlice : List UInt8 → Option RegistryCheckpointEnvelope

/-- What is printed is read as it was. -/
def CheckpointCodec.RoundTrips (codec : CheckpointCodec) : Prop :=
  ∀ envelope, codec.fromSlice (codec.toVecPretty envelope) = some envelope

/-- `{:016x}`. -/
def hex64 (n : Nat) : String := String.ofList ((List.range 16).reverse.map fun i => Nat.digitChar (n / 16 ^ i % 16))

def fnv1a64 (bytes : List UInt8) : Nat :=
  bytes.foldl (fun hash byte => (hash ^^^ byte.toNat) * 0x100000001b3 % 2 ^ 64) 0xcbf29ce484222325

def CheckpointCodec.checksum (codec : CheckpointCodec) (payload : RegistryCheckpointPayload) : String :=
  "fnv1a64:" ++ hex64 (fnv1a64 (codec.toVec payload))

def invalidCheckpoint (message : String) : TableRegistryError := ⟨.invalidCheckpoint, message⟩

def checkpointTooLarge (bytes : Nat) : TableRegistryError :=
  ⟨.checkpointTooLarge, "checkpoint is " ++ toString bytes ++ " bytes; limit is " ++ toString maxRegistryCheckpointBytes⟩

namespace TableRegistry

/-! ## Saving -/

/-- What a checkpoint keeps of a table. -/
def checkpointTable (entry : TableId × RegisteredTable) : Except TableRegistryError CheckpointTable :=
  match entry.2.durableLifecycle.betweenHandCheckpoint with
  | .error error => .error ⟨.unsafeCheckpointBoundary, error.message⟩
  | .ok lifecycle => .ok {
      tableId := entry.1
      config := entry.2.config
      accessVerifier := entry.2.accessVerifier
      deterministicSeed := entry.2.deterministicSeed
      tournament := entry.2.tournament
      lifecycle := lifecycle }

def checkpointTables : List (TableId × RegisteredTable) → Except TableRegistryError (List CheckpointTable)
  | [] => .ok []
  | entry :: rest =>
    match checkpointTable entry with
    | .error error => .error error
    | .ok table => (checkpointTables rest).map (table :: ·)

def checkpointPayload (r : TableRegistry) : Except TableRegistryError RegistryCheckpointPayload :=
  (checkpointTables r.tables.entries).map fun tables => {
    maxTables := r.maxTables
    nextTableId := r.nextTableId
    nextPlayerId := r.nextPlayerId
    nextHandId := r.nextHandId
    registryRevision := r.revision
    credentialCapacity := defaultCredentialCapacity
    tables := tables
    sessions := r.sessions.entries.map fun (session, route) => ⟨session.value, route.tableId, route.player, route.seat⟩
    credentials := r.credentials.durableRecords }

def checkpointEnvelope (codec : CheckpointCodec) (payload : RegistryCheckpointPayload) : RegistryCheckpointEnvelope :=
  ⟨registryCheckpointFormat, registryCheckpointVersion, codec.checksum payload, payload⟩

def saveCheckpoint (codec : CheckpointCodec) (r : TableRegistry) :
    Except TableRegistryError (RegistryCheckpointReceipt × List UInt8) :=
  match r.checkpointPayload with
  | .error error => .error error
  | .ok payload =>
    let bytes := codec.toVecPretty (checkpointEnvelope codec payload)
    if maxRegistryCheckpointBytes < bytes.length then .error (checkpointTooLarge bytes.length)
    else
      .ok (⟨registryCheckpointVersion, codec.checksum payload, bytes.length, payload.tables.length, payload.sessions.length,
        r.revision⟩, bytes)

/-! ## Loading -/

/-- The payload of the file, once its size, its format and its checksum are found good. -/
def readCheckpoint (codec : CheckpointCodec) (bytes : List UInt8) : Except TableRegistryError RegistryCheckpointPayload :=
  if maxRegistryCheckpointBytes < bytes.length then .error (checkpointTooLarge bytes.length)
  else
    match codec.fromSlice bytes with
    | none => .error (invalidCheckpoint "checkpoint JSON is malformed or incomplete")
    | some envelope =>
      if envelope.format ≠ registryCheckpointFormat ||
          !(envelope.version = 3 || envelope.version = registryCheckpointVersion) then
        .error (invalidCheckpoint "checkpoint format or schema version is unsupported")
      else if envelope.checksum ≠ codec.checksum envelope.payload then
        .error (invalidCheckpoint "checkpoint checksum does not match payload")
      else .ok envelope.payload

/-- A table as its checkpoint has it: nobody connected, and no hand. -/
def restoredTable (now : Nat) (saved : CheckpointTable) (lifecycle : TableLifecycle) : RegisteredTable where
  config := saved.config
  accessVerifier := saved.accessVerifier
  lifecycle := lifecycle
  durableLifecycle := lifecycle
  deterministicSeed := saved.deterministicSeed
  tournament := saved.tournament
  handId := none
  seatSessions := .empty
  waiting := []
  pendingDepartures := .empty
  lastActivity := now
  runtime := none

def restoreTables (now nextTableId : Nat) : List CheckpointTable → OrdMap TableId RegisteredTable →
    Except TableRegistryError (OrdMap TableId RegisteredTable)
  | [], tables => .ok tables
  | saved :: rest, tables =>
    if saved.tableId.id = 0 || nextTableId ≤ saved.tableId.id then .error (invalidCheckpoint "table identity counter regressed")
    else
      match validateStoredConfig saved.config saved.accessVerifier with
      | .error _ => .error (invalidCheckpoint "restored table configuration is invalid")
      | .ok () =>
        if saved.lifecycle.tableSize ≠ saved.config.seats then
          .error (invalidCheckpoint "lifecycle table size differs from public configuration")
        else
          match TableLifecycle.restoreBetweenHand saved.lifecycle with
          | .error _ => .error (invalidCheckpoint "restored lifecycle is inconsistent")
          | .ok lifecycle =>
            if tables.contains saved.tableId then .error (invalidCheckpoint "duplicate table identity")
            else restoreTables now nextTableId rest (tables.insert saved.tableId (restoredTable now saved lifecycle))

def restoreSessions (nextPlayerId : Nat) : List CheckpointSession → OrdMap TableId RegisteredTable →
    OrdMap GuestSessionId SessionRoute →
    Except TableRegistryError (OrdMap TableId RegisteredTable × OrdMap GuestSessionId SessionRoute)
  | [], tables, sessions => .ok (tables, sessions)
  | saved :: rest, tables, sessions =>
    if saved.playerId.value = 0 || nextPlayerId ≤ saved.playerId.value then
      .error (invalidCheckpoint "player identity counter regressed")
    else
      match GuestSessionId.new saved.principalId with
      | .error _ => .error (invalidCheckpoint "guest session identity is invalid")
      | .ok session =>
        match tables.find? saved.tableId with
        | none => .error (invalidCheckpoint "session references an unknown table")
        | some table =>
          match table.lifecycle.seats.seat saved.seat with
          | none => .error (invalidCheckpoint "session references a vacant seat")
          | some occupant =>
            if occupant.playerId ≠ saved.playerId || table.seatSessions.contains saved.seat then
              .error (invalidCheckpoint "session ownership conflicts with restored lifecycle")
            else if sessions.contains session then .error (invalidCheckpoint "duplicate guest session identity")
            else
              restoreSessions nextPlayerId rest
                (tables.insert saved.tableId { table with seatSessions := table.seatSessions.insert saved.seat session })
                (sessions.insert session ⟨saved.tableId, saved.playerId, saved.seat⟩)

/-- Every player has a session, and the chips can be counted. -/
def checkRestored : List RegisteredTable → Except TableRegistryError Unit
  | [] => .ok ()
  | table :: rest =>
    if table.seatSessions.size ≠ table.lifecycle.seats.occupiedCount then
      .error (invalidCheckpoint "every restored occupied seat requires one private session route")
    else if (checkedTotal (table.lifecycle.stacksHeld.map (·.2))).isNone then
      .error (invalidCheckpoint "restored table chip total overflowed")
    else checkRestored rest

/-- The registry of a payload, before its hands are started. -/
def restoreRegistry (now : Nat) (payload : RegistryCheckpointPayload) : Except TableRegistryError TableRegistry :=
  if !(1 ≤ payload.maxTables && payload.maxTables ≤ maxTableRegistryCapacity) || payload.maxTables < payload.tables.length ||
      payload.nextTableId = 0 || payload.nextPlayerId = 0 || payload.nextHandId = 0 then
    .error (invalidCheckpoint "registry bounds or counters are invalid")
  else
    match restoreTables now payload.nextTableId payload.tables .empty with
    | .error error => .error error
    | .ok tables =>
      match restoreSessions payload.nextPlayerId payload.sessions tables .empty with
      | .error error => .error error
      | .ok (tables, sessions) =>
        match checkRestored tables.values with
        | .error error => .error error
        | .ok () =>
          match CredentialVault.restore now payload.credentialCapacity payload.credentials with
          | .error _ => .error (invalidCheckpoint "credential verifier records are invalid")
          | .ok credentials => .ok {
              maxTables := payload.maxTables
              nextTableId := payload.nextTableId
              nextPlayerId := payload.nextPlayerId
              nextHandId := payload.nextHandId
              revision := payload.registryRevision
              tables := tables
              sessions := sessions
              waitingSessions := .empty
              retiredUpdates := .empty
              credentials := credentials
              history := .empty
              reconnectTtl := reconnectCredentialTtl }

/-- The players of a restored table wait to be dealt in. -/
def restoredReady (table : RegisteredTable) : Bool :=
  match table.tournament with
  | none => table.config.minPlayers ≤ table.lifecycle.eligibleCount
  | some controller => controller.status = .running && 2 ≤ table.lifecycle.eligibleCount

/-- A restored hand's session is bound and then taken for gone. -/
def awaitReturn (session : GuestSessionId) (s : RuntimeState) : Except AuthorizedTableError Unit × RuntimeState :=
  s.disconnect session

def startRestoredHand (shuffle : Shuffle) (tableId : TableId) (r : TableRegistry) : Except TableRegistryError TableRegistry :=
  match r.tables.find? tableId with
  | none => .ok r
  | some table =>
    if restoredReady table then
      match startHand shuffle tableId table.config table.lifecycle table.seatSessions (blindsOf table.tournament)
          (seedForNumber table.deterministicSeed) r.nextHandId awaitReturn with
      | .error error => .error error
      | .ok started => .ok ({ r with nextHandId := started.nextHandId }.putTable tableId { table with
          lifecycle := started.lifecycle
          handId := some started.handId
          runtime := some started.runtime })
    else .ok r

def startHands (shuffle : Shuffle) : List TableId → TableRegistry → Except TableRegistryError TableRegistry
  | [], r => .ok r
  | tableId :: rest, r =>
    match startRestoredHand shuffle tableId r with
    | .error error => .error error
    | .ok r => startHands shuffle rest r

def startRestoredHands (shuffle : Shuffle) (r : TableRegistry) : Except TableRegistryError TableRegistry :=
  startHands shuffle r.tables.keys r

def loadCheckpoint (codec : CheckpointCodec) (shuffle : Shuffle) (now : Nat) (bytes : List UInt8) :
    Except TableRegistryError TableRegistry :=
  match readCheckpoint codec bytes with
  | .error error => .error error
  | .ok payload =>
    match restoreRegistry now payload with
    | .error error => .error error
    | .ok r => startRestoredHands shuffle r

end TableRegistry

end OpenFelt
