/-
  OpenFelt.Registry.Lobby — what a table is created with and what the lobby shows of it
  (`src/lobby.rs`; `validate_config` and `validate_stored_config` of `src/table_registry.rs`).

  Names and codes are checked byte by byte in the source, here character by character: a
  byte outside ASCII passes neither check.
-/

import OpenFelt.Game.TableLifecycle
import OpenFelt.Registry.Credentials
import OpenFelt.Registry.Tournament

namespace OpenFelt

instance : LinearOrder TableId := LinearOrder.lift' TableId.id fun ⟨_⟩ ⟨_⟩ h => congrArg TableId.mk h

def maxPublicTableNameBytes : Nat := 32

def minPrivateJoinCodeBytes : Nat := 24

def maxPrivateJoinCodeBytes : Nat := 96

inductive TableVisibility where
  | publicTable
  | passwordProtected
  | unlisted
  | privateTable
  deriving DecidableEq, Repr

structure PublicTableConfig where
  name : String
  seats : TableSize
  startingStack : Nat
  minPlayers : Nat
  visibility : TableVisibility
  joinCode : Option String
  deriving DecidableEq, Repr

structure PublicTableSummary where
  tableId : TableId
  name : String
  seats : TableSize
  startingStack : Nat
  minPlayers : Nat
  smallBlind : Nat
  bigBlind : Nat
  occupied : Nat
  reserved : Nat
  waiting : Nat
  status : TableRunState
  joinable : Bool
  visibility : TableVisibility
  tournament : Option TournamentPublicState
  deriving DecidableEq, Repr

structure PublicTableFilter where
  seats : Option TableSize
  startingStack : Option Nat
  status : Option TableRunState
  joinable : Option Bool
  deriving DecidableEq, Repr

def PublicTableFilter.admits (filter : PublicTableFilter) (table : PublicTableSummary) : Bool :=
  filter.seats.all (· = table.seats) && filter.startingStack.all (· = table.startingStack) &&
    filter.status.all (· = table.status) && filter.joinable.all (· = table.joinable)

/-! ## Errors -/

inductive TableRegistryErrorCode where
  | invalidCapacity
  | unsupportedVersion
  | invalidRequestId
  | capacityReached
  | invalidTableName
  | invalidStartingStack
  | invalidTournament
  | unknownTable
  | tableNotJoinable
  | seatUnavailable
  | sessionAlreadyRouted
  | waitlistFull
  | sessionNotWaiting
  | sessionNotRouted
  | wrongTable
  | tableNotReady
  | handNotComplete
  | unsafeCheckpointBoundary
  | invalidCheckpoint
  | checkpointTooLarge
  | persistenceFailure
  | tableNotRemovable
  | authorityFailure
  deriving DecidableEq, Repr

structure TableRegistryError where
  code : TableRegistryErrorCode
  message : String
  deriving DecidableEq, Repr

/-- How the table's refusals read. -/
def LifecycleError.message : LifecycleError → String
  | closed => "table is closed"
  | handActive => "operation requires a between-hand boundary"
  | noActiveHand => "no active hand to complete"
  | tooFewEligiblePlayers count => "at least two eligible players are required, found " ++ toString count
  | invalidStack => "seat stack must be positive"
  | seatOutsideTable seat => "seat " ++ toString seat.val ++ " is outside this table"
  | seatOccupied seat => "seat " ++ toString seat.val ++ " is occupied"
  | seatVacant seat => "seat " ++ toString seat.val ++ " is vacant"
  | seatNotReserved seat => "seat " ++ toString seat.val ++ " has no reservation"
  | reservationOwnedByAnotherPlayer seat => "seat " ++ toString seat.val ++ " is reserved by another player"
  | identityAlreadyAtTable player => "player " ++ toString player.value ++ " already occupies or reserves a seat"
  | playerNotSeated player => "player " ++ toString player.value ++ " is not seated"
  | missingHandSeat seat => "completed stack report omitted hand seat " ++ toString seat.val
  | unexpectedHandSeat seat => "completed stack report included non-hand seat " ++ toString seat.val
  | duplicateHandSeat seat => "completed stack report duplicated seat " ++ toString seat.val
  | chipTotalMismatch expected actual =>
    "completed hand chip total " ++ toString actual ++ " does not match starting total " ++ toString expected
  | invalidCheckpoint => "between-hand lifecycle checkpoint is inconsistent"

def MultiwayConfigError.message : MultiwayConfigError → String
  | tooFewPlayers count => "at least two occupied seats are required, found " ++ toString count
  | seatOutsideTable seat => "seat " ++ toString seat.val ++ " is outside the configured table"
  | duplicateSeat seat => "seat " ++ toString seat.val ++ " is duplicated"
  | emptyStack seat => "seat " ++ toString seat.val ++ " has no chips"
  | buttonNotOccupied seat => "button seat " ++ toString seat.val ++ " is not occupied"
  | chipTotalOverflow => "configured chip total exceeds u32"
  | invalidBlinds => "small blind must be positive and below big blind; ante cannot exceed big blind"

def AuthorizedTableError.text (error : AuthorizedTableError) : String := error.code.name ++ ": " ++ error.message

/-! ## Configuration -/

def nameCharacter (c : Char) : Bool := c.isAlphanum || c = ' ' || c = '-' || c = '_'

/-- An invite to a table that is not listed: visible bytes, none of them a space. -/
def inviteValid (code : String) : Bool :=
  (minPrivateJoinCodeBytes ≤ code.utf8ByteSize && code.utf8ByteSize ≤ maxPrivateJoinCodeBytes) && code.toList.all graphic

def passwordValid (password : String) : Bool :=
  (4 ≤ password.utf8ByteSize && password.utf8ByteSize ≤ 96) && password.toList.all fun b => graphic b || b = ' '

def validateConfig (config : PublicTableConfig) : Except TableRegistryError Unit :=
  if config.name.isEmpty || maxPublicTableNameBytes < config.name.utf8ByteSize || !config.name.toList.all nameCharacter then
    .error ⟨.invalidTableName, "table name must contain 1 to " ++ toString maxPublicTableNameBytes ++ " safe ASCII bytes"⟩
  else if config.startingStack = 0 then .error ⟨.invalidStartingStack, "starting stack must be positive"⟩
  else if config.minPlayers < 2 || config.seats.get < config.minPlayers then
    .error ⟨.invalidCapacity, "minimum players must be between two and the table seat count"⟩
  else
    match config.visibility with
    | .passwordProtected =>
      if !passwordValid (config.joinCode.getD "") then
        .error ⟨.tableNotJoinable, "Password must contain 4-96 printable characters"⟩
      else .ok ()
    | .publicTable =>
      if config.joinCode.isSome then .error ⟨.tableNotJoinable, "public tables cannot carry a private join credential"⟩
      else .ok ()
    | .unlisted | .privateTable =>
      if !inviteValid (config.joinCode.getD "") then
        .error ⟨.tableNotJoinable, "non-public table join credential must contain " ++ toString minPrivateJoinCodeBytes ++
          " to " ++ toString maxPrivateJoinCodeBytes ++ " printable non-space bytes"⟩
      else .ok ()

/-- What a table that is not public is checked with once its code is gone. -/
def checkpointValidationCode : String := "checkpoint-validation-code"

def validateStoredConfig (config : PublicTableConfig) (accessVerifier : Option AccessVerifier) : Except TableRegistryError Unit :=
  if config.visibility = .publicTable && (accessVerifier.isSome || config.joinCode.isSome) then
    .error ⟨.invalidCheckpoint, "public table cannot contain access verifier material"⟩
  else if config.visibility ≠ .publicTable && (!accessVerifier.any (·.isValid) || config.joinCode.isSome) then
    .error ⟨.invalidCheckpoint, "non-public table requires one valid non-recoverable access verifier"⟩
  else
    validateConfig { config with
      joinCode := if config.visibility = .publicTable then none else some checkpointValidationCode }

end OpenFelt
