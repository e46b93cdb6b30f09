/-
  OpenFelt.Registry.TableRegistry — the tables, who sits at them and who waits
  (`src/table_registry.rs`).

  Translation. A `&mut self` method gives its result and the registry left. A runtime and
  its handle are set and cleared together and are one state here, `runtime`; a thread that
  the system refuses to start is left out. Identities are `u64` in the source: `checkedNext`
  is their `checked_add`. A call is given the time it reads, in milliseconds, and what its
  shuffles give (`Shuffle`); a seed alone decides the deck it gives. What only `health` reads
  is left out.
-/

import OpenFelt.Protocol.Runtime
import OpenFelt.Registry.Lobby

namespace OpenFelt

def defaultTableRegistryCapacity : Nat := 16

def maxTableRegistryCapacity : Nat := 64

def maxTableWaitingEntries : Nat := 64

/-- Five minutes. -/
def reconnectCredentialTtl : Nat := 5 * 60 * 1000

/-- The deck a shuffle gives: that of the seed, or one drawn for the hand. -/
abbrev Shuffle := Option Nat → HandId → Deck

/-- `checked_add(1)`. -/
def checkedNext (n : Nat) : Option Nat := if n < u64Max then some (n + 1) else none

structure JoinOutcome where
  table : PublicTableSummary
  seat : SeatId
  handId : Option HandId
  ready : Bool
  deriving DecidableEq, Repr

structure WaitOutcome where
  table : PublicTableSummary
  position : Nat
  deriving DecidableEq, Repr

inductive AdmissionOutcome where
  | joined (outcome : JoinOutcome)
  | waiting (outcome : WaitOutcome)
  deriving DecidableEq, Repr

structure WaitingEntry where
  session : GuestSessionId
  requestedSeat : Option SeatId
  deriving DecidableEq, Repr

structure ExpirySweep where
  scanned : Nat
  expired : Nat
  retained : Nat
  deriving DecidableEq, Repr

structure SessionRoute where
  tableId : TableId
  player : PlayerId
  seat : SeatId
  deriving DecidableEq, Repr

structure RegisteredTable where
  config : PublicTableConfig
  accessVerifier : Option AccessVerifier
  lifecycle : TableLifecycle
  durableLifecycle : TableLifecycle
  deterministicSeed : Option Nat
  tournament : Option TournamentController
  handId : Option HandId
  seatSessions : OrdMap SeatId GuestSessionId
  waiting : List WaitingEntry
  pendingDepartures : OrdMap GuestSessionId Unit
  lastActivity : Nat
  runtime : Option RuntimeState

structure TableRegistry where
  maxTables : Nat
  nextTableId : Nat
  nextPlayerId : Nat
  nextHandId : Nat
  revision : Nat
  tables : OrdMap TableId RegisteredTable
  sessions : OrdMap GuestSessionId SessionRoute
  waitingSessions : OrdMap GuestSessionId TableId
  retiredUpdates : OrdMap GuestSessionId SubscriptionUpdate
  credentials : CredentialVault
  history : RingHistoryStore
  reconnectTtl : Nat

/-! ## Refusals -/

def authorityFailure (message : String) : TableRegistryError := ⟨.authorityFailure, message⟩

def unknownTable (tableId : TableId) : TableRegistryError :=
  ⟨.unknownTable, "table " ++ toString tableId.id ++ " does not exist"⟩

def tournamentFailure (error : TournamentError) : TableRegistryError := ⟨.invalidTournament, error.message⟩

/-! ## One table -/

namespace RegisteredTable

variable (t : RegisteredTable)

def summary (tableId : TableId) : PublicTableSummary where
  tableId := tableId
  name := t.config.name
  seats := t.config.seats
  startingStack := t.config.startingStack
  minPlayers := t.config.minPlayers
  smallBlind := (t.tournament.map (·.currentBlinds.smallBlind)).getD smallBlind
  bigBlind := (t.tournament.map (·.currentBlinds.bigBlind)).getD bigBlind
  occupied := t.lifecycle.seats.occupiedCount
  reserved := t.lifecycle.reservations.size
  waiting := t.waiting.length
  status := t.lifecycle.state
  joinable := t.runtime.isNone && t.lifecycle.state ≠ .closed && t.tournament.all (·.status = .registering) &&
    t.lifecycle.seats.occupiedCount + t.lifecycle.reservations.size < t.config.seats.get
  visibility := t.config.visibility
  tournament := t.tournament.map (·.publicState)

/-- `table_allows`. -/
def allows (h : Hashes) (supplied : Option String) : Bool :=
  match t.config.visibility with
  | .publicTable => true
  | .passwordProtected | .unlisted | .privateTable =>
    match t.accessVerifier, supplied with
    | some verifier, some candidate => verifier.verify h candidate
    | _, _ => false

end RegisteredTable

/-- Nobody sits at the seat or has it reserved. -/
def TableLifecycle.seatFree (lifecycle : TableLifecycle) (seat : SeatId) : Bool :=
  (lifecycle.seats.seat seat).isNone && lifecycle.reservations.keys.all (· ≠ seat)

/-- The seat asked for, or the first one free. -/
def PublicTableConfig.seatFor (config : PublicTableConfig) (lifecycle : TableLifecycle) (requested : Option SeatId) :
    Option SeatId :=
  match requested with
  | some seat => if config.seats.contains seat && lifecycle.seatFree seat then some seat else none
  | none => config.seats.seats.find? lifecycle.seatFree

/-- `lifecycle_stacks`. -/
def TableLifecycle.stacksHeld (lifecycle : TableLifecycle) : List (SeatId × Nat) :=
  lifecycle.seats.occupied.map fun (seat, st) => (seat, st.stack)

/-- What a start of a hand leaves to install. -/
structure StartedHand where
  lifecycle : TableLifecycle
  handId : HandId
  nextHandId : Nat
  runtime : RuntimeState

/-- Every seat's session bound to its seat, and then treated as `after` says. -/
def bindSeats (tableId : TableId) (handId : HandId)
    (after : GuestSessionId → RuntimeState → Except AuthorizedTableError Unit × RuntimeState) :
    List (SeatId × GuestSessionId) → RuntimeState → Except AuthorizedTableError RuntimeState
  | [], s => .ok s
  | (seat, session) :: rest, s =>
    match s.bind session tableId handId (.player seat) with
    | (.error error, _) => .error error
    | (.ok (), s) =>
      match after session s with
      | (.error error, _) => .error error
      | (.ok (), s) => bindSeats tableId handId after rest s

/-- What `join` and `rollover_completed_hand` do after a bind: nothing. -/
def stayConnected (_ : GuestSessionId) (s : RuntimeState) : Except AuthorizedTableError Unit × RuntimeState := (.ok (), s)

/-- The blinds a table's hands are played for. -/
def blindsOf (tournament : Option TournamentController) : BlindValues :=
  (tournament.map (·.currentBlinds)).getD .default

/-- The `begin_hand` to `bind` of every path that starts a hand. -/
def startHand (shuffle : Shuffle) (tableId : TableId) (config : PublicTableConfig) (lifecycle : TableLifecycle)
    (seatSessions : OrdMap SeatId GuestSessionId) (blinds : BlindValues) (seedFor : Nat → Option Nat) (nextHandId : Nat)
    (after : GuestSessionId → RuntimeState → Except AuthorizedTableError Unit × RuntimeState) :
    Except TableRegistryError StartedHand :=
  match lifecycle.beginHand with
  | (.error error, _) => .error (authorityFailure error.message)
  | (.ok start, lifecycle) =>
    match checkedNext nextHandId with
    | none => .error (authorityFailure "hand identity space is exhausted")
    | some following =>
      let handId : HandId := ⟨nextHandId⟩
      match (start.intoHand config.seats blinds (shuffle (seedFor start.number) handId)).build with
      | .error error => .error (authorityFailure error.message)
      | .ok hand =>
        match bindSeats tableId handId after seatSessions.entries (.spawn (.newPaced tableId handId hand)) with
        | .error error => .error (authorityFailure error.text)
        | .ok runtime => .ok ⟨lifecycle, handId, following, runtime⟩

/-- The seed of the hand with this number: `seed.wrapping_add(number - 1)`. -/
def seedForNumber (seed : Option Nat) (number : Nat) : Option Nat := seed.map fun seed => (seed + (number - 1)) % 2 ^ 64

namespace TableRegistry

variable (r : TableRegistry)

def new (maxTables : Nat) : Except TableRegistryError TableRegistry :=
  if maxTables < 1 || maxTableRegistryCapacity < maxTables then
    .error ⟨.invalidCapacity, "registry capacity must be between 1 and " ++ toString maxTableRegistryCapacity⟩
  else
    match CredentialVault.new defaultCredentialCapacity with
    | .error _ => .error ⟨.invalidCapacity, "credential capacity is invalid"⟩
    | .ok credentials => .ok {
        maxTables := maxTables
        nextTableId := 1
        nextPlayerId := 1
        nextHandId := 1
        revision := 0
        tables := .empty
        sessions := .empty
        waitingSessions := .empty
        retiredUpdates := .empty
        credentials := credentials
        history := .empty
        reconnectTtl := reconnectCredentialTtl }

def bumpRevision : TableRegistry := { r with revision := saturatingAdd64 r.revision 1 }

def putTable (tableId : TableId) (table : RegisteredTable) : TableRegistry :=
  { r with tables := r.tables.insert tableId table }

/-! ## Tables -/

def create (h : Hashes) (salt : List UInt8) (now : Nat) (config : PublicTableConfig) (deterministicSeed : Option Nat) :
    Except TableRegistryError PublicTableSummary × TableRegistry :=
  match validateConfig config with
  | .error error => (.error error, r)
  | .ok () =>
    if r.maxTables ≤ r.tables.size then
      (.error ⟨.capacityReached, "public table registry is at its configured capacity"⟩, r)
    else
      match checkedNext r.nextTableId with
      | none => (.error ⟨.capacityReached, "table identity space is exhausted"⟩, r)
      | some following =>
        let tableId : TableId := ⟨r.nextTableId⟩
        let lifecycle := TableLifecycle.new config.seats
        let table : RegisteredTable := {
          config := { config with joinCode := none }
          accessVerifier := config.joinCode.map fun code =>
            if config.visibility = .passwordProtected then .derivePassword h salt code else .derive h salt code
          lifecycle := lifecycle
          durableLifecycle := lifecycle
          deterministicSeed := deterministicSeed
          tournament := none
          handId := none
          seatSessions := .empty
          waiting := []
          pendingDepartures := .empty
          lastActivity := now
          runtime := none }
        (.ok (table.summary tableId), ({ r with nextTableId := following }.putTable tableId table).bumpRevision)

def createTournament (h : Hashes) (salt : List UInt8) (now : Nat) (config : TournamentConfig) (deterministicSeed : Option Nat) :
    Except TableRegistryError PublicTableSummary × TableRegistry :=
  match TournamentController.new config with
  | .error error => (.error (tournamentFailure error), r)
  | .ok controller =>
    match TableSize.new config.entrants with
    | none => (.error ⟨.invalidTournament, "table size " ++ toString config.entrants ++
        " is outside the supported range 2..=" ++ toString maxTableSeats⟩, r)
    | some seats =>
      let tableConfig : PublicTableConfig := {
        name := config.name
        seats := seats
        startingStack := config.startingStack
        minPlayers := config.entrants
        visibility := if config.joinCode.isEmpty then .publicTable else .passwordProtected
        joinCode := if config.joinCode.isEmpty then none else some config.joinCode }
      match r.create h salt now tableConfig deterministicSeed with
      | (.error error, r) => (.error error, r)
      | (.ok summary, r) =>
        match r.tables.find? summary.tableId with
        | none => (.ok summary, r)
        | some table =>
          let table := { table with tournament := some controller }
          (.ok (table.summary summary.tableId), r.putTable summary.tableId table)

def closeAndRemove (tableId : TableId) : Except TableRegistryError Unit × TableRegistry :=
  match r.tables.find? tableId with
  | none => (.error (unknownTable tableId), r)
  | some table =>
    if table.runtime.isSome || table.lifecycle.handActive || table.lifecycle.seats.occupiedCount ≠ 0 ||
        table.lifecycle.reservations.size ≠ 0 then
      (.error ⟨.tableNotRemovable, "only an empty inactive table can be removed"⟩, r)
    else
      match table.lifecycle.close with
      | (.error error, lifecycle) =>
        (.error ⟨.tableNotRemovable, error.message⟩, r.putTable tableId { table with lifecycle := lifecycle })
      | (.ok (), _) => (.ok (), { r with tables := r.tables.erase tableId }.bumpRevision)

/-- What `expire_inactive_at` may remove. -/
def removable (table : RegisteredTable) : Bool :=
  table.runtime.isNone && !table.lifecycle.handActive && table.lifecycle.seats.occupiedCount = 0 &&
    table.lifecycle.reservations.size = 0 && table.waiting.isEmpty && table.seatSessions.size = 0 &&
    table.pendingDepartures.size = 0

def expireInactiveAt (now idleFor : Nat) : ExpirySweep × TableRegistry :=
  let scanned := r.tables.size
  let expired := (r.tables.entries.filter fun (_, table) => removable table && idleFor ≤ now - table.lastActivity).map (·.1)
  let left := { r with tables := r.tables.filterKey fun tableId => !expired.contains tableId }
  (⟨scanned, expired.length, scanned - expired.length⟩, if expired.isEmpty then left else left.bumpRevision)

/-! ## Joining -/

/-- The table with the player seated, and the tournament entered and perhaps begun. -/
def seatPlayer (table : RegisteredTable) (player : PlayerId) (requestedSeat : Option SeatId) :
    Except TableRegistryError (SeatId × TableLifecycle × Option TournamentController) :=
  match table.config.seatFor table.lifecycle requestedSeat with
  | none =>
    .error ⟨.seatUnavailable, if requestedSeat.isSome then "requested seat is outside the table or unavailable"
      else "table has no available seat"⟩
  | some seat =>
    match table.lifecycle.join player seat table.config.startingStack with
    | (.error error, _) => .error (authorityFailure error.message)
    | (.ok (), lifecycle) =>
      match table.tournament with
      | none => .ok (seat, lifecycle, none)
      | some controller =>
        match controller.register ⟨player, seat⟩ with
        | (.error error, _) => .error (tournamentFailure error)
        | (.ok (), controller) =>
          if controller.entrants.size = table.config.minPlayers then
            match controller.start with
            | (.error error, _) => .error (tournamentFailure error)
            | (.ok (), controller) => .ok (seat, lifecycle, some controller)
          else .ok (seat, lifecycle, some controller)

/-- `ready_to_start`. -/
def readyToStart (config : PublicTableConfig) (lifecycle : TableLifecycle) (tournament : Option TournamentController) : Bool :=
  match tournament with
  | none => config.minPlayers ≤ lifecycle.eligibleCount
  | some controller => controller.status = .running

/-- Everything `join` computes before it writes: the seat, the table and the next hand id. -/
def prepareJoin (shuffle : Shuffle) (now : Nat) (tableId : TableId) (table : RegisteredTable) (player : PlayerId)
    (session : GuestSessionId) (requestedSeat : Option SeatId) : Except TableRegistryError (SeatId × RegisteredTable × Nat) :=
  match seatPlayer table player requestedSeat with
  | .error error => .error error
  | .ok (seat, lifecycle, tournament) =>
    let seatSessions := table.seatSessions.insert seat session
    let joined := { table with
      lifecycle := lifecycle
      durableLifecycle := lifecycle
      seatSessions := seatSessions
      tournament := tournament
      lastActivity := now }
    if readyToStart table.config lifecycle tournament then
      match startHand shuffle tableId table.config lifecycle seatSessions (blindsOf tournament)
          (fun _ => table.deterministicSeed) r.nextHandId stayConnected with
      | .error error => .error error
      | .ok started => .ok (seat, { joined with
          lifecycle := started.lifecycle
          handId := some started.handId
          runtime := some started.runtime }, started.nextHandId)
    else .ok (seat, joined, r.nextHandId)

def join (shuffle : Shuffle) (now : Nat) (session : GuestSessionId) (tableId : TableId) (requestedSeat : Option SeatId) :
    Except TableRegistryError JoinOutcome × TableRegistry :=
  if r.sessions.contains session then
    (.error ⟨.sessionAlreadyRouted, "guest session is already assigned to a table"⟩, r)
  else
    let player : PlayerId := ⟨r.nextPlayerId⟩
    match checkedNext r.nextPlayerId with
    | none => (.error (authorityFailure "player identity space is exhausted"), r)
    | some nextPlayerId =>
      match r.tables.find? tableId with
      | none => (.error (unknownTable tableId), r)
      | some table =>
        if table.runtime.isSome || table.lifecycle.state = .closed then
          (.error ⟨.tableNotJoinable, "table is not accepting between-hand joins in this slice"⟩, r)
        else
          match r.prepareJoin shuffle now tableId table player session requestedSeat with
          | .error error => (.error error, r)
          | .ok (seat, table, nextHandId) =>
            (.ok ⟨table.summary tableId, seat, table.handId, table.runtime.isSome⟩,
              ({ r with
                nextPlayerId := nextPlayerId
                nextHandId := nextHandId
                retiredUpdates := r.retiredUpdates.erase session
                sessions := r.sessions.insert session ⟨tableId, player, seat⟩ }.putTable tableId table).bumpRevision)

def joinOrWaitWithAccess (h : Hashes) (shuffle : Shuffle) (now : Nat) (session : GuestSessionId) (tableId : TableId)
    (requestedSeat : Option SeatId) (accessCode : Option String) : Except TableRegistryError AdmissionOutcome × TableRegistry :=
  if r.sessions.contains session || r.waitingSessions.contains session then
    (.error ⟨.sessionAlreadyRouted, "guest session already has a seat or waiting entry"⟩, r)
  else
    match r.tables.find? tableId with
    | none => (.error (unknownTable tableId), r)
    | some table =>
      if !table.allows h accessCode then (.error (unknownTable tableId), r)
      else if table.tournament.any (·.status ≠ .registering) then
        (.error ⟨.tableNotJoinable, "tournament registration is locked"⟩, r)
      else if table.lifecycle.state = .closed then (.error ⟨.tableNotJoinable, "table is closed"⟩, r)
      else
        let hasRequestedSeat := requestedSeat.all fun seat => table.config.seats.contains seat && table.lifecycle.seatFree seat
        let hasAnySeat := table.lifecycle.seats.occupiedCount + table.lifecycle.reservations.size < table.config.seats.get
        if table.runtime.isNone && hasRequestedSeat && hasAnySeat then
          match r.join shuffle now session tableId requestedSeat with
          | (.error error, r) => (.error error, r)
          | (.ok outcome, r) => (.ok (.joined outcome), r)
        else if maxTableWaitingEntries ≤ table.waiting.length then
          (.error ⟨.waitlistFull, "table waiting list is at its bounded capacity"⟩, r)
        else
          let table := { table with waiting := table.waiting ++ [⟨session, requestedSeat⟩], lastActivity := now }
          (.ok (.waiting ⟨table.summary tableId, table.waiting.length⟩),
            ({ r with waitingSessions := r.waitingSessions.insert session tableId }.putTable tableId table).bumpRevision)

def joinOrWait (h : Hashes) (shuffle : Shuffle) (now : Nat) (session : GuestSessionId) (tableId : TableId)
    (requestedSeat : Option SeatId) : Except TableRegistryError AdmissionOutcome × TableRegistry :=
  r.joinOrWaitWithAccess h shuffle now session tableId requestedSeat none

/-! ## Leaving -/

def cancelWait (now : Nat) (session : GuestSessionId) (tableId : TableId) : Except TableRegistryError Unit × TableRegistry :=
  match r.sessions.find? session with
  | some route =>
    match r.tables.find? tableId with
    | none => (.error (unknownTable tableId), r)
    | some table =>
      match table.tournament with
      | none => (.error ⟨.sessionNotWaiting, "registration is already locked"⟩, r)
      | some controller =>
        if route.tableId ≠ tableId || table.runtime.isSome || controller.status ≠ .registering then
          (.error ⟨.sessionNotWaiting, "registration is already locked"⟩, r)
        else
          match table.lifecycle.requestLeave route.player with
          | (.error error, _) => (.error (authorityFailure error.message), r)
          | (.ok (), lifecycle) =>
            match controller.unregister route.player with
            | (.error error, controller) =>
              (.error (tournamentFailure error), r.putTable tableId { table with tournament := some controller })
            | (.ok (), controller) =>
              (.ok (), ({ r with sessions := r.sessions.erase session }.putTable tableId { table with
                lifecycle := lifecycle
                durableLifecycle := lifecycle
                tournament := some controller
                seatSessions := table.seatSessions.erase route.seat
                lastActivity := now }).bumpRevision)
  | none =>
    if r.waitingSessions.find? session ≠ some tableId then
      (.error ⟨.sessionNotWaiting, "guest session has no matching waiting entry"⟩, r)
    else
      match r.tables.find? tableId with
      | none => (.error (unknownTable tableId), r)
      | some table =>
        (.ok (), ({ r with waitingSessions := r.waitingSessions.erase session }.putTable tableId { table with
          waiting := table.waiting.filter fun entry => entry.session ≠ session
          lastActivity := now }).bumpRevision)

/-- A connection that is gone gives up a registration not yet locked, or a place in a queue. -/
def cancelPendingRegistration (now : Nat) (session : GuestSessionId) : TableRegistry :=
  match (r.waitingSessions.find? session).or ((r.sessions.find? session).map (·.tableId)) with
  | some tableId => (r.cancelWait now session tableId).2
  | none => r

def requestLeave (now : Nat) (session : GuestSessionId) : Except TableRegistryError Unit × TableRegistry :=
  match r.sessions.find? session with
  | none => (.error ⟨.sessionNotRouted, "guest session has not joined a table"⟩, r)
  | some route =>
    match r.tables.find? route.tableId with
    | none => (.error (unknownTable route.tableId), r)
    | some table =>
      match table.lifecycle.requestLeave route.player with
      | (.error error, lifecycle) =>
        (.error (authorityFailure error.message), r.putTable route.tableId { table with lifecycle := lifecycle })
      | (.ok (), lifecycle) =>
        (.ok (), (r.putTable route.tableId { table with
          lifecycle := lifecycle
          pendingDepartures := table.pendingDepartures.insert session ()
          lastActivity := now }).bumpRevision)

def takeRetiredUpdate (session : GuestSessionId) : Option SubscriptionUpdate × TableRegistry :=
  (r.retiredUpdates.find? session, { r with retiredUpdates := r.retiredUpdates.erase session })

/-! ## From one hand to the next -/

/-- The last view of every seat's session. -/
def terminalUpdates (runtime : RuntimeState) : List GuestSessionId →
    Except AuthorizedTableError (List (GuestSessionId × SubscriptionUpdate))
  | [] => .ok []
  | session :: rest =>
    match runtime.boundSnapshot session with
    | .error error => .error error
    | .ok snapshot =>
      (terminalUpdates runtime rest).map ((session, ⟨runtime.streamSequence, .initial, none, snapshot, none⟩) :: ·)

/-- A finished hand as the rollover reads it. -/
structure FinishedHand where
  table : RegisteredTable
  terminal : SnapshotEnvelope
  updates : List (GuestSessionId × SubscriptionUpdate)

def FinishedHand.finalStacks (finished : FinishedHand) : List (SeatId × Nat) :=
  finished.terminal.snapshot.seats.map fun seat => (seat.seat, seat.stack)

/-- The checks of `rollover_completed_hand`: `none` when another hand is being played. -/
def finishedHand (tableId : TableId) (expectedHandId : HandId) : Except TableRegistryError (Option FinishedHand) :=
  match r.tables.find? tableId with
  | none => .error (unknownTable tableId)
  | some table =>
    if table.handId ≠ some expectedHandId then .ok none
    else
      match table.seatSessions.values with
      | [] => .error (authorityFailure "running table has no bound player session")
      | sampleSession :: _ =>
        match table.runtime with
        | none => .error ⟨.tableNotReady, "table has no runtime"⟩
        | some runtime =>
          match runtime.boundSnapshot sampleSession with
          | .error error => .error (authorityFailure error.text)
          | .ok terminal =>
            if terminal.handId ≠ expectedHandId || !terminal.snapshot.phase.terminal then
              .error ⟨.handNotComplete, "only a terminal authoritative hand can roll over"⟩
            else
              match terminalUpdates runtime table.seatSessions.values with
              | .error error => .error (authorityFailure error.text)
              | .ok updates => .ok (some ⟨table, terminal, updates⟩)

/-- The lifecycle and the tournament after the hand. -/
def settleHand (table : RegisteredTable) (elapsed : Nat) (finalStacks : List (SeatId × Nat)) :
    Except TableRegistryError (TableLifecycle × Option TournamentController) :=
  match table.lifecycle.completeHand finalStacks with
  | (.error error, _) => .error (authorityFailure error.message)
  | (.ok (), lifecycle) =>
    match table.tournament with
    | none => .ok (lifecycle, none)
    | some controller =>
      match (controller.tickBetweenHands elapsed).completeHand table.lifecycle.stacksHeld finalStacks with
      | (.error error, _) => .error (tournamentFailure error)
      | (.ok (), controller) => .ok (lifecycle, some controller)

/-- The sessions that leave give up their routes, and the seats these lead to. -/
def depart (departing : List GuestSessionId) (routes : OrdMap GuestSessionId SessionRoute)
    (seatSessions : OrdMap SeatId GuestSessionId) : OrdMap GuestSessionId SessionRoute × OrdMap SeatId GuestSessionId :=
  departing.foldl (fun (routes, seatSessions) session =>
    match routes.find? session with
    | none => (routes, seatSessions)
    | some route => (routes.erase session, seatSessions.erase route.seat)) (routes, seatSessions)

/-- What the admissions of a rollover have written, on the registry and on their copies. -/
structure Admission where
  nextPlayerId : Nat
  sessions : OrdMap GuestSessionId SessionRoute
  waitingSessions : OrdMap GuestSessionId TableId
  lifecycle : TableLifecycle
  seatSessions : OrdMap SeatId GuestSessionId
  waiting : List WaitingEntry

/-- The queue from its front, until one waits for a seat that is not free. -/
def admitWaiting (tableId : TableId) (config : PublicTableConfig) :
    List WaitingEntry → Admission → Except TableRegistryError Unit × Admission
  | [], a => (.ok (), { a with waiting := [] })
  | entry :: rest, a =>
    match config.seatFor a.lifecycle entry.requestedSeat with
    | none => (.ok (), { a with waiting := entry :: rest })
    | some seat =>
      let player : PlayerId := ⟨a.nextPlayerId⟩
      match checkedNext a.nextPlayerId with
      | none => (.error (authorityFailure "player identity space is exhausted"), a)
      | some nextPlayerId =>
        let a := { a with nextPlayerId := nextPlayerId }
        match a.lifecycle.joinWithEntry player seat config.startingStack .postLiveBigBlind with
        | (.error error, _) => (.error (authorityFailure error.message), a)
        | (.ok (), lifecycle) =>
          admitWaiting tableId config rest { a with
            lifecycle := lifecycle
            waitingSessions := a.waitingSessions.erase entry.session
            seatSessions := a.seatSessions.insert seat entry.session
            sessions := a.sessions.insert entry.session ⟨tableId, player, seat⟩ }

/-- No hand follows at once. -/
def rests (config : PublicTableConfig) (lifecycle : TableLifecycle) (tournament : Option TournamentController) : Bool :=
  lifecycle.eligibleCount < (if tournament.isSome then 2 else config.minPlayers) ||
    tournament.any fun controller =>
      controller.status = .break || controller.status = .complete || controller.status = .cancelled

/-- What the departures and the admissions of a rollover leave. -/
def reseat (tableId : TableId) (table : RegisteredTable) (lifecycle : TableLifecycle)
    (tournament : Option TournamentController) : Except TableRegistryError Unit × Admission :=
  let (sessions, seatSessions) := depart table.pendingDepartures.keys r.sessions table.seatSessions
  let departed : Admission := {
    nextPlayerId := r.nextPlayerId
    sessions := sessions
    waitingSessions := r.waitingSessions
    lifecycle := lifecycle
    seatSessions := seatSessions.filterKey fun seat => (lifecycle.seats.seat seat).isSome
    waiting := table.waiting }
  if tournament.isSome then (.ok (), departed) else admitWaiting tableId table.config table.waiting departed

/-- The registry once the routes, the waiting index and the player ids are written. -/
def rerouted (a : Admission) : TableRegistry :=
  { r with nextPlayerId := a.nextPlayerId, sessions := a.sessions, waitingSessions := a.waitingSessions }

/-- The table between two hands. -/
def reseated (table : RegisteredTable) (now : Nat) (tournament : Option TournamentController) (a : Admission) : RegisteredTable :=
  { table with
    lifecycle := a.lifecycle
    durableLifecycle := a.lifecycle
    handId := none
    runtime := none
    seatSessions := a.seatSessions
    waiting := a.waiting
    pendingDepartures := .empty
    tournament := tournament
    lastActivity := now }

def rolloverCompletedHand (shuffle : Shuffle) (now : Nat) (tableId : TableId) (expectedHandId : HandId) :
    Except TableRegistryError (Option HandId) × TableRegistry :=
  match r.finishedHand tableId expectedHandId with
  | .error error => (.error error, r)
  | .ok none => (.ok none, r)
  | .ok (some finished) =>
    let table := finished.table
    let r := { r with
      retiredUpdates := finished.updates.foldl (fun m (session, update) => m.insert session update) r.retiredUpdates }
    match settleHand table (now - table.lastActivity) finished.finalStacks with
    | .error error => (.error error, r)
    | .ok (lifecycle, tournament) =>
      match r.reseat tableId table lifecycle tournament with
      | (.error error, a) => (.error error, r.rerouted a)
      | (.ok (), a) =>
        let r := r.rerouted a
        let reseated := reseated table now tournament a
        if rests table.config a.lifecycle tournament then (.ok none, (r.putTable tableId reseated).bumpRevision)
        else
          match startHand shuffle tableId table.config a.lifecycle a.seatSessions (blindsOf tournament)
              (seedForNumber table.deterministicSeed) r.nextHandId stayConnected with
          | .error error => (.error error, r)
          | .ok started =>
            (.ok (some started.handId), ({ r with nextHandId := started.nextHandId }.putTable tableId { reseated with
              lifecycle := started.lifecycle
              handId := some started.handId
              runtime := some started.runtime }).bumpRevision)

def startWaitingTournamentHand (shuffle : Shuffle) (now : Nat) (tableId : TableId) :
    Except TableRegistryError HandId × TableRegistry :=
  match r.tables.find? tableId with
  | none => (.error (unknownTable tableId), r)
  | some table =>
    match table.tournament with
    | none => (.error ⟨.invalidTournament, "successor requires a tournament controller"⟩, r)
    | some controller =>
      match startHand shuffle tableId table.config table.lifecycle table.seatSessions controller.currentBlinds
          (seedForNumber table.deterministicSeed) r.nextHandId stayConnected with
      | .error error => (.error error, r)
      | .ok started =>
        (.ok started.handId, { r with nextHandId := started.nextHandId }.putTable tableId { table with
          lifecycle := started.lifecycle
          handId := some started.handId
          runtime := some started.runtime
          lastActivity := now })

/-- On a break between two hands. -/
def onBreak (table : RegisteredTable) : Bool := table.runtime.isNone && table.tournament.any (·.status = .break)

/-- The clock of a tournament on its break, and whether its next hand can start. -/
def tickBreak (now : Nat) (tableId : TableId) : Bool × TableRegistry :=
  match r.tables.find? tableId with
  | none => (false, r)
  | some table =>
    match table.tournament with
    | none => (false, r)
    | some controller =>
      let controller := controller.tickBetweenHands (now - table.lastActivity)
      let table := { table with tournament := some controller, lastActivity := now }
      (controller.status = .running && 2 ≤ table.lifecycle.eligibleCount, r.putTable tableId table)

def advanceBreaks (shuffle : Shuffle) (now : Nat) :
    List TableId → Nat → TableRegistry → Except TableRegistryError Nat × TableRegistry
  | [], resumed, r => (.ok resumed, r)
  | tableId :: rest, resumed, r =>
    match r.tickBreak now tableId with
    | (false, r) => advanceBreaks shuffle now rest resumed r
    | (true, r) =>
      match r.startWaitingTournamentHand shuffle now tableId with
      | (.error error, r) => (.error error, r)
      | (.ok _, r) => advanceBreaks shuffle now rest (resumed + 1) r

def advanceTournamentBreaks (shuffle : Shuffle) (now : Nat) : Except TableRegistryError Nat × TableRegistry :=
  let tableIds := (r.tables.entries.filter fun (_, table) => onBreak table).map (·.1)
  match advanceBreaks shuffle now tableIds 0 r with
  | (.error error, r) => (.error error, r)
  | (.ok resumed, r) => (.ok resumed, if 0 < resumed then r.bumpRevision else r)

/-! ## Histories -/

def finalizeSafeHistory (tableId : TableId) (handId : HandId) : Except TableRegistryError Unit × TableRegistry :=
  match r.tables.find? tableId with
  | none => (.error (unknownTable tableId), r)
  | some table =>
    if table.handId ≠ some handId then (.error ⟨.wrongTable, "safe history finalization targets a different hand"⟩, r)
    else
      match table.runtime with
      | none => (.error ⟨.tableNotReady, "safe history requires a running authority"⟩, r)
      | some runtime =>
        match runtime.safeHistoryMaterial with
        | .error error => (.error (authorityFailure error.text), r)
        | .ok (terminal, events) =>
          match SafeRingHandHistory.fromPublicTerminal terminal events with
          | .error _ => (.error (authorityFailure "terminal public history construction failed closed"), r)
          | .ok history => (.ok (), { r with history := r.history.record history })

/-- The tables whose hand is over, with that hand. -/
def readyHands : List (TableId × RegisteredTable) → Except TableRegistryError (List (TableId × HandId))
  | [] => .ok []
  | (tableId, table) :: rest =>
    match table.handId, table.runtime with
    | some handId, some runtime =>
      match runtime.safeHistoryMaterial with
      | .error error => .error (authorityFailure error.text)
      | .ok (snapshot, _) =>
        (readyHands rest).map fun ready => if snapshot.snapshot.phase.terminal then (tableId, handId) :: ready else ready
    | _, _ => readyHands rest

def finalizeHands (shuffle : Shuffle) (now : Nat) :
    List (TableId × HandId) → TableRegistry → Except TableRegistryError Unit × TableRegistry
  | [], r => (.ok (), r)
  | (tableId, handId) :: rest, r =>
    match r.finalizeSafeHistory tableId handId with
    | (.error error, r) => (.error error, r)
    | (.ok (), r) =>
      match r.rolloverCompletedHand shuffle now tableId handId with
      | (.error error, r) => (.error error, r)
      | (.ok _, r) => finalizeHands shuffle now rest r

def finalizeReadyHands (shuffle : Shuffle) (now : Nat) : Except TableRegistryError Nat × TableRegistry :=
  match readyHands r.tables.entries with
  | .error error => (.error error, r)
  | .ok ready =>
    match finalizeHands shuffle now ready r with
    | (.error error, r) => (.error error, r)
    | (.ok (), r) => (.ok ready.length, r)

/-! ## Reconnect credentials -/

def unroutedPrincipal : TableRegistryError := ⟨.sessionNotRouted, "server-issued principal is not routed"⟩

def unknownCredential : TableRegistryError :=
  ⟨.sessionNotRouted, "reconnect credential is unknown, expired, revoked, or out of scope"⟩

/-- A credential is good for the table its principal is routed to. -/
def checkScope (principal : GuestSessionId) (scope : CredentialScope) : Except TableRegistryError Unit :=
  match r.sessions.find? principal with
  | none => .error ⟨.sessionNotRouted, "reconnect credential has no live route"⟩
  | some route =>
    if route.tableId ≠ scope.tableId then .error ⟨.wrongTable, "reconnect credential scope does not match its route"⟩
    else .ok ()

/-- `none` while a token is being drawn. -/
def issueReconnectCredential (h : Hashes) (draws : List (List UInt8)) (now : Nat) (principal : GuestSessionId) :
    Option (Except TableRegistryError ReconnectGrant × TableRegistry) :=
  match r.sessions.find? principal with
  | none => some (.error unroutedPrincipal, r)
  | some route =>
    ((r.credentials.revokePrincipal principal).issue h draws now principal ⟨route.tableId, .reconnect⟩ r.reconnectTtl).map
      fun (result, credentials) =>
        (match result with
          | .error _ => .error ⟨.capacityReached, "reconnect credential capacity reached"⟩
          | .ok issued => .ok issued.grant, { r with credentials := credentials })

def authenticateAndRotateReconnect (h : Hashes) (draws : List (List UInt8)) (now : Nat) (token : String) :
    Option (Except TableRegistryError (GuestSessionId × ReconnectGrant) × TableRegistry) :=
  (r.credentials.authenticateAndRotate h draws now token .reconnect r.reconnectTtl).map fun (result, credentials) =>
    (match result with
      | .error _ => .error unknownCredential
      | .ok issued => (r.checkScope issued.principal issued.scope).map fun () => (issued.principal, issued.grant),
      { r with credentials := credentials })

def identifyReconnect (h : Hashes) (now : Nat) (token : String) : Except TableRegistryError GuestSessionId × TableRegistry :=
  let (result, credentials) := r.credentials.authenticate h now token .reconnect
  (match result with
    | .error _ => .error unknownCredential
    | .ok (principal, scope) => (r.checkScope principal scope).map fun () => principal,
    { r with credentials := credentials })

end TableRegistry

end OpenFelt
