/-
  OpenFelt.Registry.Steps — the calls of a table registry, and runs of them.

  `Leaves` is everything a call can leave: the tables, the routes, the queues' index and
  the ids as they were (`aside`), or one of the writes that change them. Every invariant of
  the registry is proved once for each of its constructors. The two sweeps, over the
  finished hands and over the breaks, are runs of the calls that they are made of.
-/

import OpenFelt.Registry.Rollovers

namespace OpenFelt

/-- The table once the session has joined. -/
def RegisteredTable.seated (table : RegisteredTable) (now : Nat) (session : GuestSessionId) (seat : SeatId)
    (lifecycle : TableLifecycle) (tournament : Option TournamentController) : RegisteredTable :=
  { table with
    lifecycle := lifecycle
    durableLifecycle := lifecycle
    seatSessions := table.seatSessions.insert seat session
    tournament := tournament
    lastActivity := now }

namespace TableRegistry

/-- One table's turn in `advance_tournament_breaks`: a table on its break ticks, and plays on once the break is over. -/
def resume (r : TableRegistry) (shuffle : Shuffle) (now : Nat) (tableId : TableId) :
    Except TableRegistryError Bool × TableRegistry :=
  if (r.tables.find? tableId).any onBreak then
    match r.tickBreak now tableId with
    | (false, r) => (.ok false, r)
    | (true, r) =>
      match r.startWaitingTournamentHand shuffle now tableId with
      | (.error error, r) => (.error error, r)
      | (.ok _, r) => (.ok true, r)
  else (.ok false, r)

/-- `set_reconnect_ttl`. -/
def setReconnectTtl (r : TableRegistry) (ttl : Nat) : Except TableRegistryError Unit × TableRegistry :=
  if ttl = 0 || 60 * 60 * 1000 < ttl then
    (.error ⟨.invalidCapacity, "reconnect credential TTL must be between 1 and 3600 seconds"⟩, r)
  else (.ok (), { r with reconnectTtl := ttl })

/-- A request to the runtime of a table's hand. -/
def serve (r : TableRegistry) (tableId : TableId) (op : RuntimeOp) : TableRegistry :=
  match r.tables.find? tableId with
  | none => r
  | some table => r.putTable tableId { table with runtime := table.runtime.map op.apply }

end TableRegistry

inductive RegistryOp where
  | create (h : Hashes) (salt : List UInt8) (now : Nat) (config : PublicTableConfig) (deterministicSeed : Option Nat)
  | createTournament (h : Hashes) (salt : List UInt8) (now : Nat) (config : TournamentConfig) (deterministicSeed : Option Nat)
  | closeAndRemove (tableId : TableId)
  | expireInactive (now idleFor : Nat)
  | join (shuffle : Shuffle) (now : Nat) (session : GuestSessionId) (tableId : TableId) (requestedSeat : Option SeatId)
  | joinOrWait (h : Hashes) (shuffle : Shuffle) (now : Nat) (session : GuestSessionId) (tableId : TableId)
      (requestedSeat : Option SeatId) (accessCode : Option String)
  | cancelWait (now : Nat) (session : GuestSessionId) (tableId : TableId)
  | cancelPendingRegistration (now : Nat) (session : GuestSessionId)
  | requestLeave (now : Nat) (session : GuestSessionId)
  | takeRetiredUpdate (session : GuestSessionId)
  | rollover (shuffle : Shuffle) (now : Nat) (tableId : TableId) (expectedHandId : HandId)
  | resume (shuffle : Shuffle) (now : Nat) (tableId : TableId)
  | finalizeSafeHistory (tableId : TableId) (handId : HandId)
  | issueReconnect (h : Hashes) (draws : List (List UInt8)) (now : Nat) (principal : GuestSessionId)
  | rotateReconnect (h : Hashes) (draws : List (List UInt8)) (now : Nat) (token : String)
  | identifyReconnect (h : Hashes) (now : Nat) (token : String)
  | setReconnectTtl (ttl : Nat)
  | serve (tableId : TableId) (op : RuntimeOp)

namespace RegistryOp

def apply : RegistryOp → TableRegistry → TableRegistry
  | create h salt now config deterministicSeed, r => (r.create h salt now config deterministicSeed).2
  | createTournament h salt now config deterministicSeed, r => (r.createTournament h salt now config deterministicSeed).2
  | closeAndRemove tableId, r => (r.closeAndRemove tableId).2
  | expireInactive now idleFor, r => (r.expireInactiveAt now idleFor).2
  | join shuffle now session tableId requestedSeat, r => (r.join shuffle now session tableId requestedSeat).2
  | joinOrWait h shuffle now session tableId requestedSeat accessCode, r =>
    (r.joinOrWaitWithAccess h shuffle now session tableId requestedSeat accessCode).2
  | cancelWait now session tableId, r => (r.cancelWait now session tableId).2
  | cancelPendingRegistration now session, r => r.cancelPendingRegistration now session
  | requestLeave now session, r => (r.requestLeave now session).2
  | takeRetiredUpdate session, r => (r.takeRetiredUpdate session).2
  | rollover shuffle now tableId expectedHandId, r => (r.rolloverCompletedHand shuffle now tableId expectedHandId).2
  | resume shuffle now tableId, r => (r.resume shuffle now tableId).2
  | finalizeSafeHistory tableId handId, r => (r.finalizeSafeHistory tableId handId).2
  | issueReconnect h draws now principal, r => ((r.issueReconnectCredential h draws now principal).map (·.2)).getD r
  | rotateReconnect h draws now token, r => ((r.authenticateAndRotateReconnect h draws now token).map (·.2)).getD r
  | identifyReconnect h now token, r => (r.identifyReconnect h now token).2
  | setReconnectTtl ttl, r => (r.setReconnectTtl ttl).2
  | serve tableId op, r => r.serve tableId op

/-- The decks of the hands the call may start are whole. -/
def Fair : RegistryOp → Prop
  | join shuffle .. | joinOrWait _ shuffle .. | rollover shuffle .. | resume shuffle .. => shuffle.Fair
  | _ => True

end RegistryOp

namespace TableRegistry

def run (r : TableRegistry) (ops : List RegistryOp) : TableRegistry := ops.foldl (fun r op => op.apply r) r

/-- A registry that has been created and then called any number of times. -/
def Reached (r : TableRegistry) : Prop :=
  ∃ maxTables start ops, new maxTables = .ok start ∧ (∀ op ∈ ops, op.Fair) ∧ r = start.run ops

/-! ## What a call leaves -/

/-- The tables, the routes, the queues' index and the ids are the same. -/
structure SameTables (r r' : TableRegistry) : Prop where
  maxTables : r'.maxTables = r.maxTables
  nextTableId : r'.nextTableId = r.nextTableId
  nextPlayerId : r'.nextPlayerId = r.nextPlayerId
  nextHandId : r'.nextHandId = r.nextHandId
  tables : r'.tables = r.tables
  sessions : r'.sessions = r.sessions
  waitingSessions : r'.waitingSessions = r.waitingSessions

theorem SameTables.refl (r : TableRegistry) : SameTables r r := ⟨rfl, rfl, rfl, rfl, rfl, rfl, rfl⟩

/-- A table nobody has sat down at. -/
structure NewTable (table : RegisteredTable) : Prop where
  lifecycle : table.lifecycle = .new table.config.seats
  durable : table.durableLifecycle = .new table.config.seats
  handId : table.handId = none
  seatSessions : table.seatSessions = .empty
  waiting : table.waiting = []
  pendingDepartures : table.pendingDepartures = .empty
  runtime : table.runtime = none
  tournament : ∀ controller, table.tournament = some controller → ∃ config, TournamentController.new config = .ok controller ∧
    table.config.seats.get = config.entrants ∧ table.config.minPlayers = config.entrants ∧
      table.config.startingStack = config.startingStack
  players : 2 ≤ table.config.minPlayers
  stack : 0 < table.config.startingStack

/-- A table that may be removed: empty, and without a hand. -/
structure Removable (table : RegisteredTable) : Prop where
  runtime : table.runtime = none
  idle : table.lifecycle.handActive = false
  empty : table.lifecycle.seats.occupiedCount = 0
  unreserved : table.lifecycle.reservations.size = 0

/-- The table with the new player seated, before a hand is started. -/
structure Seating (table : RegisteredTable) (player : PlayerId) (requestedSeat : Option SeatId) (seat : SeatId)
    (lifecycle : TableLifecycle) (tournament : Option TournamentController) : Prop where
  found : table.config.seatFor table.lifecycle requestedSeat = some seat
  joined : table.lifecycle.join player seat table.config.startingStack = (.ok (), lifecycle)
  cash : table.tournament = none → tournament = none
  entered : ∀ controller, table.tournament = some controller → ∃ entered, controller.register ⟨player, seat⟩ = (.ok (), entered) ∧
    ((entered.entrants.size ≠ table.config.minPlayers ∧ tournament = some entered) ∨
      ∃ started, entered.entrants.size = table.config.minPlayers ∧ entered.start = (.ok (), started) ∧ tournament = some started)

/-- The registry once the session is routed to its seat. -/
def routed (r : TableRegistry) (session : GuestSessionId) (tableId : TableId) (seat : SeatId) (table : RegisteredTable)
    (nextHandId : Nat) : TableRegistry :=
  ({ r with
    nextPlayerId := r.nextPlayerId + 1
    nextHandId := nextHandId
    retiredUpdates := r.retiredUpdates.erase session
    sessions := r.sessions.insert session ⟨tableId, ⟨r.nextPlayerId⟩, seat⟩ }.putTable tableId table).bumpRevision

/-- What a session that joins finds: it has no route, and the table is open and plays no hand. -/
structure Joinable (r : TableRegistry) (session : GuestSessionId) (tableId : TableId) (table : RegisteredTable) : Prop where
  unrouted : r.sessions.find? session = none
  next : r.nextPlayerId < u64Max
  registered : r.tables.find? tableId = some table
  runtime : table.runtime = none
  isOpen : table.lifecycle.state ≠ .closed

inductive Leaves (r : TableRegistry) : RegistryOp → TableRegistry → Prop
  | aside (op : RegistryOp) (r' : TableRegistry) : SameTables r r' → Leaves r op r'
  | created (op : RegistryOp) (table : RegisteredTable) : r.nextTableId < u64Max → NewTable table →
      r.tables.size < r.maxTables →
      Leaves r op ({ r with nextTableId := r.nextTableId + 1 }.putTable ⟨r.nextTableId⟩ table).bumpRevision
  | removed (op : RegistryOp) (keep : TableId → Bool) (revision : Nat) :
      (∀ tableId table, r.tables.find? tableId = some table → keep tableId = false → Removable table ∧
        (op = .closeAndRemove tableId ∨ table.waiting = [])) →
      Leaves r op { r with tables := r.tables.filterKey keep, revision := revision }
  | joined (op : RegistryOp) (shuffle : Shuffle) (now : Nat) (session : GuestSessionId) (tableId : TableId)
      (requestedSeat : Option SeatId) (table : RegisteredTable) (seat : SeatId) (lifecycle : TableLifecycle)
      (tournament : Option TournamentController) :
      op = .join shuffle now session tableId requestedSeat ∨
        (∃ h accessCode, op = .joinOrWait h shuffle now session tableId requestedSeat accessCode ∧
          r.waitingSessions.find? session = none ∧ table.allows h accessCode = true) →
      Joinable r session tableId table → Seating table ⟨r.nextPlayerId⟩ requestedSeat seat lifecycle tournament →
      readyToStart table.config lifecycle tournament = false →
      Leaves r op (r.routed session tableId seat (table.seated now session seat lifecycle tournament) r.nextHandId)
  | joinedAndStarted (op : RegistryOp) (shuffle : Shuffle) (now : Nat) (session : GuestSessionId) (tableId : TableId)
      (requestedSeat : Option SeatId) (table : RegisteredTable) (seat : SeatId) (lifecycle : TableLifecycle)
      (tournament : Option TournamentController) (started : StartedHand) :
      op = .join shuffle now session tableId requestedSeat ∨
        (∃ h accessCode, op = .joinOrWait h shuffle now session tableId requestedSeat accessCode ∧
          r.waitingSessions.find? session = none ∧ table.allows h accessCode = true) →
      Joinable r session tableId table → Seating table ⟨r.nextPlayerId⟩ requestedSeat seat lifecycle tournament →
      readyToStart table.config lifecycle tournament = true →
      startHand shuffle tableId table.config lifecycle (table.seatSessions.insert seat session) (blindsOf tournament)
        (fun _ => table.deterministicSeed) r.nextHandId stayConnected = .ok started →
      Leaves r op (r.routed session tableId seat
        ((table.seated now session seat lifecycle tournament).running started) started.nextHandId)
  | queued (h : Hashes) (shuffle : Shuffle) (now : Nat) (session : GuestSessionId) (tableId : TableId)
      (requestedSeat : Option SeatId) (accessCode : Option String) (table : RegisteredTable) :
      r.sessions.find? session = none → r.waitingSessions.find? session = none → r.tables.find? tableId = some table →
      table.allows h accessCode = true → table.waiting.length < maxTableWaitingEntries →
      Leaves r (.joinOrWait h shuffle now session tableId requestedSeat accessCode)
        ({ r with waitingSessions := r.waitingSessions.insert session tableId }.putTable tableId { table with
          waiting := table.waiting ++ [(⟨session, requestedSeat⟩ : WaitingEntry)]
          lastActivity := now }).bumpRevision
  | unqueued (op : RegistryOp) (now : Nat) (session : GuestSessionId) (tableId : TableId) (table : RegisteredTable) :
      r.sessions.find? session = none → r.waitingSessions.find? session = some tableId → r.tables.find? tableId = some table →
      Leaves r op ({ r with waitingSessions := r.waitingSessions.erase session }.putTable tableId { table with
        waiting := table.waiting.filter fun entry => entry.session ≠ session
        lastActivity := now }).bumpRevision
  | unregistered (op : RegistryOp) (now : Nat) (session : GuestSessionId) (tableId : TableId) (table : RegisteredTable)
      (route : SessionRoute) (controller left : TournamentController) (lifecycle : TableLifecycle) :
      r.sessions.find? session = some route → route.tableId = tableId → r.tables.find? tableId = some table →
      table.tournament = some controller → table.runtime = none → controller.status = .registering →
      table.lifecycle.requestLeave route.player = (.ok (), lifecycle) → controller.unregister route.player = (.ok (), left) →
      Leaves r op ({ r with sessions := r.sessions.erase session }.putTable tableId { table with
        lifecycle := lifecycle
        durableLifecycle := lifecycle
        tournament := some left
        seatSessions := table.seatSessions.erase route.seat
        lastActivity := now }).bumpRevision
  | left (now : Nat) (session : GuestSessionId) (route : SessionRoute) (table : RegisteredTable) (lifecycle : TableLifecycle) :
      r.sessions.find? session = some route → r.tables.find? route.tableId = some table →
      table.lifecycle.requestLeave route.player = (.ok (), lifecycle) →
      Leaves r (.requestLeave now session) (r.putTable route.tableId { table with
        lifecycle := lifecycle
        pendingDepartures := table.pendingDepartures.insert session ()
        lastActivity := now }).bumpRevision
  | rolled (shuffle : Shuffle) (now : Nat) (tableId : TableId) (handId : HandId)
      (result : Except TableRegistryError (Option HandId)) (r' : TableRegistry) :
      RollsOver r shuffle now tableId handId result r' → Leaves r (.rollover shuffle now tableId handId) r'
  | ticked (shuffle : Shuffle) (now : Nat) (tableId : TableId) (table : RegisteredTable) (controller : TournamentController) :
      r.tables.find? tableId = some table → table.runtime = none → table.tournament = some controller →
      controller.status = .break →
      Leaves r (.resume shuffle now tableId) (r.putTable tableId { table with
        tournament := some (controller.tickBetweenHands (now - table.lastActivity))
        lastActivity := now })
  | resumed (shuffle : Shuffle) (now : Nat) (tableId : TableId) (table : RegisteredTable) (controller : TournamentController)
      (started : StartedHand) :
      r.tables.find? tableId = some table → table.runtime = none → table.tournament = some controller →
      controller.status = .break →
      (controller.tickBetweenHands (now - table.lastActivity)).status = .running → 2 ≤ table.lifecycle.eligibleCount →
      startHand shuffle tableId table.config table.lifecycle table.seatSessions
        (controller.tickBetweenHands (now - table.lastActivity)).currentBlinds (seedForNumber table.deterministicSeed)
        r.nextHandId stayConnected = .ok started →
      Leaves r (.resume shuffle now tableId) ({ r with nextHandId := started.nextHandId }.putTable tableId
        (({ table with
          tournament := some (controller.tickBetweenHands (now - table.lastActivity))
          lastActivity := now } : RegisteredTable).running started))
  | served (tableId : TableId) (op : RuntimeOp) (table : RegisteredTable) : r.tables.find? tableId = some table →
      Leaves r (.serve tableId op) (r.putTable tableId { table with runtime := table.runtime.map op.apply })

section leaves
variable {r r' : TableRegistry} {shuffle : Shuffle} {now : Nat} {tableId : TableId} {session : GuestSessionId}
  {requestedSeat : Option SeatId} {op : RegistryOp}

theorem putTable_same {table : RegisteredTable} (h : r.tables.find? tableId = some table) : r.putTable tableId table = r := by
  unfold putTable
  rw [OrdMap.insert_same h]

theorem Leaves.same (op : RegistryOp) (r : TableRegistry) : Leaves r op r := .aside op r (.refl r)

/-! ## Creating and removing -/

theorem validateConfig_bounds {config : PublicTableConfig} (h : validateConfig config = .ok ()) :
    2 ≤ config.minPlayers ∧ 0 < config.startingStack := by
  unfold validateConfig at h
  split at h
  · cases h
  split at h
  · cases h
  rename_i hstack
  split at h
  · cases h
  rename_i hplayers
  rw [Bool.or_eq_true, decide_eq_true_eq, decide_eq_true_eq, not_or] at hplayers
  omega

theorem create_cases (r : TableRegistry) (h : Hashes) (salt : List UInt8) (now : Nat) (config : PublicTableConfig)
    (seed : Option Nat) :
    (∃ error, r.create h salt now config seed = (.error error, r)) ∨
      ∃ table : RegisteredTable, NewTable table ∧ table.tournament = none ∧ table.config = { config with joinCode := none } ∧
        r.nextTableId < u64Max ∧ r.tables.size < r.maxTables ∧
        r.create h salt now config seed = (.ok (table.summary ⟨r.nextTableId⟩),
          ({ r with nextTableId := r.nextTableId + 1 }.putTable ⟨r.nextTableId⟩ table).bumpRevision) := by
  unfold create
  cases hvalid : validateConfig config with
  | error error => exact Or.inl ⟨error, rfl⟩
  | ok u =>
    dsimp only
    by_cases hfull : r.maxTables ≤ r.tables.size
    · rw [if_pos hfull]
      exact Or.inl ⟨_, rfl⟩
    rw [if_neg hfull]
    unfold checkedNext
    by_cases hnext : r.nextTableId < u64Max
    · rw [if_pos hnext]
      obtain ⟨hplayers, hstack⟩ := validateConfig_bounds hvalid
      refine Or.inr ⟨_, ⟨rfl, rfl, rfl, rfl, rfl, rfl, rfl, ?_, hplayers, hstack⟩, rfl, rfl, hnext, Nat.lt_of_not_le hfull, rfl⟩
      intro controller hc
      cases hc
    · rw [if_neg hnext]
      exact Or.inl ⟨_, rfl⟩

theorem create_leaves (h : Hashes) (salt : List UInt8) (now : Nat) (config : PublicTableConfig) (seed : Option Nat) :
    Leaves r op (r.create h salt now config seed).2 := by
  rcases r.create_cases h salt now config seed with ⟨error, he⟩ | ⟨table, hnew, _, _, hnext, hroom, he⟩
  · rw [he]
    exact .same op r
  · rw [he]
    exact .created op table hnext hnew hroom

theorem createTournament_leaves (h : Hashes) (salt : List UInt8) (now : Nat) (config : TournamentConfig) (seed : Option Nat) :
    Leaves r op (r.createTournament h salt now config seed).2 := by
  unfold createTournament
  cases hcontroller : TournamentController.new config with
  | error error => exact .same op r
  | ok controller =>
    dsimp only
    cases hsize : TableSize.new config.entrants with
    | none => exact .same op r
    | some seats =>
      dsimp only
      have hget : seats.get = config.entrants := by
        unfold TableSize.new at hsize
        split at hsize
        · cases hsize
          rfl
        · cases hsize
      generalize hconfig : ({
        name := config.name
        seats := seats
        startingStack := config.startingStack
        minPlayers := config.entrants
        visibility := if config.joinCode.isEmpty then .publicTable else .passwordProtected
        joinCode := if config.joinCode.isEmpty then none else some config.joinCode } : PublicTableConfig) = tableConfig
      rcases r.create_cases h salt now tableConfig seed with ⟨error, he⟩ | ⟨table, hnew, _, htable, hnext, hroom, he⟩
      · rw [he]
        exact .same op r
      · rw [he]
        dsimp only
        have hid : (table.summary ⟨r.nextTableId⟩).tableId = ⟨r.nextTableId⟩ := rfl
        have hfind : (({ r with nextTableId := r.nextTableId + 1 }.putTable ⟨r.nextTableId⟩ table).bumpRevision).tables.find?
            (table.summary ⟨r.nextTableId⟩).tableId = some table := OrdMap.find_insert_self
        rw [hfind]
        dsimp only
        have htwice : (({ r with nextTableId := r.nextTableId + 1 }.putTable ⟨r.nextTableId⟩ table).bumpRevision).putTable
            ⟨r.nextTableId⟩ { table with tournament := some controller } =
              ({ r with nextTableId := r.nextTableId + 1 }.putTable ⟨r.nextTableId⟩
                { table with tournament := some controller }).bumpRevision := by
          unfold putTable bumpRevision
          rw [OrdMap.insert_twice]
        rw [hid, htwice]
        refine .created op { table with tournament := some controller } hnext ?_ hroom
        refine ⟨hnew.lifecycle, hnew.durable, hnew.handId, hnew.seatSessions, hnew.waiting, hnew.pendingDepartures,
          hnew.runtime, ?_, hnew.players, hnew.stack⟩
        intro other hother
        cases hother
        refine ⟨config, hcontroller, ?_, ?_, ?_⟩
        · rw [← hget]
          show table.config.seats.get = seats.get
          rw [htable, ← hconfig]
        · show table.config.minPlayers = config.entrants
          rw [htable, ← hconfig]
        · show table.config.startingStack = config.startingStack
          rw [htable, ← hconfig]

theorem closeAndRemove_leaves (r : TableRegistry) (tableId : TableId) :
    Leaves r (.closeAndRemove tableId) (r.closeAndRemove tableId).2 := by
  unfold closeAndRemove
  cases htable : r.tables.find? tableId with
  | none => exact .same _ r
  | some table =>
    dsimp only
    by_cases hbusy : (table.runtime.isSome || table.lifecycle.handActive || table.lifecycle.seats.occupiedCount ≠ 0 ||
        table.lifecycle.reservations.size ≠ 0) = true
    · rw [if_pos hbusy]
      exact .same _ r
    rw [if_neg hbusy]
    rw [Bool.or_eq_true, Bool.or_eq_true, Bool.or_eq_true, not_or, not_or, not_or] at hbusy
    obtain ⟨⟨⟨hruntime, hidle⟩, hempty⟩, hreserved⟩ := hbusy
    cases hclose : table.lifecycle.close with
    | mk result lifecycle =>
      cases result with
      | error error =>
        have hsame : lifecycle = table.lifecycle := by
          unfold TableLifecycle.close at hclose
          split at hclose
          · cases hclose
            rfl
          split at hclose
          · cases hclose
            rfl
          · cases hclose
        dsimp only
        rw [hsame, putTable_same htable]
        exact .same _ r
      | ok u =>
        cases u
        have herase : r.tables.erase tableId = r.tables.filterKey fun id => id ≠ tableId := by
          refine OrdMap.ext_find ?_
          intro id
          rw [OrdMap.find_erase, OrdMap.find_filterKey]
          by_cases hid : id = tableId <;> simp [hid]
        dsimp only
        rw [herase]
        refine @Leaves.removed r (.closeAndRemove tableId) (fun id => id ≠ tableId) (saturatingAdd64 r.revision 1) ?_
        intro id other hother hgone
        obtain rfl : id = tableId := by simpa using hgone
        rw [htable] at hother
        cases hother
        exact ⟨⟨by simpa using hruntime, by simpa using hidle, by simpa using hempty, by simpa using hreserved⟩, Or.inl rfl⟩

theorem expireInactive_leaves (now idleFor : Nat) : Leaves r op (r.expireInactiveAt now idleFor).2 := by
  unfold expireInactiveAt
  dsimp only
  generalize hexpired : (r.tables.entries.filter fun x => removable x.2 && idleFor ≤ now - x.2.lastActivity).map (·.1) = expired
  have hall : ∀ id table, r.tables.find? id = some table → (!expired.contains id) = false → Removable table ∧
      (op = .closeAndRemove id ∨ table.waiting = []) := by
    intro id table htable hgone
    rw [Bool.not_eq_false', List.contains_iff_mem, ← hexpired] at hgone
    obtain ⟨⟨other, found⟩, hmem, rfl⟩ := List.mem_map.mp hgone
    obtain ⟨hin, hremovable⟩ := List.mem_filter.mp hmem
    obtain rfl : table = found := Option.some.inj (htable.symm.trans (OrdMap.mem_entries.mp hin))
    unfold removable at hremovable
    simp only [Bool.and_eq_true, decide_eq_true_eq, Bool.not_eq_true'] at hremovable
    exact ⟨⟨by simpa using hremovable.1.1.1.1.1.1.1, hremovable.1.1.1.1.1.1.2, hremovable.1.1.1.1.1.2, hremovable.1.1.1.1.2⟩,
      Or.inr (by simpa using hremovable.1.1.1.2)⟩
  split
  · exact @Leaves.removed r op _ r.revision hall
  · exact @Leaves.removed r op _ (saturatingAdd64 r.revision 1) hall

/-! ## Joining, waiting and leaving -/

theorem seatPlayer_ok {table : RegisteredTable} {player : PlayerId} {seat : SeatId} {lifecycle : TableLifecycle}
    {tournament : Option TournamentController} (h : seatPlayer table player requestedSeat = .ok (seat, lifecycle, tournament)) :
    Seating table player requestedSeat seat lifecycle tournament := by
  unfold seatPlayer at h
  cases hseat : table.config.seatFor table.lifecycle requestedSeat with
  | none =>
    rw [hseat] at h
    cases h
  | some found =>
    rw [hseat] at h
    dsimp only at h
    rcases hjoin : table.lifecycle.join player found table.config.startingStack with ⟨result, joined⟩
    rw [hjoin] at h
    cases result with
    | error error => cases h
    | ok u =>
      dsimp only at h
      cases htournament : table.tournament with
      | none =>
        rw [htournament] at h
        cases h
        exact ⟨hseat, hjoin, fun _ => rfl, fun controller hc => (by rw [htournament] at hc; cases hc)⟩
      | some controller =>
        rw [htournament] at h
        dsimp only at h
        rcases hregister : controller.register ⟨player, found⟩ with ⟨result, entered⟩
        rw [hregister] at h
        cases result with
        | error error => cases h
        | ok u =>
          dsimp only at h
          by_cases hfull : entered.entrants.size = table.config.minPlayers
          · rw [if_pos hfull] at h
            rcases hstart : entered.start with ⟨result, started⟩
            rw [hstart] at h
            cases result with
            | error error => cases h
            | ok u =>
              cases h
              refine ⟨hseat, hjoin, fun hc => (by rw [htournament] at hc; cases hc), ?_⟩
              intro other hother
              rw [htournament] at hother
              cases hother
              exact ⟨entered, hregister, Or.inr ⟨started, hfull, hstart, rfl⟩⟩
          · rw [if_neg hfull] at h
            cases h
            refine ⟨hseat, hjoin, fun hc => (by rw [htournament] at hc; cases hc), ?_⟩
            intro other hother
            rw [htournament] at hother
            cases hother
            exact ⟨entered, hregister, Or.inl ⟨hfull, rfl⟩⟩

theorem join_leaves (hop : ∀ table, r.tables.find? tableId = some table → op = .join shuffle now session tableId requestedSeat ∨
      (∃ h accessCode, op = .joinOrWait h shuffle now session tableId requestedSeat accessCode ∧
        r.waitingSessions.find? session = none ∧ table.allows h accessCode = true)) :
    Leaves r op (r.join shuffle now session tableId requestedSeat).2 := by
  unfold join
  by_cases hrouted : r.sessions.contains session = true
  · rw [if_pos hrouted]
    exact .same op r
  rw [if_neg hrouted]
  unfold checkedNext
  by_cases hnext : r.nextPlayerId < u64Max
  · rw [if_pos hnext]
    dsimp only
    cases htable : r.tables.find? tableId with
    | none => exact .same op r
    | some table =>
      dsimp only
      by_cases hbusy : (table.runtime.isSome || table.lifecycle.state = .closed) = true
      · rw [if_pos hbusy]
        exact .same op r
      rw [if_neg hbusy]
      rw [Bool.or_eq_true, not_or, decide_eq_true_eq] at hbusy
      have hjoinable : Joinable r session tableId table :=
        ⟨by simpa [OrdMap.contains] using hrouted, hnext, htable, by simpa using hbusy.1, hbusy.2⟩
      unfold prepareJoin
      cases hseating : seatPlayer table ⟨r.nextPlayerId⟩ requestedSeat with
      | error error => exact .same op r
      | ok found =>
        obtain ⟨seat, lifecycle, tournament⟩ := found
        have hseated := seatPlayer_ok hseating
        dsimp only
        cases hready : readyToStart table.config lifecycle tournament with
        | false =>
          rw [if_neg (by simp)]
          exact .joined op shuffle now session tableId requestedSeat table seat lifecycle tournament (hop table htable) hjoinable
            hseated hready
        | true =>
          rw [if_pos rfl]
          cases hstart : startHand shuffle tableId table.config lifecycle (table.seatSessions.insert seat session)
            (blindsOf tournament)
            (fun _ => table.deterministicSeed) r.nextHandId stayConnected with
          | error error => exact .same op r
          | ok started =>
            exact .joinedAndStarted op shuffle now session tableId requestedSeat table seat lifecycle tournament started
              (hop table htable) hjoinable
              hseated hready hstart
  · rw [if_neg hnext]
    exact .same op r

theorem joinOrWait_leaves (h : Hashes) (accessCode : Option String) :
    Leaves r (.joinOrWait h shuffle now session tableId requestedSeat accessCode)
      (r.joinOrWaitWithAccess h shuffle now session tableId requestedSeat accessCode).2 := by
  unfold joinOrWaitWithAccess
  by_cases hknown : (r.sessions.contains session || r.waitingSessions.contains session) = true
  · rw [if_pos hknown]
    exact .same _ r
  rw [if_neg hknown]
  rw [Bool.or_eq_true, not_or] at hknown
  have hrouted : r.sessions.find? session = none := by simpa [OrdMap.contains] using hknown.1
  have hwaits : r.waitingSessions.find? session = none := by simpa [OrdMap.contains] using hknown.2
  cases htable : r.tables.find? tableId with
  | none => exact .same _ r
  | some table =>
    dsimp only
    split
    · exact .same _ r
    rename_i hallowed
    split
    · exact .same _ r
    split
    · exact .same _ r
    split
    · have hjoin := @join_leaves r shuffle now tableId session requestedSeat _ fun found hfound => by
        rw [htable] at hfound
        cases hfound
        exact Or.inr ⟨h, accessCode, rfl, hwaits, by simpa using hallowed⟩
      rcases hresult : r.join shuffle now session tableId requestedSeat with ⟨result, left⟩
      rw [hresult] at hjoin
      cases result with
      | error error => exact hjoin
      | ok outcome => exact hjoin
    split
    · exact .same _ r
    · rename_i hroom
      exact .queued h shuffle now session tableId requestedSeat accessCode table hrouted hwaits htable (by simpa using hallowed)
        (Nat.lt_of_not_le hroom)

theorem cancelWait_leaves : Leaves r op (r.cancelWait now session tableId).2 := by
  unfold cancelWait
  cases hroute : r.sessions.find? session with
  | none =>
    dsimp only
    split
    · exact .same op r
    rename_i hwaits
    cases htable : r.tables.find? tableId with
    | none => exact .same op r
    | some table => exact .unqueued op now session tableId table hroute (not_ne_iff.mp hwaits) htable
  | some route =>
    dsimp only
    cases htable : r.tables.find? tableId with
    | none => exact .same op r
    | some table =>
      dsimp only
      cases htournament : table.tournament with
      | none => exact .same op r
      | some controller =>
        dsimp only
        split
        · exact .same op r
        rename_i hlocked
        rw [Bool.or_eq_true, Bool.or_eq_true, not_or, not_or, decide_eq_true_eq, decide_eq_true_eq, not_ne_iff,
          not_ne_iff] at hlocked
        rcases hleave : table.lifecycle.requestLeave route.player with ⟨result, lifecycle⟩
        cases result with
        | error error => exact .same op r
        | ok u =>
          dsimp only
          rcases hunregister : controller.unregister route.player with ⟨result, left⟩
          cases result with
          | error error =>
            have hsame : left = controller := by
              unfold TournamentController.unregister at hunregister
              rw [if_neg (not_not_intro hlocked.2)] at hunregister
              cases hunregister
            dsimp only
            rw [hsame, ← htournament, putTable_same htable]
            exact .same op r
          | ok u =>
            exact .unregistered op now session tableId table route controller left lifecycle hroute hlocked.1.1 htable htournament
              (by simpa using hlocked.1.2) hlocked.2 hleave hunregister

theorem requestLeave_leaves : Leaves r (.requestLeave now session) (r.requestLeave now session).2 := by
  unfold requestLeave
  cases hroute : r.sessions.find? session with
  | none => exact .same _ r
  | some route =>
    dsimp only
    cases htable : r.tables.find? route.tableId with
    | none => exact .same _ r
    | some table =>
      dsimp only
      rcases hleave : table.lifecycle.requestLeave route.player with ⟨result, lifecycle⟩
      cases result with
      | error error =>
        dsimp only
        rw [TableLifecycle.requestTransition_refused hleave, putTable_same htable]
        exact .same _ r
      | ok u => exact .left now session route table lifecycle hroute htable hleave

/-! ## Hands and breaks -/

theorem tickBreak_some {table : RegisteredTable} {controller : TournamentController}
    (htable : r.tables.find? tableId = some table)
    (hc : table.tournament = some controller) : r.tickBreak now tableId =
      ((controller.tickBetweenHands (now - table.lastActivity)).status = .running && 2 ≤ table.lifecycle.eligibleCount,
        r.putTable tableId { table with
          tournament := some (controller.tickBetweenHands (now - table.lastActivity))
          lastActivity := now }) := by
  unfold tickBreak
  rw [htable]
  dsimp only
  rw [hc]

theorem resume_leaves : Leaves r (.resume shuffle now tableId) (r.resume shuffle now tableId).2 := by
  unfold resume
  by_cases hbreak : (r.tables.find? tableId).any onBreak = true
  · rw [if_pos hbreak]
    obtain ⟨table, htable, hon⟩ := (Option.any_eq_true _ _).mp hbreak
    unfold onBreak at hon
    rw [Bool.and_eq_true] at hon
    obtain ⟨controller, hc, hstatus⟩ := (Option.any_eq_true _ _).mp hon.2
    have hruntime : table.runtime = none := by simpa using hon.1
    rw [tickBreak_some htable hc]
    have hticked := Leaves.ticked shuffle now tableId table controller htable hruntime hc (of_decide_eq_true hstatus)
    cases hready : (controller.tickBetweenHands (now - table.lastActivity)).status =
      .running && 2 ≤ table.lifecycle.eligibleCount with
    | false => exact hticked
    | true =>
      rw [Bool.and_eq_true, decide_eq_true_eq, decide_eq_true_eq] at hready
      dsimp only
      unfold startWaitingTournamentHand
      have hfind : (r.putTable tableId { table with
          tournament := some (controller.tickBetweenHands (now - table.lastActivity))
          lastActivity := now }).tables.find? tableId = some { table with
            tournament := some (controller.tickBetweenHands (now - table.lastActivity))
            lastActivity := now } := OrdMap.find_insert_self
      rw [hfind]
      dsimp only
      cases hstart : startHand shuffle tableId table.config table.lifecycle table.seatSessions
          (controller.tickBetweenHands (now - table.lastActivity)).currentBlinds (seedForNumber table.deterministicSeed)
          r.nextHandId stayConnected with
      | error error =>
        rw [show startHand _ _ _ _ _ _ _ (r.putTable _ _).nextHandId _ = _ from hstart]
        exact hticked
      | ok started =>
        rw [show startHand _ _ _ _ _ _ _ (r.putTable _ _).nextHandId _ = _ from hstart]
        have hresumed := Leaves.resumed shuffle now tableId table controller started htable hruntime hc
            (of_decide_eq_true hstatus)
          hready.1 hready.2 hstart
        unfold putTable at hresumed ⊢
        dsimp only
        rw [OrdMap.insert_twice]
        exact hresumed
  · rw [if_neg hbreak]
    exact .same _ r

theorem finalizeSafeHistory_same (r : TableRegistry) (tableId : TableId) (handId : HandId) :
    SameTables r (r.finalizeSafeHistory tableId handId).2 := by
  unfold finalizeSafeHistory
  split
  · exact .refl r
  split
  · exact .refl r
  split
  · exact .refl r
  split
  · exact .refl r
  split
  · exact .refl r
  · exact ⟨rfl, rfl, rfl, rfl, rfl, rfl, rfl⟩

theorem serve_leaves (op : RuntimeOp) : Leaves r (.serve tableId op) (r.serve tableId op) := by
  unfold serve
  cases htable : r.tables.find? tableId with
  | none => exact .same _ r
  | some table => exact .served tableId op table htable

theorem apply_leaves (r : TableRegistry) (op : RegistryOp) : Leaves r op (op.apply r) := by
  cases op with
  | create h salt now config seed => exact create_leaves h salt now config seed
  | createTournament h salt now config seed => exact createTournament_leaves h salt now config seed
  | closeAndRemove tableId => exact closeAndRemove_leaves r tableId
  | expireInactive now idleFor => exact expireInactive_leaves now idleFor
  | join shuffle now session tableId requestedSeat => exact join_leaves fun _ _ => Or.inl rfl
  | joinOrWait h shuffle now session tableId requestedSeat accessCode => exact joinOrWait_leaves h accessCode
  | cancelWait now session tableId => exact cancelWait_leaves
  | cancelPendingRegistration now session =>
    show Leaves r _ (r.cancelPendingRegistration now session)
    unfold cancelPendingRegistration
    split
    · exact cancelWait_leaves
    · exact .same _ r
  | requestLeave now session => exact requestLeave_leaves
  | takeRetiredUpdate session => exact .aside _ _ ⟨rfl, rfl, rfl, rfl, rfl, rfl, rfl⟩
  | rollover shuffle now tableId handId =>
    exact .rolled shuffle now tableId handId _ _ (rollover_cases r shuffle now tableId handId)
  | resume shuffle now tableId => exact resume_leaves
  | finalizeSafeHistory tableId handId => exact .aside _ _ (finalizeSafeHistory_same r tableId handId)
  | issueReconnect h draws now principal =>
    refine .aside _ _ ?_
    show SameTables r (((r.issueReconnectCredential h draws now principal).map (·.2)).getD r)
    unfold issueReconnectCredential
    cases r.sessions.find? principal with
    | none => exact .refl r
    | some route =>
      dsimp only
      cases (r.credentials.revokePrincipal principal).issue h draws now principal ⟨route.tableId, .reconnect⟩ r.reconnectTtl with
      | none => exact .refl r
      | some issued => exact ⟨rfl, rfl, rfl, rfl, rfl, rfl, rfl⟩
  | rotateReconnect h draws now token =>
    refine .aside _ _ ?_
    show SameTables r (((r.authenticateAndRotateReconnect h draws now token).map (·.2)).getD r)
    unfold authenticateAndRotateReconnect
    cases r.credentials.authenticateAndRotate h draws now token .reconnect r.reconnectTtl with
    | none => exact .refl r
    | some issued => exact ⟨rfl, rfl, rfl, rfl, rfl, rfl, rfl⟩
  | identifyReconnect h now token => exact .aside _ _ ⟨rfl, rfl, rfl, rfl, rfl, rfl, rfl⟩
  | setReconnectTtl ttl =>
    refine .aside _ _ ?_
    show SameTables r (r.setReconnectTtl ttl).2
    unfold setReconnectTtl
    split
    · exact .refl r
    · exact ⟨rfl, rfl, rfl, rfl, rfl, rfl, rfl⟩
  | serve tableId op => exact serve_leaves op

end leaves

/-! ## The sweeps -/

theorem run_append (r : TableRegistry) (before after : List RegistryOp) : r.run (before ++ after) = (r.run before).run after :=
  List.foldl_append

/-- A sweep over the finished hands is, for each, its history taken and its rollover, up to the first refusal. -/
theorem finalizeHands_run (shuffle : Shuffle) (now : Nat) (ready : List (TableId × HandId)) (r : TableRegistry) :
    ∃ ops, (finalizeHands shuffle now ready r).2 = r.run ops ∧
      ops <+: ready.flatMap fun e => [.finalizeSafeHistory e.1 e.2, .rollover shuffle now e.1 e.2] := by
  induction ready generalizing r with
  | nil => exact ⟨[], rfl, List.nil_prefix⟩
  | cons e rest ih =>
    obtain ⟨tableId, handId⟩ := e
    rw [List.flatMap_cons]
    unfold finalizeHands
    rcases hhistory : r.finalizeSafeHistory tableId handId with ⟨result, recorded⟩
    have hrecorded : recorded = r.run [.finalizeSafeHistory tableId handId] := by
      show recorded = (r.finalizeSafeHistory tableId handId).2
      rw [hhistory]
    cases result with
    | error error => exact ⟨[.finalizeSafeHistory tableId handId], hrecorded, ⟨_, rfl⟩⟩
    | ok u =>
      dsimp only
      rcases hroll : recorded.rolloverCompletedHand shuffle now tableId handId with ⟨result, rolled⟩
      have hrolled : rolled = r.run [.finalizeSafeHistory tableId handId, .rollover shuffle now tableId handId] := by
        show rolled = (((r.finalizeSafeHistory tableId handId).2).rolloverCompletedHand shuffle now tableId handId).2
        rw [hhistory, hroll]
      cases result with
      | error error => exact ⟨_, hrolled, ⟨_, rfl⟩⟩
      | ok next =>
        obtain ⟨ops, hops, hsame⟩ := ih rolled
        refine ⟨[.finalizeSafeHistory tableId handId, .rollover shuffle now tableId handId] ++ ops, ?_, ?_⟩
        · rw [run_append, ← hrolled]
          exact hops
        · exact (List.prefix_append_right_inj _).mpr hsame

theorem resume_others {r : TableRegistry} {shuffle : Shuffle} {now : Nat} {tableId other : TableId} (h : other ≠ tableId) :
    (r.resume shuffle now tableId).2.tables.find? other = r.tables.find? other := by
  have htick : (r.tickBreak now tableId).2.tables.find? other = r.tables.find? other := by
    unfold tickBreak
    split
    · rfl
    split
    · rfl
    · exact OrdMap.find_insert_ne h
  unfold resume
  split
  · rcases hticked : r.tickBreak now tableId with ⟨ready, ticked⟩
    rw [hticked] at htick
    cases ready with
    | false => exact htick
    | true =>
      have hstart : (ticked.startWaitingTournamentHand shuffle now tableId).2.tables.find? other = ticked.tables.find? other := by
        unfold startWaitingTournamentHand
        split
        · rfl
        split
        · rfl
        split
        · rfl
        · exact OrdMap.find_insert_ne h
      dsimp only
      rcases hstarted : ticked.startWaitingTournamentHand shuffle now tableId with ⟨result, started⟩
      rw [hstarted] at hstart
      cases result with
      | error error => exact hstart.trans htick
      | ok handId => exact hstart.trans htick
  · rfl

/-- A sweep over the breaks is one `resume` for each table on its break, up to the first refusal. -/
theorem advanceBreaks_run (shuffle : Shuffle) (now : Nat) (ids : List TableId) (hn : ids.Nodup) (resumed : Nat)
    (r : TableRegistry)
    (hbreak : ∀ id ∈ ids, (r.tables.find? id).any onBreak = true) :
    ∃ ops, (advanceBreaks shuffle now ids resumed r).2 = r.run ops ∧ ops <+: ids.map (RegistryOp.resume shuffle now) := by
  induction ids generalizing r resumed with
  | nil => exact ⟨[], rfl, List.nil_prefix⟩
  | cons id rest ih =>
    obtain ⟨hnew, hrest⟩ := List.nodup_cons.mp hn
    have hkeep : ∀ other ∈ rest, ((r.resume shuffle now id).2.tables.find? other).any onBreak = true := by
      intro other hother
      rw [resume_others]
      · exact hbreak other (List.mem_cons_of_mem _ hother)
      · rintro rfl
        exact hnew hother
    have hturn : ∀ n, ∃ ops, (advanceBreaks shuffle now rest n (r.resume shuffle now id).2).2 =
        r.run (.resume shuffle now id :: ops) ∧
          (.resume shuffle now id :: ops) <+: (id :: rest).map (RegistryOp.resume shuffle now) := by
      intro n
      obtain ⟨ops, hops, hsame⟩ := ih hrest n (r.resume shuffle now id).2 hkeep
      exact ⟨ops, hops, (List.prefix_cons_inj _).mpr hsame⟩
    have hresume : r.resume shuffle now id =
        match r.tickBreak now id with
        | (false, r) => (.ok false, r)
        | (true, r) =>
          match r.startWaitingTournamentHand shuffle now id with
          | (.error error, r) => (.error error, r)
          | (.ok _, r) => (.ok true, r) := by
      unfold resume
      rw [if_pos (hbreak id List.mem_cons_self)]
    unfold advanceBreaks
    rcases hticked : r.tickBreak now id with ⟨ready, ticked⟩
    rw [hticked] at hresume
    cases ready with
    | false =>
      dsimp only at hresume
      rw [hresume] at hturn
      obtain ⟨ops, hops, hsame⟩ := hturn resumed
      exact ⟨_, hops, hsame⟩
    | true =>
      dsimp only at hresume ⊢
      rcases hstarted : ticked.startWaitingTournamentHand shuffle now id with ⟨result, started⟩
      rw [hstarted] at hresume
      cases result with
      | error error =>
        refine ⟨[.resume shuffle now id], ?_, (List.prefix_cons_inj _).mpr List.nil_prefix⟩
        show started = (r.resume shuffle now id).2
        rw [hresume]
      | ok handId =>
        rw [hresume] at hturn
        obtain ⟨ops, hops, hsame⟩ := hturn (resumed + 1)
        exact ⟨_, hops, hsame⟩

end TableRegistry

end OpenFelt
