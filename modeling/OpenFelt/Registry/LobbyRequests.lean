/-
  OpenFelt.Registry.LobbyRequests — what a session in the lobby may ask
  (`apply_lobby_request` of `src/network_server.rs`; `list`, `health`, `inspect_with_access`,
  `admission_status` and `route_for_session` of `src/table_registry.rs`; `src/lobby.rs`).

  Translation. A request takes the registry, and the next offset of the deterministic
  seeds, to its answer and those left; its context is what the calls it makes read or draw.
  A route's handle is its table's runtime and is left out, as are of `health` the counters
  and the times of the checkpoints, and the texts in which a refusal is sent.
  `admission_status` panics where a session of the index has no place in the queue, or one
  that does not fit a byte; a panic is `none` here.
  - `lobby_answers`: while the index is right (`Indexed`, which every request keeps) no
    request panics; a refused one changes nothing in the registry; an answered one does one
    call for its own session, and the answer says what that call left. A queue gets the
    session behind it or loses it, and keeps its order.
-/

import OpenFelt.Registry.Checkpoints
import OpenFelt.Registry.Indexed

namespace OpenFelt

def lobbyProtocolVersion : Nat := 2

def maxLobbyRequestIdBytes : Nat := 64

inductive LobbyRequest where
  | create (config : PublicTableConfig)
  | createTournament (config : TournamentConfig)
  | list (filter : PublicTableFilter)
  | inspect (tableId : TableId) (accessCode : Option String)
  | join (tableId : TableId) (seat : Option SeatId) (accessCode : Option String)
  | joinStatus
  | cancelWait (tableId : TableId)
  | health

structure LobbyEnvelope where
  version : Nat
  requestId : String
  payload : LobbyRequest

structure TableHealthSummary where
  tableId : TableId
  status : TableRunState
  handId : Option HandId
  occupied : Nat
  waiting : Nat
  streamSequence : Nat
  deriving DecidableEq, Repr

structure RegistryHealth where
  healthy : Bool
  lobbyRevision : Nat
  tableCapacity : Nat
  tables : Nat
  routedSessions : Nat
  waitingSessions : Nat
  activeCapabilities : Nat
  capabilityCapacity : Nat
  retainedSafeHistories : Nat
  checkpointVersion : Nat
  recoveryBoundary : String
  tableHealth : List TableHealthSummary
  deriving DecidableEq, Repr

inductive LobbyResult where
  | tables (tables : List PublicTableSummary)
  | table (table : PublicTableSummary)
  | joined (table : PublicTableSummary) (seat : SeatId) (handId : Option HandId) (ready : Bool)
  | waiting (table : PublicTableSummary) (position : Nat)
  | waitCancelled (tableId : TableId)
  | health (health : RegistryHealth)
  deriving DecidableEq, Repr

structure LobbyResponse where
  version : Nat
  requestId : String
  lobbyRevision : Nat
  result : LobbyResult
  deriving DecidableEq, Repr

structure TableRoute where
  tableId : TableId
  handId : Option HandId
  seat : SeatId
  deriving DecidableEq, Repr

/-! ## Reading the registry -/

namespace TableRegistry

variable (r : TableRegistry)

def listed (table : RegisteredTable) : Bool :=
  match table.config.visibility with
  | .publicTable | .passwordProtected => true
  | .unlisted | .privateTable => false

def list (filter : PublicTableFilter) : List PublicTableSummary :=
  ((r.tables.entries.filter fun entry => listed entry.2).map fun entry => entry.2.summary entry.1).filter filter.admits

def inspectWithAccess (h : Hashes) (tableId : TableId) (accessCode : Option String) :
    Except TableRegistryError PublicTableSummary :=
  match r.tables.find? tableId with
  | none => .error (unknownTable tableId)
  | some table => if table.allows h accessCode then .ok (table.summary tableId) else .error (unknownTable tableId)

def health : RegistryHealth where
  healthy := true
  lobbyRevision := r.revision
  tableCapacity := r.maxTables
  tables := r.tables.size
  routedSessions := r.sessions.size
  waitingSessions := r.waitingSessions.size
  activeCapabilities := r.credentials.entries.size
  capabilityCapacity := defaultCredentialCapacity
  retainedSafeHistories := r.history.histories.length
  checkpointVersion := registryCheckpointVersion
  recoveryBoundary := "latest_validated_between_hand_checkpoint"
  tableHealth := r.tables.entries.map fun entry =>
    let summary := entry.2.summary entry.1
    ⟨entry.1, summary.status, entry.2.handId, summary.occupied, summary.waiting,
      (entry.2.runtime.map (·.streamSequence)).getD 0⟩

def notJoined : TableRegistryError := ⟨.sessionNotRouted, "guest session has not joined a table"⟩

def joinStatus (session : GuestSessionId) : Except TableRegistryError JoinOutcome :=
  match r.sessions.find? session with
  | none => .error notJoined
  | some route =>
    match r.tables.find? route.tableId with
    | none => .error (unknownTable route.tableId)
    | some table => .ok ⟨table.summary route.tableId, route.seat, table.handId, table.runtime.isSome⟩

/-- The source expects a session of the index in the queue, at a place that fits a byte. -/
def admissionStatus (session : GuestSessionId) : Option (Except TableRegistryError AdmissionOutcome) :=
  if r.sessions.contains session then some ((r.joinStatus session).map .joined)
  else
    match r.waitingSessions.find? session with
    | none => some (.error ⟨.sessionNotRouted, "guest session has not joined or queued"⟩)
    | some tableId =>
      match r.tables.find? tableId with
      | none => some (.error (unknownTable tableId))
      | some table =>
        match table.waiting.findIdx? fun entry => entry.session = session with
        | none => none
        | some position => if position + 1 < 256 then some (.ok (.waiting ⟨table.summary tableId, position + 1⟩)) else none

def route (session : GuestSessionId) (requestedTable : TableId) : Except TableRegistryError TableRoute :=
  match r.sessions.find? session with
  | none => .error notJoined
  | some binding =>
    if binding.tableId ≠ requestedTable then .error ⟨.wrongTable, "guest session is bound to a different table"⟩
    else
      match r.tables.find? binding.tableId with
      | none => .error (unknownTable binding.tableId)
      | some table =>
        if table.runtime.isSome then .ok ⟨binding.tableId, table.handId, binding.seat⟩
        else .error ⟨.tableNotReady, "table is waiting for enough eligible players"⟩

def routeForSession (session : GuestSessionId) : Except TableRegistryError TableRoute :=
  match r.sessions.find? session with
  | none => .error notJoined
  | some route => r.route session route.tableId

end TableRegistry

/-! ## Requests -/

/-- What the calls of a request read or draw. -/
structure LobbyContext where
  hashes : Hashes
  salt : List UInt8
  shuffle : Shuffle
  now : Nat
  deterministicSeedBase : Option Nat

/-- The seed of a new table, and the next offset. -/
def LobbyContext.seed (context : LobbyContext) (offset : Nat) : Option Nat × Nat :=
  match context.deterministicSeedBase with
  | none => (none, offset)
  | some base => (some (saturatingAdd64 base offset), (offset + 1) % 2 ^ 64)

def admissionResult : AdmissionOutcome → LobbyResult
  | .joined joined => .joined joined.table joined.seat joined.handId joined.ready
  | .waiting waiting => .waiting waiting.table waiting.position

def requestIdValid (requestId : String) : Bool :=
  !requestId.isEmpty && requestId.utf8ByteSize ≤ maxLobbyRequestIdBytes && requestId.toList.all idCharacter

namespace TableRegistry

/-- The call that a payload asks for. -/
def lobbyResult (r : TableRegistry) (context : LobbyContext) (offset : Nat) (guest : GuestSessionId) :
    LobbyRequest → Option (Except TableRegistryError LobbyResult × TableRegistry × Nat)
  | .create config =>
    let (seed, offset) := context.seed offset
    let (result, r) := r.create context.hashes context.salt context.now config seed
    some (result.map .table, r, offset)
  | .createTournament config =>
    let (seed, offset) := context.seed offset
    let (result, r) := r.createTournament context.hashes context.salt context.now config seed
    some (result.map .table, r, offset)
  | .list filter => some (.ok (.tables (r.list filter)), r, offset)
  | .inspect tableId accessCode => some ((r.inspectWithAccess context.hashes tableId accessCode).map .table, r, offset)
  | .join tableId seat accessCode =>
    let (result, r) := r.joinOrWaitWithAccess context.hashes context.shuffle context.now guest tableId seat accessCode
    some (result.map admissionResult, r, offset)
  | .joinStatus => (r.admissionStatus guest).map fun result => (result.map admissionResult, r, offset)
  | .cancelWait tableId =>
    let (result, r) := r.cancelWait context.now guest tableId
    some (result.map fun _ => .waitCancelled tableId, r, offset)
  | .health => some (.ok (.health r.health), r, offset)

/-- The route of a session whose table has a hand. -/
def routeAfter (r : TableRegistry) (guest : GuestSessionId) :
    LobbyResult → Except TableRegistryError (Option TableRoute)
  | .joined _ _ _ true => (r.routeForSession guest).map some
  | .joined _ _ _ false | .tables _ | .table _ | .waiting _ _ | .waitCancelled _ | .health _ => .ok none

def applyLobbyRequest (r : TableRegistry) (context : LobbyContext) (offset : Nat) (guest : GuestSessionId)
    (request : LobbyEnvelope) : Option (Except TableRegistryError (LobbyResponse × Option TableRoute) × TableRegistry × Nat) :=
  if request.version ≠ lobbyProtocolVersion then
    some (.error ⟨.unsupportedVersion, "server supports only lobby protocol version 2"⟩, r, offset)
  else if !requestIdValid request.requestId then some (.error ⟨.invalidRequestId, "lobby request ID is invalid"⟩, r, offset)
  else
    match r.lobbyResult context offset guest request.payload with
    | none => none
    | some (.error error, r, offset) => some (.error error, r, offset)
    | some (.ok result, r, offset) =>
      let response := LobbyResponse.mk lobbyProtocolVersion request.requestId r.revision result
      some ((r.routeAfter guest result).map fun route => (response, route), r, offset)

section calls
variable {r r' : TableRegistry} {shuffle : Shuffle} {now : Nat} {tableId : TableId} {session : GuestSessionId}
  {requestedSeat : Option SeatId}

/-! ## What the calls leave of the session, and of others -/

/-- The queue of a table. -/
def queueOf (r : TableRegistry) (tableId : TableId) : List GuestSessionId := ((r.tables.find? tableId).map (·.queue)).getD []

/-- A session at its seat, as an outcome tells it. -/
structure SeatedAs (r : TableRegistry) (session : GuestSessionId) (outcome : JoinOutcome) : Prop where
  found : ∃ binding table, r.sessions.find? session = some binding ∧ r.tables.find? binding.tableId = some table ∧
    outcome = ⟨table.summary binding.tableId, binding.seat, table.handId, table.runtime.isSome⟩

/-- A session in a queue, as an outcome tells it: its table, and a place it has there. -/
structure WaitsAs (r : TableRegistry) (session : GuestSessionId) (outcome : WaitOutcome) : Prop where
  found : ∃ tableId table place, r.waitingSessions.find? session = some tableId ∧ r.tables.find? tableId = some table ∧
    table.queue[place]? = some session ∧ outcome = ⟨table.summary tableId, place + 1⟩

/-- The other sessions have the seats they had, and stand in the queues in the order they stood in. -/
structure LeavesOthers (r : TableRegistry) (session : GuestSessionId) (r' : TableRegistry) : Prop where
  sessions : ∀ x, x ≠ session → r'.sessions.find? x = r.sessions.find? x
  waiting : ∀ x, x ≠ session → r'.waitingSessions.find? x = r.waitingSessions.find? x
  queues : ∀ tableId, (r'.queueOf tableId).filter (· ≠ session) = (r.queueOf tableId).filter (· ≠ session)

theorem LeavesOthers.refl (r : TableRegistry) (session : GuestSessionId) : LeavesOthers r session r :=
  ⟨fun _ _ => rfl, fun _ _ => rfl, fun _ => rfl⟩

theorem queueOf_congr (h : r'.tables = r.tables) (id : TableId) : r'.queueOf id = r.queueOf id := by
  rw [queueOf, h, queueOf]

theorem queueOf_find {table : RegisteredTable} (h : r.tables.find? tableId = some table) : r.queueOf tableId = table.queue := by
  rw [queueOf, h]
  rfl

/-- One table is put. -/
theorem queueOf_insert {table : RegisteredTable} (h : r'.tables = r.tables.insert tableId table) (id : TableId) :
    r'.queueOf id = if id = tableId then table.queue else r.queueOf id := by
  rw [queueOf, h, OrdMap.find_insert]
  split
  · rfl
  · rfl

/-- One table is put in the place of another with the same queue. -/
theorem queueOf_kept {table table' : RegisteredTable} (htable : r.tables.find? tableId = some table)
    (h : r'.tables = r.tables.insert tableId table') (hwaiting : table'.waiting = table.waiting) (id : TableId) :
    r'.queueOf id = r.queueOf id := by
  rw [queueOf_insert h]
  split
  · rename_i he
    rw [he, queueOf_find htable, RegisteredTable.queue, hwaiting]
    rfl
  · rfl

theorem prepareJoin_waiting {table table' : RegisteredTable} {player : PlayerId} {seat : SeatId} {nextHandId : Nat}
    (h : r.prepareJoin shuffle now tableId table player session requestedSeat = .ok (seat, table', nextHandId)) :
    table'.waiting = table.waiting := by
  unfold prepareJoin at h
  split at h
  · cases h
  dsimp only at h
  split at h
  · split at h
    · cases h
    · cases h
      rfl
  · cases h
    rfl

theorem join_seats {outcome : JoinOutcome} (h : r.join shuffle now session tableId requestedSeat = (.ok outcome, r')) :
    SeatedAs r' session outcome ∧ LeavesOthers r session r' ∧ outcome.table.tableId = tableId ∧
      ∀ id, r'.queueOf id = r.queueOf id := by
  unfold join at h
  split at h
  · cases h
  dsimp only at h
  split at h
  · cases h
  split at h
  · cases h
  rename_i before htable
  split at h
  · cases h
  split at h
  · cases h
  rename_i seat table nextHandId hjoin
  obtain ⟨ho, hr⟩ := Prod.mk.inj h
  cases ho
  cases hr
  have hwaiting := prepareJoin_waiting hjoin
  refine ⟨⟨⟨tableId, ⟨r.nextPlayerId⟩, seat⟩, table, ?_, ?_, rfl⟩, ⟨fun x hx => ?_, fun _ _ => rfl, fun id => ?_⟩,
    rfl, fun id => ?_⟩
  · exact OrdMap.find_insert_self
  · exact OrdMap.find_insert_self
  · exact OrdMap.find_insert_ne hx
  · exact congrArg (List.filter _) (queueOf_kept htable rfl hwaiting id)
  · exact queueOf_kept htable rfl hwaiting id

/-- A session that waits stands behind the others. -/
structure Enqueued (r : TableRegistry) (session : GuestSessionId) (tableId : TableId) (waiting : WaitOutcome)
    (r' : TableRegistry) :
    Prop where
  waits : WaitsAs r' session waiting
  table : waiting.table.tableId = tableId
  last : waiting.position = waiting.table.waiting
  queues : ∀ id, r'.queueOf id = if id = tableId then r.queueOf id ++ [session] else r.queueOf id

theorem Enqueued.others {waiting : WaitOutcome} (h : Enqueued r session tableId waiting r') (id : TableId) :
    (r'.queueOf id).filter (· ≠ session) = (r.queueOf id).filter (· ≠ session) := by
  rw [h.queues]
  split
  · simp [List.filter_append]
  · rfl

theorem enqueued {table table' : RegisteredTable} (requestedSeat : Option SeatId) (htable : r.tables.find? tableId = some table)
    (htables : r'.tables = r.tables.insert tableId table') (hindex : r'.waitingSessions.find? session = some tableId)
    (hwaiting : table'.waiting = table.waiting ++ [⟨session, requestedSeat⟩]) :
    Enqueued r session tableId ⟨table'.summary tableId, table'.waiting.length⟩ r' := by
  have hqueue : table'.queue = table.queue ++ [session] := by
    rw [RegisteredTable.queue, hwaiting, List.map_append]
    rfl
  have hlength : table'.waiting.length = table.waiting.length + 1 := by rw [hwaiting, List.length_append, List.length_singleton]
  refine ⟨⟨tableId, table', table.waiting.length, hindex, ?_, ?_, ?_⟩, rfl, rfl, fun id => ?_⟩
  · rw [htables, OrdMap.find_insert_self]
  · rw [hqueue]
    simp [RegisteredTable.queue]
  · rw [hlength]
  · rw [queueOf_insert htables, hqueue]
    split
    · rename_i he
      rw [he, queueOf_find htable]
    · rfl

/-- A session that joins is seated, or waits at the end of the queue. -/
theorem joinOrWait_enters {hashes : Hashes} {accessCode : Option String} {outcome : AdmissionOutcome}
    (h : r.joinOrWaitWithAccess hashes shuffle now session tableId requestedSeat accessCode = (.ok outcome, r')) :
    LeavesOthers r session r' ∧
      (∀ joined, outcome = .joined joined → SeatedAs r' session joined ∧ joined.table.tableId = tableId ∧
        ∀ id, r'.queueOf id = r.queueOf id) ∧
      ∀ waiting, outcome = .waiting waiting → Enqueued r session tableId waiting r' := by
  unfold joinOrWaitWithAccess at h
  split at h
  · cases h
  split at h
  · cases h
  rename_i table htable
  split at h
  · cases h
  split at h
  · cases h
  split at h
  · cases h
  dsimp only at h
  split at h
  · split at h
    · cases h
    · rename_i joined left hjoin
      cases h
      obtain ⟨hseated, hothers, hid, hqueues⟩ := join_seats hjoin
      exact ⟨hothers, (fun _ he => by cases he; exact ⟨hseated, hid, hqueues⟩), fun _ he => by cases he⟩
  split at h
  · cases h
  · have henqueued : ∃ waiting, outcome = .waiting waiting ∧ Enqueued r session tableId waiting r' := by
      obtain ⟨ho, hr⟩ := Prod.mk.inj h
      cases ho
      cases hr
      exact ⟨_, rfl, enqueued requestedSeat htable rfl OrdMap.find_insert_self rfl⟩
    obtain ⟨waiting, rfl, henqueued⟩ := henqueued
    refine ⟨⟨fun _ _ => ?_, fun x hx => ?_, henqueued.others⟩, (fun _ he => by cases he),
      fun _ he => by cases he; exact henqueued⟩
    · cases h
      rfl
    · cases h
      exact OrdMap.find_insert_ne hx

/-- Who waits gives up the place in the queue, and an entrant of a tournament the seat. -/
theorem cancelWait_cases (r : TableRegistry) (now : Nat) (session : GuestSessionId) (tableId : TableId) :
    (∃ error, r.cancelWait now session tableId = (.error error, r)) ∨
    (∃ table, r.sessions.find? session = none ∧ r.tables.find? tableId = some table ∧ r.cancelWait now session tableId =
      (.ok (), ({ r with waitingSessions := r.waitingSessions.erase session }.putTable tableId { table with
        waiting := table.waiting.filter fun entry => entry.session ≠ session
        lastActivity := now }).bumpRevision)) ∨
    ∃ route table table' r', r.sessions.find? session = some route ∧ r.tables.find? tableId = some table ∧
      r.cancelWait now session tableId = (.ok (), r') ∧ r'.tables = r.tables.insert tableId table' ∧
      table'.waiting = table.waiting ∧ r'.sessions = r.sessions.erase session ∧ r'.waitingSessions = r.waitingSessions := by
  rcases hcancel : r.cancelWait now session tableId with ⟨result, r'⟩
  cases result with
  | error error => exact Or.inl ⟨error, by rw [cancelWait_unchanged hcancel]⟩
  | ok u =>
    refine Or.inr ?_
    unfold cancelWait at hcancel
    split at hcancel
    · rename_i route hroute
      refine Or.inr ?_
      split at hcancel
      · cases hcancel
      rename_i table htable
      split at hcancel
      · cases hcancel
      split at hcancel
      · cases hcancel
      split at hcancel
      · cases hcancel
      split at hcancel
      · cases hcancel
      · cases hcancel
        exact ⟨route, table, _, _, hroute, htable, rfl, rfl, rfl, rfl, rfl⟩
    · rename_i hroute
      split at hcancel
      · cases hcancel
      split at hcancel
      · cases hcancel
      · rename_i table htable
        cases hcancel
        exact Or.inl ⟨table, hroute, htable, rfl⟩

theorem cancelWait_queues (h : r.cancelWait now session tableId = (.ok (), r')) (id : TableId) : r'.queueOf id =
    if id = tableId ∧ r.sessions.find? session = none then (r.queueOf id).filter (· ≠ session) else r.queueOf id := by
  rcases r.cancelWait_cases now session tableId with ⟨error, he⟩ | ⟨table, hroute, htable, he⟩ |
    ⟨route, table, table', left, hroute, htable, he, htables, hwaiting, _⟩
  · rw [h] at he
    cases he
  · rw [h] at he
    cases he
    refine (queueOf_insert rfl id).trans ?_
    by_cases hid : id = tableId
    · rw [if_pos hid, if_pos ⟨hid, hroute⟩, hid, queueOf_find htable, RegisteredTable.queue, RegisteredTable.queue,
        List.filter_map]
      rfl
    · rw [if_neg hid, if_neg fun hboth => hid hboth.1]
      exact queueOf_congr rfl id
  · rw [h] at he
    cases he
    rw [hroute, if_neg (by simp)]
    exact queueOf_kept htable htables hwaiting id

theorem cancelWait_others (r : TableRegistry) (now : Nat) (session : GuestSessionId) (tableId : TableId) :
    LeavesOthers r session (r.cancelWait now session tableId).2 := by
  rcases r.cancelWait_cases now session tableId with ⟨error, he⟩ | ⟨table, _, _, he⟩ |
    ⟨route, table, table', left, hroute, htable, he, htables, hwaiting, hsessions, hindex⟩
  · rw [he]
    exact .refl r session
  · refine ⟨fun _ _ => by rw [he]; rfl, fun x hx => by rw [he]; exact OrdMap.find_erase_ne hx, fun id => ?_⟩
    rw [he, cancelWait_queues he]
    split
    · simp [List.filter_filter]
    · rfl
  · rw [he]
    refine ⟨fun x hx => by rw [hsessions]; exact OrdMap.find_erase_ne hx, fun x _ => by rw [hindex], fun id => ?_⟩
    rw [queueOf_kept htable htables hwaiting]

/-- A new table has a name nobody waits under, and nobody waits for it. -/
theorem create_spec (hi : r.Indexed) (h : Hashes) (salt : List UInt8) (now : Nat) (config : PublicTableConfig)
    (seed : Option Nat) :
    (∀ error, (r.create h salt now config seed).1 = .error error → (r.create h salt now config seed).2 = r) ∧
      (∀ session, LeavesOthers r session (r.create h salt now config seed).2) ∧
      ∀ id, (r.create h salt now config seed).2.queueOf id = r.queueOf id := by
  have hsame : (∀ session, LeavesOthers r session r) ∧ ∀ id, r.queueOf id = r.queueOf id := ⟨LeavesOthers.refl r, fun _ => rfl⟩
  unfold create
  split
  · exact ⟨fun _ _ => rfl, hsame⟩
  split
  · exact ⟨fun _ _ => rfl, hsame⟩
  split
  · exact ⟨fun _ _ => rfl, hsame⟩
  · have hfresh : r.queueOf ⟨r.nextTableId⟩ = [] := by
      rw [queueOf]
      cases hfind : r.tables.find? ⟨r.nextTableId⟩ with
      | none => rfl
      | some table => exact absurd (hi.fresh _ table hfind) (Nat.lt_irrefl _)
    have hqueues : ∀ table : RegisteredTable, table.waiting = [] → ∀ left : TableRegistry,
        left.tables = r.tables.insert ⟨r.nextTableId⟩ table → ∀ id, left.queueOf id = r.queueOf id := by
      intro table hempty left hleft id
      rw [queueOf_insert hleft, RegisteredTable.queue, hempty]
      split
      · rename_i hid
        rw [hid, hfresh]
        rfl
      · rfl
    refine ⟨(fun _ he => by cases he), fun _ => ⟨fun _ _ => rfl, fun _ _ => rfl, fun id => ?_⟩, fun id => ?_⟩
    · exact congrArg (List.filter _) (hqueues _ rfl _ rfl id)
    · exact hqueues _ rfl _ rfl id

theorem createTournament_spec (hi : r.Indexed) (h : Hashes) (salt : List UInt8) (now : Nat) (config : TournamentConfig)
    (seed : Option Nat) :
    (∀ error, (r.createTournament h salt now config seed).1 = .error error →
      (r.createTournament h salt now config seed).2 = r) ∧
      (∀ session, LeavesOthers r session (r.createTournament h salt now config seed).2) ∧
      ∀ id, (r.createTournament h salt now config seed).2.queueOf id = r.queueOf id := by
  have hsame : (∀ session, LeavesOthers r session r) ∧ ∀ id, r.queueOf id = r.queueOf id := ⟨LeavesOthers.refl r, fun _ => rfl⟩
  unfold createTournament
  split
  · exact ⟨fun _ _ => rfl, hsame⟩
  split
  · exact ⟨fun _ _ => rfl, hsame⟩
  dsimp only
  generalize hconfig : PublicTableConfig.mk _ _ _ _ _ _ = tableConfig
  have hspec := create_spec hi h salt now tableConfig seed
  rcases hcreate : r.create h salt now tableConfig seed with ⟨result, r'⟩
  rw [hcreate] at hspec
  obtain ⟨hrefused, hothers, hqueues⟩ := hspec
  cases result with
  | error error => exact ⟨fun _ _ => hrefused error rfl, hothers, hqueues⟩
  | ok summary =>
    dsimp only
    split
    · exact ⟨fun _ he => (by cases he), hothers, hqueues⟩
    · rename_i table htable
      have hkept : ∀ controller : TournamentController, ∀ id,
          (r'.putTable summary.tableId { table with tournament := some controller }).queueOf id = r'.queueOf id :=
        fun controller id => queueOf_kept htable
          (show _ = r'.tables.insert summary.tableId { table with tournament := some controller }
          from rfl) rfl id
      refine ⟨fun _ he => (by cases he), fun session => ⟨(hothers session).sessions, (hothers session).waiting, fun id => ?_⟩,
        fun id => (hkept _ id).trans (hqueues id)⟩
      rw [hkept]
      exact (hothers session).queues id

/-- Whoever waits is found in the queue, and told its first place there. -/
theorem Indexed.told (hi : r.Indexed) (h : r.waitingSessions.find? session = some tableId) : ∃ table position,
    r.tables.find? tableId = some table ∧ table.queue[position]? = some session ∧
      (∀ place, place < position → table.queue[place]? ≠ some session) ∧
      r.admissionStatus session = some (.ok (.waiting ⟨table.summary tableId, position + 1⟩)) := by
  obtain ⟨table, htable, hmem⟩ := hi.queued session tableId h
  obtain ⟨entry, hentry, hsession⟩ := List.mem_map.mp hmem
  cases hfound : table.waiting.findIdx? fun entry => decide (entry.session = session) with
  | none =>
    rw [List.findIdx?_eq_none_iff] at hfound
    have hnot := hfound entry hentry
    simp [hsession] at hnot
  | some position =>
    obtain ⟨hlt, hat, hbefore⟩ := List.findIdx?_eq_some_iff_getElem.mp hfound
    have hfits : position + 1 < 256 := by
      have hbounded := hi.bounded tableId table htable
      unfold maxTableWaitingEntries at hbounded
      omega
    refine ⟨table, position, htable, ?_, fun place hplace => ?_, ?_⟩
    · rw [RegisteredTable.queue, List.getElem?_map, List.getElem?_eq_getElem hlt, Option.map_some]
      simpa using hat
    · rw [RegisteredTable.queue, List.getElem?_map, List.getElem?_eq_getElem (hplace.trans hlt), Option.map_some]
      simpa using hbefore place hplace
    · rw [admissionStatus, if_neg (by simp [OrdMap.contains, hi.unrouted session tableId h]), h]
      dsimp only
      rw [htable]
      dsimp only
      rw [hfound]
      dsimp only
      rw [if_pos hfits]

theorem admissionStatus_tells (hi : r.Indexed) (session : GuestSessionId) : ∃ result, r.admissionStatus session = some result ∧
    ∀ outcome, result = .ok outcome → (∀ joined, outcome = .joined joined → SeatedAs r session joined) ∧
      ∀ waiting, outcome = .waiting waiting → WaitsAs r session waiting ∧
        ∀ place, place + 1 < waiting.position → (r.queueOf waiting.table.tableId)[place]? ≠ some session := by
  cases hwaits : r.waitingSessions.find? session with
  | some tableId =>
    obtain ⟨table, position, htable, hplace, hfirst, hstatus⟩ := hi.told hwaits
    refine ⟨_, hstatus, fun outcome h => ?_⟩
    cases h
    refine ⟨(fun _ he => by cases he), fun waiting he => ?_⟩
    cases he
    refine ⟨⟨tableId, table, position, hwaits, htable, hplace, rfl⟩, fun place hbefore => ?_⟩
    show (r.queueOf tableId)[place]? ≠ some session
    rw [queueOf_find htable]
    exact hfirst place (Nat.lt_of_succ_lt_succ hbefore)
  | none =>
    unfold admissionStatus joinStatus
    rw [hwaits]
    split
    · refine ⟨_, rfl, fun outcome h => ?_⟩
      cases hfind : r.sessions.find? session with
      | none => rw [hfind] at h; cases h
      | some binding =>
        rw [hfind] at h
        dsimp only at h
        split at h
        · cases h
        · rename_i table htable
          cases h
          refine ⟨fun joined he => ?_, fun _ he => by cases he⟩
          cases he
          exact ⟨⟨binding, table, hfind, htable, rfl⟩⟩
    · exact ⟨_, rfl, fun _ h => by cases h⟩

/-- A session at a seat of a table with a hand has its route there. -/
theorem SeatedAs.routes {outcome : JoinOutcome} (h : SeatedAs r session outcome) (hready : outcome.ready = true) :
    r.routeForSession session = .ok ⟨outcome.table.tableId, outcome.handId, outcome.seat⟩ := by
  obtain ⟨binding, table, hfind, htable, rfl⟩ := h.found
  unfold routeForSession route
  rw [hfind]
  dsimp only
  rw [if_neg (not_not_intro rfl), htable]
  dsimp only
  rw [if_pos (show table.runtime.isSome = true from hready)]
  rfl

end calls

/-! ## What a request is answered -/

/-- The call a request makes on the registry. -/
def lobbyOp (context : LobbyContext) (offset : Nat) (guest : GuestSessionId) : LobbyRequest → Option RegistryOp
  | .create config => some (.create context.hashes context.salt context.now config (context.seed offset).1)
  | .createTournament config => some (.createTournament context.hashes context.salt context.now config (context.seed offset).1)
  | .join tableId seat accessCode =>
    some (.joinOrWait context.hashes context.shuffle context.now guest tableId seat accessCode)
  | .cancelWait tableId => some (.cancelWait context.now guest tableId)
  | .list _ | .inspect _ _ | .joinStatus | .health => none

/-- The registry after the call. -/
def after (r : TableRegistry) (context : LobbyContext) (offset : Nat) (guest : GuestSessionId) (payload : LobbyRequest) :
    TableRegistry :=
  ((lobbyOp context offset guest payload).map (·.apply r)).getD r

/-- A queue after the answer: who is told to wait stands behind, who gave up waiting is out of it. -/
def queueAfter (r : TableRegistry) (guest : GuestSessionId) (tableId : TableId) : LobbyRequest → LobbyResult → List GuestSessionId
  | .join joined _ _, .waiting _ _ => if tableId = joined then r.queueOf tableId ++ [guest] else r.queueOf tableId
  | .cancelWait left, _ =>
    if tableId = left ∧ r.sessions.find? guest = none then (r.queueOf tableId).filter (· ≠ guest) else r.queueOf tableId
  | _, _ => r.queueOf tableId

/-- The results that are an answer to a request. -/
inductive Suits : LobbyRequest → LobbyResult → Prop
  | created (config : PublicTableConfig) (table : PublicTableSummary) : Suits (.create config) (.table table)
  | founded (config : TournamentConfig) (table : PublicTableSummary) : Suits (.createTournament config) (.table table)
  | listed (filter : PublicTableFilter) (tables : List PublicTableSummary) : Suits (.list filter) (.tables tables)
  | inspected (tableId : TableId) (accessCode : Option String) (table : PublicTableSummary) : table.tableId = tableId →
      Suits (.inspect tableId accessCode) (.table table)
  | joined (tableId : TableId) (requested : Option SeatId) (accessCode : Option String) (table : PublicTableSummary)
      (seat : SeatId) (handId : Option HandId) (ready : Bool) : table.tableId = tableId →
      Suits (.join tableId requested accessCode) (.joined table seat handId ready)
  /-- Behind all that wait. -/
  | queued (tableId : TableId) (requested : Option SeatId) (accessCode : Option String) (table : PublicTableSummary)
      (position : Nat) : table.tableId = tableId → position = table.waiting →
      Suits (.join tableId requested accessCode) (.waiting table position)
  | sits (table : PublicTableSummary) (seat : SeatId) (handId : Option HandId) (ready : Bool) :
      Suits .joinStatus (.joined table seat handId ready)
  | waits (table : PublicTableSummary) (position : Nat) : Suits .joinStatus (.waiting table position)
  | cancelled (tableId : TableId) : Suits (.cancelWait tableId) (.waitCancelled tableId)
  | healthy (health : RegistryHealth) : Suits .health (.health health)

/-- What a result says of the session that asked. -/
structure Tells (r : TableRegistry) (guest : GuestSessionId) (result : LobbyResult) : Prop where
  seated : ∀ table seat handId ready, result = .joined table seat handId ready →
    SeatedAs r guest ⟨table, seat, handId, ready⟩
  waits : ∀ table position, result = .waiting table position → WaitsAs r guest ⟨table, position⟩

/-- What comes of a call. -/
structure Serves (r : TableRegistry) (guest : GuestSessionId) (payload : LobbyRequest)
    (result : Except TableRegistryError LobbyResult) (r' : TableRegistry) : Prop where
  others : LeavesOthers r guest r'
  refused : ∀ error, result = .error error → r' = r
  suits : ∀ answer, result = .ok answer → Suits payload answer
  tells : ∀ answer, result = .ok answer → Tells r' guest answer
  queues : ∀ answer, result = .ok answer → ∀ id, r'.queueOf id = r.queueAfter guest id payload answer
  /-- A session that asks where it stands is told the first of its places. -/
  first : payload = .joinStatus → ∀ table position, result = .ok (.waiting table position) →
    ∀ place, place + 1 < position → (r'.queueOf table.tableId)[place]? ≠ some guest

/-- One call for the session that asks, and an answer that says what it left. -/
structure Answered (r : TableRegistry) (context : LobbyContext) (offset : Nat) (guest : GuestSessionId) (request : LobbyEnvelope)
    (response : LobbyResponse) (route : Option TableRoute) (r' : TableRegistry) : Prop where
  version : response.version = lobbyProtocolVersion
  requestId : response.requestId = request.requestId
  lobbyRevision : response.lobbyRevision = r'.revision
  call : r' = r.after context offset guest request.payload
  serves : Serves r guest request.payload (.ok response.result) r'
  /-- A route is given exactly to a session told that its table has a hand, and leads there. -/
  routes : ∀ found, route = some found ↔ ∃ table, response.result = .joined table found.seat found.handId true ∧
    found.tableId = table.tableId

section answers
variable {r : TableRegistry} {context : LobbyContext} {offset : Nat} {guest : GuestSessionId} {payload : LobbyRequest}

theorem Tells.silent {result : LobbyResult}
    (hjoined : ∀ table seat handId ready, result ≠ .joined table seat handId ready)
    (hwaiting : ∀ table position, result ≠ .waiting table position) : Tells r guest result :=
  ⟨fun _ _ _ _ he => absurd he (hjoined _ _ _ _), fun _ _ he => absurd he (hwaiting _ _)⟩

theorem Tells.admission {outcome : AdmissionOutcome}
    (hjoined : ∀ joined, outcome = .joined joined → SeatedAs r guest joined)
    (hwaiting : ∀ waiting, outcome = .waiting waiting → WaitsAs r guest waiting) :
    Tells r guest (admissionResult outcome) := by
  cases outcome with
  | joined joined =>
    refine ⟨fun table seat handId ready he => ?_, fun _ _ he => by cases he⟩
    cases he
    exact hjoined joined rfl
  | waiting waiting =>
    refine ⟨(fun _ _ _ _ he => by cases he), fun table position he => ?_⟩
    cases he
    exact hwaiting waiting rfl

theorem Serves.refused_same {error : TableRegistryError} : Serves r guest payload (.error error) r :=
  ⟨.refl r guest, fun _ _ => rfl, (fun _ he => by cases he), (fun _ he => by cases he), (fun _ he => by cases he),
    fun _ _ _ he => by cases he⟩

/-- An answer that tells of no seat and no place. -/
theorem Serves.silent {r' : TableRegistry} {answer : LobbyResult} (hothers : LeavesOthers r guest r')
    (hsuits : Suits payload answer)
    (hjoined : ∀ table seat handId ready, answer ≠ .joined table seat handId ready)
    (hwaiting : ∀ table position, answer ≠ .waiting table position)
    (hqueues : ∀ id, r'.queueOf id = r.queueAfter guest id payload answer) : Serves r guest payload (.ok answer) r' := by
  refine ⟨hothers, (fun _ he => by cases he), fun _ he => ?_, fun _ he => ?_, fun _ he => ?_, fun _ table position he => ?_⟩
  · exact Except.ok.inj he ▸ hsuits
  · exact Except.ok.inj he ▸ .silent hjoined hwaiting
  · exact Except.ok.inj he ▸ hqueues
  · exact absurd (Except.ok.inj he) (hwaiting table position)

/-- A call that is refused with nothing changed, or done. -/
theorem serves_cases {α : Type} {r' : TableRegistry} {result : Except TableRegistryError α} {f : α → LobbyResult}
    (hunchanged : ∀ error, result = .error error → r' = r)
    (hanswer : ∀ a, result = .ok a → Serves r guest payload (.ok (f a)) r') : Serves r guest payload (result.map f) r' := by
  cases result with
  | error error => exact hunchanged error rfl ▸ .refused_same
  | ok a => exact hanswer a rfl

theorem serves_join (r : TableRegistry) (context : LobbyContext) (guest : GuestSessionId) (tableId : TableId)
    (seat : Option SeatId)
    (accessCode : Option String) : Serves r guest (.join tableId seat accessCode)
      ((r.joinOrWaitWithAccess context.hashes context.shuffle context.now guest tableId seat accessCode).1.map admissionResult)
      (r.joinOrWaitWithAccess context.hashes context.shuffle context.now guest tableId seat accessCode).2 := by
  refine serves_cases (fun error he => joinOrWait_unchanged (Prod.ext he rfl)) fun outcome he => ?_
  generalize hjoin : r.joinOrWaitWithAccess context.hashes context.shuffle context.now guest tableId seat accessCode =
    done at he ⊢
  obtain ⟨result, r'⟩ := done
  cases he
  obtain ⟨hothers, hjoined, hwaiting⟩ := joinOrWait_enters hjoin
  have htells : Tells r' guest (admissionResult outcome) :=
    .admission (fun joined he => (hjoined joined he).1) fun waiting he => (hwaiting waiting he).waits
  refine ⟨hothers, (fun _ he => by cases he), fun _ he => ?_, fun _ he => Except.ok.inj he ▸ htells, fun _ he => ?_,
    fun he => by cases he⟩
  · cases he
    cases outcome with
    | joined joined =>
      exact .joined tableId seat accessCode joined.table joined.seat joined.handId joined.ready (hjoined joined rfl).2.1
    | waiting waiting =>
      exact .queued tableId seat accessCode waiting.table waiting.position (hwaiting waiting rfl).table
        (hwaiting waiting rfl).last
  · cases he
    cases outcome with
    | joined joined => exact (hjoined joined rfl).2.2
    | waiting waiting => exact (hwaiting waiting rfl).queues

theorem serves_status (hi : r.Indexed) (guest : GuestSessionId) : ∃ result, r.admissionStatus guest = some result ∧
    Serves r guest .joinStatus (result.map admissionResult) r := by
  obtain ⟨result, hresult, houtcome⟩ := admissionStatus_tells hi guest
  refine ⟨result, hresult, serves_cases (fun _ _ => rfl) fun outcome he => ?_⟩
  obtain ⟨hjoined, hwaiting⟩ := houtcome outcome he
  have htells : Tells r guest (admissionResult outcome) := .admission hjoined fun waiting he => (hwaiting waiting he).1
  refine ⟨.refl r guest, (fun _ he => by cases he), fun _ he => ?_, fun _ he => Except.ok.inj he ▸ htells, fun _ _ _ => rfl,
    fun _ table position he => ?_⟩
  · cases he
    cases outcome with
    | joined joined => exact .sits joined.table joined.seat joined.handId joined.ready
    | waiting waiting => exact .waits waiting.table waiting.position
  · cases outcome with
    | joined joined => cases he
    | waiting waiting =>
      cases he
      exact (hwaiting waiting rfl).2

/-- The call made: refused with nothing changed, or answered for what it did. -/
theorem lobbyResult_spec (hi : r.Indexed) (context : LobbyContext) (offset : Nat) (guest : GuestSessionId)
    (payload : LobbyRequest) : ∃ result left, r.lobbyResult context offset guest payload =
      some (result, r.after context offset guest payload, left) ∧
      Serves r guest payload result (r.after context offset guest payload) := by
  cases payload with
  | create config =>
    obtain ⟨hrefused, hothers, hqueues⟩ := create_spec hi context.hashes context.salt context.now config (context.seed offset).1
    refine ⟨_, _, rfl, serves_cases hrefused fun table _ => ?_⟩
    exact .silent (hothers guest) (.created config table) (by simp) (by simp) hqueues
  | createTournament config =>
    obtain ⟨hrefused, hothers, hqueues⟩ :=
      createTournament_spec hi context.hashes context.salt context.now config (context.seed offset).1
    refine ⟨_, _, rfl, serves_cases hrefused fun table _ => ?_⟩
    exact .silent (hothers guest) (.founded config table) (by simp) (by simp) hqueues
  | list filter => exact ⟨_, _, rfl, .silent (.refl r guest) (.listed filter _) (by simp) (by simp) fun _ => rfl⟩
  | inspect tableId accessCode =>
    refine ⟨_, _, rfl, serves_cases (fun _ _ => rfl) fun table he => ?_⟩
    have hid : table.tableId = tableId := by
      unfold inspectWithAccess at he
      split at he
      · cases he
      split at he
      · cases he
        rfl
      · cases he
    exact .silent (.refl r guest) (.inspected tableId accessCode table hid) (by simp) (by simp) fun _ => rfl
  | join tableId seat accessCode => exact ⟨_, _, rfl, serves_join r context guest tableId seat accessCode⟩
  | joinStatus =>
    obtain ⟨result, hresult, hserves⟩ := serves_status hi guest
    refine ⟨_, offset, ?_, hserves⟩
    rw [lobbyResult, hresult]
    rfl
  | cancelWait tableId =>
    refine ⟨_, _, rfl, serves_cases (fun error he => ?_) fun _ he => ?_⟩
    · exact cancelWait_unchanged (Prod.ext he rfl)
    · exact .silent (r.cancelWait_others context.now guest tableId) (.cancelled tableId) (by simp) (by simp)
        (cancelWait_queues (Prod.ext he rfl))
  | health => exact ⟨_, _, rfl, .silent (.refl r guest) (.healthy _) (by simp) (by simp) fun _ => rfl⟩

/-- A route is found for every answer that promises one. -/
theorem routeAfter_found {answer : LobbyResult} (htells : Tells r guest answer) :
    ∃ route, r.routeAfter guest answer = .ok route ∧ ∀ found, route = some found ↔
      ∃ table, answer = .joined table found.seat found.handId true ∧ found.tableId = table.tableId := by
  by_cases hready : ∃ table seat handId, answer = .joined table seat handId true
  · obtain ⟨table, seat, handId, rfl⟩ := hready
    refine ⟨some ⟨table.tableId, handId, seat⟩, ?_, fun found => ⟨fun he => ?_, fun he => ?_⟩⟩
    · rw [routeAfter, (htells.seated table seat handId true rfl).routes rfl]
      rfl
    · cases he
      exact ⟨table, rfl, rfl⟩
    · obtain ⟨table', he, hid⟩ := he
      cases he
      rw [← hid]
  · refine ⟨none, ?_, fun found => ⟨(fun he => by cases he), fun he => ?_⟩⟩
    · cases answer with
      | joined table seat handId ready =>
        cases ready with
        | true => exact absurd ⟨table, seat, handId, rfl⟩ hready
        | false => rfl
      | _ => rfl
    · obtain ⟨table, he, _⟩ := he
      exact absurd ⟨table, found.seat, found.handId, he⟩ hready

/-- No request closes a table or seats anybody without a look at the queue. -/
theorem after_indexed (hi : r.Indexed) (context : LobbyContext) (offset : Nat) (guest : GuestSessionId) (payload : LobbyRequest) :
    (r.after context offset guest payload).Indexed := by
  unfold after
  cases hop : lobbyOp context offset guest payload with
  | none => exact hi
  | some op =>
    refine hi.apply op ?_
    cases payload <;> cases hop <;> trivial

/-- Every request that a session puts to the lobby. -/
theorem lobby_answers (hi : r.Indexed) (context : LobbyContext) (offset : Nat) (guest : GuestSessionId)
    (request : LobbyEnvelope) :
    ∃ result r' left, r.applyLobbyRequest context offset guest request = some (result, r', left) ∧ r'.Indexed ∧
      LeavesOthers r guest r' ∧ (∀ error, result = .error error → r' = r) ∧
      ∀ response route, result = .ok (response, route) → r.Answered context offset guest request response route r' := by
  unfold applyLobbyRequest
  split
  · exact ⟨_, _, _, rfl, hi, .refl r guest, fun _ _ => rfl, fun _ _ he => by cases he⟩
  split
  · exact ⟨_, _, _, rfl, hi, .refl r guest, fun _ _ => rfl, fun _ _ he => by cases he⟩
  obtain ⟨result, left, hresult, hserves⟩ := lobbyResult_spec hi context offset guest request.payload
  have hindexed := after_indexed hi context offset guest request.payload
  rw [hresult]
  cases result with
  | error error => exact ⟨_, _, _, rfl, hindexed, hserves.others, fun _ _ => hserves.refused error rfl, fun _ _ he => by cases he⟩
  | ok answer =>
    obtain ⟨route, hroute, hfound⟩ := routeAfter_found (hserves.tells answer rfl)
    dsimp only
    rw [hroute]
    refine ⟨_, _, _, rfl, hindexed, hserves.others, (fun _ he => by cases he), fun response route' he => ?_⟩
    cases he
    exact ⟨rfl, rfl, rfl, rfl, hserves, hfound⟩

end answers

/-- A table of three seats, and two who ask for one it does not have. -/
def twoStrays : List RegistryOp :=
  [.create constantHashes [] 0 trio none, .joinOrWait constantHashes cutDeck 0 ⟨"ann"⟩ ⟨1⟩ (some 5) none,
    .joinOrWait constantHashes cutDeck 0 ⟨"bob"⟩ ⟨1⟩ (some 5) none]

def annGivesUp : LobbyEnvelope := ⟨2, "q1", .cancelWait ⟨1⟩⟩

/-- The first gives up, and the second moves up. -/
theorem lobby_answers_moved_up : ∃ start, new 1 = .ok start ∧ (start.run twoStrays).queueOf ⟨1⟩ = [⟨"ann"⟩, ⟨"bob"⟩] ∧
    ∃ response r', (start.run twoStrays).Answered ⟨constantHashes, [], cutDeck, 0, none⟩ 0 ⟨"ann"⟩ annGivesUp response none r' ∧
      LeavesOthers (start.run twoStrays) ⟨"ann"⟩ r' ∧ r'.queueOf ⟨1⟩ = [⟨"bob"⟩] := by
  obtain ⟨start, hnew⟩ : ∃ start, new 1 = .ok start := ⟨_, rfl⟩
  have hindexed : (start.run twoStrays).Indexed :=
    (((new_indexed hnew).apply (.create _ _ _ _ _) trivial).apply (.joinOrWait _ _ _ _ _ _ _) trivial).apply
      (.joinOrWait _ _ _ _ _ _ _) trivial
  have hrun : ((new 1).toOption.map fun start => ((start.run twoStrays).queueOf ⟨1⟩,
      ((start.run twoStrays).applyLobbyRequest ⟨constantHashes, [], cutDeck, 0, none⟩ 0 ⟨"ann"⟩ annGivesUp).map fun done =>
        (done.1.toOption.map fun answer => answer.2.isNone, done.2.1.queueOf ⟨1⟩))) =
      some ([⟨"ann"⟩, ⟨"bob"⟩], some (some true, [⟨"bob"⟩])) := by decide +kernel
  obtain ⟨result, r', left, happlied, _, hothers, _, hanswered⟩ :=
    lobby_answers hindexed ⟨constantHashes, [], cutDeck, 0, none⟩ 0 ⟨"ann"⟩ annGivesUp
  rw [hnew] at hrun
  simp only [Except.toOption, Option.map_some, happlied, Option.some.injEq, Prod.mk.injEq] at hrun
  obtain ⟨hbefore, hok, hleft⟩ := hrun
  cases result with
  | error error => cases hok
  | ok answer =>
    obtain ⟨response, route⟩ := answer
    obtain rfl : route = none := by simpa using hok
    exact ⟨start, hnew, hbefore, response, r', hanswered response none rfl, hothers, hleft⟩

end TableRegistry

end OpenFelt
