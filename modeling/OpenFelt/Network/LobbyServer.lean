/-
  OpenFelt.Network.LobbyServer — the connections of the server with many tables
  (`handle_multi_table_connection` and `run_multi_table_connection` of
  `src/network_server.rs`).

  Translation. `active` is `active_sessions`; each connection is a thread, here its guest and
  how far it has come. A step is what one thread does under one lock, or a call of the
  server's loop; threads and loop step in any order. Left out: the wire, the budgets for
  requests, the waits and their time limits (a connection may be left at any time), and
  what a bound connection does at its table (a `serve` of the registry).

  `run_attended`, of every run from a new registry: the active sessions are those of the
  connections, once each. Whoever waits for a seat has a connection in the lobby, or one
  that came from there and will take the session out of the queue when it is dropped. No
  request panics under the registry's lock.
-/

import OpenFelt.Registry.Indexed
import OpenFelt.Registry.LobbyRequests

namespace OpenFelt

/-- How far a connection has come. -/
inductive ConnectionStage where
  /-- In the set of active sessions; looks for its route. -/
  | admitted (reconnect : Option String)
  /-- Without a route. -/
  | unrouted
  | lobby
  /-- At its table; `guarded` when it came there from the lobby. -/
  | bound (route : TableRoute) (guarded : Bool)
  | leaving (guarded : Bool)
  deriving DecidableEq, Repr

/-- The registration guard is held. -/
def ConnectionStage.guarded : ConnectionStage → Bool
  | admitted _ | unrouted => false
  | lobby => true
  | bound _ guarded | leaving guarded => guarded

structure ServerConnection where
  guest : GuestSessionId
  stage : ConnectionStage
  deriving DecidableEq, Repr

structure LobbyServer where
  registry : TableRegistry
  active : OrdMap GuestSessionId Unit
  nextSeedOffset : Nat
  connections : List ServerConnection

namespace LobbyServer

def start (registry : TableRegistry) : LobbyServer := ⟨registry, .empty, 0, []⟩

/-- The connection has come to another stage. -/
def moved (server : LobbyServer) (i : Nat) (connection : ServerConnection) (stage : ConnectionStage) : LobbyServer :=
  { server with connections := server.connections.set i { connection with stage := stage } }

end LobbyServer

/-- The calls of the server's loop, and of the connections at a table. -/
def RegistryOp.Background : RegistryOp → Prop
  | expireInactive .. | rollover .. | resume .. | finalizeSafeHistory .. | issueReconnect .. | rotateReconnect .. |
    identifyReconnect .. | serve .. => True
  | _ => False

/-- A request is answered: the stage after it. -/
def stageAfter : Except TableRegistryError (LobbyResponse × Option TableRoute) → ConnectionStage
  | .ok (_, some route) => .bound route true
  | .ok (_, none) | .error _ => .lobby

inductive ServerStep : LobbyServer → LobbyServer → Prop
  /-- `active_sessions.insert`; a guest that has a connection is turned away. -/
  | enter (server : LobbyServer) (guest : GuestSessionId) (reconnect : Option String) :
      server.active.contains guest = false →
      ServerStep server { server with
        active := server.active.insert guest ()
        connections := server.connections ++ [⟨guest, .admitted reconnect⟩] }
  | bind (server : LobbyServer) (i : Nat) (connection : ServerConnection) (reconnect : Option String) (route : TableRoute) :
      server.connections[i]? = some connection → connection.stage = .admitted reconnect →
      server.registry.routeForSession connection.guest = .ok route →
      ServerStep server (server.moved i connection (.bound route false))
  | unroute (server : LobbyServer) (i : Nat) (connection : ServerConnection) (error : TableRegistryError) :
      server.connections[i]? = some connection → connection.stage = .admitted none →
      server.registry.routeForSession connection.guest = .error error →
      ServerStep server (server.moved i connection .unrouted)
  /-- The last view of a hand that is over, and nothing else. -/
  | farewell (server : LobbyServer) (i : Nat) (connection : ServerConnection) (update : SubscriptionUpdate) :
      server.connections[i]? = some connection → connection.stage = .unrouted →
      (server.registry.takeRetiredUpdate connection.guest).1 = some update →
      ServerStep server ({ server with
        registry := (server.registry.takeRetiredUpdate connection.guest).2 }.moved i connection (.leaving false))
  | greet (server : LobbyServer) (i : Nat) (connection : ServerConnection) :
      server.connections[i]? = some connection → connection.stage = .unrouted →
      (server.registry.takeRetiredUpdate connection.guest).1 = none →
      ServerStep server (server.moved i connection .lobby)
  | ask (server : LobbyServer) (i : Nat) (connection : ServerConnection) (context : LobbyContext) (request : LobbyEnvelope)
      (result : Except TableRegistryError (LobbyResponse × Option TableRoute)) (registry : TableRegistry) (offset : Nat) :
      server.connections[i]? = some connection → connection.stage = .lobby →
      server.registry.applyLobbyRequest context server.nextSeedOffset connection.guest request =
        some (result, registry, offset) →
      ServerStep server ({ server with registry := registry, nextSeedOffset := offset }.moved i connection (stageAfter result))
  /-- The peer is gone, or the connection is closed for it. -/
  | quit (server : LobbyServer) (i : Nat) (connection : ServerConnection) :
      server.connections[i]? = some connection →
      ServerStep server (server.moved i connection (.leaving connection.stage.guarded))
  /-- The guard is dropped. -/
  | drop (server : LobbyServer) (i : Nat) (connection : ServerConnection) (now : Nat) :
      server.connections[i]? = some connection → connection.stage = .leaving true →
      ServerStep server ({ server with
        registry := server.registry.cancelPendingRegistration now connection.guest }.moved i connection (.leaving false))
  /-- `active_sessions.remove`. -/
  | remove (server : LobbyServer) (i : Nat) (connection : ServerConnection) :
      server.connections[i]? = some connection → connection.stage = .leaving false →
      ServerStep server { server with
        active := server.active.erase connection.guest
        connections := server.connections.eraseIdx i }
  | background (server : LobbyServer) (op : RegistryOp) : op.Background →
      ServerStep server { server with registry := op.apply server.registry }

inductive ServerRun (registry : TableRegistry) : LobbyServer → Prop
  | start : ServerRun registry (.start registry)
  | step {server next : LobbyServer} : ServerRun registry server → ServerStep server next → ServerRun registry next

/-! ## Who is there -/

/-- The sessions of the connections. -/
def LobbyServer.guests (server : LobbyServer) : List GuestSessionId := server.connections.map (·.guest)

/-- Every session that waits has a connection that will look after it. -/
structure Attended (server : LobbyServer) : Prop where
  active : ∀ guest, server.active.contains guest = true ↔ guest ∈ server.guests
  once : server.guests.Nodup
  indexed : server.registry.Indexed
  waits : ∀ guest, (server.registry.waitingSessions.find? guest).isSome = true →
    ∃ connection ∈ server.connections, connection.guest = guest ∧ connection.stage.guarded = true

section attended
variable {server next : LobbyServer} {i : Nat} {connection : ServerConnection} {stage : ConnectionStage}

theorem guests_moved (h : server.connections[i]? = some connection) :
    (server.moved i connection stage).guests = server.guests := by
  unfold LobbyServer.guests LobbyServer.moved
  obtain ⟨hi, rfl⟩ := List.getElem?_eq_some_iff.mp h
  refine List.ext_getElem? fun j => ?_
  rw [List.map_set, List.getElem?_set]
  split
  · rename_i hj
    subst hj
    simp [hi]
  · rfl

/-- Another's connection is as it was. -/
theorem mem_moved {other : ServerConnection} (h : server.connections[i]? = some connection)
    (hother : other ∈ server.connections)
    (hne : other.guest ≠ connection.guest) : other ∈ (server.moved i connection stage).connections := by
  obtain ⟨j, hj⟩ := List.mem_iff_getElem?.mp hother
  refine List.mem_iff_getElem?.mpr ⟨j, ?_⟩
  have hij : i ≠ j := by
    rintro rfl
    rw [h] at hj
    cases hj
    exact hne rfl
  exact (List.getElem?_set_ne hij).trans hj

theorem self_moved (h : server.connections[i]? = some connection) :
    (⟨connection.guest, stage⟩ : ServerConnection) ∈ (server.moved i connection stage).connections := by
  obtain ⟨hi, _⟩ := List.getElem?_eq_some_iff.mp h
  exact List.mem_iff_getElem?.mpr ⟨i, List.getElem?_set_self hi⟩

/-- The connection of a guest is the only one. -/
theorem Attended.unique (ha : Attended server) {other : ServerConnection} (h : connection ∈ server.connections)
    (hother : other ∈ server.connections) (hguest : other.guest = connection.guest) : other = connection :=
  List.inj_on_of_nodup_map ha.once hother h hguest

/-- The connections without this one are those of the other guests. -/
theorem Attended.others (ha : Attended server) (h : server.connections[i]? = some connection) (other : ServerConnection) :
    other ∈ server.connections.eraseIdx i ↔ other ∈ server.connections ∧ other.guest ≠ connection.guest := by
  rw [List.mem_eraseIdx_iff_getElem?]
  constructor
  · rintro ⟨j, hj, hother⟩
    refine ⟨List.mem_of_getElem? hother, fun hguest => hj ?_⟩
    have hsame : server.guests[j]? = server.guests[i]? := by
      rw [LobbyServer.guests, List.getElem?_map, List.getElem?_map, h, hother, Option.map_some, Option.map_some, hguest]
    have hlt : j < server.guests.length := by
      rw [LobbyServer.guests, List.length_map]
      exact (List.getElem?_eq_some_iff.mp hother).1
    exact (List.getElem?_inj hlt ha.once).mp hsame
  · rintro ⟨hmem, hguest⟩
    obtain ⟨j, hj⟩ := List.mem_iff_getElem?.mp hmem
    refine ⟨j, ?_, hj⟩
    rintro rfl
    rw [h] at hj
    cases hj
    exact hguest rfl

/-- One connection comes to another stage, and a registry is left in which only its session may have begun to wait. -/
theorem Attended.moved (ha : Attended server) (registry : TableRegistry) (offset : Nat)
    (h : server.connections[i]? = some connection) (hindexed : registry.Indexed)
    (hothers : ∀ guest, guest ≠ connection.guest → (registry.waitingSessions.find? guest).isSome = true →
      (server.registry.waitingSessions.find? guest).isSome = true)
    (hself : (registry.waitingSessions.find? connection.guest).isSome = true → stage.guarded = true) :
    Attended ({ server with registry := registry, nextSeedOffset := offset }.moved i connection stage) := by
  have hguests : ({ server with registry := registry, nextSeedOffset := offset }.moved i connection stage).guests =
      server.guests := guests_moved h
  refine ⟨fun guest => ?_, ?_, hindexed, fun guest hwaits => ?_⟩
  · rw [hguests]
    exact ha.active guest
  · rw [hguests]
    exact ha.once
  · by_cases hne : guest = connection.guest
    · subst hne
      exact ⟨_, self_moved h, rfl, hself hwaits⟩
    · obtain ⟨other, hother, rfl, hguarded⟩ := ha.waits guest (hothers guest hne hwaits)
      exact ⟨other, mem_moved h hother hne, rfl, hguarded⟩

/-- A guest that waits is guarded at every stage of its connection. -/
theorem Attended.guarded (ha : Attended server) (h : server.connections[i]? = some connection)
    (hwaits : (server.registry.waitingSessions.find? connection.guest).isSome = true) : connection.stage.guarded = true := by
  obtain ⟨other, hother, hguest, hguarded⟩ := ha.waits connection.guest hwaits
  rw [ha.unique (List.mem_of_getElem? h) hother hguest] at hguarded
  exact hguarded

/-- Only the registry is changed, and nobody begins to wait. -/
theorem Attended.aside (ha : Attended server) (registry : TableRegistry) (hindexed : registry.Indexed)
    (hfewer : ∀ guest, (registry.waitingSessions.find? guest).isSome = true →
      (server.registry.waitingSessions.find? guest).isSome = true) : Attended { server with registry := registry } :=
  ⟨ha.active, ha.once, hindexed, fun guest hwaits => ha.waits guest (hfewer guest hwaits)⟩

/-- A session whose connection is not guarded does not wait. -/
theorem Attended.idle (ha : Attended server) (h : server.connections[i]? = some connection)
    (hstage : connection.stage.guarded = false) :
    (server.registry.waitingSessions.find? connection.guest).isSome = false := by
  cases hwaits : (server.registry.waitingSessions.find? connection.guest).isSome with
  | false => rfl
  | true =>
    have hguarded := ha.guarded h hwaits
    rw [hstage] at hguarded
    cases hguarded

theorem stageAfter_guarded (result : Except TableRegistryError (LobbyResponse × Option TableRoute)) :
    (stageAfter result).guarded = true := by
  rcases result with error | ⟨response, _ | route⟩ <;> rfl

theorem background_spares {op : RegistryOp} (h : op.Background) : op.SparesQueues := by
  cases op <;> trivial

/-- A request is answered, and of the others as many wait as before. -/
theorem asked (context : LobbyContext) (offset : Nat) (guest : GuestSessionId) (request : LobbyEnvelope) {r : TableRegistry}
    (hi : r.Indexed) : ∃ result registry left, r.applyLobbyRequest context offset guest request = some (result, registry, left) ∧
      registry.Indexed ∧ ∀ other, other ≠ guest → registry.waitingSessions.find? other = r.waitingSessions.find? other := by
  unfold TableRegistry.applyLobbyRequest
  split
  · exact ⟨_, _, _, rfl, hi, fun _ _ => rfl⟩
  split
  · exact ⟨_, _, _, rfl, hi, fun _ _ => rfl⟩
  obtain ⟨result, left, hresult, hserves⟩ := TableRegistry.lobbyResult_spec hi context offset guest request.payload
  have hindexed := TableRegistry.after_indexed hi context offset guest request.payload
  rw [hresult]
  cases result with
  | error error => exact ⟨_, _, _, rfl, hindexed, hserves.others.waiting⟩
  | ok answer => exact ⟨_, _, _, rfl, hindexed, hserves.others.waiting⟩

theorem Attended.step (ha : Attended server) (h : ServerStep server next) : Attended next := by
  cases h with
  | enter guest reconnect hnew =>
    have hout : guest ∉ server.guests := by
      intro hmem
      rw [(ha.active guest).mpr hmem] at hnew
      cases hnew
    refine ⟨fun other => ?_, ?_, ha.indexed, fun other hwaits => ?_⟩
    · have hbefore := ha.active other
      simp only [OrdMap.contains_iff, OrdMap.find_insert, LobbyServer.guests, List.map_append, List.mem_append] at hbefore ⊢
      by_cases hother : other = guest
      · simp [hother]
      · simp [hother, ← hbefore]
    · have hothers : ∀ connection ∈ server.connections, connection.guest ≠ guest := fun connection hc he =>
        hout (he ▸ List.mem_map_of_mem hc)
      simpa [LobbyServer.guests, List.nodup_append] using ⟨ha.once, hothers⟩
    · obtain ⟨connection, hc, hguest, hguarded⟩ := ha.waits other hwaits
      exact ⟨connection, List.mem_append_left _ hc, hguest, hguarded⟩
  | bind i connection reconnect route hc hstage =>
    refine ha.moved server.registry server.nextSeedOffset hc ha.indexed (fun _ _ hwaits => hwaits) fun hwaits => ?_
    rw [ha.idle hc (by rw [hstage]; rfl)] at hwaits
    cases hwaits
  | unroute i connection error hc hstage =>
    refine ha.moved server.registry server.nextSeedOffset hc ha.indexed (fun _ _ hwaits => hwaits) fun hwaits => ?_
    rw [ha.idle hc (by rw [hstage]; rfl)] at hwaits
    cases hwaits
  | farewell i connection update hc hstage =>
    have hindexed := ha.indexed.apply (.takeRetiredUpdate connection.guest) trivial
    refine ha.moved _ server.nextSeedOffset hc hindexed (fun _ _ hwaits => hwaits) fun hwaits => ?_
    rw [show ((server.registry.takeRetiredUpdate connection.guest).2.waitingSessions.find? connection.guest).isSome = false from
      ha.idle hc (by rw [hstage]; rfl)] at hwaits
    cases hwaits
  | greet i connection hc hstage =>
    exact ha.moved server.registry server.nextSeedOffset hc ha.indexed (fun _ _ hwaits => hwaits) fun _ => rfl
  | ask i connection context request result registry offset hc hstage hasked =>
    obtain ⟨_, _, _, hanswered, hindexed, hothers⟩ := asked context server.nextSeedOffset connection.guest request ha.indexed
    rw [hasked] at hanswered
    cases hanswered
    refine ha.moved registry offset hc hindexed (fun guest hne hwaits => ?_) fun _ => stageAfter_guarded result
    rw [← hothers guest hne]
    exact hwaits
  | quit i connection hc =>
    exact ha.moved server.registry server.nextSeedOffset hc ha.indexed (fun _ _ hwaits => hwaits) (ha.guarded hc)
  | drop i connection now hc hstage =>
    have hindexed := ha.indexed.apply (.cancelPendingRegistration now connection.guest) trivial
    refine ha.moved _ server.nextSeedOffset hc hindexed (fun guest _ hwaits => ?_) fun hwaits => ?_
    · refine ((TableRegistry.apply_leaves server.registry (.cancelPendingRegistration now connection.guest)).entered ha.indexed
        hwaits).resolve_right fun h => ?_
      obtain ⟨_, _, _, _, _, _, he⟩ := h
      cases he
    · rw [ha.indexed.cancelled now connection.guest] at hwaits
      cases hwaits
  | remove i connection hc hstage =>
    have hidle := ha.idle hc (by rw [hstage]; rfl)
    have hmem := ha.others hc
    refine ⟨fun other => ?_, ?_, ha.indexed, fun other hwaits => ?_⟩
    · have hbefore := ha.active other
      rw [OrdMap.contains_iff] at hbefore ⊢
      simp only [OrdMap.find_erase, LobbyServer.guests, List.mem_map] at hbefore ⊢
      by_cases hother : other = connection.guest
      · simp only [hother, if_true, hmem]
        simp
      · simp only [hother, if_false, hmem, hbefore]
        constructor
        · rintro ⟨c, hc, rfl⟩
          exact ⟨c, ⟨hc, hother⟩, rfl⟩
        · rintro ⟨c, hc, rfl⟩
          exact ⟨c, hc.1, rfl⟩
    · exact (List.Nodup.sublist ((List.eraseIdx_sublist _ i).map _) ha.once)
    · obtain ⟨c, hfound, hguest, hguarded⟩ := ha.waits other hwaits
      have hne : c.guest ≠ connection.guest := by
        intro he
        rw [← hguest, he, hidle] at hwaits
        cases hwaits
      exact ⟨c, (hmem c).mpr ⟨hfound, hne⟩, hguest, hguarded⟩
  | background op hop =>
    refine ha.aside _ (ha.indexed.apply op (background_spares hop)) fun guest hwaits => ?_
    refine ((TableRegistry.apply_leaves server.registry op).entered ha.indexed hwaits).resolve_right fun h => ?_
    obtain ⟨_, _, _, _, _, _, rfl⟩ := h
    exact hop

theorem ServerRun.attended {registry : TableRegistry} (hi : registry.Indexed)
    (hidle : ∀ guest, registry.waitingSessions.find? guest = none) (h : ServerRun registry server) : Attended server := by
  induction h with
  | start =>
    refine ⟨fun guest => by simp [LobbyServer.start, LobbyServer.guests, OrdMap.contains],
      by simp [LobbyServer.start, LobbyServer.guests], hi, fun guest hwaits => ?_⟩
    rw [show (LobbyServer.start registry).registry.waitingSessions.find? guest = none from hidle guest] at hwaits
    cases hwaits
  | step _ hs ih => exact ih.step hs

end attended

/-- The connections and the queues, at any moment of a server. -/
theorem run_attended {maxTables : Nat} {registry : TableRegistry} {server : LobbyServer}
    (hnew : TableRegistry.new maxTables = .ok registry) (h : ServerRun registry server) :
    Attended server ∧ (∀ guest tableId, server.registry.waitingSessions.find? guest = some tableId → ∃ table position,
      server.registry.tables.find? tableId = some table ∧ table.queue[position]? = some guest ∧
        server.registry.admissionStatus guest = some (.ok (.waiting ⟨table.summary tableId, position + 1⟩))) ∧
      ∀ context guest request, (server.registry.applyLobbyRequest context server.nextSeedOffset guest request).isSome = true := by
  have hidle : ∀ guest, registry.waitingSessions.find? guest = none := by
    unfold TableRegistry.new at hnew
    split at hnew
    · cases hnew
    · cases hnew
      exact fun _ => rfl
  have ha := h.attended (TableRegistry.new_indexed hnew) hidle
  refine ⟨ha, fun guest tableId hwaits => ?_, fun context guest request => ?_⟩
  · obtain ⟨table, position, htable, hplace, _, hstatus⟩ := ha.indexed.told hwaits
    exact ⟨table, position, htable, hplace, hstatus⟩
  · obtain ⟨_, _, _, hanswered, _⟩ := asked context server.nextSeedOffset guest request ha.indexed
    rw [hanswered]
    rfl

def annsContext : LobbyContext := ⟨TableRegistry.constantHashes, [], TableRegistry.cutDeck, 0, none⟩

/-- A table of three seats, and a seat that it does not have. -/
def annFounds : LobbyEnvelope := ⟨2, "q1", .create TableRegistry.trio⟩

def annAsks : LobbyEnvelope := ⟨2, "q2", .join ⟨1⟩ (some 5) none⟩

open TableRegistry in
/-- A guest founds a table, and asks for a seat that it does not have. -/
theorem run_attended_stray : ∃ registry server, TableRegistry.new 1 = .ok registry ∧ ServerRun registry server ∧
    server.registry.waitingSessions.find? ⟨"ann"⟩ = some ⟨1⟩ ∧ Attended server := by
  have hrun : ((TableRegistry.new 1).toOption.bind fun registry =>
      (registry.applyLobbyRequest annsContext 0 ⟨"ann"⟩ annFounds).bind fun founded =>
        (founded.2.1.applyLobbyRequest annsContext founded.2.2 ⟨"ann"⟩ annAsks).map fun asked =>
          (stageAfter founded.1, asked.2.1.waitingSessions.find? ⟨"ann"⟩)) = some (.lobby, some ⟨1⟩) := by decide +kernel
  obtain ⟨registry, hnew⟩ : ∃ registry, TableRegistry.new 1 = .ok registry := ⟨_, rfl⟩
  obtain ⟨result, founded, offset, hfounds, hindexed, _⟩ := asked annsContext 0 ⟨"ann"⟩ annFounds (new_indexed hnew)
  obtain ⟨answer, left, offset', hasks, _⟩ := asked annsContext offset ⟨"ann"⟩ annAsks hindexed
  rw [hnew] at hrun
  simp only [Except.toOption, Option.bind_some, hfounds, hasks, Option.map_some, Option.some.injEq, Prod.mk.injEq] at hrun
  have h0 : ServerRun registry (.start registry) := .start
  have h1 := h0.step (.enter _ ⟨"ann"⟩ none rfl)
  have h2 := h1.step (.unroute _ 0 _ _ rfl rfl (by cases hnew; rfl))
  have h3 := h2.step (.greet _ 0 _ rfl rfl (by cases hnew; rfl))
  have h4 := h3.step (.ask _ 0 _ annsContext annFounds _ _ _ rfl rfl hfounds)
  have h5 := h4.step (.ask _ 0 ⟨⟨"ann"⟩, stageAfter result⟩ annsContext annAsks _ _ _ rfl hrun.1 hasks)
  exact ⟨registry, _, hnew, h5, hrun.2, (run_attended hnew h5).1⟩

end OpenFelt
