/-
  OpenFelt.Registry.Queues — those who wait for a seat (`src/table_registry.rs`).

  A session that waits stands in its table's queue and in the registry's index of waiting
  sessions. It is seated at the end of a hand, when its turn comes, or gives up its place.

  Proved of every run (`run_queues`): queue and index agree, every entry can be satisfied,
  nobody is overtaken and nobody is held up, as long as
  - a session that queues asks for a seat of the table, if for any,
  - a session that is seated at once takes no seat that one in the queue would take,
  - no table is closed while sessions wait for it,
  - a rollover that seats anybody goes through, and the first in the queue it finds no seat
    for has nobody behind it who could have one.
-/

import OpenFelt.Registry.RosterRuns
import OpenFelt.Registry.Atomic

namespace OpenFelt

namespace RegisteredTable

/-- The sessions that wait, in order. -/
def queue (table : RegisteredTable) : List GuestSessionId := table.waiting.map (·.session)

/-- Nobody ahead of the session waits for the seat it would get at once. -/
def Yields (table : RegisteredTable) (session : GuestSessionId) (requestedSeat : Option SeatId) : Prop :=
  ∀ seat, table.config.seatFor table.lifecycle requestedSeat = some seat →
    ∀ entry ∈ table.waiting.takeWhile (·.session ≠ session), entry.requestedSeat ≠ none ∧ entry.requestedSeat ≠ some seat

end RegisteredTable

/-- The seats free for those who wait. -/
def PublicTableConfig.freeSeats (config : PublicTableConfig) (lifecycle : TableLifecycle) : List SeatId :=
  config.seats.seats.filter lifecycle.seatFree

/-- Going down the queue with the free seats, the first request that gets none has nobody behind it who could have one. -/
def Unblocked : List (Option SeatId) → List SeatId → Prop
  | [], _ => True
  | none :: _, [] => True
  | none :: rest, _ :: free => Unblocked rest free
  | some seat :: rest, free =>
    if seat ∈ free then Unblocked rest (free.erase seat)
    else ∀ request ∈ rest, ∀ other ∈ free, request ≠ none ∧ request ≠ some other

namespace TableRegistry

variable (r : TableRegistry)

/-- Queues and index agree, and every entry asks for no seat or for a seat of its table. -/
structure QueuesAgree : Prop where
  index : ∀ session tableId, r.waitingSessions.find? session = some tableId ↔
    ∃ table, r.tables.find? tableId = some table ∧ table.queue.count session = 1
  once : ∀ tableId table, r.tables.find? tableId = some table → ∀ session, table.queue.count session ≤ 1
  seats : ∀ tableId table, r.tables.find? tableId = some table → ∀ entry ∈ table.waiting, ∀ seat,
    entry.requestedSeat = some seat → table.config.seats.contains seat = true

/-- Whoever was ahead in the queue and could take the seat is seated too, before. -/
def InTurn (r' : TableRegistry) : Prop :=
  ∀ tableId table session route, r.tables.find? tableId = some table → r'.sessions.find? session = some route →
    r.sessions.find? session ≠ some route → route.tableId = tableId →
    ∀ earlier ∈ table.waiting.takeWhile (·.session ≠ session),
      earlier.requestedSeat = none ∨ earlier.requestedSeat = some route.seat →
      r'.waitingSessions.find? earlier.session = none ∧ ∃ route', r'.sessions.find? earlier.session = some route' ∧
        route'.tableId = tableId ∧ route'.player.value < route.player.value

/-- What a call does to the queues. -/
structure KeepsQueues (op : RegistryOp) : Prop where
  agree : (op.apply r).QueuesAgree
  /-- Nobody waits for a table that is gone. -/
  gone : ∀ tableId table, r.tables.find? tableId = some table → (op.apply r).tables.find? tableId = none →
    ∀ session, (op.apply r).waitingSessions.find? session ≠ some tableId
  inTurn : r.InTurn (op.apply r)
  /-- After a hand nobody is left waiting who could have a seat. -/
  served : ∀ shuffle now tableId handId finished next table, op = .rollover shuffle now tableId handId →
    r.finishedHand tableId handId = .ok (some finished) → finished.table.tournament = none →
    (r.rolloverCompletedHand shuffle now tableId handId).1 = .ok next → (op.apply r).tables.find? tableId = some table →
    ∀ entry ∈ table.waiting, table.config.seatFor table.lifecycle entry.requestedSeat = none

end TableRegistry

/-- The call does none of what spoils the queues. -/
def RegistryOp.Careful (r : TableRegistry) : RegistryOp → Prop
  | joinOrWait h _ _ session tableId requestedSeat accessCode =>
    ∀ table, r.sessions.find? session = none → r.waitingSessions.find? session = none → r.tables.find? tableId = some table →
      table.allows h accessCode = true →
      (∀ seat, requestedSeat = some seat → table.config.seats.contains seat = true) ∧
        (table.runtime = none → table.Yields session requestedSeat)
  | join _ _ session tableId requestedSeat =>
    ∀ table, r.sessions.find? session = none → r.tables.find? tableId = some table → table.runtime = none →
      table.Yields session requestedSeat
  | closeAndRemove tableId =>
    ∀ table, r.tables.find? tableId = some table → TableRegistry.Removable table → table.waiting = []
  | rollover shuffle now tableId handId =>
    ∀ finished, r.finishedHand tableId handId = .ok (some finished) → finished.table.tournament = none →
      TableRegistry.Settled finished.table (finished.elapsed now) finished.finalStacks →
      (TableRegistry.NoneAdmitted finished.table.config finished.table.waiting
          (finished.table.lifecycle.completeHand finished.finalStacks).2 r.nextPlayerId ∨ r.Passes shuffle now tableId finished) ∧
        Unblocked (finished.table.waiting.map (·.requestedSeat))
          (finished.table.config.freeSeats (finished.table.lifecycle.completeHand finished.finalStacks).2)
  | _ => True

/-! ## Free seats -/

namespace TableLifecycle

variable {t t' : TableLifecycle} {player : PlayerId} {seat q : SeatId} {stack : Nat}

theorem seatFree_iff : t.seatFree q = true ↔ t.seats.seat q = none ∧ t.reservations.find? q = none := by
  unfold seatFree
  rw [Bool.and_eq_true, Option.isNone_iff_eq_none, List.all_eq_true]
  refine and_congr_right fun _ => ?_
  constructor
  · intro h
    cases hq : t.reservations.find? q with
    | none => rfl
    | some owner =>
      have hne := h q (OrdMap.mem_keys.mpr ⟨owner, hq⟩)
      simp at hne
  · intro h p hp
    obtain ⟨owner, howner⟩ := OrdMap.mem_keys.mp hp
    rw [decide_eq_true_eq]
    rintro rfl
    rw [h] at howner
    cases howner

/-- A player who joins leaves the reservations as they were. -/
theorem join_reservations (h : t.join player seat stack = (.ok (), t')) : t'.reservations = t.reservations := by
  have hlets := join_ok_iff.mp (congrArg Prod.fst h)
  rw [join_givesBack h]
  exact OrdMap.erase_insert hlets.unreserved

/-- A seat is taken, and no other. -/
theorem joinWithEntry_seatFree {entry : RingEntryChoice} (h : t.joinWithEntry player seat stack entry = (.ok (), t'))
    (q : SeatId) :
    t'.seatFree q = (t.seatFree q && q ≠ seat) := by
  unfold joinWithEntry at h
  rcases hjoin : t.join player seat stack with ⟨result, left⟩
  rw [hjoin] at h
  cases result with
  | error error => cases h
  | ok u =>
    have hkept := join_reservations hjoin
    have henters : Enters t player seat stack left := by
      rcases t.join_cases player seat stack with ⟨error, reservations, he⟩ | ⟨other, he, hseats⟩
      · rw [hjoin] at he
        cases he
      · rw [hjoin] at he
        cases he
        exact hseats.enters
    have hleft : left.seatFree q = (t.seatFree q && q ≠ seat) := by
      rw [Bool.eq_iff_iff, Bool.and_eq_true, seatFree_iff, seatFree_iff, decide_eq_true_eq, hkept]
      by_cases hq : q = seat
      · obtain ⟨st, hst, _⟩ := henters.taken
        subst hq
        simp [hst]
      · simp [hq, henters.others q hq]
    rw [← hleft]
    dsimp only at h
    split_ifs at h
    · cases h
      have hheld : (left.modifySeat seat (entering entry) fun _ => rfl).refreshBetweenHandState.held q = left.held q := by
        rw [held_refresh]
        refine held_modify ?_ q
        exact fun _ => rfl
      rw [Bool.eq_iff_iff, seatFree_iff, seatFree_iff, ← held_none, ← held_none, hheld, refresh_frame]
      rfl
    · cases h
      rfl

/-- Dealing a hand takes and frees no seat. -/
theorem beginHand_seatFree {start : HandStart} (h : t.beginHand = (.ok start, t')) (q : SeatId) :
    t'.seatFree q = t.seatFree q := by
  obtain ⟨_, _, hdealt⟩ := beginHand_started (congrArg Prod.fst h)
  have hleft : t' = t.promoteNaturalBigBlindWaiter.dealHand := by
    rw [← hdealt, h]
  have hheld : t'.held q = t.held q := by
    rw [hleft, held_dealHand, held_promote]
  have hkept : t'.reservations = t.reservations := by
    rw [hleft, dealHand, promote_frame]
  rw [Bool.eq_iff_iff, seatFree_iff, seatFree_iff, hkept, ← held_none, ← held_none, hheld]

end TableLifecycle

namespace TableRegistry

variable {r r' : TableRegistry} {shuffle : Shuffle} {now : Nat} {tableId id : TableId} {handId : HandId}
  {config : PublicTableConfig}
  {session x : GuestSessionId} {requestedSeat : Option SeatId} {op : RegistryOp}

/-- The seat a request gets is found among the free ones. -/
theorem seatFor_free (t : TableLifecycle) (requestedSeat : Option SeatId) : config.seatFor t requestedSeat =
    match requestedSeat with
    | some seat => if seat ∈ config.freeSeats t then some seat else none
    | none => (config.freeSeats t).head? := by
  unfold PublicTableConfig.seatFor PublicTableConfig.freeSeats
  cases requestedSeat with
  | some seat =>
    refine if_congr ?_ rfl rfl
    rw [Bool.and_eq_true, List.mem_filter, TableSize.mem_seats]
    simp [TableSize.contains]
  | none => rw [List.head?_filter]

theorem freeSeats_joined {t t' : TableLifecycle} {player : PlayerId} {seat : SeatId} {stack : Nat} {entry : RingEntryChoice}
    (h : t.joinWithEntry player seat stack entry = (.ok (), t')) : config.freeSeats t' = (config.freeSeats t).erase seat := by
  unfold PublicTableConfig.freeSeats
  rw [List.Nodup.erase_eq_filter (config.seats.nodup_seats.filter _), List.filter_filter]
  refine List.filter_congr fun q _ => ?_
  rw [TableLifecycle.joinWithEntry_seatFree h, Bool.and_comm]
  congr 1
  by_cases hq : q = seat <;> simp [hq]

/-! ## Those let in -/

section admits
variable {waiting : List WaitingEntry} {a a' : Admission}

/-- Whoever is not in the queue keeps route and place. -/
theorem Admits.kept (h : Admits tableId config waiting a a') (hx : x ∉ waiting.map (·.session)) :
    a'.sessions.find? x = a.sessions.find? x ∧ a'.waitingSessions.find? x = a.waitingSessions.find? x := by
  induction h with
  | drained => exact ⟨rfl, rfl⟩
  | waits => exact ⟨rfl, rfl⟩
  | seated entry rest a a' seat lifecycle _ _ _ _ ih =>
    rw [List.map_cons, List.mem_cons, not_or] at hx
    obtain ⟨hsessions, hwaits⟩ := ih hx.2
    exact ⟨hsessions.trans (OrdMap.find_insert_ne hx.1), hwaits.trans (OrdMap.find_erase_ne hx.1)⟩

theorem Admits.erased (h : Admits tableId config waiting a a') (hx : a.waitingSessions.find? x = none) :
    a'.waitingSessions.find? x = none := by
  induction h with
  | drained => exact hx
  | waits => exact hx
  | seated entry rest a a' seat lifecycle _ _ _ _ ih =>
    refine ih ?_
    show (a.waitingSessions.erase entry.session).find? x = none
    rw [OrdMap.find_erase, hx, ite_self]

/-- The first of the queue are let in and taken from the index, the rest go on waiting. -/
theorem Admits.split (h : Admits tableId config waiting a a') (hn : (waiting.map (·.session)).Nodup) :
    ∃ admitted, waiting = admitted ++ a'.waiting ∧ ∀ x, a'.waitingSessions.find? x =
      if x ∈ admitted.map (·.session) then none else a.waitingSessions.find? x := by
  induction h with
  | drained => exact ⟨[], rfl, fun x => by simp⟩
  | waits => exact ⟨[], rfl, fun x => by simp⟩
  | seated entry rest a a' seat lifecycle _ _ _ hrest ih =>
    obtain ⟨hnew, hn⟩ := List.nodup_cons.mp hn
    obtain ⟨admitted, hsplit, hwaits⟩ := ih hn
    refine ⟨entry :: admitted, congrArg (entry :: ·) hsplit, fun x => ?_⟩
    rw [hwaits, List.map_cons]
    show (if x ∈ _ then none else (a.waitingSessions.erase entry.session).find? x) = _
    rw [OrdMap.find_erase]
    by_cases hx : x = entry.session
    · simp [hx]
    · simp [hx]

/-- They are let in in the order of the queue. -/
theorem Admits.order (h : Admits tableId config waiting a a') (hn : (waiting.map (·.session)).Nodup) {route : SessionRoute}
    (hroute : a'.sessions.find? x = some route) : a.sessions.find? x = some route ∨
      x ∈ waiting.map (·.session) ∧ route.tableId = tableId ∧ a.nextPlayerId ≤ route.player.value ∧
        ∀ earlier ∈ waiting.takeWhile (·.session ≠ x), a'.waitingSessions.find? earlier.session = none ∧
          ∃ route', a'.sessions.find? earlier.session = some route' ∧ route'.tableId = tableId ∧
            route'.player.value < route.player.value := by
  induction h with
  | drained => exact Or.inl hroute
  | waits => exact Or.inl hroute
  | seated entry rest a a' seat lifecycle _ _ _ hrest ih =>
    obtain ⟨hnew, hn⟩ := List.nodup_cons.mp hn
    rw [List.map_cons]
    rcases ih hn hroute with hbefore | ⟨hx, htable, hnext, hearlier⟩
    · by_cases hx : x = entry.session
      · subst hx
        have hseated : (a.seated tableId entry seat lifecycle).sessions.find? entry.session =
            some ⟨tableId, ⟨a.nextPlayerId⟩, seat⟩ :=
          OrdMap.find_insert_self
        rw [hseated] at hbefore
        cases hbefore
        refine Or.inr ⟨List.mem_cons_self, rfl, Nat.le_refl _, fun earlier he => ?_⟩
        simp at he
      · exact Or.inl ((OrdMap.find_insert_ne hx).symm.trans hbefore)
    · have hne : entry.session ≠ x := by
        rintro rfl
        exact hnew hx
      have hnext' : a.nextPlayerId + 1 ≤ route.player.value := hnext
      refine Or.inr ⟨List.mem_cons_of_mem _ hx, htable, by omega, fun earlier he => ?_⟩
      rw [List.takeWhile_cons, if_pos (by simpa using hne)] at he
      rcases List.mem_cons.mp he with rfl | he
      · refine ⟨hrest.erased ?_, ⟨tableId, ⟨a.nextPlayerId⟩, seat⟩, ?_, rfl, hnext'⟩
        · exact OrdMap.find_erase.trans (if_pos rfl)
        · exact (hrest.kept hnew).1.trans OrdMap.find_insert_self
      · exact hearlier earlier he

/-- Nobody is left who could be let in. -/
theorem Admits.served (h : Admits tableId config waiting a a')
    (hu : Unblocked (waiting.map (·.requestedSeat)) (config.freeSeats a.lifecycle)) :
    ∀ entry ∈ a'.waiting, config.seatFor a'.lifecycle entry.requestedSeat = none := by
  induction h with
  | drained => exact fun _ h => nomatch h
  | waits entry rest a hnone =>
    intro other hother
    rcases List.mem_cons.mp hother with rfl | hother
    · exact hnone
    rw [seatFor_free] at hnone ⊢
    rw [List.map_cons] at hu
    cases hrequest : entry.requestedSeat with
    | none =>
      rw [hrequest] at hnone
      have hempty : config.freeSeats a.lifecycle = [] := List.head?_eq_none_iff.mp hnone
      rw [show ({ a with waiting := entry :: rest } : Admission).lifecycle = a.lifecycle from rfl, hempty]
      cases other.requestedSeat <;> rfl
    | some seat =>
      rw [hrequest] at hnone hu
      dsimp only at hnone
      split at hnone
      · cases hnone
      rename_i hout
      rw [Unblocked, if_neg hout] at hu
      have hlater := hu other.requestedSeat (List.mem_map_of_mem hother)
      show (match other.requestedSeat with
        | some seat => if seat ∈ config.freeSeats a.lifecycle then some seat else none
        | none => (config.freeSeats a.lifecycle).head?) = none
      cases hother : other.requestedSeat with
      | none =>
        rw [hother] at hlater
        cases hfree : config.freeSeats a.lifecycle with
        | nil => rfl
        | cons q free => exact absurd rfl (hlater q (by rw [hfree]; exact List.mem_cons_self)).1
      | some q =>
        rw [hother] at hlater
        dsimp only
        rw [if_neg]
        exact fun hq => (hlater q hq).2 rfl
  | seated entry rest a a' seat lifecycle hseat _ hjoin _ ih =>
    refine ih ?_
    have hfree : config.freeSeats (a.seated tableId entry seat lifecycle).lifecycle = (config.freeSeats a.lifecycle).erase seat :=
      freeSeats_joined hjoin
    rw [hfree]
    rw [seatFor_free] at hseat
    rw [List.map_cons] at hu
    cases hrequest : entry.requestedSeat with
    | none =>
      rw [hrequest] at hseat hu
      cases hlist : config.freeSeats a.lifecycle with
      | nil =>
        rw [hlist] at hseat
        cases hseat
      | cons q free =>
        rw [hlist] at hseat hu
        obtain rfl : q = seat := Option.some.inj hseat
        rw [List.erase_cons_head]
        exact hu
    | some asked =>
      rw [hrequest] at hseat hu
      dsimp only at hseat
      split at hseat
      · rename_i hin
        cases hseat
        rw [Unblocked, if_pos hin] at hu
        exact hu
      · cases hseat

end admits

/-! ## What holds between calls -/

/-- The invariant: no session stands in a queue twice, and the ids of tables are used once. -/
structure Queued (r : TableRegistry) : Prop where
  index : ∀ session tableId, r.waitingSessions.find? session = some tableId ↔
    ∃ table, r.tables.find? tableId = some table ∧ session ∈ table.queue
  once : ∀ tableId table, r.tables.find? tableId = some table → table.queue.Nodup
  seats : ∀ tableId table, r.tables.find? tableId = some table → ∀ entry ∈ table.waiting, ∀ seat,
    entry.requestedSeat = some seat → table.config.seats.contains seat = true
  fresh : ∀ tableId table, r.tables.find? tableId = some table → tableId.id < r.nextTableId

theorem Queued.agree (hq : r.Queued) : r.QueuesAgree := by
  have hcount : ∀ tableId table, r.tables.find? tableId = some table → ∀ session, table.queue.count session ≤ 1 :=
    fun tableId table htable => List.nodup_iff_count_le_one.mp (hq.once tableId table htable)
  refine ⟨fun session tableId => (hq.index session tableId).trans ?_, hcount, hq.seats⟩
  refine exists_congr fun table => and_congr_right fun htable => ?_
  have hle := hcount tableId table htable session
  rw [← List.count_pos_iff]
  omega

/-- Nobody waits for a table that is not there. -/
theorem Queued.gone (hq : r.Queued) (h : r.tables.find? tableId = none) (session : GuestSessionId) :
    r.waitingSessions.find? session ≠ some tableId := by
  intro hwaits
  obtain ⟨table, htable, _⟩ := (hq.index session tableId).mp hwaits
  rw [h] at htable
  cases htable

/-- Nothing else of the registry matters. -/
theorem Queued.congr (hq : r.Queued) (htables : r'.tables = r.tables) (hwaits : r'.waitingSessions = r.waitingSessions)
    (hnext : r'.nextTableId = r.nextTableId) : r'.Queued := by
  refine ⟨?_, ?_, ?_, ?_⟩
  · rw [hwaits, htables]
    exact hq.index
  · rw [htables]
    exact hq.once
  · rw [htables]
    exact hq.seats
  · rw [htables, hnext]
    exact hq.fresh

theorem Queued.created {table : RegisteredTable} (hq : r.Queued) (hnew : NewTable table) :
    ({ r with nextTableId := r.nextTableId + 1 }.putTable ⟨r.nextTableId⟩ table).bumpRevision.Queued := by
  have hfind : ∀ id found, (r.tables.insert ⟨r.nextTableId⟩ table).find? id = some found →
      (id = ⟨r.nextTableId⟩ ∧ found.waiting = []) ∨ r.tables.find? id = some found := by
    intro id found hfound
    rw [OrdMap.find_insert] at hfound
    split at hfound
    · rename_i hid
      cases hfound
      exact Or.inl ⟨hid, hnew.waiting⟩
    · exact Or.inr hfound
  have hold : ∀ id found, r.tables.find? id = some found → id ≠ ⟨r.nextTableId⟩ := by
    rintro id found hfound rfl
    exact Nat.lt_irrefl _ (hq.fresh _ found hfound)
  refine ⟨fun session id => (hq.index session id).trans ?_, fun id found hfound => ?_, fun id found hfound => ?_,
    fun id found hfound => ?_⟩
  · constructor
    · rintro ⟨found, hfound, hmem⟩
      exact ⟨found, (OrdMap.find_insert_ne (hold id found hfound)).trans hfound, hmem⟩
    · rintro ⟨found, hfound, hmem⟩
      rcases hfind id found hfound with ⟨_, hempty⟩ | hfound
      · rw [RegisteredTable.queue, hempty] at hmem
        cases hmem
      · exact ⟨found, hfound, hmem⟩
  · rcases hfind id found hfound with ⟨_, hempty⟩ | hfound
    · rw [RegisteredTable.queue, hempty]
      exact List.nodup_nil
    · exact hq.once id found hfound
  · rcases hfind id found hfound with ⟨_, hempty⟩ | hfound
    · rw [hempty]
      exact fun _ h => nomatch h
    · exact hq.seats id found hfound
  · rcases hfind id found hfound with ⟨rfl, _⟩ | hfound
    · exact Nat.lt_succ_self _
    · exact Nat.lt_succ_of_lt (hq.fresh id found hfound)

/-- Tables that nobody waits for can go. -/
theorem Queued.removed {keep : TableId → Bool} {revision : Nat} (hq : r.Queued)
    (hempty : ∀ id table, r.tables.find? id = some table → keep id = false → table.waiting = []) :
    Queued { r with tables := r.tables.filterKey keep, revision := revision } := by
  have hfind : ∀ id found, (r.tables.filterKey keep).find? id = some found → r.tables.find? id = some found := by
    intro id found hfound
    rw [OrdMap.find_filterKey] at hfound
    split at hfound
    · exact hfound
    · cases hfound
  refine ⟨fun session id => (hq.index session id).trans ?_, fun id found hfound => hq.once id found (hfind id found hfound),
    fun id found hfound => hq.seats id found (hfind id found hfound),
    fun id found hfound => hq.fresh id found (hfind id found hfound)⟩
  constructor
  · rintro ⟨found, hfound, hmem⟩
    refine ⟨found, ?_, hmem⟩
    cases hkeep : keep id with
    | true => exact (OrdMap.find_filterKey keep).trans ((if_pos hkeep).trans hfound)
    | false =>
      rw [RegisteredTable.queue, hempty id found hfound hkeep] at hmem
      cases hmem
  · rintro ⟨found, hfound, hmem⟩
    exact ⟨found, hfind id found hfound, hmem⟩

/-- A session at the end of a queue. -/
theorem Queued.queued {table : RegisteredTable} (hq : r.Queued) (hnew : r.waitingSessions.find? session = none)
    (htable : r.tables.find? tableId = some table)
    (hseat : ∀ seat, requestedSeat = some seat → table.config.seats.contains seat = true) :
    ({ r with waitingSessions := r.waitingSessions.insert session tableId }.putTable tableId { table with
      waiting := table.waiting ++ [(⟨session, requestedSeat⟩ : WaitingEntry)]
      lastActivity := now }).bumpRevision.Queued := by
  have hout : ∀ id found, r.tables.find? id = some found → session ∉ found.queue := by
    intro id found hfound hmem
    rw [(hq.index session id).mpr ⟨found, hfound, hmem⟩] at hnew
    cases hnew
  have hqueue : RegisteredTable.queue { table with
      waiting := table.waiting ++ [(⟨session, requestedSeat⟩ : WaitingEntry)]
      lastActivity := now } = table.queue ++ [session] := List.map_append
  have hfind : ∀ id found, (r.tables.insert tableId { table with
      waiting := table.waiting ++ [(⟨session, requestedSeat⟩ : WaitingEntry)]
      lastActivity := now }).find? id = some found → (id = tableId ∧ found = { table with
        waiting := table.waiting ++ [(⟨session, requestedSeat⟩ : WaitingEntry)]
        lastActivity := now }) ∨ id ≠ tableId ∧ r.tables.find? id = some found := by
    intro id found hfound
    rw [OrdMap.find_insert] at hfound
    split at hfound
    · rename_i hid
      cases hfound
      exact Or.inl ⟨hid, rfl⟩
    · rename_i hid
      exact Or.inr ⟨hid, hfound⟩
  refine ⟨fun x id => ?_, fun id found hfound => ?_, fun id found hfound => ?_, fun id found hfound => ?_⟩
  · show (r.waitingSessions.insert session tableId).find? x = some id ↔ _
    rw [OrdMap.find_insert]
    by_cases hx : x = session
    · subst hx
      rw [if_pos rfl]
      constructor
      · intro hid
        cases hid
        exact ⟨_, OrdMap.find_insert_self, by rw [hqueue]; exact List.mem_append_right _ (List.mem_singleton_self _)⟩
      · rintro ⟨found, hfound, hmem⟩
        rcases hfind id found hfound with ⟨rfl, _⟩ | ⟨_, hfound⟩
        · rfl
        · exact absurd hmem (hout id found hfound)
    · rw [if_neg hx, hq.index]
      constructor
      · rintro ⟨found, hfound, hmem⟩
        by_cases hid : id = tableId
        · subst hid
          rw [htable] at hfound
          cases hfound
          exact ⟨_, OrdMap.find_insert_self, by rw [hqueue]; exact List.mem_append_left _ hmem⟩
        · exact ⟨found, (OrdMap.find_insert_ne hid).trans hfound, hmem⟩
      · rintro ⟨found, hfound, hmem⟩
        rcases hfind id found hfound with ⟨rfl, rfl⟩ | ⟨_, hfound⟩
        · rw [hqueue] at hmem
          rcases List.mem_append.mp hmem with hmem | hmem
          · exact ⟨table, htable, hmem⟩
          · exact absurd (List.mem_singleton.mp hmem) hx
        · exact ⟨found, hfound, hmem⟩
  · rcases hfind id found hfound with ⟨rfl, rfl⟩ | ⟨_, hfound⟩
    · rw [hqueue, List.nodup_append]
      refine ⟨hq.once _ table htable, List.nodup_singleton _, ?_⟩
      intro x hx y hy
      rw [List.mem_singleton.mp hy]
      rintro rfl
      exact hout _ table htable hx
    · exact hq.once id found hfound
  · rcases hfind id found hfound with ⟨rfl, rfl⟩ | ⟨_, hfound⟩
    · intro entry hentry seat hasked
      rcases List.mem_append.mp hentry with hentry | hentry
      · exact hq.seats _ table htable entry hentry seat hasked
      · rw [List.mem_singleton.mp hentry] at hasked
        exact hseat seat hasked
    · exact hq.seats id found hfound
  · rcases hfind id found hfound with ⟨rfl, _⟩ | ⟨_, hfound⟩
    · exact hq.fresh _ table htable
    · exact hq.fresh id found hfound

/-- Sessions taken from the index and from the front, or any place, of their table's queue. -/
theorem Queued.fewer {table table' : RegisteredTable} {gone : GuestSessionId → Prop} [DecidablePred gone] (hq : r.Queued)
    (htable : r.tables.find? tableId = some table) (htables : r'.tables = r.tables.insert tableId table')
    (hnext : r'.nextTableId = r.nextTableId) (hfewer : table'.waiting.Sublist table.waiting)
    (hconfig : table'.config = table.config) (hleft : ∀ x ∈ table.queue, x ∈ table'.queue ↔ ¬ gone x)
    (hgone : ∀ x, gone x → x ∈ table.queue)
    (hwaits : ∀ x, r'.waitingSessions.find? x = if gone x then none else r.waitingSessions.find? x) : r'.Queued := by
  have hsub : table'.queue.Sublist table.queue := hfewer.map _
  have hfind : ∀ id found, r'.tables.find? id = some found →
      (id = tableId ∧ found = table') ∨ id ≠ tableId ∧ r.tables.find? id = some found := by
    intro id found hfound
    rw [htables, OrdMap.find_insert] at hfound
    split at hfound
    · rename_i hid
      cases hfound
      exact Or.inl ⟨hid, rfl⟩
    · rename_i hid
      exact Or.inr ⟨hid, hfound⟩
  refine ⟨fun x id => ?_, fun id found hfound => ?_, fun id found hfound => ?_, fun id found hfound => ?_⟩
  · rw [hwaits]
    constructor
    · intro hx
      split at hx
      · cases hx
      rename_i hstays
      obtain ⟨found, hfound, hmem⟩ := (hq.index x id).mp hx
      by_cases hid : id = tableId
      · subst hid
        rw [htable] at hfound
        cases hfound
        exact ⟨table', by rw [htables]; exact OrdMap.find_insert_self, (hleft x hmem).mpr hstays⟩
      · exact ⟨found, by rw [htables, OrdMap.find_insert_ne hid]; exact hfound, hmem⟩
    · rintro ⟨found, hfound, hmem⟩
      rcases hfind id found hfound with ⟨rfl, rfl⟩ | ⟨hid, hfound⟩
      · have hbefore := hsub.subset hmem
        rw [if_neg ((hleft x hbefore).mp hmem)]
        exact (hq.index x _).mpr ⟨table, htable, hbefore⟩
      · have hthere := (hq.index x id).mpr ⟨found, hfound, hmem⟩
        rw [if_neg]
        · exact hthere
        · intro hx
          rw [(hq.index x tableId).mpr ⟨table, htable, hgone x hx⟩] at hthere
          exact hid (Option.some.inj hthere).symm
  · rcases hfind id found hfound with ⟨rfl, rfl⟩ | ⟨_, hfound⟩
    · exact (hq.once _ table htable).sublist hsub
    · exact hq.once id found hfound
  · rcases hfind id found hfound with ⟨rfl, rfl⟩ | ⟨_, hfound⟩
    · rw [hconfig]
      exact fun entry hentry => hq.seats _ table htable entry (hfewer.subset hentry)
    · exact hq.seats id found hfound
  · rw [hnext]
    rcases hfind id found hfound with ⟨rfl, _⟩ | ⟨_, hfound⟩
    · exact hq.fresh _ table htable
    · exact hq.fresh id found hfound

/-- A call that leaves the queue of the table it writes. -/
theorem Queued.put {table table' : RegisteredTable} (hq : r.Queued) (htable : r.tables.find? tableId = some table)
    (htables : r'.tables = r.tables.insert tableId table') (hwaits : r'.waitingSessions = r.waitingSessions)
    (hnext : r'.nextTableId = r.nextTableId) (hwaiting : table'.waiting = table.waiting)
    (hconfig : table'.config = table.config) : r'.Queued := by
  refine @Queued.fewer r r' tableId table table' (fun _ => False) _ hq htable htables hnext ?_ hconfig ?_ (fun _ h => h.elim) ?_
  · rw [hwaiting]
  · intro x hx
    rw [RegisteredTable.queue, hwaiting]
    exact ⟨fun _ => not_false, fun _ => hx⟩
  · intro x
    rw [hwaits, if_neg not_false]

/-! ## At the end of a hand -/

/-- Whoever is routed when the departing have left was so before. -/
theorem departed_routes {finished : FinishedHand} {route : SessionRoute}
    (h : (r.departed finished).sessions.find? x = some route) :
    r.sessions.find? x = some route := by
  rw [departed, depart_routes] at h
  split at h
  · cases h
  · exact h

theorem InTurn.unchanged (h : ∀ x route, r'.sessions.find? x = some route → r.sessions.find? x = some route) : r.InTurn r' :=
  fun _ _ x route _ hroute hnew => absurd (h x route hroute) hnew

/-- What a rollover does to those who wait. -/
structure KeepsTurn (r : TableRegistry) (tableId : TableId) (handId : HandId) (result : Except TableRegistryError (Option HandId))
    (r' : TableRegistry) : Prop where
  queued : r'.Queued
  inTurn : r.InTurn r'
  served : ∀ finished next table, r.finishedHand tableId handId = .ok (some finished) → finished.table.tournament = none →
    result = .ok next → r'.tables.find? tableId = some table →
      ∀ entry ∈ table.waiting, table.config.seatFor table.lifecycle entry.requestedSeat = none

/-- A rollover that has seated nobody fails: the departures have gone all the same. -/
theorem Queued.undone {finished : FinishedHand} {a : Admission} {error : TableRegistryError} (hq : r.Queued)
    (hreseat : (r.reseating now tableId finished).2 = a)
    (hnone : finished.table.tournament = none → NoneAdmitted finished.table.config finished.table.waiting
      (finished.table.lifecycle.completeHand finished.finalStacks).2 r.nextPlayerId) :
    r.KeepsTurn tableId handId (.error error) ((r.retired finished).rerouted a) := by
  have hsame : a.waitingSessions = r.waitingSessions ∧
      ∀ x route, a.sessions.find? x = some route → r.sessions.find? x = some route := by
    rw [← hreseat, reseating_eq]
    cases hcash : finished.table.tournament with
    | some controller =>
      rw [Option.isSome_some, if_pos rfl]
      exact ⟨rfl, fun _ _ => departed_routes⟩
    | none =>
      obtain ⟨waiting', hleft⟩ := @admitWaiting_none tableId finished.table.config _ (r.departed finished) (hnone hcash)
      rw [Option.isSome_none, if_neg (by simp), hleft]
      exact ⟨rfl, fun _ _ => departed_routes⟩
  refine ⟨hq.congr rfl hsame.1 rfl, .unchanged hsame.2, fun _ next _ _ _ h => ?_⟩
  cases h

/-- A rollover that goes through. -/
theorem Queued.done {finished : FinishedHand} {a : Admission} {table : RegisteredTable} {next : Option HandId} (hq : r.Queued)
    (hfinished : r.finishedHand tableId handId = .ok (some finished)) (hreseat : r.reseating now tableId finished = (.ok (), a))
    (hunblocked : finished.table.tournament = none → Unblocked (finished.table.waiting.map (·.requestedSeat))
      (finished.table.config.freeSeats (finished.table.lifecycle.completeHand finished.finalStacks).2))
    (hwaiting : table.waiting = a.waiting) (hconfig : table.config = finished.table.config)
    (hfree : ∀ q, table.lifecycle.seatFree q = a.lifecycle.seatFree q)
    (htables : r'.tables = r.tables.insert tableId table) (hwaits : r'.waitingSessions = a.waitingSessions)
    (hsessions : r'.sessions = a.sessions) (hnextId : r'.nextTableId = r.nextTableId) :
    r.KeepsTurn tableId handId (.ok next) r' := by
  obtain ⟨runtime, sample, hfound⟩ := finishedHand_some hfinished
  have htable := hfound.table
  rw [reseating_eq] at hreseat
  cases hcash : finished.table.tournament with
  | some controller =>
    rw [hcash, Option.isSome_some, if_pos rfl] at hreseat
    cases hreseat
    refine ⟨hq.put htable htables hwaits hnextId hwaiting hconfig,
      .unchanged fun x route hroute => departed_routes (by rw [← hsessions]; exact hroute), ?_⟩
    intro other next found hother hnone
    obtain rfl := Option.some.inj (Except.ok.inj (hfinished.symm.trans hother))
    rw [hcash] at hnone
    cases hnone
  | none =>
    rw [hcash, Option.isSome_none, if_neg (by simp)] at hreseat
    have hadmits := admitWaiting_ok hreseat
    have hn : (finished.table.waiting.map (·.session)).Nodup := hq.once tableId _ htable
    obtain ⟨admitted, hsplit, hleft⟩ := hadmits.split hn
    refine ⟨?_, ?_, ?_⟩
    · refine @Queued.fewer r r' tableId finished.table table (fun x => x ∈ admitted.map (·.session)) _ hq htable htables
        hnextId ?_ hconfig ?_ ?_ ?_
      · rw [hwaiting, hsplit]
        exact List.sublist_append_right _ _
      · intro x hx
        rw [RegisteredTable.queue, hwaiting]
        rw [RegisteredTable.queue, hsplit, List.map_append, List.mem_append] at hx
        rw [hsplit, List.map_append, List.nodup_append] at hn
        constructor
        · intro hrest hgone
          exact hn.2.2 x hgone x hrest rfl
        · exact fun hstays => hx.resolve_left hstays
      · intro x hx
        rw [RegisteredTable.queue, hsplit, List.map_append]
        exact List.mem_append_left _ hx
      · intro x
        rw [hwaits, hleft]
        rfl
    · intro id found x route hid hroute hnew hroutesTo earlier hearlier hasked
      rw [hsessions] at hroute ⊢
      rw [hwaits]
      rcases hadmits.order hn hroute with hbefore | ⟨_, hthere, _, hahead⟩
      · exact absurd (departed_routes hbefore) hnew
      · have hsame : id = tableId := hroutesTo.symm.trans hthere
        subst hsame
        rw [htable] at hid
        cases hid
        exact hahead earlier hearlier
    · intro other next found hother _ _ hfoundTable entry hentry
      obtain rfl := Option.some.inj (Except.ok.inj (hfinished.symm.trans hother))
      rw [htables, OrdMap.find_insert_self] at hfoundTable
      cases hfoundTable
      have hserved := hadmits.served (hunblocked hcash) entry (hwaiting ▸ hentry)
      rw [seatFor_free] at hserved ⊢
      have hseats : table.config.freeSeats table.lifecycle = finished.table.config.freeSeats a.lifecycle := by
        rw [PublicTableConfig.freeSeats, PublicTableConfig.freeSeats, hconfig]
        exact List.filter_congr fun q _ => hfree q
      rw [hseats]
      exact hserved

theorem Queued.rolled {result : Except TableRegistryError (Option HandId)} (hq : r.Queued) (hfair : shuffle.Fair)
    (hcareful : RegistryOp.Careful r (.rollover shuffle now tableId handId))
    (hr : RollsOver r shuffle now tableId handId result r') :
    r.KeepsTurn tableId handId result r' := by
  cases hr with
  | refused error h =>
    refine ⟨hq, .unchanged fun _ _ h => h, fun _ next _ _ _ h => ?_⟩
    cases h
  | other h =>
    refine ⟨hq, .unchanged fun _ _ h => h, fun finished next _ hfinished => ?_⟩
    rw [h] at hfinished
    cases hfinished
  | unsettled error finished h hno =>
    refine ⟨hq.congr rfl rfl rfl, .unchanged fun _ _ h => h, fun _ next _ _ _ h => ?_⟩
    cases h
  | unseated error finished a h hsettled hreseat =>
    refine hq.undone (congrArg Prod.snd hreseat) fun hcash => ?_
    rcases (hcareful finished h hcash hsettled).1 with hnone | hpasses
    · exact hnone
    · have hok : (r.reseating now tableId finished).1 = .ok () := reseating_ok_iff.mpr hpasses.queue
      rw [hreseat] at hok
      cases hok
  | unstarted error finished a h hsettled hreseat hrests hstart =>
    refine hq.undone (congrArg Prod.snd hreseat) fun hcash => ?_
    rcases (hcareful finished h hcash hsettled).1 with hnone | hpasses
    · exact hnone
    · have hstarts := hpasses.starts (by rw [hreseat]; exact hrests)
      rw [hreseat] at hstarts
      obtain ⟨started, hok⟩ := (@startHand_iff _ tableId _ _ _ _ _ _ hfair).mpr hstarts
      rw [hstart] at hok
      cases hok
  | rested finished a h hsettled hreseat hrests =>
    exact @Queued.done r _ now tableId handId finished a (finished.reseated now a) none hq h hreseat
      (fun hcash => (hcareful finished h hcash hsettled).2) rfl rfl (fun _ => rfl) rfl rfl rfl rfl
  | started started finished a h hsettled hreseat hrests hstart =>
    refine @Queued.done r _ now tableId handId finished a ((finished.reseated now a).running started) (some started.handId) hq h
      hreseat (fun hcash => (hcareful finished h hcash hsettled).2) rfl rfl (fun q => ?_) rfl rfl rfl rfl
    unfold startHand at hstart
    rcases hbegin : a.lifecycle.beginHand with ⟨result, dealt⟩
    rw [hbegin] at hstart
    cases result with
    | error error => cases hstart
    | ok start =>
      dsimp only at hstart
      split at hstart
      · cases hstart
      split at hstart
      · cases hstart
      split at hstart
      · cases hstart
      · cases hstart
        exact TableLifecycle.beginHand_seatFree hbegin q

/-! ## Every call -/

/-- Only a join or a rollover gives routes. -/
theorem Queued.joined {table table' : RegisteredTable} {seat : SeatId} {nextHandId : Nat} (hq : r.Queued)
    (htable : r.tables.find? tableId = some table) (hwaiting : table'.waiting = table.waiting)
    (hconfig : table'.config = table.config)
    (hfound : table.config.seatFor table.lifecycle requestedSeat = some seat) (hyields : table.Yields session requestedSeat) :
    (r.routed session tableId seat table' nextHandId).Queued ∧ r.InTurn (r.routed session tableId seat table' nextHandId) := by
  refine ⟨hq.put htable rfl rfl rfl hwaiting hconfig, ?_⟩
  intro id found x route hid hroute hnew hroutesTo earlier hearlier hasked
  have hinsert : (r.sessions.insert session ⟨tableId, ⟨r.nextPlayerId⟩, seat⟩).find? x = some route := hroute
  rw [OrdMap.find_insert] at hinsert
  split at hinsert
  · rename_i hx
    subst hx
    cases hinsert
    cases hroutesTo
    rw [htable] at hid
    cases hid
    obtain ⟨hany, hsame⟩ := hyields seat hfound earlier hearlier
    rcases hasked with hasked | hasked
    · exact absurd hasked hany
    · exact absurd hasked hsame
  · exact absurd hinsert hnew

/-- A careful join finds nobody it could overtake. -/
theorem yields_of_careful {table : RegisteredTable} (hcareful : op.Careful r) (hjoin : Joinable r session tableId table)
    (hop : op = .join shuffle now session tableId requestedSeat ∨ ∃ h accessCode,
      op = .joinOrWait h shuffle now session tableId requestedSeat accessCode ∧ r.waitingSessions.find? session = none ∧
        table.allows h accessCode = true) : table.Yields session requestedSeat := by
  rcases hop with rfl | ⟨h, accessCode, rfl, hwaits, hallowed⟩
  · exact hcareful table hjoin.unrouted hjoin.registered hjoin.runtime
  · exact (hcareful table hjoin.unrouted hwaits hjoin.registered hallowed).2 hjoin.runtime

theorem Queued.step (hq : r.Queued) (hfair : op.Fair) (hcareful : op.Careful r) (hl : Leaves r op r') :
    r'.Queued ∧ r.InTurn r' := by
  cases hl with
  | aside op r' hsame =>
    refine ⟨hq.congr hsame.tables hsame.waitingSessions hsame.nextTableId, .unchanged fun x route h => ?_⟩
    rwa [hsame.sessions] at h
  | created op table _ hnew _ => exact ⟨hq.created hnew, .unchanged fun _ _ h => h⟩
  | removed op keep revision hall =>
    refine ⟨hq.removed fun id table htable hgone => ?_, .unchanged fun _ _ h => h⟩
    obtain ⟨hremovable, rfl | hempty⟩ := hall id table htable hgone
    · exact hcareful table htable hremovable
    · exact hempty
  | joined op shuffle now session tableId requestedSeat table seat lifecycle tournament hop hjoin hseating _ =>
    exact hq.joined hjoin.registered rfl rfl hseating.found (yields_of_careful hcareful hjoin hop)
  | joinedAndStarted op shuffle now session tableId requestedSeat table seat lifecycle tournament started hop hjoin
      hseating _ _ =>
    exact hq.joined hjoin.registered rfl rfl hseating.found (yields_of_careful hcareful hjoin hop)
  | queued h shuffle now session tableId requestedSeat accessCode table hrouted hwaits htable hallowed _ =>
    exact ⟨hq.queued hwaits htable (hcareful table hrouted hwaits htable hallowed).1, .unchanged fun _ _ h => h⟩
  | unqueued op now session tableId table _ hwaits htable =>
    refine ⟨?_, .unchanged fun _ _ h => h⟩
    refine @Queued.fewer r _ tableId table _ (fun x => x = session) _ hq htable rfl rfl List.filter_sublist rfl ?_ ?_ ?_
    · intro x hx
      obtain ⟨entry, hentry, rfl⟩ := List.mem_map.mp hx
      constructor
      · intro hmem
        obtain ⟨other, hother, hsame⟩ := List.mem_map.mp hmem
        have hkept := (List.mem_filter.mp hother).2
        rw [hsame] at hkept
        simpa using hkept
      · exact fun hne => List.mem_map.mpr ⟨entry, List.mem_filter.mpr ⟨hentry, by simpa using hne⟩, rfl⟩
    · rintro x rfl
      obtain ⟨found, hfound, hmem⟩ := (hq.index x tableId).mp hwaits
      rw [htable] at hfound
      cases hfound
      exact hmem
    · intro x
      refine OrdMap.find_erase.trans ?_
      by_cases hx : x = session
      · rw [if_pos hx, if_pos hx]
      · rw [if_neg hx, if_neg hx]
  | unregistered op now session tableId table route controller left lifecycle _ _ htable _ _ _ _ _ =>
    refine ⟨hq.put htable rfl rfl rfl rfl rfl, .unchanged fun x route h => ?_⟩
    have herase : (r.sessions.erase session).find? x = some route := h
    rw [OrdMap.find_erase] at herase
    split at herase
    · cases herase
    · exact herase
  | left now session route table lifecycle _ htable _ => exact ⟨hq.put htable rfl rfl rfl rfl rfl, .unchanged fun _ _ h => h⟩
  | rolled shuffle now tableId handId result r' hr =>
    have hkeeps := hq.rolled hfair hcareful hr
    exact ⟨hkeeps.queued, hkeeps.inTurn⟩
  | ticked shuffle now tableId table controller htable _ _ _ =>
    exact ⟨hq.put htable rfl rfl rfl rfl rfl, .unchanged fun _ _ h => h⟩
  | resumed shuffle now tableId table controller started htable _ _ _ _ _ _ =>
    exact ⟨hq.put htable rfl rfl rfl rfl rfl, .unchanged fun _ _ h => h⟩
  | served tableId op table htable => exact ⟨hq.put htable rfl rfl rfl rfl rfl, .unchanged fun _ _ h => h⟩

theorem Queued.keeps (hq : r.Queued) (hfair : op.Fair) (hcareful : op.Careful r) : r.KeepsQueues op := by
  obtain ⟨hnext, hturn⟩ := hq.step hfair hcareful (apply_leaves r op)
  refine ⟨hnext.agree, fun tableId _ _ hgone => hnext.gone hgone, hturn, ?_⟩
  rintro shuffle now tableId handId finished next table rfl hfinished hcash hok htable
  exact (hq.rolled hfair hcareful (rollover_cases r shuffle now tableId handId)).served
    finished next table hfinished hcash hok htable

theorem new_queued {maxTables : Nat} {start : TableRegistry} (h : new maxTables = .ok start) : start.Queued := by
  unfold new at h
  split at h
  · cases h
  split at h
  · cases h
  · cases h
    refine ⟨fun session tableId => ⟨fun h => (by cases h), ?_⟩, fun _ _ h => (by cases h), fun _ _ h => (by cases h),
      fun _ _ h => (by cases h)⟩
    rintro ⟨_, hfound, _⟩
    cases hfound

theorem Queued.run (hq : r.Queued) (ops : List RegistryOp) (hfair : ∀ op ∈ ops, op.Fair)
    (hcareful : ∀ before op after, ops = before ++ op :: after → op.Careful (r.run before)) :
    (r.run ops).Queued ∧ ∀ before op after, ops = before ++ op :: after → (r.run before).KeepsQueues op := by
  induction ops generalizing r with
  | nil =>
    refine ⟨hq, fun before op after h => ?_⟩
    simp at h
  | cons op ops ih =>
    have hfirst := hcareful [] op ops rfl
    have hnow := hq.keeps (hfair op List.mem_cons_self) hfirst
    have hstep := (hq.step (hfair op List.mem_cons_self) hfirst (apply_leaves r op)).1
    obtain ⟨hlast, hkeeps⟩ := ih hstep (fun op hop => hfair op (List.mem_cons_of_mem _ hop)) fun before op' after h =>
      hcareful (op :: before) op' after (congrArg (op :: ·) h)
    refine ⟨hlast, fun before op' after h => ?_⟩
    cases before with
    | nil =>
      cases h
      exact hnow
    | cons op'' before =>
      cases h
      exact hkeeps before op' after rfl

/-- In every run of careful calls queues and index agree, and each call keeps them: nobody waits for a table that is gone,
    nobody is overtaken, nobody is held up. -/
theorem run_queues {maxTables : Nat} {start : TableRegistry} (hnew : new maxTables = .ok start) (ops : List RegistryOp)
    (hfair : ∀ op ∈ ops, op.Fair) (hcareful : ∀ before op after, ops = before ++ op :: after → op.Careful (start.run before)) :
    (start.run ops).QueuesAgree ∧ ∀ before op after, ops = before ++ op :: after → (start.run before).KeepsQueues op := by
  obtain ⟨hlast, hkeeps⟩ := (new_queued hnew).run ops hfair hcareful
  exact ⟨hlast.agree, hkeeps⟩

/-- Three seats, and no hand before all are taken. -/
def trio : PublicTableConfig := ⟨"trio", .three, 100, 3, .publicTable, none⟩

/-- The first player sits at seat 0, the second waits for it. -/
def bobWaits : List RegistryOp :=
  [.create constantHashes [] 0 trio none, .joinOrWait constantHashes cutDeck 0 ⟨"ann"⟩ ⟨1⟩ (some 0) none,
    .joinOrWait constantHashes cutDeck 0 ⟨"bob"⟩ ⟨1⟩ (some 0) none]

theorem careful_cons {ops : List RegistryOp} (hfirst : op.Careful r)
    (hrest : ∀ before op' after, ops = before ++ op' :: after → op'.Careful ((op.apply r).run before)) :
    ∀ before op' after, op :: ops = before ++ op' :: after → op'.Careful (r.run before) := by
  intro before op' after h
  cases before with
  | nil =>
    cases h
    exact hfirst
  | cons op'' before =>
    cases h
    exact hrest before op' after rfl

theorem run_queues_bob_waits : ∃ start, new 1 = .ok start ∧ (start.run bobWaits).QueuesAgree := by
  have hrun : ((new 1).toOption.map fun start =>
      (((start.run (bobWaits.take 1)).tables.find? ⟨1⟩).all fun table => table.waiting.isEmpty && table.config.seats.contains 0,
        ((start.run (bobWaits.take 2)).tables.find? ⟨1⟩).all fun table =>
          table.config.seats.contains 0 && (table.config.seatFor table.lifecycle (some 0)).isNone)) = some (true, true) := by
    decide +kernel
  cases hnew : new 1 with
  | error error =>
    rw [hnew] at hrun
    cases hrun
  | ok start =>
    rw [hnew] at hrun
    simp only [Except.toOption, Option.map_some, Option.some.injEq, Prod.mk.injEq] at hrun
    obtain ⟨hann, hbob⟩ := hrun
    refine ⟨start, rfl, (run_queues hnew bobWaits ?_ ?_).1⟩
    · intro op hop
      simp only [bobWaits, List.mem_cons, List.not_mem_nil, or_false] at hop
      rcases hop with rfl | rfl | rfl
      · trivial
      · exact cutDeck_fair
      · exact cutDeck_fair
    · refine careful_cons trivial (careful_cons ?_ (careful_cons ?_ fun before op after h => ?_))
      · intro table _ _ htable _
        have hfound : (start.run (bobWaits.take 1)).tables.find? ⟨1⟩ = some table := htable
        rw [hfound, Option.all_some, Bool.and_eq_true] at hann
        have hempty : table.waiting = [] := by simpa using hann.1
        refine ⟨fun seat hseat => ?_, fun _ seat _ entry hentry => ?_⟩
        · cases hseat
          exact hann.2
        · rw [hempty] at hentry
          cases hentry
      · intro table _ _ htable _
        have hfound : (start.run (bobWaits.take 2)).tables.find? ⟨1⟩ = some table := htable
        rw [hfound, Option.all_some, Bool.and_eq_true] at hbob
        have htaken : table.config.seatFor table.lifecycle (some 0) = none := by simpa using hbob.2
        refine ⟨fun seat hseat => ?_, fun _ seat hgiven => ?_⟩
        · cases hseat
          exact hbob.1
        · rw [htaken] at hgiven
          cases hgiven
      · simp at h

/-- A session asks for a seat that the table does not have. -/
def strayWaits : List RegistryOp :=
  [.create constantHashes [] 0 trio none, .joinOrWait constantHashes cutDeck 0 ⟨"ann"⟩ ⟨1⟩ (some 5) none]

/-- The first player leaves the seat that the second waits for. -/
def annLeaves : List RegistryOp := bobWaits ++ [.requestLeave 0 ⟨"ann"⟩]

/-- A third session asks for it. -/
def cidJoins : RegistryOp := .joinOrWait constantHashes cutDeck 0 ⟨"cid"⟩ ⟨1⟩ (some 0) none

/-- The first waits for a seat that is none of the table's, then for a table that is gone; and the third takes the seat
    the second waits for. -/
theorem stray_overtaken : ∃ start, new 1 = .ok start ∧ ¬ (start.run strayWaits).QueuesAgree ∧
    (start.run (strayWaits ++ [.closeAndRemove ⟨1⟩])).tables.find? ⟨1⟩ = none ∧
    (start.run (strayWaits ++ [.closeAndRemove ⟨1⟩])).waitingSessions.find? ⟨"ann"⟩ = some ⟨1⟩ ∧
    ¬ (start.run (strayWaits ++ [.closeAndRemove ⟨1⟩])).QueuesAgree ∧
    ¬ (start.run annLeaves).InTurn (cidJoins.apply (start.run annLeaves)) := by
  have hwaits : ((new 1).toOption.map fun start => ((start.run strayWaits).tables.find? ⟨1⟩).any fun table =>
      table.waiting.any fun entry => entry.requestedSeat == some 5 && !table.config.seats.contains 5) = some true := by
    decide +kernel
  have hcloses : ((new 1).toOption.map fun start => (start.run (strayWaits ++ [.closeAndRemove ⟨1⟩]))).map (fun r =>
      ((r.tables.find? ⟨1⟩).isNone, r.waitingSessions.find? ⟨"ann"⟩)) = some (true, some ⟨1⟩) := by
    decide +kernel
  have hleaves : ((new 1).toOption.map fun start => start.run annLeaves).map (fun r =>
      ((r.tables.find? ⟨1⟩).map (·.waiting), r.sessions.find? ⟨"cid"⟩)) = some (some [⟨⟨"bob"⟩, some 0⟩], none) := by
    decide +kernel
  have hjoins : ((new 1).toOption.map fun start => cidJoins.apply (start.run annLeaves)).map (fun r =>
      (r.sessions.find? ⟨"cid"⟩, r.waitingSessions.find? ⟨"bob"⟩)) = some (some ⟨⟨1⟩, ⟨2⟩, 0⟩, some ⟨1⟩) := by
    decide +kernel
  cases hnew : new 1 with
  | error error =>
    rw [hnew] at hwaits
    cases hwaits
  | ok start =>
    rw [hnew] at hwaits hcloses hleaves hjoins
    simp only [Except.toOption, Option.map_some, Option.some.injEq, Prod.mk.injEq] at hwaits hcloses hleaves hjoins
    have hgone := Option.isNone_iff_eq_none.mp hcloses.1
    refine ⟨start, rfl, fun hagree => ?_, hgone, hcloses.2, fun hagree => ?_, fun hturn => ?_⟩
    · obtain ⟨table, htable, hany⟩ := (Option.any_eq_true _ _).mp hwaits
      obtain ⟨entry, hentry, hseat⟩ := List.any_eq_true.mp hany
      rw [Bool.and_eq_true, beq_iff_eq, Bool.not_eq_true'] at hseat
      have hin := hagree.seats ⟨1⟩ table htable entry hentry 5 hseat.1
      rw [hseat.2] at hin
      cases hin
    · obtain ⟨other, hother, _⟩ := (hagree.index _ _).mp hcloses.2
      rw [hgone] at hother
      cases hother
    · obtain ⟨table, htable, hwaiting⟩ := Option.map_eq_some_iff.mp hleaves.1
      have hahead : (⟨⟨"bob"⟩, some 0⟩ : WaitingEntry) ∈ table.waiting.takeWhile (·.session ≠ ⟨"cid"⟩) := by
        rw [hwaiting]
        decide
      have hnotin : ((start.run annLeaves).sessions.find? ⟨"cid"⟩) = none := hleaves.2
      obtain ⟨hnone, _⟩ := hturn ⟨1⟩ table ⟨"cid"⟩ _ htable hjoins.1 (by rw [hnotin]; simp) rfl _ hahead (Or.inr rfl)
      rw [hjoins.2] at hnone
      cases hnone

end TableRegistry

end OpenFelt
