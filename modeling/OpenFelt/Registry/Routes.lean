/-
  OpenFelt.Registry.Routes — which session plays which seat (`src/table_registry.rs`).

  A session's route names its table, its player and its seat; the table's map of seats names
  the session; the lifecycle seats the player; a departure is noted until the hand ends. The
  four are written apart.

  Proved of every run (`run_routes`): they agree, and who loses the seat can join again, as
  long as
  - a player leaves only during a hand,
  - a session that waits in a queue does not join,
  - a rollover that fails late has nobody to let go or to let in.
-/

import OpenFelt.Registry.Queues

namespace OpenFelt

namespace TableRegistry

variable (r : TableRegistry)

/-- Routes, seats and players agree. -/
structure RoutesAgree : Prop where
  seats : ∀ tableId table, r.tables.find? tableId = some table → ∀ seat session,
    table.seatSessions.find? seat = some session ↔ ∃ route, r.sessions.find? session = some route ∧ route.tableId = tableId ∧
      route.seat = seat ∧ table.lifecycle.playerAt seat = some route.player
  /-- No session is routed to a table that is gone, or to a seat that another has or nobody. -/
  vacated : ∀ session route, r.sessions.find? session = some route → ∃ table, r.tables.find? route.tableId = some table ∧
    table.lifecycle.playerAt route.seat = some route.player
  once : ∀ x y route route', r.sessions.find? x = some route → r.sessions.find? y = some route' →
    route.tableId = route'.tableId → route.seat = route'.seat → x = y

/-- Whose player the call takes from the seat can join again. -/
def FreesDeparted (op : RegistryOp) : Prop :=
  ∀ session route table table', r.sessions.find? session = some route → r.tables.find? route.tableId = some table →
    (op.apply r).tables.find? route.tableId = some table' → table'.lifecycle.playerAt route.seat ≠ some route.player →
      (op.apply r).sessions.find? session = none ∧ ∀ shuffle now tableId requestedSeat message,
        ((op.apply r).join shuffle now session tableId requestedSeat).1 ≠ .error ⟨.sessionAlreadyRouted, message⟩

/-- Nobody leaves and nobody is let in when the hand is over. -/
def Idles (finished : FinishedHand) : Prop :=
  (∀ session ∈ finished.table.pendingDepartures.keys, r.sessions.find? session = none) ∧
    (finished.table.tournament = none → NoneAdmitted finished.table.config finished.table.waiting
      (finished.table.lifecycle.completeHand finished.finalStacks).2 r.nextPlayerId)

end TableRegistry

/-- The call does none of what parts the routes from the seats. -/
def RegistryOp.Tidy (r : TableRegistry) : RegistryOp → Prop
  | join _ _ session tableId requestedSeat =>
    ∀ table, r.sessions.find? session = none → r.tables.find? tableId = some table → table.runtime = none →
      table.config.seatFor table.lifecycle requestedSeat ≠ none →
      ∀ other found, r.tables.find? other = some found → session ∉ found.queue
  | requestLeave _ session =>
    ∀ route table, r.sessions.find? session = some route → r.tables.find? route.tableId = some table →
      table.lifecycle.handActive = true
  | rollover shuffle now tableId handId =>
    ∀ finished, r.finishedHand tableId handId = .ok (some finished) →
      TableRegistry.Settled finished.table (finished.elapsed now) finished.finalStacks →
      r.Passes shuffle now tableId finished ∨ r.Idles finished
  | _ => True

namespace TableRegistry

variable {r r' : TableRegistry} {shuffle : Shuffle} {now : Nat} {tableId id : TableId} {handId : HandId}
  {session x : GuestSessionId} {requestedSeat : Option SeatId} {op : RegistryOp} {table table' : RegisteredTable}
  {routes routes' : OrdMap GuestSessionId SessionRoute} {index index' : OrdMap GuestSessionId TableId}
  {seat : SeatId} {player : PlayerId} {lifecycle : TableLifecycle}

/-! ## One table -/

/-- A table agrees with the routes and the queues' index. -/
structure Housed (routes : OrdMap GuestSessionId SessionRoute) (index : OrdMap GuestSessionId TableId) (id : TableId)
    (table : RegisteredTable) : Prop where
  plain : table.lifecycle.Plain
  idle : table.runtime = none → table.lifecycle.activeHand = none
  seats : ∀ seat session, table.seatSessions.find? seat = some session ↔
    ∃ player, routes.find? session = some ⟨id, player, seat⟩
  seated : ∀ session player seat, routes.find? session = some ⟨id, player, seat⟩ → table.lifecycle.playerAt seat = some player
  departing : ∀ session, table.pendingDepartures.contains session = true ↔
    ∃ player seat, routes.find? session = some ⟨id, player, seat⟩ ∧ table.lifecycle.pending.contains player = true
  queue : ∀ session ∈ table.queue, routes.find? session = none ∧ index.find? session = some id
  once : table.queue.Nodup

/-- Between hands nobody is about to leave. -/
theorem Housed.stays (h : Housed routes index id table) (hidle : table.lifecycle.activeHand = none) (x : GuestSessionId) :
    table.pendingDepartures.contains x = false := by
  rw [Bool.eq_false_iff]
  intro hx
  obtain ⟨player, seat, _, hpending⟩ := (h.departing x).mp hx
  rw [h.plain.idle hidle] at hpending
  cases hpending

/-- A table with the same players and sessions. -/
theorem Housed.same (h : Housed routes index id table) (hplain : table'.lifecycle.Plain)
    (hidle : table'.runtime = none → table'.lifecycle.activeHand = none)
    (hplayers : ∀ q, table'.lifecycle.playerAt q = table.lifecycle.playerAt q)
    (hpending : table'.lifecycle.pending = table.lifecycle.pending) (hseats : table'.seatSessions = table.seatSessions)
    (hdepartures : table'.pendingDepartures = table.pendingDepartures) (hwaiting : table'.waiting = table.waiting) :
    Housed routes index id table' := by
  have hqueue : table'.queue = table.queue := congrArg (List.map _) hwaiting
  refine ⟨hplain, hidle, ?_, ?_, ?_, ?_, ?_⟩
  · rw [hseats]
    exact h.seats
  · intro session player seat hroute
    rw [hplayers]
    exact h.seated session player seat hroute
  · rw [hdepartures, hpending]
    exact h.departing
  · rw [hqueue]
    exact h.queue
  · rw [hqueue]
    exact h.once

/-- What happens to sessions elsewhere. -/
theorem Housed.elsewhere (h : Housed routes index id table)
    (hroutes : ∀ x route, route.tableId = id → (routes'.find? x = some route ↔ routes.find? x = some route))
    (hqueue : ∀ session ∈ table.queue, routes'.find? session = none ∧ index'.find? session = some id) :
    Housed routes' index' id table := by
  refine ⟨h.plain, h.idle, fun seat session => (h.seats seat session).trans ?_, fun session player seat hroute => ?_,
    fun session => (h.departing session).trans ?_, hqueue, h.once⟩
  · exact exists_congr fun player => (hroutes session _ rfl).symm
  · exact h.seated session player seat ((hroutes session _ rfl).mp hroute)
  · exact exists_congr fun player => exists_congr fun seat => and_congr_left fun _ => (hroutes session _ rfl).symm

/-- A session that has no route sits down, out of the queue or not. -/
theorem Housed.enters (h : Housed routes index id table) (hnew : routes.find? session = none)
    (henters : TableLifecycle.Enters table.lifecycle player seat table.config.startingStack lifecycle)
    (hplain : lifecycle.Plain) (hlifecycle : table'.lifecycle = lifecycle)
    (hseats : table'.seatSessions = table.seatSessions.insert seat session)
    (hdepartures : table'.pendingDepartures = table.pendingDepartures) (hwaiting : table'.waiting.Sublist table.waiting)
    (hout : session ∉ table'.queue) (hroutes : routes' = routes.insert session ⟨id, player, seat⟩)
    (hindex : ∀ x ∈ table'.queue, index'.find? x = index.find? x) : Housed routes' index' id table' := by
  subst hroutes
  have hplayers := henters.playerAt
  have hfree : ∀ x player, routes.find? x ≠ some ⟨id, player, seat⟩ := by
    intro x player hx
    have hat := h.seated x player seat hx
    rw [TableLifecycle.playerAt_none.mpr henters.free] at hat
    cases hat
  have hkept : ∀ x, x ≠ session → (routes.insert session ⟨id, player, seat⟩).find? x = routes.find? x :=
    fun x hx => OrdMap.find_insert_ne hx
  have hqueue : table'.queue.Sublist table.queue := hwaiting.map _
  refine ⟨hlifecycle ▸ hplain, fun _ => by rw [hlifecycle]; exact henters.idle', fun q x => ?_, fun x other q hroute => ?_,
    fun x => ?_, fun x hx => ?_, h.once.sublist hqueue⟩
  · rw [hseats, OrdMap.find_insert]
    by_cases hx : x = session
    · subst hx
      rw [OrdMap.find_insert_self]
      constructor
      · intro hq
        split at hq
        · rename_i hseat
          exact ⟨player, by rw [hseat]⟩
        · obtain ⟨other, hother⟩ := (h.seats q x).mp hq
          rw [hnew] at hother
          cases hother
      · rintro ⟨other, hother⟩
        cases hother
        exact if_pos rfl
    · rw [hkept x hx]
      constructor
      · intro hq
        split at hq
        · exact absurd (Option.some.inj hq).symm hx
        · exact (h.seats q x).mp hq
      · intro hq
        rw [if_neg]
        · exact (h.seats q x).mpr hq
        · rintro rfl
          obtain ⟨other, hother⟩ := hq
          exact hfree x other hother
  · rw [hlifecycle, hplayers]
    by_cases hx : x = session
    · subst hx
      rw [OrdMap.find_insert_self] at hroute
      cases hroute
      exact if_pos rfl
    · rw [hkept x hx] at hroute
      rw [if_neg]
      · exact h.seated x other q hroute
      · rintro rfl
        exact hfree x other hroute
  · have hpending : table'.lifecycle.pending = .empty := by
      rw [hlifecycle]
      exact hplain.idle henters.idle'
    rw [hdepartures, h.stays henters.idle, hpending]
    constructor
    · intro hx
      cases hx
    · rintro ⟨_, _, _, hx⟩
      cases hx
  · obtain ⟨hunrouted, hwaits⟩ := h.queue x (hqueue.subset hx)
    refine ⟨?_, (hindex x hx).trans hwaits⟩
    rw [hkept]
    · exact hunrouted
    · rintro rfl
      exact hout hx

/-- A session's player is taken from the seat between hands, and the session with it. -/
theorem Housed.released (h : Housed routes index id table) (hroute : routes.find? session = some ⟨id, player, seat⟩)
    (hidle : table.lifecycle.activeHand = none) (hlifecycle : table'.lifecycle =
      (table.lifecycle.applyTransition player .leave).refreshBetweenHandState)
    (hseats : table'.seatSessions = table.seatSessions.erase seat)
    (hdepartures : table'.pendingDepartures = table.pendingDepartures) (hwaiting : table'.waiting = table.waiting) :
    Housed (routes.erase session) index id table' := by
  have hplain := h.plain.vacated hidle player
  have hidle' : table'.lifecycle.activeHand = none := by
    rw [hlifecycle, TableLifecycle.refresh_frame, TableLifecycle.applyTransition_frame]
    exact hidle
  have hplayers : ∀ q, table'.lifecycle.playerAt q =
      if table.lifecycle.playerAt q = some player then none else table.lifecycle.playerAt q := by
    intro q
    rw [hlifecycle, TableLifecycle.playerAt, TableLifecycle.refresh_seats, TableLifecycle.applyTransition_leave]
    split
    · rfl
    · rfl
  have hqueue : table'.queue = table.queue := congrArg (List.map _) hwaiting
  have hat := h.seated session player seat hroute
  refine ⟨hlifecycle ▸ hplain, fun _ => hidle', fun q x => ?_, fun x other q hother => ?_, fun x => ?_, fun x hx => ?_,
    hqueue ▸ h.once⟩
  · rw [hseats, OrdMap.find_erase, OrdMap.find_erase]
    by_cases hx : x = session
    · subst hx
      rw [if_pos rfl]
      constructor
      · intro hq
        split at hq
        · cases hq
        · obtain ⟨other, hother⟩ := (h.seats q x).mp hq
          rw [hroute] at hother
          cases hother
          contradiction
      · rintro ⟨_, hother⟩
        cases hother
    · rw [if_neg hx]
      constructor
      · intro hq
        split at hq
        · cases hq
        · exact (h.seats q x).mp hq
      · intro hq
        rw [if_neg]
        · exact (h.seats q x).mpr hq
        · rintro rfl
          have hsame := (h.seats q x).mpr hq
          rw [(h.seats q session).mpr ⟨player, hroute⟩] at hsame
          exact hx (Option.some.inj hsame).symm
  · rw [OrdMap.find_erase] at hother
    split at hother
    · cases hother
    rename_i hx
    have hthere := h.seated x other q hother
    rw [hplayers, if_neg]
    · exact hthere
    · intro hsame
      obtain rfl := TableLifecycle.playerAt_inj hsame hat
      have hfound := (h.seats q x).mpr ⟨other, hother⟩
      rw [(h.seats q session).mpr ⟨player, hroute⟩] at hfound
      exact hx (Option.some.inj hfound).symm
  · have hpending : table'.lifecycle.pending = .empty := by
      rw [hlifecycle]
      exact hplain.idle (hlifecycle ▸ hidle')
    rw [hdepartures, h.stays hidle, hpending]
    constructor
    · intro hx
      cases hx
    · rintro ⟨_, _, _, hx⟩
      cases hx
  · rw [hqueue] at hx
    obtain ⟨hunrouted, hwaits⟩ := h.queue x hx
    refine ⟨?_, hwaits⟩
    rw [OrdMap.find_erase, hunrouted, ite_self]

/-- A departure is noted until the hand ends. -/
theorem Housed.noted (h : Housed routes index id table) (hroute : routes.find? session = some ⟨id, player, seat⟩)
    (hactive : table.lifecycle.handActive = true) : Housed routes index id { table with
      lifecycle := { table.lifecycle with pending := table.lifecycle.pending.insert player .leave }
      pendingDepartures := table.pendingDepartures.insert session ()
      lastActivity := now } := by
  refine ⟨h.plain.noted hactive player, h.idle, h.seats, h.seated, fun x => ?_, h.queue, h.once⟩
  have hplayers : ∀ other, (table.lifecycle.pending.insert player .leave).contains other = true ↔
      other = player ∨ table.lifecycle.pending.contains other = true := by
    intro other
    rw [OrdMap.contains, OrdMap.find_insert]
    by_cases hother : other = player
    · simp [hother]
    · rw [if_neg hother]
      simp [hother, OrdMap.contains]
  have hdepartures : (table.pendingDepartures.insert session ()).contains x = true ↔
      x = session ∨ table.pendingDepartures.contains x = true := by
    rw [OrdMap.contains, OrdMap.find_insert]
    by_cases hx : x = session
    · simp [hx]
    · rw [if_neg hx]
      simp [hx, OrdMap.contains]
  show (table.pendingDepartures.insert session ()).contains x = true ↔ _
  rw [hdepartures, h.departing]
  constructor
  · rintro (rfl | ⟨other, q, hx, hpending⟩)
    · exact ⟨player, seat, hroute, (hplayers player).mpr (Or.inl rfl)⟩
    · exact ⟨other, q, hx, (hplayers other).mpr (Or.inr hpending)⟩
  · rintro ⟨other, q, hx, hpending⟩
    rcases (hplayers other).mp hpending with rfl | hpending
    · have hat := h.seated x other q hx
      obtain rfl := TableLifecycle.playerAt_inj hat (h.seated session other seat hroute)
      have hfound := (h.seats q x).mpr ⟨other, hx⟩
      rw [(h.seats q session).mpr ⟨other, hroute⟩] at hfound
      exact Or.inl (Option.some.inj hfound).symm
    · exact Or.inr ⟨other, q, hx, hpending⟩

/-! ## The end of a hand -/

section hands
variable {finished : FinishedHand} {a a' : Admission} {waiting : List WaitingEntry}

/-- The table with those who left gone, while the queue is let in. -/
def FinishedHand.between (finished : FinishedHand) (a : Admission) (waiting : List WaitingEntry) : RegisteredTable :=
  { finished.table with
    lifecycle := a.lifecycle
    seatSessions := a.seatSessions
    waiting := waiting
    pendingDepartures := .empty
    runtime := none }

/-- Who leaves gives up route and seat together. -/
theorem Housed.departed (h : Housed r.sessions r.waitingSessions id finished.table)
    (hsettled : finished.table.lifecycle.Takes finished.finalStacks) :
    Housed (r.departed finished).sessions r.waitingSessions id
      (finished.between (r.departed finished) finished.table.waiting) := by
  obtain ⟨hplain, hsettles⟩ := TableLifecycle.completeHand_settles h.plain
    (Prod.ext (TableLifecycle.completeHand_ok_iff.mpr hsettled) rfl)
  have hleaves : ∀ x, x ∈ finished.table.pendingDepartures.keys ↔ ∃ player seat,
      r.sessions.find? x = some ⟨id, player, seat⟩ ∧ finished.table.lifecycle.pending.contains player = true := by
    intro x
    rw [← h.departing, OrdMap.mem_keys, OrdMap.contains_iff]
  have hroutes : ∀ x, (r.departed finished).sessions.find? x =
      if x ∈ finished.table.pendingDepartures.keys then none else r.sessions.find? x := fun x => depart_routes
  have hstays : ∀ {x player seat}, x ∉ finished.table.pendingDepartures.keys → r.sessions.find? x = some ⟨id, player, seat⟩ →
      (r.departed finished).lifecycle.playerAt seat = some player := by
    intro x player seat hx hroute
    have hat := h.seated x player seat hroute
    refine (hsettles.playerAt seat).trans ((if_neg ?_).trans hat)
    intro hleaving
    rw [TableLifecycle.leavingAt, hat, Option.any_some] at hleaving
    exact hx ((hleaves x).mpr ⟨player, seat, hroute, hleaving⟩)
  refine ⟨hplain, fun _ => hsettles.idle, fun q x => ?_, fun x player q hroute => ?_, fun x => ?_, fun x hx => ?_, h.once⟩
  · show ((depart finished.table.pendingDepartures.keys r.sessions finished.table.seatSessions).2.filterKey _).find? q = _ ↔ _
    rw [OrdMap.find_filterKey, depart_seats finished.table.pendingDepartures.nodup_keys, hroutes]
    constructor
    · intro hq
      split at hq
      · split at hq
        · cases hq
        rename_i hgone
        obtain ⟨player, hroute⟩ := (h.seats q x).mp hq
        refine ⟨player, (if_neg ?_).trans hroute⟩
        exact fun hx => hgone ⟨x, hx, _, hroute, rfl⟩
      · cases hq
    · rintro ⟨player, hroute⟩
      split at hroute
      · cases hroute
      rename_i hx
      have hfound := (h.seats q x).mpr ⟨player, hroute⟩
      rw [if_pos, if_neg]
      · exact hfound
      · rintro ⟨y, hy, route, hother, rfl⟩
        obtain ⟨other, seat, hthere, _⟩ := (hleaves y).mp hy
        rw [hother] at hthere
        cases hthere
        rw [(h.seats _ y).mpr ⟨other, hother⟩] at hfound
        exact hx (Option.some.inj hfound ▸ hy)
      · obtain ⟨st, hst, _⟩ := TableLifecycle.playerAt_some.mp (hstays hx hroute)
        exact Option.isSome_iff_exists.mpr ⟨st, hst⟩
  · rw [hroutes] at hroute
    split at hroute
    · cases hroute
    · exact hstays ‹_› hroute
  · have hpending : (finished.between (r.departed finished) finished.table.waiting).lifecycle.pending = .empty := hsettles.pending
    rw [hpending]
    constructor
    · intro hx
      cases hx
    · rintro ⟨_, _, _, hx⟩
      cases hx
  · obtain ⟨hunrouted, hwaits⟩ := h.queue x hx
    refine ⟨?_, hwaits⟩
    rw [hroutes, hunrouted, ite_self]

/-- Whoever is let in gets route and seat together. -/
theorem Admits.housed (hadmits : Admits id finished.table.config waiting a a')
    (h : Housed a.sessions a.waitingSessions id (finished.between a waiting)) :
    Housed a'.sessions a'.waitingSessions id (finished.between a' a'.waiting) := by
  induction hadmits with
  | drained => exact h
  | waits => exact h
  | seated entry rest a a' seat lifecycle _ _ hjoin _ ih =>
    obtain ⟨hplain, henters⟩ := TableLifecycle.joinWithEntry_enters h.plain hjoin
    have hfirst : (entry.session :: rest.map (·.session)).Nodup := h.once
    obtain ⟨hout, _⟩ := List.nodup_cons.mp hfirst
    refine ih (h.enters (h.queue entry.session List.mem_cons_self).1 henters hplain rfl rfl rfl (List.sublist_cons_self _ _) hout
      rfl fun x hx => OrdMap.find_erase_ne ?_)
    rintro rfl
    exact hout hx

/-- What a rollover that goes through does to the routes. -/
theorem Housed.reseated (h : Housed r.sessions r.waitingSessions id finished.table)
    (hsettled : finished.table.lifecycle.Takes finished.finalStacks) (hreseat : r.reseating now id finished = (.ok (), a)) :
    Housed a.sessions a.waitingSessions id (finished.reseated now a) ∧
      (∀ x route, a.sessions.find? x = some route → r.sessions.find? x = some route ∨
        r.sessions.find? x = none ∧ x ∈ finished.table.queue ∧ route.tableId = id) ∧
      (∀ x route, route.tableId ≠ id → r.sessions.find? x = some route → a.sessions.find? x = some route) ∧
      ∀ x, x ∉ finished.table.queue → a.waitingSessions.find? x = r.waitingSessions.find? x := by
  have hdeparted := h.departed hsettled
  have hstays : ∀ x route, route.tableId ≠ id → r.sessions.find? x = some route →
      (r.departed finished).sessions.find? x = some route := by
    intro x route hid hroute
    refine depart_routes.trans ((if_neg ?_).trans hroute)
    intro hx
    obtain ⟨value, hvalue⟩ := OrdMap.mem_keys.mp hx
    obtain ⟨player, seat, hthere, _⟩ := (h.departing x).mp (OrdMap.contains_iff.mpr ⟨value, hvalue⟩)
    rw [hroute] at hthere
    cases hthere
    exact hid rfl
  rw [reseating_eq] at hreseat
  cases hcash : finished.table.tournament with
  | some controller =>
    rw [hcash, Option.isSome_some, if_pos rfl] at hreseat
    cases hreseat
    refine ⟨hdeparted.same hdeparted.plain hdeparted.idle (fun _ => rfl) rfl rfl rfl rfl,
      fun x route hroute => Or.inl (departed_routes hroute), hstays, fun _ _ => rfl⟩
  | none =>
    rw [hcash, Option.isSome_none, if_neg (by simp)] at hreseat
    have hadmits := admitWaiting_ok hreseat
    have hhoused := hadmits.housed hdeparted
    refine ⟨hhoused.same hhoused.plain hhoused.idle (fun _ => rfl) rfl rfl rfl rfl, fun x route hroute => ?_,
      fun x route hid hroute => ?_, fun x hx => (hadmits.kept hx).2⟩
    · rcases hadmits.order h.once hroute with hbefore | ⟨hx, hthere, _⟩
      · exact Or.inl (departed_routes hbefore)
      · exact Or.inr ⟨(h.queue x hx).1, hx, hthere⟩
    · have hbefore := hstays x route hid hroute
      rw [(hadmits.kept fun hx => ?_).1]
      · exact hbefore
      · rw [(h.queue x hx).1] at hroute
        cases hroute

end hands

/-! ## The registry -/

/-- The invariant: every table agrees with the routes, and every route leads to a table. -/
structure Routed (r : TableRegistry) : Prop where
  housed : ∀ id table, r.tables.find? id = some table → Housed r.sessions r.waitingSessions id table
  routes : ∀ session route, r.sessions.find? session = some route → ∃ table, r.tables.find? route.tableId = some table
  fresh : ∀ id table, r.tables.find? id = some table → id.id < r.nextTableId

theorem Routed.agree (hr : r.Routed) : r.RoutesAgree := by
  have hseated : ∀ session route, r.sessions.find? session = some route → ∃ table, r.tables.find? route.tableId = some table ∧
      table.lifecycle.playerAt route.seat = some route.player ∧ table.seatSessions.find? route.seat = some session := by
    intro session route hroute
    obtain ⟨table, htable⟩ := hr.routes session route hroute
    have hhoused := hr.housed _ table htable
    exact ⟨table, htable, hhoused.seated session _ _ hroute, (hhoused.seats _ session).mpr ⟨_, hroute⟩⟩
  refine ⟨fun tableId table htable seat session => ?_, fun session route hroute => ?_,
    fun x y route route' hx hy htable hseat => ?_⟩
  · rw [(hr.housed tableId table htable).seats]
    constructor
    · rintro ⟨player, hroute⟩
      exact ⟨_, hroute, rfl, rfl, (hr.housed tableId table htable).seated session player seat hroute⟩
    · rintro ⟨route, hroute, rfl, rfl, _⟩
      exact ⟨route.player, hroute⟩
  · obtain ⟨table, htable, hplayer, _⟩ := hseated session route hroute
    exact ⟨table, htable, hplayer⟩
  · obtain ⟨table, hfound, _, hsession⟩ := hseated x route hx
    obtain ⟨table', hfound', _, hsession'⟩ := hseated y route' hy
    rw [htable, hfound'] at hfound
    cases hfound
    rw [hseat, hsession'] at hsession
    exact (Option.some.inj hsession).symm

/-- Nothing else of the registry matters. -/
theorem Routed.congr (hr : r.Routed) (htables : r'.tables = r.tables) (hsessions : r'.sessions = r.sessions)
    (hwaits : r'.waitingSessions = r.waitingSessions) (hnext : r'.nextTableId = r.nextTableId) : r'.Routed := by
  refine ⟨?_, ?_, ?_⟩
  · rw [htables, hsessions, hwaits]
    exact hr.housed
  · rw [htables, hsessions]
    exact hr.routes
  · rw [htables, hnext]
    exact hr.fresh

/-- One table is written, and the routes to it. -/
theorem Routed.put (hr : r.Routed) (htable : r.tables.find? id = some table) (htables : r'.tables = r.tables.insert id table')
    (hnext : r'.nextTableId = r.nextTableId) (hhoused : Housed r'.sessions r'.waitingSessions id table')
    (hroutes : ∀ x route, route.tableId ≠ id → (r'.sessions.find? x = some route ↔ r.sessions.find? x = some route))
    (hqueues : ∀ other left, other ≠ id → r.tables.find? other = some left → ∀ x ∈ left.queue,
      r'.sessions.find? x = none ∧ r'.waitingSessions.find? x = some other) : r'.Routed := by
  have hfind : ∀ other found, r'.tables.find? other = some found →
      (other = id ∧ found = table') ∨ other ≠ id ∧ r.tables.find? other = some found := by
    intro other found hfound
    rw [htables, OrdMap.find_insert] at hfound
    split at hfound
    · cases hfound
      exact Or.inl ⟨‹_›, rfl⟩
    · exact Or.inr ⟨‹_›, hfound⟩
  refine ⟨fun other found hfound => ?_, fun session route hroute => ?_, fun other found hfound => ?_⟩
  · rcases hfind other found hfound with ⟨rfl, rfl⟩ | ⟨hother, hfound⟩
    · exact hhoused
    · refine (hr.housed other found hfound).elsewhere (fun x route hid => hroutes x route ?_) (hqueues other found hother hfound)
      rw [hid]
      exact hother
  · rw [htables, OrdMap.find_insert]
    split
    · exact ⟨table', rfl⟩
    · exact hr.routes session route ((hroutes session route ‹_›).mp hroute)
  · rw [hnext]
    rcases hfind other found hfound with ⟨rfl, _⟩ | ⟨_, hfound⟩
    · exact hr.fresh other table htable
    · exact hr.fresh other found hfound

/-- One table is written, and nothing of its players and sessions. -/
theorem Routed.keep (hr : r.Routed) (htable : r.tables.find? id = some table) (htables : r'.tables = r.tables.insert id table')
    (hsessions : r'.sessions = r.sessions) (hwaits : r'.waitingSessions = r.waitingSessions)
    (hnext : r'.nextTableId = r.nextTableId)
    (hhoused : Housed r.sessions r.waitingSessions id table') : r'.Routed := by
  refine hr.put htable htables hnext (by rw [hsessions, hwaits]; exact hhoused) (fun x route _ => by rw [hsessions]) ?_
  intro other left _ hleft x hx
  rw [hsessions, hwaits]
  exact (hr.housed other left hleft).queue x hx

/-- No session changes its route in one call: it loses it or keeps it. -/
def RoutesKept (r r' : TableRegistry) : Prop :=
  ∀ x route route', r.sessions.find? x = some route → r'.sessions.find? x = some route' → route' = route

theorem RoutesKept.fewer (h : ∀ x route, r'.sessions.find? x = some route → r.sessions.find? x = some route) :
    RoutesKept r r' := by
  intro x route route' hroute hroute'
  rw [h x route' hroute'] at hroute
  exact Option.some.inj hroute

/-- Dealing a hand moves nobody. -/
theorem Housed.running {config : PublicTableConfig} {seatSessions : OrdMap SeatId GuestSessionId} {blinds : BlindValues}
    {seedFor : Nat → Option Nat} {nextHandId : Nat} {started : StartedHand} (h : Housed routes index id table)
    (hfair : shuffle.Fair)
    (hstart : startHand shuffle tableId config table.lifecycle seatSessions blinds seedFor nextHandId stayConnected =
      .ok started) :
    Housed routes index id (table.running started) := by
  obtain ⟨start, hand, hs⟩ := startHand_starts hfair hstart
  obtain ⟨hplain, hdeals⟩ := TableLifecycle.beginHand_deals h.plain hs.begins
  refine h.same hplain (fun hnone => ?_) hdeals.playerAt hdeals.pending rfl rfl rfl
  cases hnone

theorem Routed.created (hr : r.Routed) (hnew : NewTable table) :
    ({ r with nextTableId := r.nextTableId + 1 }.putTable ⟨r.nextTableId⟩ table).bumpRevision.Routed := by
  have hold : ∀ id found, r.tables.find? id = some found → id ≠ ⟨r.nextTableId⟩ := by
    rintro id found hfound rfl
    exact Nat.lt_irrefl _ (hr.fresh _ found hfound)
  have hunrouted : ∀ x player seat, r.sessions.find? x ≠ some ⟨⟨r.nextTableId⟩, player, seat⟩ := by
    intro x player seat hx
    obtain ⟨found, hfound⟩ := hr.routes x _ hx
    exact hold _ found hfound rfl
  have hqueue : table.queue = [] := congrArg (List.map _) hnew.waiting
  have hhoused : Housed r.sessions r.waitingSessions ⟨r.nextTableId⟩ table := by
    refine ⟨by rw [hnew.lifecycle]; exact TableLifecycle.new_plain _, fun _ => by rw [hnew.lifecycle]; rfl, fun seat x => ?_,
      fun x player seat hx => absurd hx (hunrouted x player seat), fun x => ?_, fun x hx => ?_,
        by rw [hqueue]; exact List.nodup_nil⟩
    · rw [hnew.seatSessions]
      constructor
      · intro hx
        cases hx
      · rintro ⟨player, hx⟩
        exact absurd hx (hunrouted x player seat)
    · rw [hnew.pendingDepartures]
      constructor
      · intro hx
        cases hx
      · rintro ⟨player, seat, hx, _⟩
        exact absurd hx (hunrouted x player seat)
    · rw [hqueue] at hx
      cases hx
  refine ⟨fun id found hfound => ?_, fun x route hroute => ?_, fun id found hfound => ?_⟩
  · have hinsert : (r.tables.insert ⟨r.nextTableId⟩ table).find? id = some found := hfound
    rw [OrdMap.find_insert] at hinsert
    split at hinsert
    · rename_i hid
      cases hinsert
      exact hid ▸ hhoused
    · exact hr.housed id found hinsert
  · obtain ⟨found, hfound⟩ := hr.routes x route hroute
    exact ⟨found, (OrdMap.find_insert_ne (hold _ found hfound)).trans hfound⟩
  · have hinsert : (r.tables.insert ⟨r.nextTableId⟩ table).find? id = some found := hfound
    rw [OrdMap.find_insert] at hinsert
    split at hinsert
    · rename_i hid
      rw [hid]
      exact Nat.lt_succ_self _
    · exact Nat.lt_succ_of_lt (hr.fresh id found hinsert)

/-- A table that can be removed has no players, and so no routes lead to it. -/
theorem Routed.removed {keep : TableId → Bool} {revision : Nat} (hr : r.Routed)
    (hall : ∀ id table, r.tables.find? id = some table → keep id = false → Removable table) :
    Routed { r with tables := r.tables.filterKey keep, revision := revision } := by
  have hfind : ∀ id found, (r.tables.filterKey keep).find? id = some found → r.tables.find? id = some found := by
    intro id found hfound
    rw [OrdMap.find_filterKey] at hfound
    split at hfound
    · exact hfound
    · cases hfound
  refine ⟨fun id found hfound => hr.housed id found (hfind id found hfound), fun x route hroute => ?_,
    fun id found hfound => hr.fresh id found (hfind id found hfound)⟩
  obtain ⟨table, htable⟩ := hr.routes x route hroute
  refine ⟨table, (OrdMap.find_filterKey keep).trans ((if_pos ?_).trans htable)⟩
  by_contra hgone
  have hempty := (hall _ table htable (Bool.not_eq_true _ ▸ hgone)).empty
  obtain ⟨st, hst, _⟩ := TableLifecycle.playerAt_some.mp ((hr.housed _ table htable).seated x _ _ hroute)
  have hmem : (route.seat, st) ∈ table.lifecycle.seats.occupied := table.lifecycle.seats.mem_occupied.mpr hst
  rw [TableSeats.occupiedCount, List.length_eq_zero_iff] at hempty
  rw [hempty] at hmem
  cases hmem

/-- A session outside every queue gets a seat. -/
theorem Routed.joined {nextHandId : Nat} (hr : r.Routed) (hjoin : Joinable r session tableId table)
    (hout : ∀ other found, r.tables.find? other = some found → session ∉ found.queue)
    (hhoused : Housed (r.sessions.insert session ⟨tableId, ⟨r.nextPlayerId⟩, seat⟩) r.waitingSessions tableId table') :
    (r.routed session tableId seat table' nextHandId).Routed ∧
      RoutesKept r (r.routed session tableId seat table' nextHandId) := by
  have hsessions : ∀ x, x ≠ session → (r.routed session tableId seat table' nextHandId).sessions.find? x = r.sessions.find? x :=
    fun x hx => OrdMap.find_insert_ne hx
  have hself : (r.routed session tableId seat table' nextHandId).sessions.find? session =
      some ⟨tableId, ⟨r.nextPlayerId⟩, seat⟩ :=
    OrdMap.find_insert_self
  refine ⟨?_, fun x route route' hroute hroute' => ?_⟩
  · refine hr.put hjoin.registered rfl rfl hhoused (fun x route hid => ?_) fun other left hother hleft x hx => ?_
    · by_cases hx : x = session
      · rw [hx, hself, hjoin.unrouted]
        constructor
        · intro h
          cases h
          exact absurd rfl hid
        · intro h
          cases h
      · rw [hsessions x hx]
    · obtain ⟨hunrouted, hwaits⟩ := (hr.housed other left hleft).queue x hx
      refine ⟨(hsessions x ?_).trans hunrouted, hwaits⟩
      rintro rfl
      exact hout other left hleft hx
  · by_cases hx : x = session
    · rw [hx, hjoin.unrouted] at hroute
      cases hroute
    · rw [hsessions x hx, hroute] at hroute'
      exact (Option.some.inj hroute').symm

theorem Housed.seating {tournament : Option TournamentController} (h : Housed routes index id table)
    (hnew : routes.find? session = none)
    (hseating : Seating table player requestedSeat seat lifecycle tournament) (hout : session ∉ table.queue) :
    Housed (routes.insert session ⟨id, player, seat⟩) index id (table.seated now session seat lifecycle tournament) := by
  obtain ⟨hplain, henters⟩ := TableLifecycle.join_enters h.plain hseating.joined
  exact h.enters hnew henters hplain rfl rfl rfl (List.Sublist.refl _) hout rfl fun _ _ => rfl

theorem Routed.queued (hr : r.Routed) (htable : r.tables.find? id = some table) (hunrouted : r.sessions.find? session = none)
    (hnew : r.waitingSessions.find? session = none) :
    ({ r with waitingSessions := r.waitingSessions.insert session id }.putTable id { table with
      waiting := table.waiting ++ [(⟨session, requestedSeat⟩ : WaitingEntry)]
      lastActivity := now }).bumpRevision.Routed := by
  have hout : ∀ other found, r.tables.find? other = some found → session ∉ found.queue := by
    intro other found hfound hmem
    have hwaits := ((hr.housed other found hfound).queue session hmem).2
    rw [hnew] at hwaits
    cases hwaits
  have hindex : ∀ x, x ≠ session → (r.waitingSessions.insert session id).find? x = r.waitingSessions.find? x :=
    fun x hx => OrdMap.find_insert_ne hx
  have hh := hr.housed id table htable
  have hqueue : RegisteredTable.queue { table with
      waiting := table.waiting ++ [(⟨session, requestedSeat⟩ : WaitingEntry)]
      lastActivity := now } = table.queue ++ [session] := List.map_append
  refine hr.put htable rfl rfl ⟨hh.plain, hh.idle, hh.seats, hh.seated, hh.departing, fun x hx => ?_, ?_⟩ (fun _ _ _ => Iff.rfl)
    fun other left hother hleft x hx => ?_
  · rw [hqueue, List.mem_append, List.mem_singleton] at hx
    rcases hx with hx | rfl
    · obtain ⟨hfree, hwaits⟩ := hh.queue x hx
      refine ⟨hfree, (hindex x ?_).trans hwaits⟩
      rintro rfl
      exact hout id table htable hx
    · exact ⟨hunrouted, OrdMap.find_insert_self⟩
  · rw [hqueue, List.nodup_append]
    refine ⟨hh.once, List.nodup_singleton _, fun x hx y hy => ?_⟩
    rw [List.mem_singleton.mp hy]
    rintro rfl
    exact hout id table htable hx
  · obtain ⟨hfree, hwaits⟩ := (hr.housed other left hleft).queue x hx
    refine ⟨hfree, (hindex x ?_).trans hwaits⟩
    rintro rfl
    exact hout other left hleft hx

theorem Routed.unqueued (hr : r.Routed) (htable : r.tables.find? id = some table)
    (hwaits : r.waitingSessions.find? session = some id) :
    ({ r with waitingSessions := r.waitingSessions.erase session }.putTable id { table with
      waiting := table.waiting.filter fun entry => entry.session ≠ session
      lastActivity := now }).bumpRevision.Routed := by
  have hindex : ∀ x, x ≠ session → (r.waitingSessions.erase session).find? x = r.waitingSessions.find? x :=
    fun x hx => OrdMap.find_erase_ne hx
  have hh := hr.housed id table htable
  have hqueue : ∀ x, x ∈ RegisteredTable.queue { table with
      waiting := table.waiting.filter fun entry => entry.session ≠ session
      lastActivity := now } → x ∈ table.queue ∧ x ≠ session := by
    intro x hx
    obtain ⟨entry, hentry, rfl⟩ := List.mem_map.mp hx
    obtain ⟨hmem, hne⟩ := List.mem_filter.mp hentry
    exact ⟨List.mem_map_of_mem hmem, by simpa using hne⟩
  refine hr.put htable rfl rfl ⟨hh.plain, hh.idle, hh.seats, hh.seated, hh.departing, fun x hx => ?_,
    hh.once.sublist (List.filter_sublist.map _)⟩ (fun _ _ _ => Iff.rfl) fun other left hother hleft x hx => ?_
  · obtain ⟨hmem, hne⟩ := hqueue x hx
    obtain ⟨hfree, hwaits⟩ := hh.queue x hmem
    exact ⟨hfree, (hindex x hne).trans hwaits⟩
  · obtain ⟨hfree, hthere⟩ := (hr.housed other left hleft).queue x hx
    refine ⟨hfree, (hindex x ?_).trans hthere⟩
    rintro rfl
    rw [hwaits] at hthere
    exact hother (Option.some.inj hthere).symm

/-- A registration given up. -/
theorem Routed.released (hr : r.Routed) (htable : r.tables.find? id = some table)
    (hroute : r.sessions.find? session = some ⟨id, player, seat⟩) (hsessions : r'.sessions = r.sessions.erase session)
    (htables : r'.tables = r.tables.insert id table') (hwaits : r'.waitingSessions = r.waitingSessions)
    (hnext : r'.nextTableId = r.nextTableId)
    (hhoused : Housed (r.sessions.erase session) r.waitingSessions id table') : r'.Routed ∧ RoutesKept r r' := by
  refine ⟨hr.put htable htables hnext (by rw [hsessions, hwaits]; exact hhoused) (fun x route hid => ?_)
    fun other left _ hleft x hx => ?_, .fewer fun x route h => ?_⟩
  · rw [hsessions, OrdMap.find_erase]
    split
    · rename_i hx
      rw [hx, hroute]
      constructor
      · intro h
        cases h
      · intro h
        cases h
        exact absurd rfl hid
    · rfl
  · obtain ⟨hfree, hthere⟩ := (hr.housed other left hleft).queue x hx
    rw [hsessions, hwaits, OrdMap.find_erase, hfree, ite_self]
    exact ⟨rfl, hthere⟩
  · rw [hsessions, OrdMap.find_erase] at h
    split at h
    · cases h
    · exact h

/-- A rollover that goes through. -/
theorem Routed.done {finished : FinishedHand} {a : Admission} (hr : r.Routed)
    (hfinished : r.finishedHand tableId handId = .ok (some finished))
    (hsettled : finished.table.lifecycle.Takes finished.finalStacks)
    (hreseat : r.reseating now tableId finished = (.ok (), a))
    (hhoused : Housed a.sessions a.waitingSessions tableId (finished.reseated now a) →
      Housed a.sessions a.waitingSessions tableId table)
    (htables : r'.tables = r.tables.insert tableId table) (hsessions : r'.sessions = a.sessions)
    (hwaits : r'.waitingSessions = a.waitingSessions) (hnext : r'.nextTableId = r.nextTableId) : r'.Routed ∧ RoutesKept r r' := by
  obtain ⟨runtime, sample, hfound⟩ := finishedHand_some hfinished
  have hh := hr.housed tableId finished.table hfound.table
  obtain ⟨hseated, hbefore, hstays, hindex⟩ := hh.reseated hsettled hreseat
  refine ⟨hr.put hfound.table htables hnext (by rw [hsessions, hwaits]; exact hhoused hseated) (fun x route hid => ?_)
    fun other left hother hleft x hx => ?_, fun x route route' hroute hroute' => ?_⟩
  · rw [hsessions]
    refine ⟨fun h => ?_, hstays x route hid⟩
    rcases hbefore x route h with h | ⟨_, _, hthere⟩
    · exact h
    · exact absurd hthere hid
  · obtain ⟨hfree, hthere⟩ := (hr.housed other left hleft).queue x hx
    have hout : x ∉ finished.table.queue := by
      intro hmem
      rw [(hh.queue x hmem).2] at hthere
      exact hother (Option.some.inj hthere).symm
    rw [hsessions, hwaits, hindex x hout]
    refine ⟨?_, hthere⟩
    rw [Option.eq_none_iff_forall_ne_some]
    intro route hroute
    rcases hbefore x route hroute with hroute | ⟨_, hmem, _⟩
    · rw [hfree] at hroute
      cases hroute
    · exact hout hmem
  · rw [hsessions] at hroute'
    rcases hbefore x route' hroute' with h | ⟨hnone, _⟩
    · rw [hroute] at h
      exact (Option.some.inj h).symm
    · rw [hnone] at hroute
      cases hroute

theorem Routed.rolled {result : Except TableRegistryError (Option HandId)} (hr : r.Routed) (hfair : shuffle.Fair)
    (htidy : RegistryOp.Tidy r (.rollover shuffle now tableId handId))
    (h : RollsOver r shuffle now tableId handId result r') : r'.Routed ∧ RoutesKept r r' := by
  have hidle : ∀ finished a, r.Idles finished → (r.reseating now tableId finished).2 = a →
      ((r.retired finished).rerouted a).Routed ∧ RoutesKept r ((r.retired finished).rerouted a) := by
    rintro finished a hidles rfl
    obtain ⟨_, hsessions, hwaits⟩ := (@reseating_same r now tableId finished).mpr hidles
    exact ⟨hr.congr rfl hsessions hwaits rfl, .fewer fun x route h => by rwa [← hsessions]⟩
  cases h with
  | refused => exact ⟨hr, .fewer fun _ _ h => h⟩
  | other => exact ⟨hr, .fewer fun _ _ h => h⟩
  | unsettled => exact ⟨hr.congr rfl rfl rfl rfl, .fewer fun _ _ h => h⟩
  | unseated error finished a h hsettled hreseat =>
    rcases htidy finished h hsettled with hpasses | hidles
    · have hok : (r.reseating now tableId finished).1 = .ok () := reseating_ok_iff.mpr hpasses.queue
      rw [hreseat] at hok
      cases hok
    · exact hidle finished a hidles (congrArg Prod.snd hreseat)
  | unstarted error finished a h hsettled hreseat hrests hstart =>
    rcases htidy finished h hsettled with hpasses | hidles
    · have hstarts := hpasses.starts (by rw [hreseat]; exact hrests)
      rw [hreseat] at hstarts
      obtain ⟨started, hok⟩ := (@startHand_iff _ tableId _ _ _ _ _ _ hfair).mpr hstarts
      rw [hstart] at hok
      cases hok
    · exact hidle finished a hidles (congrArg Prod.snd hreseat)
  | rested finished a h hsettled hreseat _ =>
    exact @Routed.done r _ now tableId handId
      (finished.reseated now a) finished a hr h hsettled.lifecycle hreseat id rfl rfl rfl rfl
  | started started finished a h hsettled hreseat _ hstart =>
    exact @Routed.done r _ now tableId handId
      ((finished.reseated now a).running started) finished a hr h hsettled.lifecycle hreseat
      (fun hseated => hseated.running hfair hstart) rfl rfl rfl rfl

/-! ## Every call -/

/-- Whoever is in no queue of the index is in none. -/
theorem Routed.outside (hr : r.Routed) (h : r.waitingSessions.find? session = none) (other : TableId) (found : RegisteredTable)
    (hfound : r.tables.find? other = some found) : session ∉ found.queue := by
  intro hmem
  rw [((hr.housed other found hfound).queue session hmem).2] at h
  cases h

/-- A session that joins stands in no queue. -/
theorem Routed.unqueues {tournament : Option TournamentController} (hr : r.Routed) (htidy : op.Tidy r)
    (hjoin : Joinable r session tableId table) (hseating : Seating table player requestedSeat seat lifecycle tournament)
    (hop : op = .join shuffle now session tableId requestedSeat ∨ ∃ h accessCode,
      op = .joinOrWait h shuffle now session tableId requestedSeat accessCode ∧ r.waitingSessions.find? session = none ∧
        table.allows h accessCode = true) :
    ∀ other found, r.tables.find? other = some found → session ∉ found.queue := by
  rcases hop with rfl | ⟨_, _, _, hwaits, _⟩
  · exact htidy table hjoin.unrouted hjoin.registered hjoin.runtime (by rw [hseating.found]; simp)
  · exact hr.outside hwaits

/-- Between hands a request to leave is granted at once. -/
theorem requestLeave_idle (hidle : table.lifecycle.activeHand = none)
    (h : table.lifecycle.requestLeave player = (.ok (), lifecycle)) :
    lifecycle = (table.lifecycle.applyTransition player .leave).refreshBetweenHandState := by
  rcases TableLifecycle.requestLeave_cases _ player with ⟨error, he⟩ | ⟨p, _, hactive, _⟩ | ⟨p, _, _, he⟩
  · rw [he] at h
    cases h
  · rw [TableLifecycle.handActive, hidle] at hactive
    cases hactive
  · rw [he] at h
    cases h
    rfl

theorem Routed.step (hr : r.Routed) (hfair : op.Fair) (htidy : op.Tidy r) (hl : Leaves r op r') :
    r'.Routed ∧ RoutesKept r r' := by
  cases hl with
  | aside op r' hsame =>
    refine ⟨hr.congr hsame.tables hsame.sessions hsame.waitingSessions hsame.nextTableId, .fewer fun x route h => ?_⟩
    rwa [hsame.sessions] at h
  | created op table _ hnew _ => exact ⟨hr.created hnew, .fewer fun _ _ h => h⟩
  | removed op keep revision hall =>
    exact ⟨hr.removed fun id table htable hgone => (hall id table htable hgone).1, .fewer fun _ _ h => h⟩
  | joined op shuffle now session tableId requestedSeat table seat lifecycle tournament hop hjoin hseating _ =>
    have hout := hr.unqueues htidy hjoin hseating hop
    exact hr.joined hjoin hout ((hr.housed tableId table hjoin.registered).seating hjoin.unrouted hseating
      (hout tableId table hjoin.registered))
  | joinedAndStarted op shuffle now session tableId requestedSeat table seat lifecycle tournament started hop hjoin
      hseating _ hstart =>
    have hout := hr.unqueues htidy hjoin hseating hop
    have hhoused := @Housed.seating now _ _ _ _ _ _ _ _ _ _ (hr.housed tableId table hjoin.registered) hjoin.unrouted hseating
      (hout tableId table hjoin.registered)
    refine hr.joined hjoin hout (hhoused.running ?_ hstart)
    rcases hop with rfl | ⟨_, _, rfl, _⟩
    · exact hfair
    · exact hfair
  | queued h shuffle now session tableId requestedSeat accessCode table hunrouted hwaits htable _ _ =>
    exact ⟨hr.queued htable hunrouted hwaits, .fewer fun _ _ h => h⟩
  | unqueued op now session tableId table _ hwaits htable => exact ⟨hr.unqueued htable hwaits, .fewer fun _ _ h => h⟩
  | unregistered op now session tableId table route controller left lifecycle hroute hid htable _ hruntime _ hleave _ =>
    subst hid
    have hh := hr.housed _ table htable
    have hidle := hh.idle hruntime
    exact hr.released htable hroute rfl rfl rfl rfl (hh.released hroute hidle (requestLeave_idle hidle hleave) rfl rfl rfl)
  | left now session route table lifecycle hroute htable hleave =>
    have hh := hr.housed _ table htable
    have hactive := htidy route table hroute htable
    refine ⟨hr.keep htable rfl rfl rfl rfl ?_, .fewer fun _ _ h => h⟩
    rcases TableLifecycle.requestLeave_cases _ route.player with ⟨error, he⟩ | ⟨p, _, _, he⟩ | ⟨p, _, hidle, _⟩
    · rw [he] at hleave
      cases hleave
    · rw [he] at hleave
      cases hleave
      exact hh.noted hroute hactive
    · rw [TableLifecycle.handActive, hidle] at hactive
      cases hactive
  | rolled shuffle now tableId handId result r' h => exact hr.rolled hfair htidy h
  | ticked shuffle now tableId table controller htable _ _ _ =>
    have hh := hr.housed _ table htable
    exact ⟨hr.keep htable rfl rfl rfl rfl (hh.same hh.plain hh.idle (fun _ => rfl) rfl rfl rfl rfl), .fewer fun _ _ h => h⟩
  | resumed shuffle now tableId table controller started htable _ _ _ _ _ hstart =>
    have hh := hr.housed _ table htable
    have hticked : Housed r.sessions r.waitingSessions tableId { table with
        tournament := some (controller.tickBetweenHands (now - table.lastActivity))
        lastActivity := now } := hh.same hh.plain hh.idle (fun _ => rfl) rfl rfl rfl rfl
    exact ⟨hr.keep htable rfl rfl rfl rfl (hticked.running hfair hstart), .fewer fun _ _ h => h⟩
  | served tableId op table htable =>
    have hh := hr.housed _ table htable
    refine ⟨hr.keep htable rfl rfl rfl rfl (hh.same hh.plain (fun hnone => hh.idle ?_) (fun _ => rfl) rfl rfl rfl rfl),
      .fewer fun _ _ h => h⟩
    exact Option.map_eq_none_iff.mp hnone

theorem new_routed {maxTables : Nat} {start : TableRegistry} (h : new maxTables = .ok start) : start.Routed := by
  unfold new at h
  split at h
  · cases h
  split at h
  · cases h
  · cases h
    exact ⟨fun _ _ h => (by cases h), fun _ _ h => (by cases h), fun _ _ h => (by cases h)⟩

theorem seatPlayer_code {error : TableRegistryError} (h : seatPlayer table player requestedSeat = .error error) :
    error.code ≠ .sessionAlreadyRouted := by
  intro hcode
  unfold seatPlayer at h
  split at h
  · cases h
    cases hcode
  split at h
  · cases h
    cases hcode
  split at h
  · cases h
  split at h
  · cases h
    cases hcode
  split at h
  · split at h
    · cases h
      cases hcode
    · cases h
  · cases h

theorem startHand_code {config : PublicTableConfig} {seatSessions : OrdMap SeatId GuestSessionId} {blinds : BlindValues}
    {seedFor : Nat → Option Nat} {nextHandId : Nat} {error : TableRegistryError}
    (h : startHand shuffle tableId config lifecycle seatSessions blinds seedFor nextHandId stayConnected = .error error) :
    error.code = .authorityFailure := by
  unfold startHand at h
  split at h
  · cases h
    rfl
  split at h
  · cases h
    rfl
  dsimp only at h
  split at h
  · cases h
    rfl
  split at h
  · cases h
    rfl
  · cases h

/-- A join finds no route where there is none. -/
theorem join_unrouted (h : r.sessions.find? session = none) (message : String) :
    (r.join shuffle now session tableId requestedSeat).1 ≠ .error ⟨.sessionAlreadyRouted, message⟩ := by
  intro he
  unfold join at he
  rw [if_neg (by rw [OrdMap.contains, h]; simp)] at he
  dsimp only at he
  split at he
  · cases he
  split at he
  · cases he
  split at he
  · cases he
  split at he
  · rename_i error hprepare
    cases he
    unfold prepareJoin at hprepare
    split at hprepare
    · rename_i hseat
      cases hprepare
      exact seatPlayer_code hseat rfl
    dsimp only at hprepare
    split at hprepare
    · split at hprepare
      · rename_i hstart
        cases hprepare
        cases startHand_code hstart
      · cases hprepare
    · cases hprepare
  · cases he

theorem Routed.frees (hnext : (op.apply r).Routed) (hkept : RoutesKept r (op.apply r)) : r.FreesDeparted op := by
  intro session route table table' hroute _ htable' hgone
  have hnone : (op.apply r).sessions.find? session = none := by
    cases hstill : (op.apply r).sessions.find? session with
    | none => rfl
    | some route' =>
      obtain rfl := hkept session route route' hroute hstill
      exact absurd ((hnext.housed _ table' htable').seated session _ _ hstill) hgone
  exact ⟨hnone, fun _ _ _ _ message => join_unrouted hnone message⟩

theorem Routed.run (hr : r.Routed) (ops : List RegistryOp) (hfair : ∀ op ∈ ops, op.Fair)
    (htidy : ∀ before op after, ops = before ++ op :: after → op.Tidy (r.run before)) :
    (r.run ops).Routed ∧ ∀ before op after, ops = before ++ op :: after → (r.run before).FreesDeparted op := by
  induction ops generalizing r with
  | nil =>
    refine ⟨hr, fun before op after h => ?_⟩
    simp at h
  | cons op ops ih =>
    obtain ⟨hnext, hkept⟩ := hr.step (hfair op List.mem_cons_self) (htidy [] op ops rfl) (apply_leaves r op)
    obtain ⟨hlast, hfrees⟩ := ih hnext (fun op hop => hfair op (List.mem_cons_of_mem _ hop)) fun before op' after h =>
      htidy (op :: before) op' after (congrArg (op :: ·) h)
    refine ⟨hlast, fun before op' after h => ?_⟩
    cases before with
    | nil =>
      cases h
      exact hnext.frees hkept
    | cons op'' before =>
      cases h
      exact hfrees before op' after rfl

/-- In every run of such calls routes, seats and players agree, and whoever loses the seat can join again. -/
theorem run_routes {maxTables : Nat} {start : TableRegistry} (hnew : new maxTables = .ok start) (ops : List RegistryOp)
    (hfair : ∀ op ∈ ops, op.Fair) (htidy : ∀ before op after, ops = before ++ op :: after → op.Tidy (start.run before)) :
    (start.run ops).RoutesAgree ∧ ∀ before op after, ops = before ++ op :: after → (start.run before).FreesDeparted op := by
  obtain ⟨hlast, hfrees⟩ := (new_routed hnew).run ops hfair htidy
  exact ⟨hlast.agree, hfrees⟩

/-- Two seats, and a hand as soon as both are taken. -/
def duo : PublicTableConfig := ⟨"duo", .two, 100, 2, .publicTable, none⟩

/-- One of two leaves during their hand. -/
def annWantsOut : List RegistryOp :=
  [.create constantHashes [] 0 duo none, .joinOrWait constantHashes cutDeck 0 ⟨"ann"⟩ ⟨1⟩ (some 0) none,
    .joinOrWait constantHashes cutDeck 0 ⟨"bob"⟩ ⟨1⟩ (some 1) none, .requestLeave 0 ⟨"ann"⟩]

theorem run_routes_ann_wants_out : ∃ start, new 1 = .ok start ∧ (start.run annWantsOut).RoutesAgree := by
  have hplays : ((new 1).toOption.map fun start => start.run (annWantsOut.take 3)).map (fun r =>
      (r.sessions.find? ⟨"ann"⟩, (r.tables.find? ⟨1⟩).map fun table => table.lifecycle.handActive)) =
        some (some ⟨⟨1⟩, ⟨1⟩, 0⟩, some true) := by
    decide +kernel
  cases hnew : new 1 with
  | error error =>
    rw [hnew] at hplays
    cases hplays
  | ok start =>
    rw [hnew] at hplays
    simp only [Except.toOption, Option.map_some, Option.some.injEq, Prod.mk.injEq] at hplays
    refine ⟨start, rfl, (run_routes hnew annWantsOut ?_ ?_).1⟩
    · intro op hop
      simp only [annWantsOut, List.mem_cons, List.not_mem_nil, or_false] at hop
      rcases hop with rfl | rfl | rfl | rfl
      · trivial
      · exact cutDeck_fair
      · exact cutDeck_fair
      · trivial
    · intro before op after h
      rcases before with _ | ⟨first, _ | ⟨second, _ | ⟨third, _ | ⟨fourth, before⟩⟩⟩⟩
      · cases h
        trivial
      · cases h
        trivial
      · cases h
        trivial
      · cases h
        intro route table hroute htable
        obtain ⟨hann, hactive⟩ := hplays
        have hfound : (start.run (annWantsOut.take 3)).sessions.find? ⟨"ann"⟩ = some route := hroute
        rw [hann] at hfound
        cases hfound
        have hthere : (start.run (annWantsOut.take 3)).tables.find? ⟨1⟩ = some table := htable
        rw [hthere] at hactive
        exact Option.some.inj hactive
      · simp [annWantsOut] at h

/-- Between hands the first player leaves, and another takes the seat. -/
def seatRetaken : List RegistryOp :=
  [.create constantHashes [] 0 trio none, .joinOrWait constantHashes cutDeck 0 ⟨"ann"⟩ ⟨1⟩ (some 0) none,
    .requestLeave 0 ⟨"ann"⟩, .joinOrWait constantHashes cutDeck 0 ⟨"bob"⟩ ⟨1⟩ (some 0) none]

/-- The route stays: its session cannot join again, and it leads to the seat of the other. -/
theorem seat_of_two_sessions : ∃ start, new 1 = .ok start ∧ ¬ (start.run (seatRetaken.take 3)).RoutesAgree ∧
    ¬ (start.run (seatRetaken.take 2)).FreesDeparted (.requestLeave 0 ⟨"ann"⟩) ∧
    (start.run seatRetaken).sessions.find? ⟨"ann"⟩ = some ⟨⟨1⟩, ⟨1⟩, 0⟩ ∧
    (start.run seatRetaken).sessions.find? ⟨"bob"⟩ = some ⟨⟨1⟩, ⟨2⟩, 0⟩ ∧ ¬ (start.run seatRetaken).RoutesAgree := by
  have hsits : ((new 1).toOption.map fun start => start.run (seatRetaken.take 2)).map (fun r =>
      (((r.tables.find? ⟨1⟩).map fun table => table.lifecycle.playerAt 0), r.sessions.find? ⟨"ann"⟩)) =
        some (some (some ⟨1⟩), some ⟨⟨1⟩, ⟨1⟩, 0⟩) := by
    decide +kernel
  have hleaves : ((new 1).toOption.map fun start => start.run (seatRetaken.take 3)).map (fun r =>
      (((r.tables.find? ⟨1⟩).map fun table => table.lifecycle.playerAt 0), r.sessions.find? ⟨"ann"⟩)) =
        some (some none, some ⟨⟨1⟩, ⟨1⟩, 0⟩) := by
    decide +kernel
  have hretaken : ((new 1).toOption.map fun start => start.run seatRetaken).map (fun r =>
      (r.sessions.find? ⟨"ann"⟩, r.sessions.find? ⟨"bob"⟩)) = some (some ⟨⟨1⟩, ⟨1⟩, 0⟩, some ⟨⟨1⟩, ⟨2⟩, 0⟩) := by
    decide +kernel
  cases hnew : new 1 with
  | error error =>
    rw [hnew] at hsits
    cases hsits
  | ok start =>
    rw [hnew] at hsits hleaves hretaken
    simp only [Except.toOption, Option.map_some, Option.some.injEq, Prod.mk.injEq] at hsits hleaves hretaken
    obtain ⟨table, htable, _⟩ := Option.map_eq_some_iff.mp hsits.1
    obtain ⟨table', htable', hvacant⟩ := Option.map_eq_some_iff.mp hleaves.1
    refine ⟨start, rfl, fun hagree => ?_, fun hfrees => ?_, hretaken.1, hretaken.2, fun hagree => ?_⟩
    · obtain ⟨found, hfound, hat⟩ := hagree.vacated _ _ hleaves.2
      rw [htable'] at hfound
      cases hfound
      rw [hvacant] at hat
      cases hat
    · have hnone := (hfrees ⟨"ann"⟩ _ table table' hsits.2 htable htable' (by rw [hvacant]; simp)).1
      rw [show ((RegistryOp.requestLeave 0 ⟨"ann"⟩).apply (start.run (seatRetaken.take 2))).sessions.find? ⟨"ann"⟩ = _
        from hleaves.2] at hnone
      cases hnone
    · have hsame := hagree.once _ _ _ _ hretaken.1 hretaken.2 rfl rfl
      exact absurd hsame (by decide)

end TableRegistry

end OpenFelt
