/-
  OpenFelt.Registry.Rollovers — what `rollover_completed_hand` does, step by step: the
  finished hand it reads (`Finished`), the stacks it settles, the routes it takes from
  those who leave (`depart`), the players it lets in from the queue (`Admits`), the next
  hand it starts.

  `Passes` is when every step after the first check is accepted; `rollover_ok_iff` says
  that a rollover of a finished hand succeeds exactly then.
-/

import OpenFelt.Registry.Accepts
import OpenFelt.Registry.Starts

namespace OpenFelt

/-- The table with a hand just started. -/
def RegisteredTable.running (table : RegisteredTable) (started : StartedHand) : RegisteredTable :=
  { table with lifecycle := started.lifecycle, handId := some started.handId, runtime := some started.runtime }

namespace TableRegistry

variable {r : TableRegistry} {shuffle : Shuffle} {now : Nat} {tableId : TableId} {handId : HandId} {config : PublicTableConfig}

/-! ## The finished hand -/

/-- The last view of a session, as it is retired. -/
def lastUpdate (runtime : RuntimeState) (snapshot : SnapshotEnvelope) : SubscriptionUpdate :=
  ⟨runtime.streamSequence, .initial, none, snapshot, none⟩

theorem terminalUpdates_ok {runtime : RuntimeState} {sessions : List GuestSessionId}
    {updates : List (GuestSessionId × SubscriptionUpdate)} (h : terminalUpdates runtime sessions = .ok updates) :
    updates.map (·.1) = sessions ∧
      ∀ e ∈ updates, ∃ snapshot, runtime.boundSnapshot e.1 = .ok snapshot ∧ e.2 = lastUpdate runtime snapshot := by
  induction sessions generalizing updates with
  | nil =>
    cases h
    exact ⟨rfl, fun e he => (by cases he)⟩
  | cons session rest ih =>
    unfold terminalUpdates at h
    cases hview : runtime.boundSnapshot session with
    | error error =>
      rw [hview] at h
      cases h
    | ok snapshot =>
      rw [hview] at h
      cases hrest : terminalUpdates runtime rest with
      | error error =>
        rw [hrest] at h
        cases h
      | ok others =>
        rw [hrest] at h
        cases h
        obtain ⟨hsessions, hviews⟩ := ih hrest
        refine ⟨by rw [List.map_cons, hsessions], ?_⟩
        intro e he
        rcases List.mem_cons.mp he with rfl | he
        · exact ⟨snapshot, hview, rfl⟩
        · exact hviews e he

/-- The hand that the rollover has found finished. -/
structure Finished (r : TableRegistry) (tableId : TableId) (handId : HandId) (finished : FinishedHand)
    (runtime : RuntimeState) (sample : GuestSessionId) : Prop where
  table : r.tables.find? tableId = some finished.table
  hand : finished.table.handId = some handId
  running : finished.table.runtime = some runtime
  sampled : sample ∈ finished.table.seatSessions.values
  viewed : runtime.boundSnapshot sample = .ok finished.terminal
  named : finished.terminal.handId = handId
  terminal : finished.terminal.snapshot.phase.terminal = true
  updates : terminalUpdates runtime finished.table.seatSessions.values = .ok finished.updates

theorem finishedHand_some {finished : FinishedHand} (h : r.finishedHand tableId handId = .ok (some finished)) :
    ∃ runtime sample, Finished r tableId handId finished runtime sample := by
  unfold finishedHand at h
  cases htable : r.tables.find? tableId with
  | none =>
    rw [htable] at h
    cases h
  | some table =>
    rw [htable] at h
    dsimp only at h
    by_cases hhand : table.handId = some handId
    · rw [if_neg (not_not_intro hhand)] at h
      cases hvalues : table.seatSessions.values with
      | nil =>
        rw [hvalues] at h
        cases h
      | cons sample rest =>
        rw [hvalues] at h
        dsimp only at h
        cases hruntime : table.runtime with
        | none =>
          rw [hruntime] at h
          cases h
        | some runtime =>
          rw [hruntime] at h
          dsimp only at h
          cases hview : runtime.boundSnapshot sample with
          | error error =>
            rw [hview] at h
            cases h
          | ok terminal =>
            rw [hview] at h
            dsimp only at h
            split_ifs at h with hdone
            rw [Bool.or_eq_true, not_or, decide_eq_true_eq, not_not, Bool.not_eq_true', Bool.not_eq_false] at hdone
            cases hupdates : terminalUpdates runtime (sample :: rest) with
            | error error =>
              rw [hupdates] at h
              cases h
            | ok updates =>
              rw [hupdates] at h
              cases h
              exact ⟨runtime, sample, htable, hhand, hruntime, by rw [hvalues]; exact List.mem_cons_self, hview, hdone.1, hdone.2,
                by rw [hvalues]; exact hupdates⟩
    · rw [if_pos hhand] at h
      cases h

/-- The updates that the rollover retires. -/
theorem Finished.consistent {finished : FinishedHand} {runtime : RuntimeState} {sample : GuestSessionId}
    (hf : Finished r tableId handId finished runtime sample) :
    ∀ e ∈ finished.updates, ∀ e' ∈ finished.updates, e.1 = e'.1 → e.2 = e'.2 := by
  obtain ⟨_, hviews⟩ := terminalUpdates_ok hf.updates
  intro e he e' he' hsame
  obtain ⟨snapshot, hview, hupdate⟩ := hviews e he
  obtain ⟨snapshot', hview', hupdate'⟩ := hviews e' he'
  rw [hsame, hview'] at hview
  cases hview
  rw [hupdate, hupdate']

/-! ## Settling -/

/-- The table's tournament after the hand. -/
def tournamentAfter (table : RegisteredTable) (elapsed : Nat) (finalStacks : List (SeatId × Nat)) : Option TournamentController :=
  table.tournament.map fun controller =>
    ((controller.tickBetweenHands elapsed).completeHand table.lifecycle.stacksHeld finalStacks).2

/-- The lifecycle and the tournament both take the stacks. -/
structure Settled (table : RegisteredTable) (elapsed : Nat) (finalStacks : List (SeatId × Nat)) : Prop where
  lifecycle : table.lifecycle.Takes finalStacks
  tournament : ∀ controller, table.tournament = some controller →
    (controller.tickBetweenHands elapsed).Takes table.lifecycle.stacksHeld finalStacks

theorem settleHand_cases (table : RegisteredTable) (elapsed : Nat) (finalStacks : List (SeatId × Nat)) :
    (Settled table elapsed finalStacks ∧ settleHand table elapsed finalStacks =
        .ok ((table.lifecycle.completeHand finalStacks).2, tournamentAfter table elapsed finalStacks)) ∨
      (¬ Settled table elapsed finalStacks ∧ ∃ error, settleHand table elapsed finalStacks = .error error) := by
  unfold settleHand tournamentAfter
  have hlifecycle := @TableLifecycle.completeHand_ok_iff table.lifecycle finalStacks
  rcases hcomplete : table.lifecycle.completeHand finalStacks with ⟨result, lifecycle⟩
  rw [hcomplete] at hlifecycle
  cases result with
  | error error =>
    refine Or.inr ⟨?_, _, rfl⟩
    intro hs
    have hok := hlifecycle.mpr hs.lifecycle
    cases hok
  | ok u =>
    have htakes := hlifecycle.mp rfl
    dsimp only
    cases htournament : table.tournament with
    | none =>
      refine Or.inl ⟨⟨htakes, ?_⟩, rfl⟩
      intro controller hc
      rw [htournament] at hc
      cases hc
    | some controller =>
      have hresult := @TournamentController.completeHand_ok_iff
          (controller.tickBetweenHands elapsed) table.lifecycle.stacksHeld finalStacks
      dsimp only
      rcases hdone : (controller.tickBetweenHands elapsed).completeHand table.lifecycle.stacksHeld finalStacks with ⟨result, left⟩
      rw [hdone] at hresult
      cases result with
      | error error =>
        refine Or.inr ⟨?_, _, rfl⟩
        intro hs
        have hok := hresult.mpr (hs.tournament controller htournament)
        cases hok
      | ok u =>
        refine Or.inl ⟨⟨htakes, ?_⟩, ?_⟩
        · intro other hother
          rw [htournament] at hother
          cases hother
          exact hresult.mp rfl
        · rw [Option.map_some, hdone]

/-! ## Those who leave -/

section departing
variable {routes : OrdMap GuestSessionId SessionRoute} {seatSessions : OrdMap SeatId GuestSessionId}
  {departing : List GuestSessionId} {x : GuestSessionId} {q : SeatId}

theorem depart_cons (session : GuestSessionId) (rest : List GuestSessionId) :
    depart (session :: rest) routes seatSessions =
      match routes.find? session with
      | none => depart rest routes seatSessions
      | some route => depart rest (routes.erase session) (seatSessions.erase route.seat) := by
  cases hroute : routes.find? session with
  | none =>
    unfold depart
    rw [List.foldl_cons]
    dsimp only
    rw [hroute]
  | some route =>
    unfold depart
    rw [List.foldl_cons]
    dsimp only
    rw [hroute]

/-- Nobody who leaves keeps a route. -/
theorem depart_routes : (depart departing routes seatSessions).1.find? x =
    if x ∈ departing then none else routes.find? x := by
  induction departing generalizing routes seatSessions with
  | nil => simp [depart]
  | cons session rest ih =>
    rw [depart_cons]
    cases hroute : routes.find? session with
    | none =>
      dsimp only
      rw [ih]
      by_cases hx : x = session
      · subst hx
        rw [hroute, ite_self, ite_self]
      · simp [hx]
    | some route =>
      dsimp only
      rw [ih, OrdMap.find_erase]
      by_cases hx : x = session
      · subst hx
        rw [if_pos rfl, ite_self, if_pos List.mem_cons_self]
      · simp [hx]

/-- The seats given up are those that the routes of the departing lead to. -/
theorem depart_seats (hn : departing.Nodup) : (depart departing routes seatSessions).2.find? q =
    if ∃ session ∈ departing, ∃ route, routes.find? session = some route ∧ route.seat = q then none
    else seatSessions.find? q := by
  induction departing generalizing routes seatSessions with
  | nil => simp [depart]
  | cons session rest ih =>
    obtain ⟨hnew, hrest⟩ := List.nodup_cons.mp hn
    rw [depart_cons]
    cases hroute : routes.find? session with
    | none =>
      dsimp only
      rw [ih hrest]
      refine if_congr ?_ rfl rfl
      constructor
      · rintro ⟨other, hother, h⟩
        exact ⟨other, List.mem_cons_of_mem _ hother, h⟩
      · rintro ⟨other, hother, route, hf, hseat⟩
        rcases List.mem_cons.mp hother with rfl | hother
        · rw [hroute] at hf
          cases hf
        · exact ⟨other, hother, route, hf, hseat⟩
    | some route =>
      dsimp only
      rw [ih hrest, OrdMap.find_erase]
      have hothers : ∀ other ∈ rest, (routes.erase session).find? other = routes.find? other := by
        intro other hother
        refine OrdMap.find_erase_ne ?_
        rintro rfl
        exact hnew hother
      by_cases hq : q = route.seat
      · rw [if_pos hq, ite_self, if_pos ⟨session, List.mem_cons_self, route, hroute, hq.symm⟩]
      · rw [if_neg hq]
        refine if_congr ?_ rfl rfl
        constructor
        · rintro ⟨other, hother, left, hf, hseat⟩
          rw [hothers other hother] at hf
          exact ⟨other, List.mem_cons_of_mem _ hother, left, hf, hseat⟩
        · rintro ⟨other, hother, left, hf, hseat⟩
          rcases List.mem_cons.mp hother with rfl | hother
          · rw [hroute] at hf
            cases hf
            exact absurd hseat.symm hq
          · exact ⟨other, hother, left, by rw [hothers other hother]; exact hf, hseat⟩

theorem depart_same : (depart departing routes seatSessions).1 = routes ↔ ∀ session ∈ departing, routes.find? session = none := by
  constructor
  · intro h session hsession
    rw [← h, depart_routes, if_pos hsession]
  · intro h
    refine OrdMap.ext_find ?_
    intro x
    rw [depart_routes]
    split
    · rename_i hx
      exact (h x hx).symm
    · rfl

end departing

/-! ## Those who wait -/

/-- The queue up to the first who finds no seat: an id is left for each player, and each is let in. -/
def Admittable (config : PublicTableConfig) : List WaitingEntry → TableLifecycle → Nat → Prop
  | [], _, _ => True
  | entry :: rest, t, nextPlayerId =>
    match config.seatFor t entry.requestedSeat with
    | none => True
    | some seat => nextPlayerId < u64Max ∧ t.LetsIn ⟨nextPlayerId⟩ seat config.startingStack ∧
        Admittable config rest (t.joinWithEntry ⟨nextPlayerId⟩ seat config.startingStack .postLiveBigBlind).2 (nextPlayerId + 1)

/-- An entry of the queue is seated: its player is let in and its session routed. -/
def Admission.seated (a : Admission) (tableId : TableId) (entry : WaitingEntry) (seat : SeatId)
    (lifecycle : TableLifecycle) : Admission :=
  { a with
    nextPlayerId := a.nextPlayerId + 1
    lifecycle := lifecycle
    waitingSessions := a.waitingSessions.erase entry.session
    seatSessions := a.seatSessions.insert seat entry.session
    sessions := a.sessions.insert entry.session ⟨tableId, ⟨a.nextPlayerId⟩, seat⟩ }

/-- What the admissions leave: the queue's first players seated, the rest still waiting. -/
inductive Admits (tableId : TableId) (config : PublicTableConfig) : List WaitingEntry → Admission → Admission → Prop
  | drained (a : Admission) : Admits tableId config [] a { a with waiting := [] }
  | waits (entry : WaitingEntry) (rest : List WaitingEntry) (a : Admission) :
      config.seatFor a.lifecycle entry.requestedSeat = none →
      Admits tableId config (entry :: rest) a { a with waiting := entry :: rest }
  | seated (entry : WaitingEntry) (rest : List WaitingEntry) (a a' : Admission) (seat : SeatId) (lifecycle : TableLifecycle) :
      config.seatFor a.lifecycle entry.requestedSeat = some seat → a.nextPlayerId < u64Max →
      a.lifecycle.joinWithEntry ⟨a.nextPlayerId⟩ seat config.startingStack .postLiveBigBlind = (.ok (), lifecycle) →
      Admits tableId config rest (a.seated tableId entry seat lifecycle) a' → Admits tableId config (entry :: rest) a a'

theorem admitWaiting_ok {waiting : List WaitingEntry} {a a' : Admission}
    (h : admitWaiting tableId config waiting a = (.ok (), a')) : Admits tableId config waiting a a' := by
  induction waiting generalizing a with
  | nil =>
    cases h
    exact .drained a
  | cons entry rest ih =>
    unfold admitWaiting at h
    cases hseat : config.seatFor a.lifecycle entry.requestedSeat with
    | none =>
      rw [hseat] at h
      cases h
      exact .waits entry rest a hseat
    | some seat =>
      rw [hseat] at h
      dsimp only at h
      unfold checkedNext at h
      by_cases hnext : a.nextPlayerId < u64Max
      · rw [if_pos hnext] at h
        dsimp only at h
        rcases hjoin : a.lifecycle.joinWithEntry ⟨a.nextPlayerId⟩ seat config.startingStack .postLiveBigBlind
          with ⟨result, lifecycle⟩
        rw [hjoin] at h
        cases result with
        | error error => cases h
        | ok u => exact .seated entry rest a a' seat lifecycle hseat hnext hjoin (ih h)
      · rw [if_neg hnext] at h
        cases h

theorem admitWaiting_ok_iff {waiting : List WaitingEntry} {a : Admission} :
    (admitWaiting tableId config waiting a).1 = .ok () ↔ Admittable config waiting a.lifecycle a.nextPlayerId := by
  induction waiting generalizing a with
  | nil => simp [admitWaiting, Admittable]
  | cons entry rest ih =>
    unfold admitWaiting Admittable
    cases hseat : config.seatFor a.lifecycle entry.requestedSeat with
    | none => simp
    | some seat =>
      dsimp only
      unfold checkedNext
      by_cases hnext : a.nextPlayerId < u64Max
      · rw [if_pos hnext]
        dsimp only
        have hlets := @TableLifecycle.joinWithEntry_ok_iff a.lifecycle
            ⟨a.nextPlayerId⟩ seat config.startingStack .postLiveBigBlind
        rcases hjoin : a.lifecycle.joinWithEntry ⟨a.nextPlayerId⟩ seat config.startingStack .postLiveBigBlind
          with ⟨result, lifecycle⟩
        rw [hjoin] at hlets
        cases result with
        | error error =>
          constructor
          · intro h
            cases h
          · rintro ⟨_, hin, _⟩
            have hok := hlets.mpr hin
            cases hok
        | ok u =>
          dsimp only
          rw [ih]
          exact ⟨fun h => ⟨hnext, hlets.mp rfl, h⟩, fun h => h.2.2⟩
      · rw [if_neg hnext]
        constructor
        · intro h
          cases h
        · intro h
          exact absurd h.1 hnext

/-- Nobody from the queue comes as far as a player id. -/
def NoneAdmitted (config : PublicTableConfig) (waiting : List WaitingEntry) (t : TableLifecycle) (nextPlayerId : Nat) : Prop :=
  ∀ entry, waiting.head? = some entry → config.seatFor t entry.requestedSeat = none ∨ u64Max ≤ nextPlayerId

theorem admitWaiting_counts (waiting : List WaitingEntry) (a : Admission) :
    a.nextPlayerId ≤ (admitWaiting tableId config waiting a).2.nextPlayerId := by
  induction waiting generalizing a with
  | nil => exact Nat.le_refl _
  | cons entry rest ih =>
    unfold admitWaiting
    cases config.seatFor a.lifecycle entry.requestedSeat with
    | none => exact Nat.le_refl _
    | some seat =>
      dsimp only
      unfold checkedNext
      by_cases hnext : a.nextPlayerId < u64Max
      · rw [if_pos hnext]
        dsimp only
        rcases a.lifecycle.joinWithEntry ⟨a.nextPlayerId⟩ seat config.startingStack .postLiveBigBlind with ⟨result, lifecycle⟩
        cases result with
        | error error => exact Nat.le_succ _
        | ok u => exact (Nat.le_succ _).trans (ih (a.seated tableId entry seat lifecycle))
      · rw [if_neg hnext]

theorem admitWaiting_none {waiting : List WaitingEntry} {a : Admission}
    (h : NoneAdmitted config waiting a.lifecycle a.nextPlayerId) :
    ∃ waiting', (admitWaiting tableId config waiting a).2 = { a with waiting := waiting' } := by
  cases waiting with
  | nil => exact ⟨[], rfl⟩
  | cons entry rest =>
    unfold admitWaiting
    cases hseat : config.seatFor a.lifecycle entry.requestedSeat with
    | none => exact ⟨entry :: rest, rfl⟩
    | some seat =>
      dsimp only
      rcases h entry rfl with hnone | hfull
      · rw [hseat] at hnone
        cases hnone
      · unfold checkedNext
        rw [if_neg (Nat.not_lt.mpr hfull)]
        exact ⟨a.waiting, rfl⟩

theorem admitWaiting_some {waiting : List WaitingEntry} {a : Admission}
    (h : ¬ NoneAdmitted config waiting a.lifecycle a.nextPlayerId) :
    a.nextPlayerId < (admitWaiting tableId config waiting a).2.nextPlayerId := by
  cases waiting with
  | nil => exact absurd (fun entry he => (by cases he)) h
  | cons entry rest =>
    unfold admitWaiting
    cases hseat : config.seatFor a.lifecycle entry.requestedSeat with
    | none =>
      refine absurd ?_ h
      rintro other hother
      cases hother
      exact Or.inl hseat
    | some seat =>
      have hnext : a.nextPlayerId < u64Max := by
        by_contra hfull
        refine h ?_
        rintro other hother
        exact Or.inr (Nat.not_lt.mp hfull)
      dsimp only
      unfold checkedNext
      rw [if_pos hnext]
      dsimp only
      rcases a.lifecycle.joinWithEntry ⟨a.nextPlayerId⟩ seat config.startingStack .postLiveBigBlind with ⟨result, lifecycle⟩
      cases result with
      | error error => exact Nat.lt_succ_self _
      | ok u => exact (Nat.lt_succ_self _).trans_le (admitWaiting_counts rest (a.seated tableId entry seat lifecycle))

/-! ## The next hand -/

/-- A hand can be started from these seats. -/
structure Startable (shuffle : Shuffle) (config : PublicTableConfig) (lifecycle : TableLifecycle)
    (seatSessions : OrdMap SeatId GuestSessionId) (blinds : BlindValues) (seedFor : Nat → Option Nat)
    (nextHandId : Nat) : Prop where
  begins : lifecycle.Begins
  next : nextHandId < u64Max
  builds : (lifecycle.promoteNaturalBigBlindWaiter.handStart.intoHand config.seats blinds
    (shuffle (seedFor lifecycle.promoteNaturalBigBlindWaiter.handStart.number) ⟨nextHandId⟩)).build.isOk = true
  binds : SeatsDealt seatSessions lifecycle.promoteNaturalBigBlindWaiter.handStart

theorem startHand_iff {lifecycle : TableLifecycle} {seatSessions : OrdMap SeatId GuestSessionId} {blinds : BlindValues}
    {seedFor : Nat → Option Nat} {nextHandId : Nat} (hfair : shuffle.Fair) :
    (∃ started, startHand shuffle tableId config lifecycle seatSessions blinds seedFor nextHandId stayConnected = .ok started) ↔
      Startable shuffle config lifecycle seatSessions blinds seedFor nextHandId := by
  rw [startHand_ok_iff hfair]
  constructor
  · rintro ⟨start, hbegin, hnext, hbuild, hbinds⟩
    obtain ⟨hbegins, rfl⟩ := TableLifecycle.beginHand_ok_iff.mp hbegin
    exact ⟨hbegins, hnext, hbuild, hbinds⟩
  · intro hs
    exact ⟨_, TableLifecycle.beginHand_ok_iff.mpr ⟨hs.begins, rfl⟩, hs.next, hs.builds, hs.binds⟩

/-! ## The rollover -/

/-- The registry once the last views of the hand are kept. -/
def retired (r : TableRegistry) (finished : FinishedHand) : TableRegistry :=
  { r with
    retiredUpdates := finished.updates.foldl
      (fun m (e : GuestSessionId × SubscriptionUpdate) => m.insert e.1 e.2) r.retiredUpdates }

/-- The time since anything last happened at the finished hand's table. -/
def FinishedHand.elapsed (finished : FinishedHand) (now : Nat) : Nat := now - finished.table.lastActivity

/-- The tournament once the hand is over. -/
def FinishedHand.tournament (finished : FinishedHand) (now : Nat) : Option TournamentController :=
  tournamentAfter finished.table (finished.elapsed now) finished.finalStacks

/-- The seats and the sessions once those who leave have left and those who wait are let in. -/
def reseating (r : TableRegistry) (now : Nat) (tableId : TableId) (finished : FinishedHand) :
    Except TableRegistryError Unit × Admission :=
  r.reseat tableId finished.table (finished.table.lifecycle.completeHand finished.finalStacks).2 (finished.tournament now)

/-- The routes and the seats once those who leave have left. -/
def departed (r : TableRegistry) (finished : FinishedHand) : Admission where
  nextPlayerId := r.nextPlayerId
  sessions := (depart finished.table.pendingDepartures.keys r.sessions finished.table.seatSessions).1
  waitingSessions := r.waitingSessions
  lifecycle := (finished.table.lifecycle.completeHand finished.finalStacks).2
  seatSessions := (depart finished.table.pendingDepartures.keys r.sessions finished.table.seatSessions).2.filterKey fun seat =>
    ((finished.table.lifecycle.completeHand finished.finalStacks).2.seats.seat seat).isSome
  waiting := finished.table.waiting

/-- Only a table without a tournament lets anybody in. -/
theorem reseating_eq (r : TableRegistry) (now : Nat) (tableId : TableId) (finished : FinishedHand) :
    r.reseating now tableId finished = if finished.table.tournament.isSome then (.ok (), r.departed finished)
      else admitWaiting tableId finished.table.config finished.table.waiting (r.departed finished) := by
  unfold reseating reseat FinishedHand.tournament tournamentAfter departed
  rcases depart finished.table.pendingDepartures.keys r.sessions finished.table.seatSessions with ⟨routes, seatSessions⟩
  cases finished.table.tournament <;> rfl

/-- The table between the finished hand and the next. -/
def FinishedHand.reseated (finished : FinishedHand) (now : Nat) (a : Admission) : RegisteredTable :=
  TableRegistry.reseated finished.table now (finished.tournament now) a

/-- Everything `rollover_completed_hand` can do. -/
inductive RollsOver (r : TableRegistry) (shuffle : Shuffle) (now : Nat) (tableId : TableId) (handId : HandId) :
    Except TableRegistryError (Option HandId) → TableRegistry → Prop
  | refused (error : TableRegistryError) : r.finishedHand tableId handId = .error error →
      RollsOver r shuffle now tableId handId (.error error) r
  | other : r.finishedHand tableId handId = .ok none → RollsOver r shuffle now tableId handId (.ok none) r
  /-- The stacks are not taken: the last views are kept all the same. -/
  | unsettled (error : TableRegistryError) (finished : FinishedHand) : r.finishedHand tableId handId = .ok (some finished) →
      ¬ Settled finished.table (finished.elapsed now) finished.finalStacks →
      RollsOver r shuffle now tableId handId (.error error) (r.retired finished)
  /-- A player who waited is not let in: the routes, the ids and the queue's index are changed all the same. -/
  | unseated (error : TableRegistryError) (finished : FinishedHand) (a : Admission) :
      r.finishedHand tableId handId = .ok (some finished) →
      Settled finished.table (finished.elapsed now) finished.finalStacks → r.reseating now tableId finished = (.error error, a) →
      RollsOver r shuffle now tableId handId (.error error) ((r.retired finished).rerouted a)
  | rested (finished : FinishedHand) (a : Admission) : r.finishedHand tableId handId = .ok (some finished) →
      Settled finished.table (finished.elapsed now) finished.finalStacks → r.reseating now tableId finished = (.ok (), a) →
      rests finished.table.config a.lifecycle (finished.tournament now) = true →
      RollsOver r shuffle now tableId handId (.ok none)
        ((((r.retired finished).rerouted a).putTable tableId (finished.reseated now a)).bumpRevision)
  /-- The next hand is not started: the routes, the ids and the queue's index are changed all the same. -/
  | unstarted (error : TableRegistryError) (finished : FinishedHand) (a : Admission) :
      r.finishedHand tableId handId = .ok (some finished) →
      Settled finished.table (finished.elapsed now) finished.finalStacks → r.reseating now tableId finished = (.ok (), a) →
      rests finished.table.config a.lifecycle (finished.tournament now) = false →
      startHand shuffle tableId finished.table.config a.lifecycle a.seatSessions (blindsOf (finished.tournament now))
        (seedForNumber finished.table.deterministicSeed) r.nextHandId stayConnected = .error error →
      RollsOver r shuffle now tableId handId (.error error) ((r.retired finished).rerouted a)
  | started (started : StartedHand) (finished : FinishedHand) (a : Admission) :
      r.finishedHand tableId handId = .ok (some finished) →
      Settled finished.table (finished.elapsed now) finished.finalStacks → r.reseating now tableId finished = (.ok (), a) →
      rests finished.table.config a.lifecycle (finished.tournament now) = false →
      startHand shuffle tableId finished.table.config a.lifecycle a.seatSessions (blindsOf (finished.tournament now))
        (seedForNumber finished.table.deterministicSeed) r.nextHandId stayConnected = .ok started →
      RollsOver r shuffle now tableId handId (.ok (some started.handId))
        (({ (r.retired finished).rerouted a with nextHandId := started.nextHandId }.putTable tableId
          ((finished.reseated now a).running started)).bumpRevision)

theorem rollover_settled {finished : FinishedHand} (hf : r.finishedHand tableId handId = .ok (some finished))
    (hs : settleHand finished.table (finished.elapsed now) finished.finalStacks =
      .ok ((finished.table.lifecycle.completeHand finished.finalStacks).2, finished.tournament now)) :
    r.rolloverCompletedHand shuffle now tableId handId =
      match r.reseating now tableId finished with
      | (.error error, a) => (.error error, (r.retired finished).rerouted a)
      | (.ok (), a) =>
        if rests finished.table.config a.lifecycle (finished.tournament now) then
          (.ok none, (((r.retired finished).rerouted a).putTable tableId (finished.reseated now a)).bumpRevision)
        else
          match startHand shuffle tableId finished.table.config a.lifecycle a.seatSessions (blindsOf (finished.tournament now))
              (seedForNumber finished.table.deterministicSeed) r.nextHandId stayConnected with
          | .error error => (.error error, (r.retired finished).rerouted a)
          | .ok started => (.ok (some started.handId),
              ({ (r.retired finished).rerouted a with nextHandId := started.nextHandId }.putTable tableId
                ((finished.reseated now a).running started)).bumpRevision) := by
  unfold rolloverCompletedHand
  rw [hf]
  dsimp only
  rw [show settleHand finished.table (now - finished.table.lastActivity) finished.finalStacks = _ from hs]
  rfl

theorem rollover_cases (r : TableRegistry) (shuffle : Shuffle) (now : Nat) (tableId : TableId) (handId : HandId) :
    RollsOver r shuffle now tableId handId (r.rolloverCompletedHand shuffle now tableId handId).1
      (r.rolloverCompletedHand shuffle now tableId handId).2 := by
  cases hfinished : r.finishedHand tableId handId with
  | error error =>
    unfold rolloverCompletedHand
    rw [hfinished]
    exact .refused error hfinished
  | ok result =>
    cases result with
    | none =>
      unfold rolloverCompletedHand
      rw [hfinished]
      exact .other hfinished
    | some finished =>
      rcases settleHand_cases finished.table (finished.elapsed now) finished.finalStacks with ⟨hsettled, hs⟩ | ⟨hno, error, hs⟩
      · rw [rollover_settled hfinished hs]
        rcases hreseat : r.reseating now tableId finished with ⟨result, a⟩
        cases result with
        | error error => exact .unseated error finished a hfinished hsettled hreseat
        | ok u =>
          dsimp only
          cases hrests : rests finished.table.config a.lifecycle (finished.tournament now) with
          | true =>
            rw [if_pos rfl]
            exact .rested finished a hfinished hsettled hreseat hrests
          | false =>
            rw [if_neg (by simp)]
            cases hstart : startHand shuffle tableId finished.table.config a.lifecycle a.seatSessions
              (blindsOf (finished.tournament now))
              (seedForNumber finished.table.deterministicSeed) r.nextHandId stayConnected with
            | error error => exact .unstarted error finished a hfinished hsettled hreseat hrests hstart
            | ok started => exact .started started finished a hfinished hsettled hreseat hrests hstart
      · unfold rolloverCompletedHand
        rw [hfinished]
        dsimp only
        rw [show settleHand finished.table (now - finished.table.lastActivity) finished.finalStacks = _ from hs]
        exact .unsettled error finished hfinished hno

/-- Every step after the checks goes through. -/
structure Passes (r : TableRegistry) (shuffle : Shuffle) (now : Nat) (tableId : TableId) (finished : FinishedHand) : Prop where
  settles : Settled finished.table (finished.elapsed now) finished.finalStacks
  queue : finished.table.tournament = none → Admittable finished.table.config finished.table.waiting
    (finished.table.lifecycle.completeHand finished.finalStacks).2 r.nextPlayerId
  starts : rests finished.table.config (r.reseating now tableId finished).2.lifecycle (finished.tournament now) = false →
    Startable shuffle finished.table.config (r.reseating now tableId finished).2.lifecycle
      (r.reseating now tableId finished).2.seatSessions (blindsOf (finished.tournament now))
      (seedForNumber finished.table.deterministicSeed) r.nextHandId

theorem reseating_ok_iff {finished : FinishedHand} : (r.reseating now tableId finished).1 = .ok () ↔
    (finished.table.tournament = none → Admittable finished.table.config finished.table.waiting
      (finished.table.lifecycle.completeHand finished.finalStacks).2 r.nextPlayerId) := by
  rw [reseating_eq]
  cases finished.table.tournament with
  | none =>
    rw [Option.isSome_none, if_neg (by simp), admitWaiting_ok_iff]
    exact ⟨fun h _ => h, fun h => h rfl⟩
  | some controller =>
    rw [Option.isSome_some, if_pos rfl]
    exact ⟨fun _ h => (by cases h), fun _ => rfl⟩

theorem rollover_ok_iff {finished : FinishedHand} (hfair : shuffle.Fair)
    (hf : r.finishedHand tableId handId = .ok (some finished)) :
    (∃ next, (r.rolloverCompletedHand shuffle now tableId handId).1 = .ok next) ↔ r.Passes shuffle now tableId finished := by
  have hcases := rollover_cases r shuffle now tableId handId
  generalize r.rolloverCompletedHand shuffle now tableId handId = outcome at hcases ⊢
  obtain ⟨result, left⟩ := outcome
  dsimp only at hcases ⊢
  cases hcases with
  | refused error h =>
    rw [hf] at h
    cases h
  | other h =>
    rw [hf] at h
    cases h
  | unsettled error found h hno =>
    obtain rfl := Option.some.inj (Except.ok.inj (hf.symm.trans h))
    constructor
    · rintro ⟨next, hnext⟩
      cases hnext
    · intro hp
      exact absurd hp.settles hno
  | unseated error found a h _ hreseat =>
    obtain rfl := Option.some.inj (Except.ok.inj (hf.symm.trans h))
    constructor
    · rintro ⟨next, hnext⟩
      cases hnext
    · intro hp
      have hok : (r.reseating now tableId finished).1 = .ok () := reseating_ok_iff.mpr hp.queue
      rw [hreseat] at hok
      cases hok
  | rested found a h hsettled hreseat hrests =>
    obtain rfl := Option.some.inj (Except.ok.inj (hf.symm.trans h))
    refine ⟨fun _ => ⟨hsettled, reseating_ok_iff.mp (by rw [hreseat]), ?_⟩, fun _ => ⟨none, rfl⟩⟩
    rw [hreseat]
    intro hmore
    rw [hrests] at hmore
    cases hmore
  | unstarted error found a h _ hreseat hrests hstart =>
    obtain rfl := Option.some.inj (Except.ok.inj (hf.symm.trans h))
    constructor
    · rintro ⟨next, hnext⟩
      cases hnext
    · intro hp
      have hstarts := hp.starts (by rw [hreseat]; exact hrests)
      rw [hreseat] at hstarts
      obtain ⟨started, hok⟩ := (@startHand_iff _ tableId _ _ _ _ _ _ hfair).mpr hstarts
      rw [hstart] at hok
      cases hok
  | started started found a h hsettled hreseat hrests hstart =>
    obtain rfl := Option.some.inj (Except.ok.inj (hf.symm.trans h))
    refine ⟨fun _ => ⟨hsettled, reseating_ok_iff.mp (by rw [hreseat]), ?_⟩, fun _ => ⟨_, rfl⟩⟩
    rw [hreseat]
    intro _
    exact (startHand_iff hfair).mp ⟨started, hstart⟩

end TableRegistry

end OpenFelt
