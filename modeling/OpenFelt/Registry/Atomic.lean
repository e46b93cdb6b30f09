/-
  OpenFelt.Registry.Atomic — what a call that fails leaves behind.

  Joining, waiting, leaving, cancelling and starting a tournament's next hand leave the
  registry as it was. A rollover may not: it keeps the last views, takes the routes of
  those who leave and lets in those who wait before its last steps can fail. It leaves the
  registry as it was exactly when those steps are accepted (`Passes`), or when nothing it
  wrote was new (`Unwritten`).
-/

import OpenFelt.Registry.Steps

namespace OpenFelt

theorem TournamentController.unregister_refused {c c' : TournamentController} {player : PlayerId} {error : TournamentError}
    (h : c.unregister player = (.error error, c')) : c' = c := by
  unfold unregister at h
  split at h
  · cases h
    rfl
  · cases h

namespace TableRegistry

variable {r r' : TableRegistry} {shuffle : Shuffle} {now : Nat} {tableId : TableId} {handId : HandId} {session : GuestSessionId}
  {table : RegisteredTable} {requestedSeat : Option SeatId} {error : TableRegistryError}

/-! ## The calls that leave everything as it was -/

theorem join_unchanged (h : r.join shuffle now session tableId requestedSeat = (.error error, r')) : r' = r := by
  unfold join at h
  split at h
  · cases h
    rfl
  split at h
  · cases h
    rfl
  split at h
  · cases h
    rfl
  split at h
  · cases h
    rfl
  dsimp only at h
  split at h
  · cases h
    rfl
  · cases h

theorem joinOrWait_unchanged {hashes : Hashes} {accessCode : Option String}
    (h : r.joinOrWaitWithAccess hashes shuffle now session tableId requestedSeat accessCode = (.error error, r')) : r' = r := by
  unfold joinOrWaitWithAccess at h
  split at h
  · cases h
    rfl
  split at h
  · cases h
    rfl
  split at h
  · cases h
    rfl
  split at h
  · cases h
    rfl
  split at h
  · cases h
    rfl
  dsimp only at h
  split at h
  · rcases hjoin : r.join shuffle now session tableId requestedSeat with ⟨result, left⟩
    rw [hjoin] at h
    cases result with
    | error error =>
      cases h
      exact join_unchanged hjoin
    | ok outcome => cases h
  split at h
  · cases h
    rfl
  · cases h

theorem requestLeave_unchanged (h : r.requestLeave now session = (.error error, r')) : r' = r := by
  unfold requestLeave at h
  cases hroute : r.sessions.find? session with
  | none =>
    rw [hroute] at h
    cases h
    rfl
  | some route =>
    rw [hroute] at h
    dsimp only at h
    cases htable : r.tables.find? route.tableId with
    | none =>
      rw [htable] at h
      cases h
      rfl
    | some table =>
      rw [htable] at h
      dsimp only at h
      rcases hleave : table.lifecycle.requestLeave route.player with ⟨result, lifecycle⟩
      rw [hleave] at h
      cases result with
      | ok u => cases h
      | error refusal =>
        cases h
        rw [TableLifecycle.requestTransition_refused hleave]
        exact putTable_same htable

theorem cancelWait_unchanged (h : r.cancelWait now session tableId = (.error error, r')) : r' = r := by
  unfold cancelWait at h
  cases hroute : r.sessions.find? session with
  | none =>
    rw [hroute] at h
    dsimp only at h
    split at h
    · cases h
      rfl
    split at h
    · cases h
      rfl
    · cases h
  | some route =>
    rw [hroute] at h
    dsimp only at h
    cases htable : r.tables.find? tableId with
    | none =>
      rw [htable] at h
      cases h
      rfl
    | some table =>
      rw [htable] at h
      dsimp only at h
      cases htournament : table.tournament with
      | none =>
        rw [htournament] at h
        cases h
        rfl
      | some controller =>
        rw [htournament] at h
        dsimp only at h
        split at h
        · cases h
          rfl
        rcases hleave : table.lifecycle.requestLeave route.player with ⟨result, lifecycle⟩
        rw [hleave] at h
        cases result with
        | error refusal =>
          cases h
          rfl
        | ok u =>
          dsimp only at h
          rcases hunregister : controller.unregister route.player with ⟨result, left⟩
          rw [hunregister] at h
          cases result with
          | ok u => cases h
          | error refusal =>
            cases h
            rw [TournamentController.unregister_refused hunregister, ← htournament]
            exact putTable_same htable

theorem startWaiting_unchanged (h : r.startWaitingTournamentHand shuffle now tableId = (.error error, r')) : r' = r := by
  unfold startWaitingTournamentHand at h
  split at h
  · cases h
    rfl
  split at h
  · cases h
    rfl
  split at h
  · cases h
    rfl
  · cases h

/-! ## What a rollover writes -/

/-- Nothing that a rollover writes before it can fail is new: the last views are kept already and, once
    the hand is settled, nobody who leaves has a route and nobody in the queue is let in. -/
structure Unwritten (r : TableRegistry) (now : Nat) (finished : FinishedHand) : Prop where
  views : ∀ e ∈ finished.updates, r.retiredUpdates.find? e.1 = some e.2
  departures : Settled finished.table (finished.elapsed now) finished.finalStacks →
    ∀ session ∈ finished.table.pendingDepartures.keys, r.sessions.find? session = none
  admissions : Settled finished.table (finished.elapsed now) finished.finalStacks → finished.table.tournament = none →
    NoneAdmitted finished.table.config finished.table.waiting
      (finished.table.lifecycle.completeHand finished.finalStacks).2 r.nextPlayerId

variable {finished : FinishedHand} {runtime : RuntimeState} {sample : GuestSessionId}

theorem retired_same (hf : Finished r tableId handId finished runtime sample) :
    (r.retired finished).retiredUpdates = r.retiredUpdates ↔ ∀ e ∈ finished.updates, r.retiredUpdates.find? e.1 = some e.2 :=
  OrdMap.collect_eq_iff hf.consistent r.retiredUpdates

/-- Who is admitted shows in the player ids, and without admissions who departs shows in the routes. -/
theorem reseating_same : ((r.reseating now tableId finished).2.nextPlayerId = r.nextPlayerId ∧
      (r.reseating now tableId finished).2.sessions = r.sessions ∧
      (r.reseating now tableId finished).2.waitingSessions = r.waitingSessions) ↔
    (∀ session ∈ finished.table.pendingDepartures.keys, r.sessions.find? session = none) ∧
      (finished.table.tournament = none → NoneAdmitted finished.table.config finished.table.waiting
        (finished.table.lifecycle.completeHand finished.finalStacks).2 r.nextPlayerId) := by
  rw [← @depart_same r.sessions finished.table.seatSessions finished.table.pendingDepartures.keys, reseating_eq]
  cases finished.table.tournament with
  | some controller =>
    rw [Option.isSome_some, if_pos rfl]
    exact ⟨fun h => ⟨h.2.1, fun h => (by cases h)⟩, fun h => ⟨rfl, h.1, rfl⟩⟩
  | none =>
    rw [Option.isSome_none, if_neg (by simp)]
    by_cases hnone : NoneAdmitted finished.table.config finished.table.waiting (r.departed finished).lifecycle
        (r.departed finished).nextPlayerId
    · obtain ⟨waiting', htakes⟩ := @admitWaiting_none tableId _ _ _ hnone
      rw [htakes]
      exact ⟨fun h => ⟨h.2.1, fun _ => hnone⟩, fun h => ⟨rfl, h.1, rfl⟩⟩
    · have hlt := @admitWaiting_some tableId _ _ _ hnone
      constructor
      · intro h
        exact absurd h.1 hlt.ne'
      · intro h
        exact absurd (h.2 rfl) hnone

theorem rerouted_same_iff (hf : Finished r tableId handId finished runtime sample)
    (hs : Settled finished.table (finished.elapsed now) finished.finalStacks) :
    (r.retired finished).rerouted (r.reseating now tableId finished).2 = r ↔ r.Unwritten now finished := by
  constructor
  · intro h
    have hviews : ((r.retired finished).rerouted (r.reseating now tableId finished).2).retiredUpdates = r.retiredUpdates := by
      rw [h]
    obtain ⟨hdepartures, hadmissions⟩ := (@reseating_same r now tableId finished).mp
      ⟨congrArg nextPlayerId h, congrArg sessions h, congrArg waitingSessions h⟩
    exact ⟨(retired_same hf).mp hviews, fun _ => hdepartures, fun _ => hadmissions⟩
  · intro h
    obtain ⟨hids, hroutes, hwaiting⟩ := (@reseating_same r now tableId finished).mpr ⟨h.departures hs, h.admissions hs⟩
    unfold rerouted
    rw [hids, hroutes, hwaiting]
    unfold retired
    rw [(OrdMap.collect_eq_iff hf.consistent r.retiredUpdates).mpr h.views]

theorem retired_same_iff (hf : Finished r tableId handId finished runtime sample)
    (hno : ¬ Settled finished.table (finished.elapsed now) finished.finalStacks) :
    r.retired finished = r ↔ r.Unwritten now finished := by
  constructor
  · intro h
    exact ⟨(retired_same hf).mp (congrArg retiredUpdates h), fun hs => absurd hs hno, fun hs => absurd hs hno⟩
  · intro h
    unfold retired
    rw [(OrdMap.collect_eq_iff hf.consistent r.retiredUpdates).mpr h.views]

/-- A rollover that fails leaves the registry as it was. -/
def RollsBack (r : TableRegistry) (shuffle : Shuffle) (now : Nat) (tableId : TableId) (handId : HandId) : Prop :=
  ∀ error, (r.rolloverCompletedHand shuffle now tableId handId).1 = .error error →
    (r.rolloverCompletedHand shuffle now tableId handId).2 = r

theorem rollsBack_iff (hfair : shuffle.Fair) : r.RollsBack shuffle now tableId handId ↔
    ∀ finished, r.finishedHand tableId handId = .ok (some finished) →
      r.Passes shuffle now tableId finished ∨ r.Unwritten now finished := by
  unfold RollsBack
  have hpasses := fun finished => @rollover_ok_iff r shuffle now tableId handId finished hfair
  have hcases := rollover_cases r shuffle now tableId handId
  generalize r.rolloverCompletedHand shuffle now tableId handId = outcome at hcases hpasses ⊢
  obtain ⟨result, left⟩ := outcome
  dsimp only at hcases hpasses ⊢
  cases hcases with
  | refused error h =>
    refine ⟨fun _ finished hf => ?_, fun _ _ _ => rfl⟩
    rw [hf] at h
    cases h
  | other h =>
    refine ⟨fun _ finished hf => ?_, fun _ _ _ => rfl⟩
    rw [hf] at h
    cases h
  | unsettled error finished h hno =>
    obtain ⟨runtime, sample, hfin⟩ := finishedHand_some h
    constructor
    · intro hback found hf
      obtain rfl := Option.some.inj (Except.ok.inj (h.symm.trans hf))
      exact Or.inr ((retired_same_iff hfin hno).mp (hback error rfl))
    · intro hall _ _
      rcases hall finished h with hp | hu
      · exact absurd hp.settles hno
      · exact (retired_same_iff hfin hno).mpr hu
  | unseated error finished a h hs hreseat =>
    obtain ⟨runtime, sample, hfin⟩ := finishedHand_some h
    have hsame := @rerouted_same_iff r now tableId handId finished runtime sample hfin hs
    rw [hreseat] at hsame
    constructor
    · intro hback found hf
      obtain rfl := Option.some.inj (Except.ok.inj (h.symm.trans hf))
      exact Or.inr (hsame.mp (hback error rfl))
    · intro hall _ _
      rcases hall finished h with hp | hu
      · obtain ⟨next, hnext⟩ := (hpasses finished h).mpr hp
        cases hnext
      · exact hsame.mpr hu
  | rested finished a h hs hreseat hrests =>
    constructor
    · intro _ found hf
      exact Or.inl ((hpasses found hf).mp ⟨none, rfl⟩)
    · intro _ error herror
      cases herror
  | unstarted error finished a h hs hreseat hrests hstart =>
    obtain ⟨runtime, sample, hfin⟩ := finishedHand_some h
    have hsame := @rerouted_same_iff r now tableId handId finished runtime sample hfin hs
    rw [hreseat] at hsame
    constructor
    · intro hback found hf
      obtain rfl := Option.some.inj (Except.ok.inj (h.symm.trans hf))
      exact Or.inr (hsame.mp (hback error rfl))
    · intro hall _ _
      rcases hall finished h with hp | hu
      · obtain ⟨next, hnext⟩ := (hpasses finished h).mpr hp
        cases hnext
      · exact hsame.mpr hu
  | started started finished a h hs hreseat hrests hstart =>
    constructor
    · intro _ found hf
      exact Or.inl ((hpasses found hf).mp ⟨_, rfl⟩)
    · intro _ error herror
      cases herror

/-! ## Every call -/

/-- The calls that seat players, take them away and start hands. -/
inductive FallibleCall where
  | rollover (shuffle : Shuffle) (now : Nat) (tableId : TableId) (expectedHandId : HandId)
  | join (shuffle : Shuffle) (now : Nat) (session : GuestSessionId) (tableId : TableId) (requestedSeat : Option SeatId)
  | joinOrWait (h : Hashes) (shuffle : Shuffle) (now : Nat) (session : GuestSessionId) (tableId : TableId)
      (requestedSeat : Option SeatId) (accessCode : Option String)
  | requestLeave (now : Nat) (session : GuestSessionId)
  | cancelWait (now : Nat) (session : GuestSessionId) (tableId : TableId)
  | startWaiting (shuffle : Shuffle) (now : Nat) (tableId : TableId)

namespace FallibleCall

/-- Whether the call fails, and the registry it leaves. -/
def run : FallibleCall → TableRegistry → Except TableRegistryError Unit × TableRegistry
  | rollover shuffle now tableId expectedHandId, r =>
    ((r.rolloverCompletedHand shuffle now tableId expectedHandId).1.map fun _ => (),
      (r.rolloverCompletedHand shuffle now tableId expectedHandId).2)
  | join shuffle now session tableId requestedSeat, r =>
    ((r.join shuffle now session tableId requestedSeat).1.map fun _ => (), (r.join shuffle now session tableId requestedSeat).2)
  | joinOrWait h shuffle now session tableId requestedSeat accessCode, r =>
    ((r.joinOrWaitWithAccess h shuffle now session tableId requestedSeat accessCode).1.map fun _ => (),
      (r.joinOrWaitWithAccess h shuffle now session tableId requestedSeat accessCode).2)
  | requestLeave now session, r => r.requestLeave now session
  | cancelWait now session tableId, r => r.cancelWait now session tableId
  | startWaiting shuffle now tableId, r =>
    ((r.startWaitingTournamentHand shuffle now tableId).1.map fun _ => (), (r.startWaitingTournamentHand shuffle now tableId).2)

/-- The decks of the hands it may start are whole. -/
def Fair : FallibleCall → Prop
  | rollover shuffle .. | join shuffle .. | joinOrWait _ shuffle .. | startWaiting shuffle .. => shuffle.Fair
  | requestLeave .. | cancelWait .. => True

/-- The call, should it fail, leaves the registry as it was. -/
def Atomic (call : FallibleCall) (r : TableRegistry) : Prop := ∀ error, (call.run r).1 = .error error → (call.run r).2 = r

/-- A rollover of a finished hand goes through, or writes nothing new before it fails. -/
def Clean (call : FallibleCall) (r : TableRegistry) : Prop :=
  ∀ shuffle now tableId handId, call = rollover shuffle now tableId handId →
    ∀ finished, r.finishedHand tableId handId = .ok (some finished) →
      r.Passes shuffle now tableId finished ∨ r.Unwritten now finished

end FallibleCall

theorem map_error {α : Type} {result : Except TableRegistryError α} (h : result.map (fun _ => ()) = .error error) :
    result = .error error := by
  cases result with
  | error other =>
    cases h
    rfl
  | ok a => cases h

/-- A call that fails leaves the registry as it was, unless it is a rollover that gets past its checks,
    writes something new and then is refused. -/
theorem atomic_iff_clean (r : TableRegistry) (call : FallibleCall) (hfair : call.Fair) : call.Atomic r ↔ call.Clean r := by
  cases call with
  | rollover shuffle now tableId handId =>
    have hback : FallibleCall.Atomic (.rollover shuffle now tableId handId) r ↔ r.RollsBack shuffle now tableId handId := by
      constructor
      · intro h error he
        exact h error (by rw [FallibleCall.run, he]; rfl)
      · intro h error he
        exact h error (map_error he)
    rw [hback, rollsBack_iff hfair]
    constructor
    · rintro h _ _ _ _ ⟨⟩
      exact h
    · intro h
      exact h _ _ _ _ rfl
  | join shuffle now session tableId requestedSeat =>
    refine ⟨fun _ _ _ _ _ h => (by cases h), fun _ error he => ?_⟩
    exact join_unchanged (Prod.ext (map_error he) rfl)
  | joinOrWait hashes shuffle now session tableId requestedSeat accessCode =>
    refine ⟨fun _ _ _ _ _ h => (by cases h), fun _ error he => ?_⟩
    exact joinOrWait_unchanged (Prod.ext (map_error he) rfl)
  | requestLeave now session =>
    refine ⟨fun _ _ _ _ _ h => (by cases h), fun _ error he => ?_⟩
    exact requestLeave_unchanged (Prod.ext he rfl)
  | cancelWait now session tableId =>
    refine ⟨fun _ _ _ _ _ h => (by cases h), fun _ error he => ?_⟩
    exact cancelWait_unchanged (Prod.ext he rfl)
  | startWaiting shuffle now tableId =>
    refine ⟨fun _ _ _ _ _ h => (by cases h), fun _ error he => ?_⟩
    exact startWaiting_unchanged (Prod.ext (map_error he) rfl)

/-! ## A rollover that fails late -/

/-- Hashes that take every message for the same. -/
def constantHashes : Hashes :=
  ⟨fun _ => List.replicate 32 0, fun _ _ => List.replicate 32 0, fun _ => rfl, fun _ _ => rfl⟩

/-- A deck cut after its third card. -/
def cutDeck : Shuffle := fun _ _ => ⟨Deck.new.cards.rotate 3, 0⟩

theorem cutDeck_fair : cutDeck.Fair := fun _ _ => ⟨List.rotate_perm _ _, rfl⟩

def threeCup : TournamentConfig where
  name := "cup"
  entrants := 3
  startingStack := 100
  levels := [⟨1, 2, 0, 60, 0⟩]
  payout := ⟨100, [10000]⟩
  joinCode := ""

/-- A seat's `n`-th command of the hand, sent by its session. -/
def acts (n : Nat) (session : GuestSessionId) (seat : SeatId) (action : Action) : RegistryOp :=
  .serve ⟨1⟩ (.submit session ⟨protocolVersion, "act-" ++ toString n, ⟨1⟩, ⟨1⟩, n, .act seat action⟩)

/-- Three enter; two go all in and the third folds; the hand is shown down, and the second player has lost everything. -/
def bustingHand : List RegistryOp :=
  [.createTournament constantHashes [] 0 threeCup none,
    .join cutDeck 0 ⟨"ann"⟩ ⟨1⟩ (some 0), .join cutDeck 0 ⟨"bob"⟩ ⟨1⟩ (some 1), .join cutDeck 0 ⟨"cid"⟩ ⟨1⟩ (some 2),
    acts 0 ⟨"ann"⟩ 0 (.allIn 100), acts 1 ⟨"bob"⟩ 1 (.allIn 100), acts 2 ⟨"cid"⟩ 2 .fold] ++
    (List.range 9).map fun n => .serve ⟨1⟩ (.progressShowdown (2000 * (n + 1)))

theorem bustingHand_fair : ∀ op ∈ bustingHand, op.Fair := by
  intro op hop
  unfold bustingHand at hop
  rcases List.mem_append.mp hop with hop | hop
  · simp only [List.mem_cons, List.not_mem_nil, or_false] at hop
    rcases hop with rfl | rfl | rfl | rfl | rfl | rfl | rfl
    · trivial
    · exact cutDeck_fair
    · exact cutDeck_fair
    · exact cutDeck_fair
    · trivial
    · trivial
    · trivial
  · obtain ⟨n, _, rfl⟩ := List.mem_map.mp hop
    trivial

theorem atomic_iff_clean_busting : ∃ r, Reached r ∧
    (FallibleCall.Atomic (.rollover cutDeck 0 ⟨1⟩ ⟨1⟩) r ↔ FallibleCall.Clean (.rollover cutDeck 0 ⟨1⟩ ⟨1⟩) r) := by
  have hnew : (new 1).isOk = true := by decide +kernel
  cases hstart : new 1 with
  | error error =>
    rw [hstart] at hnew
    cases hnew
  | ok start =>
    exact ⟨start.run bustingHand, ⟨1, start, bustingHand, hstart, bustingHand_fair, rfl⟩, atomic_iff_clean _ _ cutDeck_fair⟩

/-- The next hand cannot bind the session of the player who has lost everything, and by then the last views are kept. -/
theorem busted_rollover_not_atomic : ∃ r call, Reached r ∧ call.Fair ∧ ¬ FallibleCall.Atomic call r := by
  have hrun : ((new 1).toOption.map fun start =>
      (((start.run bustingHand).rolloverCompletedHand cutDeck 0 ⟨1⟩ ⟨1⟩).1.isOk,
        ((start.run bustingHand).rolloverCompletedHand cutDeck 0 ⟨1⟩ ⟨1⟩).2.retiredUpdates.size,
        (start.run bustingHand).retiredUpdates.size)) = some (false, 3, 0) := by decide +kernel
  cases hnew : new 1 with
  | error error =>
    rw [hnew] at hrun
    cases hrun
  | ok start =>
    rw [hnew] at hrun
    simp only [Except.toOption, Option.map_some, Option.some.injEq, Prod.mk.injEq] at hrun
    obtain ⟨hfails, hkept, hbefore⟩ := hrun
    refine ⟨start.run bustingHand, .rollover cutDeck 0 ⟨1⟩ ⟨1⟩, ⟨1, start, bustingHand, hnew, bustingHand_fair, rfl⟩,
      cutDeck_fair, ?_⟩
    intro hatomic
    cases hresult : ((start.run bustingHand).rolloverCompletedHand cutDeck 0 ⟨1⟩ ⟨1⟩).1 with
    | ok next =>
      rw [hresult] at hfails
      cases hfails
    | error error =>
      have hsame := hatomic error (by rw [FallibleCall.run, hresult]; rfl)
      rw [FallibleCall.run] at hsame
      dsimp only at hsame
      rw [hsame] at hkept
      rw [hkept] at hbefore
      cases hbefore

end TableRegistry

end OpenFelt
