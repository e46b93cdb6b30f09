/-
  OpenFelt.Training.Play — what a training run ends with.

  An unmasked policy action is a legal one (`mapPolicyAction_valid`), so each turn of the
  loop is accepted and the run stops where the hand is over, a policy gives no answer, or
  the action limit is reached. Proved: `new_settles`, an arena's runs end so exactly when
  its posts leave the betting open.
-/

import OpenFelt.Game.HoleCards
import OpenFelt.Protocol.Runtime
import OpenFelt.Training.Arena

namespace OpenFelt

open Betting
open MultiwayHand (Stage)

/-! ## Deals -/

theorem ensureUnique_ok {seen cards : List Card} (h : ensureUnique seen cards = .ok ()) :
    cards.Nodup ∧ ∀ card ∈ cards, card ∉ seen := by
  induction cards generalizing seen with
  | nil => exact ⟨List.nodup_nil, fun _ hc => (nomatch hc)⟩
  | cons card rest ih =>
    unfold ensureUnique at h
    split at h
    · cases h
    rename_i hnew
    obtain ⟨hn, hfresh⟩ := ih h
    refine ⟨List.nodup_cons.mpr ⟨fun hm => hfresh card hm List.mem_cons_self, hn⟩, fun x hx => ?_⟩
    rcases List.mem_cons.mp hx with rfl | hx
    · simpa using hnew
    · exact fun hm => hfresh x hx (List.mem_cons_of_mem _ hm)

theorem Deck.mem_new (card : Card) : card ∈ Deck.new.cards := by
  obtain ⟨rank, suit⟩ := card
  cases suit <;> cases rank <;> decide

/-- A valid deal is an order of the 52 cards. -/
theorem DealPlanV1.intoDeck_shuffled {deal : DealPlanV1} {deck : Deck} (h : deal.intoDeck = .ok deck) : deck.Shuffled := by
  unfold intoDeck at h
  cases hv : deal.validate with
  | error e => rw [hv] at h; cases h
  | ok u =>
    rw [hv] at h
    cases h
    unfold validate at hv
    split at hv
    · cases hv
    split at hv
    · cases hv
    rename_i hcount
    obtain ⟨hn, _⟩ := ensureUnique_ok hv
    have hsub : deal.cards.Subperm Deck.new.cards := hn.subperm fun card _ => Deck.mem_new card
    exact ⟨hsub.perm_of_length_le (by rw [Deck.new_length, not_not.mp hcount]), rfl⟩

/-! ## Unmasked actions are legal -/

namespace MultiwayHand

section mapping
variable {h : MultiwayHand} {p : SeatId} {posted : Nat} {legal : MultiwayLegalActions} {action : Action}

/-- A seat asked for the first time at no wager may still raise. -/
theorem Menu.open_of_bet (hm : h.Menu p legal) (hasked : h.street.Asked p) {n : Nat} (hbet : legal.minBetTo = some n) :
    h.street.Open p := by
  obtain ⟨hzero, _⟩ := hm.minBetTo n hbet
  intro w hmark
  rcases hasked.2 with hnone | hlt
  · rw [hnone] at hmark
    cases hmark
  · omega

theorem valid_of_legal (ht : h.OnTurn p) (hlegal : h.legalActionsFor p = some legal)
    (hv : match action with
      | .fold => legal.canFold = true
      | .check => legal.canCheck = true
      | .call n => legal.callAmount = some n
      | .bet n => ∃ least, legal.minBetTo = some least ∧ least ≤ n ∧ n ≤ legal.allInTo - 1
      | .raise n => legal.raiseReopened = true ∧ ∃ least, legal.minRaiseTo = some least ∧ least ≤ n ∧ n ≤ legal.allInTo - 1
      | .allIn n => n = legal.allInTo ∧ (h.seat p).streetContribution < n ∧
          (legal.raiseReopened = true ∨ n ≤ h.currentWager)) :
    h.validateCommand ⟨p, action⟩ = .ok () := by
  rw [ht.validateCommand]
  unfold validateAction
  rw [hlegal]
  cases action with
  | fold => exact if_pos hv
  | check => exact if_pos hv
  | call n =>
    simp only [Option.getD_some]
    rw [hv]
    exact if_pos rfl
  | bet n =>
    obtain ⟨least, hleast, hrange⟩ := hv
    simp only [Option.getD_some]
    rw [hleast]
    exact if_pos hrange
  | raise n =>
    obtain ⟨hopen, least, hleast, hrange⟩ := hv
    simp only [Option.getD_some]
    rw [hopen, hleast]
    exact if_pos hrange
  | allIn n =>
    obtain ⟨hn, hmore, hopen⟩ := hv
    simp only [Option.getD_some]
    have hallowed : ¬ (h.currentWager < n ∧ (!legal.raiseReopened) = true) := by
      rintro ⟨hlt, hshut⟩
      rcases hopen with hopen | hle
      · rw [hopen] at hshut
        cases hshut
      · omega
    rw [if_neg hallowed]
    exact if_pos ⟨hn, hmore⟩

/-- A target between the least wager and the stack is a wager, anything above an all-in. -/
theorem clampTarget_cases (legal : MultiwayLegalActions) (minimum desired : Nat) (wager : Nat → Action) :
    clampTarget legal minimum desired wager = .allIn legal.allInTo ∨
      ∃ n, clampTarget legal minimum desired wager = wager n ∧ minimum ≤ n ∧ n ≤ legal.allInTo - 1 := by
  unfold clampTarget
  dsimp only
  split
  · exact Or.inl rfl
  split
  · exact Or.inl rfl
  · refine Or.inr ⟨_, rfl, ?_, Nat.min_le_right _ _⟩
    omega

/-- What a policy may choose, the seat may do. -/
theorem Playing.mapPolicyAction_valid (hp : h.Playing posted) (hto : h.toAct = some p) (hlegal : h.legalActionsFor p = some legal)
    {observation : PolicyObservationV1} (hactions : observation.legalActions = legal)
    (hcall : observation.amountToCall = h.street.wager - h.street.bet p) {policyAction : PolicyActionV1}
    (hmap : mapPolicyAction observation policyAction = .ok action) : h.validateCommand ⟨p, action⟩ = .ok () := by
  have ht := hp.onTurn hto
  have hcan := ht.canAct
  have hasked := (needsAction_iff hp.sound).mp (hp.needs hto)
  obtain ⟨legal', hlegal', hm⟩ := ht.menu hp.booked
  obtain rfl : legal' = legal := Option.some.inj (hlegal'.symm.trans hlegal)
  have hstack := hp.sound.live_stack p hasked.1
  have hmore : h.street.bet p < legal'.allInTo := by
    rw [hm.allInTo]
    omega
  -- an all-in that the raise rule leaves open
  have hallIn : legal'.raiseReopened = true ∨ legal'.allInTo ≤ h.currentWager →
      h.validateCommand ⟨p, .allIn legal'.allInTo⟩ = .ok () :=
    fun hopen => valid_of_legal ht hlegal ⟨rfl, hmore, hopen⟩
  have hcanAllIn : legal'.canAllIn = true → h.validateCommand ⟨p, .allIn legal'.allInTo⟩ = .ok () :=
    fun hc => hallIn ((hm.canAllIn_iff hstack).mp hc)
  have hfraction : ∀ numerator denominator, mapFraction observation policyAction numerator denominator = .ok action →
      h.validateCommand ⟨p, action⟩ = .ok () := by
    intro numerator denominator hf
    unfold mapFraction at hf
    simp only [hactions] at hf
    cases hbetTo : legal'.minBetTo with
    | some minimum =>
      rw [hbetTo] at hf
      have hopen : legal'.raiseReopened = true := hm.reopened.mpr (hm.open_of_bet hasked hbetTo)
      rcases clampTarget_cases legal' minimum _ .bet with he | ⟨n, he, hrange⟩
      · cases he.symm.trans (Except.ok.inj hf)
        exact hallIn (Or.inl hopen)
      · cases he.symm.trans (Except.ok.inj hf)
        exact valid_of_legal ht hlegal ⟨minimum, hbetTo, hrange⟩
    | none =>
      rw [hbetTo] at hf
      cases hraiseTo : legal'.minRaiseTo with
      | some minimum =>
        rw [hraiseTo] at hf
        have hopen : legal'.raiseReopened = true := hm.reopened.mpr (hm.minRaiseTo minimum hraiseTo).1
        rcases clampTarget_cases legal' minimum _ .raise with he | ⟨n, he, hrange⟩
        · cases he.symm.trans (Except.ok.inj hf)
          exact hallIn (Or.inl hopen)
        · cases he.symm.trans (Except.ok.inj hf)
          exact valid_of_legal ht hlegal ⟨hopen, minimum, hraiseTo, hrange⟩
      | none =>
        rw [hraiseTo] at hf
        dsimp only at hf
        split at hf
        · rename_i hc
          cases hf
          exact hcanAllIn hc.2
        · cases hf
  unfold mapPolicyAction at hmap
  simp only [hactions] at hmap
  cases policyAction with
  | fold =>
    dsimp only at hmap
    split at hmap
    · rename_i hc
      cases hmap
      exact valid_of_legal ht hlegal hc
    · cases hmap
  | check =>
    dsimp only at hmap
    split at hmap
    · rename_i hc
      cases hmap
      exact valid_of_legal ht hlegal hc
    · cases hmap
  | call =>
    dsimp only at hmap
    split at hmap
    · rename_i amount hamount
      cases hmap
      exact valid_of_legal ht hlegal hamount
    · rename_i hnone
      split at hmap
      · rename_i hc
        cases hmap
        refine hcanAllIn (Menu.canAllIn_of_blocked (fun hcheck => ?_) hnone)
        have := hm.canCheck.mp hcheck
        omega
      · cases hmap
  | betRaiseQuarterPot | betRaiseHalfPot | betRaiseThreeQuarterPot | betRaisePot | betRaiseOneAndHalfPot =>
    exact hfraction _ _ hmap
  | allIn =>
    dsimp only at hmap
    split at hmap
    · rename_i hc
      cases hmap
      exact hcanAllIn hc.2
    · cases hmap

end mapping

end MultiwayHand

/-! ## Turns -/

/-- The id of the `n`th command of an arena. -/
def trainingCommandId (n : Nat) : String := "train-" ++ toString n

theorem trainingCommandId_framed {n : Nat} (hn : n < 10 ^ 20) :
    validCommandId (trainingCommandId n) = true ∧ reservedServerCommandId (trainingCommandId n) = false := by
  refine ⟨numbered_valid (by decide) (by decide) hn, ?_⟩
  rw [reservedServerCommandId, trainingCommandId, String.toList_append]
  rfl

/-- The errors that are not the hand's: a seat without a policy, a masked choice, the limit. -/
def ArenaError.excused (limit : Nat) : ArenaError → Bool
  | .missingPolicy _ | .policyAction _ => true
  | .actionLimitReached n => n = limit
  | _ => false

namespace TrainingArena

/-- The books of an arena between two turns of its hand. -/
structure Logged (c : HandConfig) (posted : Nat) (arena : TrainingArena) : Prop where
  stage : Stage c posted arena.authority.hand
  unpaced : arena.authority.hand.Unpaced posted
  cards : arena.authority.hand.toAct.isSome = true → arena.authority.hand.TwoCards
  log : LoggedFrom arena.authority.tableId arena.authority.handId arena.authority.revision arena.acceptedEvents
  versions : ∀ event ∈ arena.acceptedEvents, event.version = protocolVersion
  ledger : arena.authority.recordedCommands.map (·.1) =
    (List.range arena.authority.revision).map fun i => trainingCommandId (i + 1)
  within : arena.acceptedEvents.length ≤ arena.maxActions
  limit : arena.maxActions ≤ maxHistoryActions
  initial : arena.initialStacks = c.seatStacks

section turns
variable {c : HandConfig} {posted : Nat} {arena : TrainingArena} {p : SeatId}

theorem readHistory_ok {envelope : SnapshotEnvelope} {events : List EventEnvelope} {index : Nat}
    (hscope : ∀ event ∈ events, event.version = protocolVersion ∧ event.tableId = envelope.tableId ∧
      event.handId = envelope.handId)
    (hrev : events.map (·.revision) = List.range' (index + 1) events.length)
    (hwithin : index + events.length ≤ envelope.revision) :
    ∃ history, PolicyObservationV1.readHistory envelope index events = .ok history := by
  induction events generalizing index with
  | nil => exact ⟨[], rfl⟩
  | cons event rest ih =>
    rw [List.map_cons, List.length_cons, List.range'_succ] at hrev
    rw [List.length_cons] at hwithin
    obtain ⟨hfirst, hrest⟩ := List.cons.inj hrev
    obtain ⟨hversion, htable, hhand⟩ := hscope event List.mem_cons_self
    obtain ⟨history, he⟩ := @ih (index + 1) (fun e he => hscope e (List.mem_cons_of_mem _ he)) hrest (by omega)
    unfold PolicyObservationV1.readHistory
    have hin : ¬ (event.version ≠ protocolVersion ∨ event.tableId ≠ envelope.tableId ∨ event.handId ≠ envelope.handId ∨
        envelope.revision < event.revision) := by
      simp only [hversion, htable, hhand, ne_eq, not_true_eq_false, false_or, not_lt]
      omega
    rw [if_neg hin, if_neg (not_not_intro hfirst), he]
    exact ⟨_, rfl⟩

theorem currentObservation_none (hto : arena.authority.hand.toAct = none) :
    arena.currentObservation = .ok none := by
  obtain ⟨view, hsnap, hview⟩ := @ProtocolAuthority.snapshot_ok arena.authority .spectator
    fun _ he => by cases he
  have hsame : view.toAct = arena.authority.hand.toAct := by
    unfold MultiwayHand.projectHand at hview
    cases hview
    rfl
  unfold currentObservation
  rw [hsnap]
  dsimp only
  rw [hsame, hto]

/-- A list with one entry for each seat has the entry of a seat in it. -/
theorem find_seat {α : Type} {f : SeatId → α} {key : α → SeatId} (hkey : ∀ q, key (f q) = q) {l : List SeatId} (hp : p ∈ l) :
    (l.map f).find? (fun x => decide (key x = p)) = some (f p) := by
  induction l with
  | nil => cases hp
  | cons q l ih =>
    rw [List.map_cons, List.find?_cons, hkey]
    by_cases he : q = p
    · rw [decide_eq_true he, he]
    · rw [decide_eq_false he]
      exact ih ((List.mem_cons.mp hp).resolve_left (Ne.symm he))

/-- What a seat asked to act is shown. -/
structure Observed (arena : TrainingArena) (p : SeatId) (observation : PolicyObservationV1) : Prop where
  seat : observation.actingSeat = p
  tableId : observation.tableId = arena.authority.tableId
  handId : observation.handId = arena.authority.handId
  revision : observation.revision = arena.authority.revision
  legal : arena.authority.hand.legalActionsFor p = some observation.legalActions
  bet : observation.actingContribution = arena.authority.hand.street.bet p
  toCall : observation.amountToCall = arena.authority.hand.street.wager - arena.authority.hand.street.bet p

theorem Logged.observes (hl : arena.Logged c posted) (hto : arena.authority.hand.toAct = some p) :
    ∃ observation, arena.currentObservation = .ok (some observation) ∧ arena.Observed p observation := by
  have hcards := hl.cards (by rw [hto]; rfl)
  have hevents := hl.log.length
  obtain ⟨_, hp⟩ := hl.stage.playing_of_toAct hto
  have ht := hp.onTurn hto
  obtain ⟨legal, hlegal, _⟩ := ht.menu hp.booked
  have hocc := MultiwayHand.occupied_of_canAct ht.canAct
  have hmem := (MultiwayHand.mem_occupiedSeats hp.booked.length).mpr hocc
  obtain ⟨first, second, hpair⟩ := List.length_eq_two.mp (hcards p hocc)
  obtain ⟨shown, hpublic, hpublicView⟩ := @ProtocolAuthority.snapshot_ok arena.authority .spectator
    fun _ he => by cases he
  obtain ⟨view, hprivate, hview⟩ := @ProtocolAuthority.snapshot_ok arena.authority (.player p)
    fun _ he => by cases he; exact hmem
  have hseated : arena.authority.hand.unseated (.player p) = none := by
    have hany : arena.authority.hand.occupiedSeats.any (· == p) = true := List.any_eq_true.mpr ⟨p, hmem, by simp⟩
    simp only [MultiwayHand.unseated, hany, if_true]
  unfold MultiwayHand.projectHand at hpublicView hview
  rw [hseated] at hview
  cases hpublicView
  cases hview
  have hfind := @find_seat _ _ (arena.authority.hand.projectSeat (.player p)) ProjectedSeat.seat (fun _ => rfl) _ hmem
  have hbet : (arena.authority.hand.projectSeat (.player p) p).streetContribution = arena.authority.hand.street.bet p := by
    have hopen : arena.authority.hand.phase.terminal = false := by
      have := hp.accepts
      generalize arena.authority.hand.phase = phase at this
      cases phase <;> first | rfl | cases this
    unfold MultiwayHand.projectSeat MultiwayHand.contributionFor
    rw [hopen]
    rfl
  have hown : (arena.authority.hand.projectSeat (.player p) p).holeCards = some [first, second] := by
    simp [MultiwayHand.projectSeat, ProjectionAudience.owns, hpair]
  obtain ⟨history, hhistory⟩ := @readHistory_ok ⟨protocolVersion, arena.authority.tableId, arena.authority.handId,
      arena.authority.revision, _⟩ arena.acceptedEvents 0
    (fun e he => ⟨hl.versions e he, hl.log.1 e he⟩)
    (by rw [hl.log.2, hevents, List.range'_eq_map_range]; simp only [Nat.add_comm]) (by rw [hevents, Nat.zero_add])
  unfold currentObservation
  rw [hpublic]
  dsimp only
  rw [hto]
  dsimp only
  rw [hprivate]
  dsimp only
  unfold PolicyObservationV1.fromAuthorized
  dsimp only
  have hwithin := hl.within.trans hl.limit
  rw [if_neg (not_not_intro rfl), if_neg (Nat.not_lt.mpr hwithin), if_neg (not_not_intro hevents.symm), hto,
    if_neg (not_not_intro rfl), hlegal]
  dsimp only
  rw [hfind]
  dsimp only
  rw [hown]
  dsimp only
  rw [hhistory]
  have hacting := @find_seat _ _ (fun q =>
      let seat := arena.authority.hand.projectSeat (.player p) q
      (⟨seat.seat, seat.stack, seat.streetContribution, seat.handContribution, seat.participation⟩ : PolicySeatV1))
    PolicySeatV1.seat (fun _ => rfl) _ hmem
  refine ⟨_, rfl, ⟨rfl, rfl, rfl, rfl, hlegal, ?_, ?_⟩⟩
  · unfold PolicyObservationV1.actingContribution
    dsimp only
    rw [List.map_map]
    exact (congrArg (fun found => (Option.map PolicySeatV1.streetContribution found).getD 0) hacting).trans hbet
  · dsimp only
    rw [hbet]
    rfl

/-- The command that an observed seat's action becomes. -/
def trainingCommand (arena : TrainingArena) (p : SeatId) (action : Action) : CommandEnvelope :=
  .actForHand (trainingCommandId (arena.authority.revision + 1)) arena.authority.tableId arena.authority.handId
    arena.authority.revision p action

theorem Logged.recordable (hl : arena.Logged c posted) (hroom : arena.acceptedEvents.length < arena.maxActions) (p : SeatId)
    (action : Action) : arena.authority.Recordable (arena.trainingCommand p action) false := by
  have hevents := hl.log.length
  have hlimit := hl.limit
  have hledger : arena.authority.recordedCommands.length = arena.authority.revision := by
    have := congrArg List.length hl.ledger
    simpa using this
  simp only [maxHistoryActions] at hlimit
  obtain ⟨hvalid, hfree⟩ := trainingCommandId_framed (n := arena.authority.revision + 1) (by omega)
  refine ⟨ProtocolAuthority.framingRefusal_none.mpr ⟨rfl, hvalid, Or.inr hfree, rfl, rfl⟩, ?_, ?_⟩
  · refine List.lookup_eq_none_iff.mpr fun entry he => ?_
    rw [bne_iff_ne]
    intro hid
    have hmem : entry.1 ∈ (List.range arena.authority.revision).map fun i => trainingCommandId (i + 1) :=
      hl.ledger ▸ List.mem_map_of_mem he
    obtain ⟨i, hi, hname⟩ := List.mem_map.mp hmem
    have hlt := List.mem_range.mp hi
    have hsame : i + 1 = arena.authority.revision + 1 := numbered_injective "train-" (hname.trans hid.symm)
    omega
  · rw [hledger, maxRecordedCommandsPerHand]
    omega

/-- An unmasked action is accepted, and the books are kept. -/
theorem Logged.acts (hl : arena.Logged c posted) (hto : arena.authority.hand.toAct = some p) {observation : PolicyObservationV1}
    (hobserved : arena.Observed p observation) (hroom : arena.acceptedEvents.length < arena.maxActions)
    {policyAction : PolicyActionV1} {action : Action} (hmap : mapPolicyAction observation policyAction = .ok action) :
    ∃ decision arena', arena.act observation policyAction = (.ok decision, arena') ∧ arena'.Logged c posted ∧
      arena'.acceptedEvents.length = arena.acceptedEvents.length + 1 ∧ arena'.maxActions = arena.maxActions := by
  obtain ⟨_, hp⟩ := hl.stage.playing_of_toAct hto
  have hv := hp.mapPolicyAction_valid hto hobserved.legal rfl hobserved.toCall hmap
  have hok : (arena.authority.applyPayload (arena.trainingCommand p action).payload).1 = .ok () :=
    ProtocolAuthority.applyPayload_valid hv
  have hr := hl.recordable hroom p action
  have hcommand : CommandEnvelope.actForHand ("train-" ++ toString (observation.revision + 1)) observation.tableId
      observation.handId observation.revision observation.actingSeat action = arena.trainingCommand p action := by
    rw [hobserved.revision, hobserved.tableId, hobserved.handId, hobserved.seat]
    rfl
  have hsubmit : arena.authority.submitWithAcknowledgement (arena.trainingCommand p action) =
      (arena.authority.receipt (.accepted (arena.authority.eventOf (arena.trainingCommand p action))) .processed,
        arena.authority.accepting (arena.trainingCommand p action)) := by
    unfold ProtocolAuthority.submitWithAcknowledgement
    rw [hr.submitFrom, ProtocolAuthority.execute_accepts rfl hok]
    rfl
  unfold act
  rw [hmap]
  dsimp only
  rw [hcommand, hsubmit]
  refine ⟨_, _, rfl, ?_, by rw [List.length_append]; rfl, rfl⟩
  refine ⟨ProtocolAuthority.accepting_stage hl.stage, hl.unpaced.step (.command ⟨p, action⟩), fun hstill => ?_, ?_, ?_, ?_, ?_,
    hl.limit, hl.initial⟩
  · exact hp.twoCards (hl.cards (by rw [hto]; rfl)) hv hstill
  · exact hl.log.snoc rfl rfl rfl
  · intro event he
    rcases List.mem_append.mp he with he | he
    · exact hl.versions event he
    · rw [List.mem_singleton.mp he]
      rfl
  · show List.map (·.1) (arena.authority.recordedCommands ++ [(_ : String × RecordedCommand)]) =
      (List.range (arena.authority.revision + 1)).map fun i => trainingCommandId (i + 1)
    rw [List.map_append, hl.ledger, List.range_succ, List.map_append]
    rfl
  · rw [List.length_append]
    exact hroom

end turns

/-! ## Runs -/

section runs
variable {c : HandConfig} {posted : Nat} {arena : TrainingArena} {σ : Type}

/-- Where the loop stops: the hand waits for nobody, or it is not the hand that stopped it. -/
def Stopped (c : HandConfig) (posted limit : Nat) : Except ArenaError Unit × TrainingArena × List (SeatId × Policy σ) → Prop
  | (.ok (), arena, _) => arena.Logged c posted ∧ arena.authority.hand.toAct = none
  | (.error error, _, _) => error.excused limit = true

theorem consult_error {policies policies' : List (SeatId × Policy σ)} {observation : PolicyObservationV1} {error : ArenaError}
    (h : consult policies observation = (.error error, policies')) (limit : Nat) : error.excused limit = true := by
  unfold consult at h
  split at h
  · cases h
    rfl
  · rename_i policy _
    dsimp only at h
    cases hs : (policy.select policy.state observation).1 with
    | ok action => rw [hs] at h; cases h
    | error e => rw [hs] at h; cases h; rfl

/-- The loop takes a turn for each action the limit leaves, at most. -/
theorem Logged.playOut_some (hl : arena.Logged c posted) {fuel : Nat}
    (hfuel : arena.maxActions < arena.acceptedEvents.length + fuel)
    (policies : List (SeatId × Policy σ)) : ∃ result, playOut fuel arena policies = some result ∧
      Stopped c posted arena.maxActions result := by
  induction fuel generalizing arena policies with
  | zero => exact absurd hl.within (Nat.not_le.mpr hfuel)
  | succ fuel ih =>
    unfold playOut
    cases hto : arena.authority.hand.toAct with
    | none =>
      rw [currentObservation_none hto]
      exact ⟨_, rfl, hl, hto⟩
    | some p =>
      obtain ⟨observation, hobs, hobserved⟩ := hl.observes hto
      rw [hobs]
      dsimp only
      cases hconsult : consult policies observation with
      | mk selected policies' =>
        cases selected with
        | error error => exact ⟨_, rfl, consult_error hconsult _⟩
        | ok policyAction =>
          dsimp only
          unfold step
          by_cases hroom : arena.maxActions ≤ arena.acceptedEvents.length
          · rw [if_pos hroom]
            exact ⟨_, rfl, by simp [Stopped, ArenaError.excused]⟩
          · rw [if_neg hroom, hobs]
            dsimp only
            cases hmap : mapPolicyAction observation policyAction with
            | error error =>
              have hact : arena.act observation policyAction = (.error (.policyAction error), arena) := by
                unfold act
                rw [hmap]
              rw [hact]
              exact ⟨_, rfl, rfl⟩
            | ok action =>
              obtain ⟨decision, arena', hact, hl', hlen, hmax⟩ := hl.acts hto hobserved (Nat.not_le.mp hroom) hmap
              rw [hact]
              dsimp only
              obtain ⟨result, he, hstop⟩ := ih hl' (by omega) policies'
              exact ⟨result, he, hmax ▸ hstop⟩

/-- A hand that nobody is asked in is over. -/
theorem Logged.over (hl : arena.Logged c posted) (hto : arena.authority.hand.toAct = none) : arena.authority.hand.Over := by
  rcases hl.unpaced with ⟨hp, _⟩ | ho
  · obtain ⟨p, hp, _⟩ := hp.toAct
    rw [hto] at hp
    cases hp
  · exact ho

/-- What is shown of a hand that is over. -/
theorem Logged.terminal (hl : arena.Logged c posted) (hto : arena.authority.hand.toAct = none) : ∃ terminal,
    arena.terminalSnapshot = .ok terminal ∧ terminal.snapshot.phase.terminal = true ∧ terminal.snapshot.audience = .spectator ∧
      terminal.tableId = arena.authority.tableId ∧ terminal.handId = arena.authority.handId ∧
      terminal.revision = arena.authority.revision ∧
      terminal.snapshot.seats = arena.authority.hand.occupiedSeats.map (arena.authority.hand.projectSeat .spectator) := by
  obtain ⟨view, hsnap, hview⟩ := @ProtocolAuthority.snapshot_ok arena.authority .spectator
    fun _ he => by cases he
  unfold MultiwayHand.projectHand at hview
  cases hview
  have hphase : arena.authority.hand.phase.terminal = true := by
    rcases (hl.over hto).phase with he | he <;> rw [he] <;> rfl
  unfold terminalSnapshot
  rw [hsnap]
  dsimp only
  rw [hphase]
  exact ⟨_, rfl, hphase, rfl, rfl, rfl, rfl, rfl⟩

theorem sum_deltas {α : Type} (l : List α) (f g : α → Nat) :
    (l.map fun x => (f x : Int) - g x).sum = ((l.map f).sum : Nat) - ((l.map g).sum : Nat) := by
  induction l with
  | nil => rfl
  | cons x l ih =>
    simp only [List.map_cons, List.sum_cons, ih, Int.natCast_add]
    omega

/-- What the players win is what the others lose. -/
theorem Logged.zero_sum (hl : arena.Logged c posted) (hbacked : c.Backed) (hnodup : (c.seatStacks.map (·.1)).Nodup)
    (hto : arena.authority.hand.toAct = none)
    {terminal : SnapshotEnvelope} (hseats : terminal.snapshot.seats =
      arena.authority.hand.occupiedSeats.map (arena.authority.hand.projectSeat .spectator)) :
    ((arena.chipDeltas terminal).map (·.2)).sum = 0 := by
  have hawarded := hl.stage.awarded hbacked (hl.over hto).closed
  have hsums := hl.stage.sums hbacked
  have hseated := hl.stage.seated.1
  have hdeltas : (arena.chipDeltas terminal).map (·.2) =
      arena.authority.hand.occupiedSeats.map fun p =>
        ((arena.authority.hand.seat p).stack : Int) - Ledger.credited c.seatStacks p := by
    unfold chipDeltas
    rw [hseats, List.map_map, List.map_map, hl.initial]
    refine List.map_congr_left fun p _ => ?_
    rw [Ledger.credited_eq_lookup hnodup]
    rfl
  have hstarts : (arena.authority.hand.occupiedSeats.map (Ledger.credited c.seatStacks)).sum = (c.seatStacks.map (·.2)).sum := by
    refine Ledger.sum_credited (MultiwayHand.nodup_occupiedSeats _) fun e he => ?_
    rw [hseated]
    rw [Option.isSome_iff_ne_none, ne_eq, List.lookup_eq_none_iff]
    intro hnone
    have := hnone e he
    simp at this
  have hchips : (arena.authority.hand.occupiedSeats.map fun p => (arena.authority.hand.seat p).stack).sum =
      (c.seatStacks.map (·.2)).sum := hawarded.chips.trans hsums.initial
  rw [hdeltas, sum_deltas, hchips, hstarts]
  exact Int.sub_self _

/-- Every run ends with the hand over and its chips won and lost in equal amounts, unless a
    policy gives no unmasked action or the action limit is reached. -/
structure Settles (arena : TrainingArena) : Prop where
  episode : ∀ {σ : Type} (policies : List (SeatId × Policy σ)), ∃ result, arena.runToTerminal policies = some result ∧
    ((∃ error, result = .error error ∧ error.excused arena.maxActions = true) ∨
      ∃ episode, result = .ok episode ∧ episode.terminalPublicSnapshot.snapshot.phase.terminal = true ∧
        (episode.chipDeltas.map (·.2)).sum = 0)
  summary : ∀ {σ : Type} (policies : List (SeatId × Policy σ)), ∃ result, arena.runToTerminalSummary policies = some result ∧
    ((∃ error, result = .error error ∧ error.excused arena.maxActions = true) ∨
      ∃ summary, result = .ok summary ∧ summary.terminalPhase.terminal = true ∧ (summary.chipDeltas.map (·.2)).sum = 0)

theorem Logged.settles (hl : arena.Logged c posted) (hbacked : c.Backed) (hnodup : (c.seatStacks.map (·.1)).Nodup) :
    arena.Settles := by
  constructor
  · intro σ policies
    obtain ⟨⟨stop, arena', policies'⟩, he, hstop⟩ := @playOut_some _ _ _ _ hl arena.fuel (by unfold fuel; omega) policies
    unfold runToTerminal
    rw [he]
    cases stop with
    | error error => exact ⟨_, rfl, Or.inl ⟨error, rfl, hstop⟩⟩
    | ok u =>
      obtain ⟨hl', hto⟩ := hstop
      obtain ⟨terminal, hterminal, hphase, haudience, htable, hhand, hrev, hseats⟩ := hl'.terminal hto
      have hlog : LoggedFrom terminal.tableId terminal.handId terminal.revision arena'.acceptedEvents := by
        rw [htable, hhand, hrev]
        exact hl'.log
      have hshort : ¬ maxHistoryActions < arena'.acceptedEvents.length := Nat.not_lt.mpr (hl'.within.trans hl'.limit)
      refine ⟨arena'.episode, rfl, Or.inr ?_⟩
      unfold TrainingArena.episode
      rw [hterminal]
      dsimp only
      rw [hlog.history haudience hphase, if_neg hshort]
      exact ⟨_, rfl, hphase, hl'.zero_sum hbacked hnodup hto hseats⟩
  · intro σ policies
    obtain ⟨⟨stop, arena', policies'⟩, he, hstop⟩ := @playOut_some _ _ _ _ hl arena.fuel (by unfold fuel; omega) policies
    unfold runToTerminalSummary
    rw [he]
    cases stop with
    | error error => exact ⟨_, rfl, Or.inl ⟨error, rfl, hstop⟩⟩
    | ok u =>
      obtain ⟨hl', hto⟩ := hstop
      obtain ⟨terminal, hterminal, hphase, _, _, _, _, hseats⟩ := hl'.terminal hto
      refine ⟨arena'.summary, rfl, Or.inr ?_⟩
      unfold TrainingArena.summary
      rw [hterminal]
      exact ⟨_, rfl, hphase, hl'.zero_sum hbacked hnodup hto hseats⟩

/-- An arena whose hand waits in its showdown cannot be run. -/
theorem not_settles (hto : arena.authority.hand.toAct = none) (hopen : arena.authority.hand.phase.terminal = false) :
    ¬ arena.Settles := by
  intro hs
  obtain ⟨result, he, hresult⟩ := hs.episode ([] : List (SeatId × Policy Unit))
  obtain ⟨view, hsnap, hview⟩ := @ProtocolAuthority.snapshot_ok arena.authority .spectator
    fun _ he => by cases he
  unfold MultiwayHand.projectHand at hview
  cases hview
  have hstuck : arena.terminalSnapshot = .error .handNotTerminal := by
    unfold terminalSnapshot
    rw [hsnap]
    dsimp only
    rw [hopen]
    rfl
  have hplay : playOut arena.fuel arena ([] : List (SeatId × Policy Unit)) = some (.ok (), arena, []) := by
    unfold fuel playOut
    rw [currentObservation_none hto]
  unfold runToTerminal at he
  rw [hplay] at he
  have hfails : arena.episode = .error .handNotTerminal := by
    unfold TrainingArena.episode
    rw [hstuck]
  simp only [Option.map_some, hfails, Option.some.injEq] at he
  subst he
  rcases hresult with ⟨error, he, hexcused⟩ | ⟨episode, he, _⟩
  · cases he
    cases hexcused
  · cases he

end runs

end TrainingArena

/-- The hand an arena is configured for. -/
def ArenaConfig.hand (config : ArenaConfig) (deal : DealPlanV1) : HandConfig :=
  ⟨config.tableSize, config.button, config.seatStacks, config.forcedPosts, .default, ⟨deal.cards, 0⟩⟩

namespace TrainingArena

section new
variable {config : ArenaConfig} {deal : DealPlanV1} {arena : TrainingArena}

theorem new_built (h : new config deal = .ok arena) : (config.hand deal).deck.Shuffled ∧
    (config.hand deal).build = .ok arena.authority.hand ∧ arena = {
      authority := .new config.tableId config.handId arena.authority.hand
      initialStacks := config.seatStacks
      acceptedEvents := []
      decisions := []
      maxActions := config.maxActions
      recording := config.recording } ∧ config.maxActions ≤ maxHistoryActions := by
  unfold new at h
  split at h
  · cases h
  rename_i hlimit
  split at h
  · cases h
  rename_i deck hdeck
  have hshuffled := DealPlanV1.intoDeck_shuffled hdeck
  have hcards : deck = ⟨deal.cards, 0⟩ := by
    unfold DealPlanV1.intoDeck at hdeck
    cases hv : deal.validate with
    | error e => rw [hv] at hdeck; cases hdeck
    | ok u => rw [hv] at hdeck; exact (Except.ok.inj hdeck).symm
  rw [hcards] at h hshuffled
  split at h
  · cases h
  rename_i hand hhand
  cases h
  exact ⟨hshuffled, hhand, rfl, by omega⟩

/-- An arena can be run exactly when its posts leave the betting open. -/
theorem new_settles (h : new config deal = .ok arena) : (arena.Settles → (config.hand deal).opensBetting = true) ∧
    ((config.hand deal).Backed → (arena.Settles ↔ (config.hand deal).opensBetting = true)) := by
  obtain ⟨hdeck, hb, harena, hlimit⟩ := new_built h
  obtain ⟨_, _, _, _, _, table, hbuilt⟩ := MultiwayHand.build_built hb
  have hopens := hbuilt.opens_iff hdeck
  obtain ⟨hc, _, hunpaced, hcases⟩ := hbuilt.cases hdeck
  have hneeds : arena.Settles → (config.hand deal).opensBetting = true := by
    intro hs
    rcases hcases with ⟨hopen, _⟩ | ⟨progress, hsh, _⟩
    · exact hopens.mp hopen
    · refine absurd hs (not_settles hsh.contest.waiting ?_)
      have haccepts := hsh.contest.accepts
      generalize arena.authority.hand.phase = phase at haccepts
      cases phase <;> first | rfl | cases haccepts
  refine ⟨hneeds, fun hbacked => ⟨hneeds, fun hopen => ?_⟩⟩
  rcases hcases with ⟨hround, hp⟩ | ⟨progress, hsh, _⟩
  · have hcards : arena.authority.hand.TwoCards := by
      have htable := hbuilt.twoCards hdeck
      have hsame : arena.authority.hand.seats = table.seats := by
        rw [hbuilt.open_eq hround]
        rfl
      intro p hocc
      rw [hsame] at hocc
      have := htable p hocc
      rwa [show arena.authority.hand.seat p = table.seat p by simp only [MultiwayHand.seat, hsame]]
    have hlogged : arena.Logged (config.hand deal) arena.authority.hand.currentWager := by
      rw [harena]
      exact ⟨.playing hc hp, Or.inl ⟨hp, hunpaced⟩, fun _ => hcards, loggedFrom_nil _ _, fun _ he => (nomatch he), rfl,
        Nat.zero_le _, hlimit, rfl⟩
    exact hlogged.settles hbacked (hbuilt.dealtIn hdeck).1.nodup
  · have hnone := hbuilt.open_quiet hdeck (hopens.mpr hopen)
    rw [hsh.tabled.current] at hnone
    cases hnone

end new

end TrainingArena

/-- A hand its callers do not drive, in an arena or out of one, comes to its end exactly when
    the posts leave its betting open. -/
theorem unpaced_settles (c : HandConfig) (h : MultiwayHand) (config : ArenaConfig) (deal : DealPlanV1) (arena : TrainingArena) :
    (c.deck.Shuffled → c.build = .ok h →
      (h.SettlesAlone → c.opensBetting = true) ∧ (c.Backed → (h.SettlesAlone ↔ c.opensBetting = true))) ∧
    (TrainingArena.new config deal = .ok arena →
      (arena.Settles → (config.hand deal).opensBetting = true) ∧
        ((config.hand deal).Backed → (arena.Settles ↔ (config.hand deal).opensBetting = true))) := by
  constructor
  · intro hdeck hb
    exact MultiwayHand.build_settles hdeck hb
  · intro hnew
    exact TrainingArena.new_settles hnew

/-- The 52 cards in their printed order. -/
def orderedDeal : DealPlanV1 := ⟨dealPlanVersion, Deck.new.cards⟩

theorem unpaced_settles_hundred : ∃ arena, TrainingArena.new (.headsUp 100) orderedDeal = .ok arena ∧
    arena.authority.hand.SettlesAlone ∧ arena.Settles := by
  have hopens : ((ArenaConfig.headsUp 100).hand orderedDeal).opensBetting = true := by decide +kernel
  have hbacked : ((ArenaConfig.headsUp 100).hand orderedDeal).Backed := fun p => Nat.zero_le 1
  cases hnew : TrainingArena.new (.headsUp 100) orderedDeal with
  | error e =>
    have hok : (TrainingArena.new (.headsUp 100) orderedDeal).toBool = true := by decide +kernel
    rw [hnew] at hok
    cases hok
  | ok arena =>
    obtain ⟨hdeck, hb, _⟩ := TrainingArena.new_built hnew
    obtain ⟨hand, arenas⟩ := unpaced_settles _ _ _ _ arena
    exact ⟨arena, rfl, ((hand hdeck hb).2 hbacked).mpr hopens, ((arenas hnew).2 hbacked).mpr hopens⟩

/-- Two stacks that the blinds take whole: the hand is returned with its showdown waiting,
    and no run of it ends. -/
theorem blinds_all_in_unsettled : ∃ arena, TrainingArena.new (.headsUp 1) orderedDeal = .ok arena ∧
    arena.authority.hand.showdownProgress.isSome = true ∧ arena.authority.hand.toAct = none ∧
      arena.runToTerminalSummary ([] : List (SeatId × Policy Unit)) = some (.error .handNotTerminal) := by
  have hrun : ((TrainingArena.new (.headsUp 1) orderedDeal).toOption.map fun arena =>
      (arena.authority.hand.showdownProgress.isSome, arena.authority.hand.toAct,
        (arena.runToTerminalSummary ([] : List (SeatId × Policy Unit))).map fun result =>
          match result with
          | .error .handNotTerminal => true
          | _ => false)) = some (true, none, some true) := by
    decide +kernel
  cases hnew : TrainingArena.new (.headsUp 1) orderedDeal with
  | error e => rw [hnew] at hrun; cases hrun
  | ok arena =>
    rw [hnew] at hrun
    obtain ⟨hprogress, hrest⟩ := Prod.mk.inj (Option.some.inj hrun)
    obtain ⟨hto, hresult⟩ := Prod.mk.inj hrest
    refine ⟨arena, rfl, hprogress, hto, ?_⟩
    obtain ⟨result, he, hfails⟩ := Option.map_eq_some_iff.mp hresult
    rw [he]
    split at hfails
    · rfl
    · cases hfails

end OpenFelt
