/-
  OpenFelt.Training.PolicyActions — the policy actions and what they map to
  (`src/training/action.rs`).

  A pot fraction aims at a wager, clamped to the least legal one and to the stack, so a
  larger fraction never aims lower (`mapFraction_mono`). Proved, for every observation that
  an authority's view of a hand in any run gives (`policy_actions_map`): some action is
  unmasked, every unmasked one maps to what the hand accepts, every masked one is refused,
  and no bet or raise leaves the hand's own bounds.
-/

import Mathlib.Algebra.Order.Floor.Div
import OpenFelt.Trainer.Observations
import OpenFelt.Training.Play

namespace OpenFelt

open Betting MultiwayHand

def PolicyActionV1.all : List PolicyActionV1 :=
  [.fold, .check, .call, .betRaiseQuarterPot, .betRaiseHalfPot, .betRaiseThreeQuarterPot, .betRaisePot, .betRaiseOneAndHalfPot,
    .allIn]

def legalPolicyActions (observation : PolicyObservationV1) : List PolicyActionV1 :=
  PolicyActionV1.all.filter fun action => (mapPolicyAction observation action).isOk

/-- The fraction of the pot that an action bets or raises. -/
def PolicyActionV1.fraction : PolicyActionV1 → Option (Nat × Nat)
  | betRaiseQuarterPot => some (1, 4)
  | betRaiseHalfPot => some (1, 2)
  | betRaiseThreeQuarterPot => some (3, 4)
  | betRaisePot => some (1, 1)
  | betRaiseOneAndHalfPot => some (3, 2)
  | _ => none

/-- The street total that a wager brings its seat to. -/
def Action.total : Action → Nat
  | .bet n | .raise n | .allIn n => n
  | _ => 0

/-- What the policy actions come to at the turn they are observed at. -/
structure MapsWell (h : MultiwayHand) (observation : PolicyObservationV1) : Prop where
  toAct : h.toAct = some observation.actingSeat
  unmasked : legalPolicyActions observation ≠ []
  accepted : ∀ x ∈ legalPolicyActions observation, ∃ action, mapPolicyAction observation x = .ok action ∧
    h.validateCommand ⟨observation.actingSeat, action⟩ = .ok ()
  masked : ∀ x, x ∉ legalPolicyActions observation → mapPolicyAction observation x = .error (.masked x) ∧
    ∀ arena : TrainingArena, arena.act observation x = (.error (.policyAction (.masked x)), arena)
  /-- A larger fraction of the pot is never a smaller wager. -/
  grows : ∀ x x' n d n' d' action action', x.fraction = some (n, d) → x'.fraction = some (n', d') → n * d' ≤ n' * d →
    mapPolicyAction observation x = .ok action → mapPolicyAction observation x' = .ok action' → action.total ≤ action'.total
  bets : ∀ x n, mapPolicyAction observation x = .ok (.bet n) →
    ∃ legal least, h.legalActionsFor observation.actingSeat = some legal ∧
    legal.minBetTo = some least ∧ least ≤ n ∧ n ≤ legal.allInTo
  raises : ∀ x n, mapPolicyAction observation x = .ok (.raise n) →
    ∃ legal least, h.legalActionsFor observation.actingSeat = some legal ∧
    legal.minRaiseTo = some least ∧ least ≤ n ∧ n ≤ legal.allInTo

/-! ## The mapping -/

section mapping
variable {observation : PolicyObservationV1} {x : PolicyActionV1} {action action' : Action} {legal : MultiwayLegalActions}
  {value n d n' d' minimum desired desired' : Nat} {wager : Nat → Action}

theorem PolicyActionV1.mem_all (x : PolicyActionV1) : x ∈ all := by
  cases x <;> decide

theorem mem_legalPolicyActions : x ∈ legalPolicyActions observation ↔ ∃ action, mapPolicyAction observation x = .ok action := by
  unfold legalPolicyActions
  rw [List.mem_filter]
  cases hmap : mapPolicyAction observation x with
  | ok action => simp [x.mem_all, Except.isOk, Except.toBool]
  | error error => simp [Except.isOk, Except.toBool]

theorem mapFraction_error {error : PolicyActionError} (h : mapFraction observation x n d = .error error) : error = .masked x := by
  unfold mapFraction at h
  dsimp only at h
  split at h
  · cases h
  · cases h
  · split at h
    · cases h
    · cases h
      rfl

/-- The mapper's only error names the action it was given. -/
theorem mapPolicyAction_error {error : PolicyActionError} (h : mapPolicyAction observation x = .error error) :
    error = .masked x := by
  unfold mapPolicyAction at h
  cases x with
  | fold | check | allIn =>
    dsimp only at h
    split at h
    · cases h
    · cases h
      rfl
  | call =>
    dsimp only at h
    split at h
    · cases h
    · split at h
      · cases h
      · cases h
        rfl
  | betRaiseQuarterPot | betRaiseHalfPot | betRaiseThreeQuarterPot | betRaisePot | betRaiseOneAndHalfPot =>
    exact mapFraction_error h

/-- A fraction not smaller has a ceiling not lower. -/
theorem ceilFraction_mono (hd : 0 < d) (hd' : 0 < d') (h : n * d' ≤ n' * d) :
    ceilFraction value n d ≤ ceilFraction value n' d' := by
  have hceil : value * n ⌈/⌉ d ≤ value * n' ⌈/⌉ d' := by
    refine (ceilDiv_le_iff_le_mul hd).mpr ?_
    have htop : value * n' ≤ d' * (value * n' ⌈/⌉ d') := (ceilDiv_le_iff_le_mul hd').mp (Nat.le_refl _)
    refine Nat.le_of_mul_le_mul_right ?_ hd'
    calc value * n * d' = value * (n * d') := Nat.mul_assoc _ _ _
      _ ≤ value * (n' * d) := Nat.mul_le_mul_left _ h
      _ = value * n' * d := (Nat.mul_assoc _ _ _).symm
      _ ≤ d' * (value * n' ⌈/⌉ d') * d := Nat.mul_le_mul_right _ htop
      _ = d * (value * n' ⌈/⌉ d') * d' := by rw [Nat.mul_comm d' _, Nat.mul_comm d _, Nat.mul_right_comm]
  rw [Nat.ceilDiv_eq_add_pred_div, Nat.ceilDiv_eq_add_pred_div] at hceil
  unfold ceilFraction
  omega

/-- The clamped wager, whatever it is called. -/
theorem clampTarget_total (hwager : ∀ n, (wager n).total = n) :
    (clampTarget legal minimum desired wager).total = min (max desired minimum) legal.allInTo := by
  unfold clampTarget
  dsimp only
  split
  · rename_i hle
    rw [Nat.min_eq_right hle]
    rfl
  · rename_i hlt
    rw [if_neg (by omega), hwager]
    omega

theorem mapFraction_mono (hd : 0 < d) (hd' : 0 < d') (h : n * d' ≤ n' * d) {x' : PolicyActionV1}
    (hmap : mapFraction observation x n d = .ok action) (hmap' : mapFraction observation x' n' d' = .ok action') :
    action.total ≤ action'.total := by
  have hceil : ∀ value, ceilFraction value n d ≤ ceilFraction value n' d' := fun value => ceilFraction_mono hd hd' h
  unfold mapFraction at hmap hmap'
  dsimp only at hmap hmap'
  cases hbet : observation.legalActions.minBetTo with
  | some least =>
    rw [hbet] at hmap hmap'
    obtain rfl := Except.ok.inj hmap
    obtain rfl := Except.ok.inj hmap'
    have hle := hceil observation.potTotal
    rw [clampTarget_total fun _ => rfl, clampTarget_total fun _ => rfl]
    unfold saturatingAdd
    omega
  | none =>
    cases hraise : observation.legalActions.minRaiseTo with
    | some least =>
      rw [hbet, hraise] at hmap hmap'
      obtain rfl := Except.ok.inj hmap
      obtain rfl := Except.ok.inj hmap'
      have hle := hceil (saturatingAdd observation.potTotal observation.amountToCall)
      rw [clampTarget_total fun _ => rfl, clampTarget_total fun _ => rfl]
      generalize saturatingAdd observation.potTotal observation.amountToCall = pot at hle ⊢
      unfold saturatingAdd
      omega
    | none =>
      rw [hbet, hraise] at hmap hmap'
      dsimp only at hmap hmap'
      by_cases hcan : observation.actingContribution < observation.legalActions.allInTo ∧ observation.legalActions.canAllIn = true
      · rw [if_pos hcan] at hmap hmap'
        obtain rfl := Except.ok.inj hmap
        obtain rfl := Except.ok.inj hmap'
        exact Nat.le_refl _
      · rw [if_neg hcan] at hmap
        cases hmap

theorem mapPolicyAction_fraction (observation : PolicyObservationV1) (hx : x.fraction = some (n, d)) :
    0 < d ∧ mapPolicyAction observation x = mapFraction observation x n d := by
  cases x <;> cases hx <;> exact ⟨by decide, rfl⟩

/-- A bet or a raise is aimed between the least one and the stack. -/
theorem mapFraction_bounds (h : mapFraction observation x n d = .ok action) :
    (∃ least m, observation.legalActions.minBetTo = some least ∧ action = .bet m ∧ least ≤ m ∧
        m ≤ observation.legalActions.allInTo) ∨
      (∃ least m, observation.legalActions.minRaiseTo = some least ∧ action = .raise m ∧ least ≤ m ∧
        m ≤ observation.legalActions.allInTo) ∨
      action = .allIn observation.legalActions.allInTo := by
  unfold mapFraction at h
  dsimp only at h
  split at h
  · rename_i least hbet
    obtain rfl := Except.ok.inj h
    rcases clampTarget_cases observation.legalActions least
      (saturatingAdd observation.actingContribution (ceilFraction observation.potTotal n d)) .bet with he | ⟨m, he, hlow, hhigh⟩
    · exact Or.inr (Or.inr he)
    · exact Or.inl ⟨least, m, hbet, he, hlow, by omega⟩
  · rename_i least _ hraise
    obtain rfl := Except.ok.inj h
    rcases clampTarget_cases observation.legalActions least (saturatingAdd observation.currentWager
      (ceilFraction (saturatingAdd observation.potTotal observation.amountToCall) n d)) .raise with he | ⟨m, he, hlow, hhigh⟩
    · exact Or.inr (Or.inr he)
    · exact Or.inr (Or.inl ⟨least, m, hraise, he, hlow, by omega⟩)
  · split at h
    · exact Or.inr (Or.inr (Except.ok.inj h).symm)
    · cases h

theorem mapPolicyAction_bounds (h : mapPolicyAction observation x = .ok action)
    (hwager : (∃ m, action = .bet m) ∨ ∃ m, action = .raise m) :
    (∃ least m, observation.legalActions.minBetTo = some least ∧ action = .bet m ∧ least ≤ m ∧
        m ≤ observation.legalActions.allInTo) ∨
      (∃ least m, observation.legalActions.minRaiseTo = some least ∧ action = .raise m ∧ least ≤ m ∧
        m ≤ observation.legalActions.allInTo) := by
  have hquiet : (∀ m, action ≠ .bet m) → (∀ m, action ≠ .raise m) → False := by
    intro hbet hraise
    rcases hwager with ⟨m, he⟩ | ⟨m, he⟩
    · exact hbet m he
    · exact hraise m he
  cases hx : x.fraction with
  | some fraction =>
    obtain ⟨n, d⟩ := fraction
    rw [(mapPolicyAction_fraction observation hx).2] at h
    rcases mapFraction_bounds h with hbet | hraise | hall
    · exact Or.inl hbet
    · exact Or.inr hraise
    · subst hall
      exact (hquiet (fun _ he => nomatch he) fun _ he => nomatch he).elim
  | none =>
    refine (hquiet ?_ ?_).elim
    all_goals
      intro m he
      subst he
      unfold mapPolicyAction at h
      cases x with
      | fold | check | allIn =>
        dsimp only at h
        split at h <;> cases h
      | call =>
        dsimp only at h
        split at h
        · cases h
        · split at h <;> cases h
      | betRaiseQuarterPot | betRaiseHalfPot | betRaiseThreeQuarterPot | betRaisePot | betRaiseOneAndHalfPot => cases hx

end mapping

/-! ## The observation -/

/-- The observation is of the turn that the hand waits for. -/
structure PolicyObservationV1.Reads (observation : PolicyObservationV1) (h : MultiwayHand) : Prop where
  toAct : h.toAct = some observation.actingSeat
  legal : h.legalActionsFor observation.actingSeat = some observation.legalActions
  bet : observation.actingContribution = (h.seat observation.actingSeat).streetContribution
  toCall : observation.amountToCall = h.currentWager - (h.seat observation.actingSeat).streetContribution

section observing
variable {a : ProtocolAuthority} {audience : ProjectionAudience} {envelope : SnapshotEnvelope} {events : List EventEnvelope}
  {observation : PolicyObservationV1}

theorem snapshot_view (hsnap : a.snapshot audience = .ok envelope) :
    a.hand.projectHand a.handId audience = .ok envelope.snapshot := by
  unfold ProtocolAuthority.snapshot at hsnap
  cases hview : a.hand.projectHand a.handId audience with
  | error error =>
    rw [hview] at hsnap
    cases hsnap
  | ok view =>
    rw [hview] at hsnap
    obtain rfl := Except.ok.inj hsnap
    rfl

theorem fromAuthorized_reads (hsnap : a.snapshot audience = .ok envelope)
    (hobs : PolicyObservationV1.fromAuthorized envelope events = .ok observation)
    (haccepts : a.hand.phase.acceptsActions = true) : observation.Reads a.hand := by
  have hview := snapshot_view hsnap
  have hopen := open_of_accepts haccepts
  unfold PolicyObservationV1.fromAuthorized at hobs
  dsimp only at hobs
  split at hobs
  · cases hobs
  split at hobs
  · cases hobs
  split at hobs
  · cases hobs
  cases haudience : envelope.snapshot.audience with
  | spectator =>
    rw [haudience] at hobs
    cases hobs
  | player p =>
    rw [haudience] at hobs
    dsimp only at hobs
    -- the view is the hand's, for the player it was made for
    unfold projectHand at hview
    cases hunseated : a.hand.unseated audience with
    | some seat =>
      rw [hunseated] at hview
      cases hview
    | none =>
      rw [hunseated] at hview
      have hview := (Except.ok.inj hview).symm
      have hplayer : audience = .player p := by
        rw [hview] at haudience
        exact haudience
      subst hplayer
      have hmem : p ∈ a.hand.occupiedSeats := by
        unfold unseated at hunseated
        dsimp only at hunseated
        split at hunseated
        · rename_i hany
          obtain ⟨q, hq, he⟩ := List.any_eq_true.mp hany
          exact eq_of_beq he ▸ hq
        · cases hunseated
      have hseats : envelope.snapshot.seats = a.hand.occupiedSeats.map (a.hand.projectSeat (.player p)) := by rw [hview]
      have hfind : (envelope.snapshot.seats.find? fun seat => seat.seat = p) = some (a.hand.projectSeat (.player p) p) := by
        rw [hseats]
        exact TrainingArena.find_seat (f := a.hand.projectSeat (.player p)) (fun _ => rfl) hmem
      have hbet : (a.hand.projectSeat (.player p) p).streetContribution = (a.hand.seat p).streetContribution := by
        simp only [projectSeat, contributionFor, hopen, Bool.false_eq_true, if_false]
      split at hobs
      · cases hobs
      rename_i hturn
      have hto : a.hand.toAct = some p := by
        have hturn := not_not.mp hturn
        rw [hview] at hturn
        exact hturn
      have hmenu : envelope.snapshot.legalActions = a.hand.legalActionsFor p := by rw [hview]
      have hwager : envelope.snapshot.currentWager = a.hand.currentWager := by rw [hview]
      rw [hmenu, hfind] at hobs
      cases hlegal : a.hand.legalActionsFor p with
      | none =>
        rw [hlegal] at hobs
        cases hobs
      | some legal =>
        rw [hlegal] at hobs
        dsimp only at hobs
        split at hobs
        · cases hobs
        · cases hhistory : PolicyObservationV1.readHistory envelope 0 events with
          | error error =>
            rw [hhistory] at hobs
            cases hobs
          | ok history =>
            rw [hhistory] at hobs
            obtain rfl := Except.ok.inj hobs
            refine ⟨hto, hlegal, ?_, ?_⟩
            · show ((List.find? (fun seat : PolicySeatV1 => decide (seat.seat = p))
                  (envelope.snapshot.seats.map _)).map _).getD 0 = _
              rw [hseats, List.map_map]
              have hagain := @TrainingArena.find_seat p _ ((fun seat : ProjectedSeat => (⟨seat.seat, seat.stack,
                seat.streetContribution, seat.handContribution, seat.participation⟩ : PolicySeatV1)) ∘
                  a.hand.projectSeat (.player p)) PolicySeatV1.seat (fun _ => rfl) _ hmem
              rw [hagain]
              exact hbet
            · show envelope.snapshot.currentWager - _ = _
              rw [hwager, hbet]
        · cases hobs

end observing

/-! ## Every turn -/

section turns
variable {c : HandConfig} {h : MultiwayHand} {a : ProtocolAuthority} {audience : ProjectionAudience} {envelope : SnapshotEnvelope}
  {events : List EventEnvelope} {observation : PolicyObservationV1} {posted : Nat} {legal : MultiwayLegalActions}

theorem mapsWell_of_reads (hp : h.Playing posted) (hreads : observation.Reads h) : MapsWell h observation := by
  have hto := hreads.toAct
  have hvalid : ∀ x action, mapPolicyAction observation x = .ok action →
      h.validateCommand ⟨observation.actingSeat, action⟩ = .ok () :=
    fun x action hmap => hp.mapPolicyAction_valid hto hreads.legal rfl hreads.toCall hmap
  obtain ⟨legal, ha⟩ := hp.acting hto
  obtain rfl : legal = observation.legalActions := Option.some.inj (ha.offered.symm.trans hreads.legal)
  refine ⟨hto, ?_, ?_, ?_, ?_, ?_, ?_⟩
  · -- a seat that cannot check has something to fold to
    intro hnone
    have hfold : mapPolicyAction observation .fold = .ok .fold ∨ mapPolicyAction observation .check = .ok .check := by
      by_cases hcheck : observation.legalActions.canCheck = true
      · exact Or.inr (if_pos hcheck)
      · refine Or.inl (if_pos (ha.menu.canFold.mpr (Nat.lt_of_not_le ?_)))
        exact fun hle => hcheck (ha.menu.canCheck.mpr hle)
    rcases hfold with hmap | hmap
    · have hmem := mem_legalPolicyActions.mpr ⟨_, hmap⟩
      rw [hnone] at hmem
      cases hmem
    · have hmem := mem_legalPolicyActions.mpr ⟨_, hmap⟩
      rw [hnone] at hmem
      cases hmem
  · intro x hx
    obtain ⟨action, hmap⟩ := mem_legalPolicyActions.mp hx
    exact ⟨action, hmap, hvalid x action hmap⟩
  · intro x hx
    cases hmap : mapPolicyAction observation x with
    | ok action => exact absurd (mem_legalPolicyActions.mpr ⟨action, hmap⟩) hx
    | error error =>
      obtain rfl := mapPolicyAction_error hmap
      refine ⟨rfl, fun arena => ?_⟩
      unfold TrainingArena.act
      rw [hmap]
  · intro x x' n d n' d' action action' hx hx' hle hmap hmap'
    obtain ⟨hd, heq⟩ := mapPolicyAction_fraction observation hx
    obtain ⟨hd', heq'⟩ := mapPolicyAction_fraction observation hx'
    rw [heq] at hmap
    rw [heq'] at hmap'
    exact mapFraction_mono hd hd' hle hmap hmap'
  · intro x n hmap
    rcases mapPolicyAction_bounds hmap (Or.inl ⟨n, rfl⟩) with ⟨least, m, hleast, he, hrange⟩ | ⟨_, _, _, he, _⟩
    · cases he
      exact ⟨_, least, hreads.legal, hleast, hrange⟩
    · cases he
  · intro x n hmap
    rcases mapPolicyAction_bounds hmap (Or.inr ⟨n, rfl⟩) with ⟨_, _, _, he, _⟩ | ⟨least, m, hleast, he, hrange⟩
    · cases he
    · cases he
      exact ⟨_, least, hreads.legal, hleast, hrange⟩

/-- Whatever observation an authority's view of a hand gives, in any run, the policy actions map well. -/
theorem policy_actions_map (hstarts : HandStarts c h) (ops : List HandOp) (hhand : a.hand = h.run ops)
    (hsnap : a.snapshot audience = .ok envelope) (hobs : PolicyObservationV1.fromAuthorized envelope events = .ok observation)
    (hto : (h.run ops).toAct ≠ none) : MapsWell (h.run ops) observation := by
  obtain ⟨p, hto⟩ := Option.ne_none_iff_exists'.mp hto
  obtain ⟨_, hp⟩ := (hstarts.stage.run ops).playing_of_toAct hto
  rw [← hhand] at hp ⊢
  exact mapsWell_of_reads hp (fromAuthorized_reads hsnap hobs hp.accepts)

/-- The first turn of a hand of two. -/
theorem policy_actions_map_hundred : ∃ (config : HandConfig) (h : MultiwayHand) (envelope : SnapshotEnvelope)
    (observation : PolicyObservationV1),
    HandStarts config h ∧ (ProtocolAuthority.new ⟨1⟩ ⟨1⟩ h).snapshot (.player 0) = .ok envelope ∧
      PolicyObservationV1.fromAuthorized envelope [] = .ok observation ∧ (h.run []).toAct ≠ none ∧
        MapsWell (h.run []) observation := by
  have hrun : (((ArenaConfig.headsUp 100).hand orderedDeal).build.toOption.bind fun h =>
      ((ProtocolAuthority.new ⟨1⟩ ⟨1⟩ { h with pacedShowdown := false }).snapshot (.player 0)).toOption.map fun envelope =>
        ((PolicyObservationV1.fromAuthorized envelope []).isOk, h.toAct)) = some (true, some 0) := by decide +kernel
  obtain ⟨start, hbuild, hrest⟩ := Option.bind_eq_some_iff.mp hrun
  obtain ⟨envelope, hsnap, hfacts⟩ := Option.map_eq_some_iff.mp hrest
  obtain ⟨hok, hto⟩ := Prod.mk.inj hfacts
  cases hb : ((ArenaConfig.headsUp 100).hand orderedDeal).build with
  | error e =>
    rw [hb] at hbuild
    cases hbuild
  | ok built =>
    rw [hb] at hbuild
    obtain rfl : built = start := Option.some.inj hbuild
    have hs : HandStarts ((ArenaConfig.headsUp 100).hand orderedDeal) { built with pacedShowdown := false } :=
      ⟨⟨.refl _, rfl⟩, built, false, hb, rfl⟩
    cases hview : (ProtocolAuthority.new ⟨1⟩ ⟨1⟩ { built with pacedShowdown := false }).snapshot (.player 0) with
    | error e =>
      rw [hview] at hsnap
      cases hsnap
    | ok shown =>
      rw [hview] at hsnap
      obtain rfl : shown = envelope := Option.some.inj hsnap
      cases hobs : PolicyObservationV1.fromAuthorized shown [] with
      | error e =>
        rw [hobs] at hok
        cases hok
      | ok observation =>
        have hturn : (({ built with pacedShowdown := false } : MultiwayHand).run []).toAct ≠ none := by
          show built.toAct ≠ none
          rw [hto]
          simp
        exact ⟨_, _, shown, observation, hs, hview, hobs, hturn, policy_actions_map hs [] rfl hview hobs hturn⟩

end turns

end OpenFelt
