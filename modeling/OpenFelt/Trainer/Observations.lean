/-
  OpenFelt.Trainer.Observations — what the seat to act is shown (`src/trainer/facts.rs`,
  `from_projection`).

  In every run of a hand the seat to act can act and has a menu (`Acting`), and its
  observation holds the hand's own figures (`Sees`).
-/

import OpenFelt.Trainer.Session

namespace OpenFelt

open Betting

namespace MultiwayHand

/-- A seat as an observation has it while the hand takes actions. -/
def publicSeat (h : MultiwayHand) (q : SeatId) : Trainer.PublicSeat :=
  ⟨q, (h.seat q).stack, (h.seat q).streetContribution, (h.seat q).handContribution, (h.seat q).participation⟩

/-- The observation of `p` is of this hand. -/
structure Sees (h : MultiwayHand) (p : SeatId) (o : Trainer.Observation) : Prop where
  actor : o.actor = p
  toAct : h.toAct = some p
  button : o.button = h.button
  smallBlind : o.smallBlind = h.smallBlind
  bigBlind : o.bigBlind = h.bigBlind
  bigBlindChips : o.bigBlindChips = h.blindValues.bigBlind
  phase : o.phase = h.phase
  holeCards : o.holeCards = (h.seat p).holeCards
  two : o.holeCards.length = 2
  board : o.board = h.board
  seats : o.seats = h.occupiedSeats.map h.publicSeat
  mem : p ∈ h.occupiedSeats
  wager : o.wager = h.currentWager
  pot : o.pot = h.sumSeats (·.handContribution)
  legal : h.legalActionsFor p = some o.legal
  history : o.history = h.actionHistory.map fun record => (record.seat, record.action)
  publicHistory : o.publicHistory = h.actionHistory.map fun record =>
    ⟨record.phase, record.seat, record.action, record.wagerAfter⟩

section sees
variable {h : MultiwayHand} {p q : SeatId} {handId : HandId} {o : Trainer.Observation} {legal : MultiwayLegalActions}

theorem open_of_accepts (haccepts : h.phase.acceptsActions = true) : h.phase.terminal = false := by
  cases hphase : h.phase <;> simp_all [MultiwayPhase.terminal, MultiwayPhase.acceptsActions]

theorem observation_sees (ho : h.observation handId p = .ok o) (haccepts : h.phase.acceptsActions = true) : h.Sees p o := by
  have hopen := open_of_accepts haccepts
  have hmem : p ∈ h.occupiedSeats := by
    by_contra hout
    have hunseated : h.unseated (.player p) = some p := by
      have hany : h.occupiedSeats.any (· == p) = false := by
        rw [List.any_eq_false]
        intro q hq he
        exact hout (eq_of_beq he ▸ hq)
      simp [unseated, hany]
    simp only [observation, projectHand, hunseated] at ho
    cases ho
  have hseated : h.unseated (.player p) = none := by
    have hany : h.occupiedSeats.any (· == p) = true := List.any_eq_true.mpr ⟨p, hmem, by simp⟩
    simp [unseated, hany]
  have hfind := find_projectSeat (h := h) (.player p) hmem
  have hown : (h.projectSeat (.player p) p).holeCards = some (h.seat p).holeCards := by
    simp [projectSeat, ProjectionAudience.owns]
  have hseats : (h.occupiedSeats.map (h.projectSeat (.player p))).map Trainer.PublicSeat.ofProjected =
      h.occupiedSeats.map h.publicSeat := by
    rw [List.map_map]
    refine List.map_congr_left fun q _ => ?_
    simp only [Function.comp_apply, Trainer.PublicSeat.ofProjected, projectSeat, contributionFor, hopen, publicSeat,
      Bool.false_eq_true, if_false]
  have hpot : h.projectionPotTotal = h.sumSeats (·.handContribution) := by
    unfold projectionPotTotal
    cases hphase : h.phase <;> rw [hphase] at hopen <;> first | rfl | cases hopen
  simp only [observation, projectHand, hseated, Trainer.Observation.fromProjection, hfind, Option.bind_some, hown] at ho
  by_cases hto : h.toAct = some p
  · by_cases htwo : (h.seat p).holeCards.length = 2
    · simp only [hto, htwo, ne_eq, not_true_eq_false, if_false] at ho
      cases hlegal : h.legalActionsFor p with
      | none =>
        rw [hlegal] at ho
        cases ho
      | some legal =>
        rw [hlegal] at ho
        obtain rfl := Except.ok.inj ho
        exact {
          actor := rfl, toAct := hto, button := rfl, smallBlind := rfl, bigBlind := rfl, bigBlindChips := rfl
          phase := rfl, holeCards := rfl, two := htwo, board := rfl, seats := hseats, mem := hmem, wager := rfl
          pot := hpot, legal := hlegal, history := rfl, publicHistory := rfl }
    · simp only [hto, htwo, ne_eq, not_true_eq_false, not_false_eq_true, if_false, if_true] at ho
      cases ho
  · simp only [ne_eq, hto, not_false_eq_true, if_true] at ho
    cases ho

theorem Sees.find (hs : h.Sees p o) (hq : q ∈ h.occupiedSeats) : o.seats.find? (·.seat == q) = some (h.publicSeat q) := by
  rw [hs.seats]
  have hfrom : ∀ l : List SeatId, q ∈ l → (l.map h.publicSeat).find? (·.seat == q) = some (h.publicSeat q) := by
    intro l hl
    induction l with
    | nil => cases hl
    | cons x rest ih =>
      rw [List.map_cons, List.find?_cons]
      by_cases hx : x = q
      · simp [publicSeat, hx]
      · have hother : ((h.publicSeat x).seat == q) = false := by simp [publicSeat, hx]
        rw [hother]
        exact ih ((List.mem_cons.mp hl).resolve_left fun e => hx e.symm)
  exact hfrom _ hq

theorem Sees.own (hs : h.Sees p o) : o.own = some (h.publicSeat p) := by
  rw [Trainer.Observation.own, hs.actor]
  exact hs.find hs.mem

theorem Sees.callCost (hs : h.Sees p o) :
    o.callCost = min (h.currentWager - (h.seat p).streetContribution) (h.seat p).stack := by
  unfold Trainer.Observation.callCost
  rw [hs.own, hs.wager]
  rfl

end sees

/-! ## The seat to act -/

/-- The hand is in play and it is `p`'s turn. -/
structure Acting (h : MultiwayHand) (p : SeatId) (legal : MultiwayLegalActions) : Prop where
  playing : ∃ posted, h.Playing posted
  turn : h.OnTurn p
  offered : h.legalActionsFor p = some legal
  menu : h.Menu p legal
  live : h.street.status p = .live
  stack : 0 < h.street.stack p
  mem : p ∈ h.occupiedSeats

section acting
variable {c : HandConfig} {h : MultiwayHand} {p : SeatId} {posted : Nat} {legal : MultiwayLegalActions} {o : Trainer.Observation}

theorem Playing.acting (hp : h.Playing posted) (hto : h.toAct = some p) : ∃ legal, h.Acting p legal := by
  have ht := hp.onTurn hto
  have hlive := hp.live hto
  obtain ⟨legal, hlegal, hm⟩ := ht.menu hp.booked
  have hmem : p ∈ h.occupiedSeats := (mem_occupiedSeats hp.booked.length).mpr (occupied_of_canAct ht.canAct)
  exact ⟨legal, ⟨posted, hp⟩, ht, hlegal, hm, hlive, hp.sound.live_stack p hlive, hmem⟩

/-- Whoever is to act in a run of a hand has a menu, and an observation of the hand. -/
theorem HandStarts.acting (hstarts : HandStarts c h) (ops : List HandOp) (hto : (h.run ops).toAct = some p) (handId : HandId) :
    ∃ legal o, (h.run ops).Acting p legal ∧ (h.run ops).observation handId p = .ok o ∧ (h.run ops).Sees p o ∧
      o.legal = legal := by
  obtain ⟨_, hp⟩ := (hstarts.stage.run ops).playing_of_toAct hto
  obtain ⟨legal, ha⟩ := hp.acting hto
  have hcards := (hstarts.dealtFrom_run ops).1.two p (List.mem_filter.mp ha.mem).2
  obtain ⟨_, o, _, _, _, _, ho, hobserved⟩ := ha.turn.observed handId ha.mem ha.offered hcards
  exact ⟨legal, o, ha, ho, observation_sees ho ha.turn.accepts, hobserved.legal⟩

theorem Acting.menu_eq (ha : h.Acting p legal) (hs : h.Sees p o) : o.legal = legal :=
  Option.some.inj (hs.legal.symm.trans ha.offered)

theorem Acting.validate_iff (ha : h.Acting p legal) (action : Action) :
    h.validateCommand ⟨p, action⟩ = .ok () ↔ actionIsLegal legal action = true :=
  ha.turn.validate_iff ha.offered ha.menu ha.stack action

/-- What the hand would accept of the seat to act, spelled out. -/
def Offered (legal : MultiwayLegalActions) (wager : Nat) : Action → Prop
  | .fold => legal.canCheck = false
  | .check => legal.canCheck = true
  | .call n => legal.callAmount = some n
  | .bet n => ∃ least, legal.minBetTo = some least ∧ least ≤ n ∧ n < legal.allInTo
  | .raise n => legal.raiseReopened = true ∧ ∃ least, legal.minRaiseTo = some least ∧ least ≤ n ∧ n < legal.allInTo
  | .allIn n => n = legal.allInTo ∧ (legal.raiseReopened = true ∨ n ≤ wager)

theorem Acting.offered_of_valid (ha : h.Acting p legal) {action : Action} (hv : h.validateCommand ⟨p, action⟩ = .ok ()) :
    Offered legal h.currentWager action := by
  have hlegal := (ha.validate_iff action).mp hv
  have hm := ha.menu
  unfold actionIsLegal at hlegal
  cases action with
  | fold =>
    -- a fold needs something to call
    have hlt := hm.canFold.mp hlegal
    show legal.canCheck = false
    rw [Bool.eq_false_iff]
    intro hcheck
    exact absurd (hm.canCheck.mp hcheck) (Nat.not_le.mpr hlt)
  | check => exact hlegal
  | call n => simpa [Offered] using hlegal
  | bet n =>
    obtain ⟨least, hleast, hrange⟩ := (Option.any_eq_true _ _).mp hlegal
    simp only [Bool.and_eq_true, decide_eq_true_eq] at hrange
    exact ⟨least, hleast, hrange⟩
  | raise n =>
    obtain ⟨least, hleast, hrange⟩ := (Option.any_eq_true _ _).mp hlegal
    simp only [Bool.and_eq_true, decide_eq_true_eq] at hrange
    exact ⟨hm.reopened.mpr (hm.minRaiseTo least hleast).1, least, hleast, hrange⟩
  | allIn n =>
    simp only [Bool.and_eq_true, decide_eq_true_eq] at hlegal
    obtain ⟨rfl, hcan⟩ := hlegal
    exact ⟨rfl, (hm.canAllIn_iff ha.stack).mp hcan⟩

end acting

end MultiwayHand

end OpenFelt
