/-
  OpenFelt.Trainer.Facts — what the trainer records of a decision, and the three checks
  of an action (`src/trainer/facts.rs`, `src/trainer/live_solver.rs`,
  `src/network_client.rs`).

  The hand, a client with the projection and the trainer with its observation each have
  a range check of their own. Proved (`legality_agrees`): on the seat to act of any run
  they accept the same actions, the passive choices are always among them, and the
  authority accepts what a client sends at its revision.
-/

import OpenFelt.Client.ProjectionClient
import OpenFelt.Game.Dealing

namespace OpenFelt

open Betting

/-! ## Observations -/

namespace Trainer

structure PublicSeat where
  seat : SeatId
  stack : Nat
  streetContribution : Nat
  handContribution : Nat
  participation : HandParticipation
  deriving DecidableEq, Repr

structure PublicAction where
  phase : MultiwayPhase
  seat : SeatId
  action : Action
  wagerAfter : Nat
  deriving DecidableEq, Repr

structure Observation where
  handId : Nat
  revision : Nat
  actor : SeatId
  button : SeatId
  smallBlind : SeatId
  bigBlind : SeatId
  bigBlindChips : Nat
  phase : MultiwayPhase
  holeCards : List Card
  board : List Card
  seats : List PublicSeat
  pot : Nat
  wager : Nat
  legal : MultiwayLegalActions
  history : List (SeatId × Action)
  publicHistory : List PublicAction
  deriving DecidableEq, Repr

/-- What an observation keeps of a projected seat. -/
def PublicSeat.ofProjected (s : ProjectedSeat) : PublicSeat :=
  ⟨s.seat, s.stack, s.streetContribution, s.handContribution, s.participation⟩

namespace Observation

def fromProjection (p : TableProjection) (revision : Nat) (history : List (SeatId × Action)) : Except String Observation :=
  match p.audience with
  | .spectator => .error "A player observation is required"
  | .player actor =>
    if p.toAct ≠ some actor then .error "The player must be acting"
    else
      match (p.seats.find? (·.seat == actor)).bind (·.holeCards) with
      | none => .error "Missing own cards"
      | some cards =>
        if cards.length ≠ 2 then .error "Expected two own cards"
        else
          match p.legalActions with
          | none => .error "Missing legal actions"
          | some legal =>
            .ok {
              handId := p.handId.id
              revision := revision
              actor := actor
              button := p.button
              smallBlind := p.smallBlind
              bigBlind := p.bigBlind
              bigBlindChips := p.bigBlindAmount
              phase := p.phase
              holeCards := cards
              board := p.board
              seats := p.seats.map .ofProjected
              pot := p.potTotal
              wager := p.currentWager
              legal := legal
              history := history
              publicHistory := [] }

variable (o : Observation)

/-- The source expects the actor among the seats. -/
def own : Option PublicSeat := o.seats.find? (·.seat == o.actor)

def checkCall : Action :=
  if o.legal.canCheck then .check
  else
    match o.legal.callAmount with
    | some cost => .call cost
    | none => .allIn o.legal.allInTo

def validateAccepted (action : Action) : Except String Unit :=
  let accepted : Bool :=
    match action with
    | .fold => o.legal.canFold
    | .check => o.legal.canCheck
    | .call v => o.legal.callAmount = some v
    | .bet v => o.legal.minBetTo.any fun least => least ≤ v && v < o.legal.allInTo
    | .raise v => o.legal.raiseReopened && o.legal.minRaiseTo.any fun least => least ≤ v && v < o.legal.allInTo
    | .allIn v => o.legal.canAllIn && v = o.legal.allInTo && o.own.any fun own => own.streetContribution < v
  if accepted then .ok () else .error "The recorded action is not legal at this decision"

end Observation

end Trainer

/-- `TrainingSession::observation`, of the session's hand. -/
def MultiwayHand.observation (h : MultiwayHand) (handId : HandId) (actor : SeatId) : Except String Trainer.Observation :=
  match h.projectHand handId (.player actor) with
  | .error _ => .error "Invalid player"
  | .ok projection =>
    match Trainer.Observation.fromProjection projection h.actionHistory.length
        (h.actionHistory.map fun a => (a.seat, a.action)) with
    | .error error => .error error
    | .ok observation =>
      .ok { observation with
        publicHistory := h.actionHistory.map fun record => ⟨record.phase, record.seat, record.action, record.wagerAfter⟩ }

/-! ## What a client plays by itself -/

namespace MultiwayLegalActions

variable (legal : MultiwayLegalActions)

def passiveAction : Action :=
  if legal.canCheck then .check
  else
    match legal.callAmount with
    | some amount => .call amount
    | none => if legal.canFold then .fold else .allIn legal.allInTo

def allInAction : Action := if legal.canAllIn then .allIn legal.allInTo else legal.passiveAction

end MultiwayLegalActions

namespace MultiwayHand

section menu
variable {h : MultiwayHand} {p : SeatId} {legal : MultiwayLegalActions} {posted : Nat}

/-- The hand's check is the client's. -/
theorem OnTurn.validate_iff (ht : h.OnTurn p) (hlegal : h.legalActionsFor p = some legal) (hm : h.Menu p legal)
    (hstack : 0 < h.street.stack p) (action : Action) :
    h.validateCommand ⟨p, action⟩ = .ok () ↔ actionIsLegal legal action = true := by
  have hall : legal.allInTo = (h.seat p).streetContribution + (h.seat p).stack := hm.allInTo
  have hstack' : 0 < (h.seat p).stack := hstack
  -- below the stack is up to one short of it
  have hrange : ∀ least n : Nat, least ≤ n ∧ n ≤ legal.allInTo - 1 ↔ least ≤ n ∧ n < legal.allInTo := by
    intro least n
    omega
  rw [ht.validateCommand]
  unfold validateAction actionIsLegal
  rw [hlegal, Option.getD_some]
  cases action with
  | fold => simp
  | check => simp
  | call n =>
    dsimp only
    cases legal.callAmount with
    | none => simp
    | some expected => simp
  | bet n =>
    dsimp only
    cases legal.minBetTo with
    | none => simp
    | some least => simp [hrange]
  | raise n =>
    dsimp only
    cases hraise : legal.minRaiseTo with
    | none =>
      dsimp only
      split <;> simp
    | some least =>
      have hopen : legal.raiseReopened = true := hm.reopened.mpr (hm.minRaiseTo least hraise).1
      simp [hopen, hrange]
  | allIn n =>
    simp only [Bool.and_eq_true, decide_eq_true_eq, hm.canAllIn_iff hstack]
    by_cases hn : n = legal.allInTo
    · subst hn
      have hin : (h.seat p).streetContribution < legal.allInTo := by omega
      cases hopen : legal.raiseReopened
      · by_cases hle : legal.allInTo ≤ h.currentWager
        · simp [hin, hle, Nat.not_lt.mpr hle]
        · simp [hle, Nat.lt_of_not_le hle]
      · simp [hin]
    · simp only [hn, if_false, false_and, iff_false]
      split <;> simp

/-- The observation of the seat to act. -/
structure Observed (h : MultiwayHand) (p : SeatId) (legal : MultiwayLegalActions) (o : Trainer.Observation) : Prop where
  legal : o.legal = legal
  own : ∃ own, o.own = some own ∧ own.streetContribution = h.street.bet p

/-- The trainer's check is the client's. -/
theorem Observed.validate_iff {o : Trainer.Observation} (ho : h.Observed p legal o) (hm : h.Menu p legal)
    (hstack : 0 < h.street.stack p) (action : Action) :
    o.validateAccepted action = .ok () ↔ actionIsLegal legal action = true := by
  have hall := hm.allInTo
  obtain ⟨own, hown, hbet⟩ := ho.own
  have hok : ∀ accepted : Bool, (if accepted = true then Except.ok () else
      .error "The recorded action is not legal at this decision") = (.ok () : Except String Unit) ↔ accepted = true := by
    intro accepted
    cases accepted <;> simp
  unfold Trainer.Observation.validateAccepted
  rw [ho.legal]
  dsimp only
  rw [hok]
  unfold actionIsLegal
  cases action with
  | fold | check | call n | bet n => rfl
  | raise n =>
    cases hraise : legal.minRaiseTo with
    | none => simp
    | some least =>
      rw [hm.reopened.mpr (hm.minRaiseTo least hraise).1]
      simp
  | allIn n =>
    rw [hown]
    simp only [Option.any_some, Bool.and_eq_true, decide_eq_true_eq]
    constructor
    · intro ⟨⟨hcan, hn⟩, _⟩
      exact ⟨hn, hcan⟩
    · intro ⟨hn, hcan⟩
      exact ⟨⟨hcan, hn⟩, by omega⟩

theorem passiveAction_legal (hm : h.Menu p legal) : actionIsLegal legal legal.passiveAction = true := by
  unfold MultiwayLegalActions.passiveAction
  by_cases hcheck : legal.canCheck = true
  · rw [if_pos hcheck]
    exact hcheck
  rw [if_neg hcheck]
  cases hcall : legal.callAmount with
  | some amount => simp [actionIsLegal, hcall]
  | none =>
    -- nothing to check is something to fold
    have hfold : legal.canFold = true := hm.canFold.mpr (Nat.lt_of_not_le fun hle => hcheck (hm.canCheck.mpr hle))
    dsimp only
    rw [if_pos hfold]
    exact hfold

theorem allInAction_legal (hm : h.Menu p legal) : actionIsLegal legal legal.allInAction = true := by
  unfold MultiwayLegalActions.allInAction
  by_cases hcan : legal.canAllIn = true
  · rw [if_pos hcan]
    simp [actionIsLegal, hcan]
  · rw [if_neg hcan]
    exact passiveAction_legal hm

theorem checkCall_legal {o : Trainer.Observation} (ho : o.legal = legal) : actionIsLegal legal o.checkCall = true := by
  unfold Trainer.Observation.checkCall
  rw [ho]
  by_cases hcheck : legal.canCheck = true
  · rw [if_pos hcheck]
    exact hcheck
  rw [if_neg hcheck]
  cases hcall : legal.callAmount with
  | some cost => simp [actionIsLegal, hcall]
  | none => simp [actionIsLegal, Menu.canAllIn_of_blocked hcheck hcall]

end menu

/-! ## The seat to act -/

section acting
variable {h : MultiwayHand} {p : SeatId} {legal : MultiwayLegalActions} {c : HandConfig} {handId : HandId}

theorem find_projectSeat (audience : ProjectionAudience) {seats : List SeatId} (hp : p ∈ seats) :
    (seats.map (h.projectSeat audience)).find? (·.seat == p) = some (h.projectSeat audience p) := by
  induction seats with
  | nil => cases hp
  | cons q rest ih =>
    rw [List.map_cons, List.find?_cons]
    by_cases hq : q = p
    · simp [projectSeat, hq]
    · have hrest : p ∈ rest := (List.mem_cons.mp hp).resolve_left fun e => hq e.symm
      have hother : ((h.projectSeat audience q).seat == p) = false := by simp [projectSeat, hq]
      rw [hother]
      exact ih hrest

/-- The acting seat has a projection and an observation, both with the hand's menu. -/
theorem OnTurn.observed (handId : HandId) (ht : h.OnTurn p) (hmem : p ∈ h.occupiedSeats)
    (hlegal : h.legalActionsFor p = some legal)
    (hcards : (h.seat p).holeCards.length = 2) : ∃ view o, h.projectHand handId (.player p) = .ok view ∧
      view.audience = .player p ∧ view.toAct = some p ∧ view.legalActions = some legal ∧
      h.observation handId p = .ok o ∧ h.Observed p legal o := by
  have hseated : h.unseated (.player p) = none := by
    have hany : h.occupiedSeats.any (· == p) = true := List.any_eq_true.mpr ⟨p, hmem, by simp⟩
    simp [unseated, hany]
  have hview : ∃ view, h.projectHand handId (.player p) = .ok view ∧ view.audience = .player p ∧ view.toAct = some p ∧
      view.legalActions = some legal ∧ view.seats = h.occupiedSeats.map (h.projectSeat (.player p)) := by
    simp only [projectHand, hseated]
    exact ⟨_, rfl, rfl, ht.toAct, hlegal, rfl⟩
  obtain ⟨view, hview, haudience, hto, hmenu, hseats⟩ := hview
  have hfind : view.seats.find? (·.seat == p) = some (h.projectSeat (.player p) p) := by
    rw [hseats]
    exact find_projectSeat _ hmem
  have hown : (h.projectSeat (.player p) p).holeCards = some (h.seat p).holeCards := by
    simp [projectSeat, ProjectionAudience.owns]
  have hobserve : ∃ o, h.observation handId p = .ok o ∧ o.legal = legal ∧ o.actor = p ∧
      o.seats = view.seats.map .ofProjected := by
    simp only [observation, hview, Trainer.Observation.fromProjection, haudience, hto, hmenu, hfind, Option.bind_some, hown,
      hcards, ne_eq, not_true_eq_false, if_false]
    exact ⟨_, rfl, rfl, rfl, rfl⟩
  obtain ⟨o, ho, holegal, hactor, hpublic⟩ := hobserve
  refine ⟨view, o, hview, haudience, hto, hmenu, ho, holegal,
    Trainer.PublicSeat.ofProjected (h.projectSeat (.player p) p), ?_, ?_⟩
  · have hsame : ((fun s : Trainer.PublicSeat => s.seat == p) ∘ Trainer.PublicSeat.ofProjected) = fun s => s.seat == p := rfl
    rw [Trainer.Observation.own, hpublic, hactor, List.find?_map, hsame, hfind]
    rfl
  · -- a hand that takes actions shows what stands on the street
    have hopen : h.phase.terminal = false := by
      have haccepts := ht.accepts
      cases hphase : h.phase <;> simp_all [MultiwayPhase.terminal, MultiwayPhase.acceptsActions]
    simp [Trainer.PublicSeat.ofProjected, projectSeat, contributionFor, hopen, street]

/-- The three checks of an action of `p`, and the choices made for it. -/
structure Agrees (h : MultiwayHand) (p : SeatId) (legal : MultiwayLegalActions) (o : Trainer.Observation) : Prop where
  client : ∀ action, h.validateCommand ⟨p, action⟩ = .ok () ↔ actionIsLegal legal action = true
  trainer : ∀ action, actionIsLegal legal action = true ↔ o.validateAccepted action = .ok ()
  passive : h.validateCommand ⟨p, legal.passiveAction⟩ = .ok ()
  allIn : h.validateCommand ⟨p, legal.allInAction⟩ = .ok ()
  checkCall : h.validateCommand ⟨p, o.checkCall⟩ = .ok ()

/-- A client at the authority's revision sends just the actions the authority accepts. -/
def SendsLegal (h : MultiwayHand) (p : SeatId) : Prop :=
  ∀ (a : ProtocolAuthority) (client : ProjectionClient), a.hand = h → a.snapshot (.player p) = .ok client.snapshot →
    client.connection = .connected → client.pending = none → ∀ (commandId : String) (action : Action),
      (h.validateCommand ⟨p, action⟩ = .ok () ↔ ∃ envelope, (client.prepareAction commandId action).1 = .ok envelope) ∧
      ∀ envelope, (client.prepareAction commandId action).1 = .ok envelope → ∃ event, (a.execute envelope).1 = .accepted event

theorem Agrees.sends {o : Trainer.Observation} (ha : h.Agrees p legal o)
    (hview : ∀ handId, ∃ view, h.projectHand handId (.player p) = .ok view ∧ view.audience = .player p ∧
      view.toAct = some p ∧ view.legalActions = some legal) : h.SendsLegal p := by
  intro a client hhand hsnapshot hconnected hpending commandId action
  obtain ⟨view, hview, haudience, hto, hmenu⟩ := hview a.handId
  have hclient : client.snapshot = ⟨protocolVersion, a.tableId, a.handId, a.revision, view⟩ := by
    rw [ProtocolAuthority.snapshot, hhand, hview] at hsnapshot
    exact (Except.ok.inj hsnapshot).symm
  have hprepare : (client.prepareAction commandId action).1 =
      if actionIsLegal legal action = true then
        .ok (.actForHand commandId a.tableId a.handId a.revision p action)
      else .error ⟨.illegalAction, "the intention is outside the authoritative legal-action bounds"⟩ := by
    simp only [ProjectionClient.prepareAction, hconnected, hpending, hclient, haudience, hto, hmenu]
    cases actionIsLegal legal action <;> simp
  rw [hprepare, ha.client action]
  by_cases hlegal : actionIsLegal legal action = true
  · rw [if_pos hlegal]
    refine ⟨iff_of_true hlegal ⟨_, rfl⟩, ?_⟩
    intro envelope he
    have happly : (a.applyPayload (.act p action)).1 = .ok () := by
      rw [ProtocolAuthority.applyPayload, hhand, applyCommand, (ha.client action).mpr hlegal]
    rw [← Except.ok.inj he, ProtocolAuthority.execute]
    simp only [CommandEnvelope.actForHand, ne_eq, not_true_eq_false, if_false]
    cases hresult : a.applyPayload (.act p action) with
    | mk result hand =>
      rw [hresult] at happly
      rw [show result = .ok () from happly]
      exact ⟨_, rfl⟩
  · rw [if_neg hlegal]
    refine ⟨iff_of_false hlegal ?_, ?_⟩
    · rintro ⟨envelope, he⟩
      cases he
    · intro envelope he
      cases he

/-- The seat to act has its projection and its observation; hand, client and trainer
    accept the same actions of it, and what a client or the trainer picks is accepted. -/
theorem legality_agrees (hstarts : HandStarts c h) (ops : List HandOp) (hto : (h.run ops).toAct = some p) (handId : HandId) :
    ∃ view legal o, (h.run ops).projectHand handId (.player p) = .ok view ∧ view.legalActions = some legal ∧
      (h.run ops).observation handId p = .ok o ∧ (h.run ops).Agrees p legal o ∧ (h.run ops).SendsLegal p := by
  obtain ⟨hcarries, hp⟩ := (hstarts.stage.run ops).playing_of_toAct hto
  have ht := hp.onTurn hto
  obtain ⟨legal, hlegal, hm⟩ := ht.menu hp.booked
  have hstack := hp.sound.live_stack p (hp.live hto)
  have hmem : p ∈ (h.run ops).occupiedSeats := (mem_occupiedSeats hp.booked.length).mpr (occupied_of_canAct ht.canAct)
  have hcards := (hstarts.dealtFrom_run ops).1.two p (List.mem_filter.mp hmem).2
  have hview := fun id => ht.observed id hmem hlegal hcards
  obtain ⟨view, o, hview', -, -, hmenu, ho, hobserved⟩ := hview handId
  have hclient := ht.validate_iff hlegal hm hstack
  have hagrees : (h.run ops).Agrees p legal o := ⟨hclient, fun action => (hobserved.validate_iff hm hstack action).symm,
    (hclient _).mpr (passiveAction_legal hm), (hclient _).mpr (allInAction_legal hm),
    (hclient _).mpr (checkCall_legal hobserved.legal)⟩
  refine ⟨view, legal, o, hview', hmenu, ho, hagrees, hagrees.sends fun id => ?_⟩
  obtain ⟨view, _, hview, haudience, hto, hmenu, _⟩ := hview id
  exact ⟨view, hview, haudience, hto, hmenu⟩

/-- The first turn of three seats at a table of six. -/
theorem legality_agrees_three : ∃ h p view legal o, HandStarts threeHanded h ∧ (h.run []).toAct = some p ∧
    (h.run []).projectHand ⟨1⟩ (.player p) = .ok view ∧ view.legalActions = some legal ∧
      (h.run []).observation ⟨1⟩ p = .ok o ∧ (h.run []).Agrees p legal o ∧ (h.run []).SendsLegal p := by
  have hturn : (threeHanded.build.toOption.map fun h => ({ h with pacedShowdown := false } : MultiwayHand).toAct) =
      some (some 0) := by decide +kernel
  cases hbuild : threeHanded.build with
  | error e =>
    rw [hbuild] at hturn
    cases hturn
  | ok start =>
    rw [hbuild] at hturn
    have hs : HandStarts threeHanded { start with pacedShowdown := false } := ⟨⟨.refl _, rfl⟩, start, false, hbuild, rfl⟩
    have hto := Option.some.inj hturn
    obtain ⟨view, legal, o, hagrees⟩ := legality_agrees hs [] hto ⟨1⟩
    exact ⟨_, 0, view, legal, o, hs, hto, hagrees⟩

end acting

end MultiwayHand

end OpenFelt
