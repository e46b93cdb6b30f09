/-
  OpenFelt.Protocol.Projection — the view of a hand that each audience gets
  (`src/protocol.rs`, `project_hand`).

  Hole cards stand in a view when the audience holds that seat or the hand has tabled
  them. The totals of `projection_pot_total` are `Nat`.
-/

import OpenFelt.Game.Multiway

namespace OpenFelt

structure TableId where
  id : Nat
  deriving DecidableEq, Repr

structure HandId where
  id : Nat
  deriving DecidableEq, Repr

inductive ProjectionAudience where
  | player (seat : SeatId)
  | spectator
  deriving DecidableEq, Repr

structure ProjectedSeat where
  seat : SeatId
  stack : Nat
  streetContribution : Nat
  handContribution : Nat
  participation : HandParticipation
  holeCards : Option (List Card)
  deriving DecidableEq, Repr

/-- `ProjectionKind` carries what `ProjectionAudience` does, so `audience` is of that type. -/
structure TableProjection where
  showdown : Option ShowdownProgress
  mucked : List SeatId
  shown : List SeatId
  alwaysShow : Bool
  handId : HandId
  audience : ProjectionAudience
  tableSize : TableSize
  phase : MultiwayPhase
  button : SeatId
  smallBlind : SeatId
  bigBlind : SeatId
  smallBlindAmount : Nat
  bigBlindAmount : Nat
  anteAmount : Nat
  toAct : Option SeatId
  board : List Card
  currentWager : Nat
  potTotal : Nat
  seats : List ProjectedSeat
  pots : List Pot
  awards : List PotAward
  legalActions : Option MultiwayLegalActions
  deriving DecidableEq, Repr

inductive ProjectionError where
  | playerSeatNotOccupied (seat : SeatId)
  deriving DecidableEq, Repr

def MultiwayPhase.terminal : MultiwayPhase → Bool
  | showdown | handComplete => true
  | preflop | flop | turn | river => false

namespace ProjectionAudience

/-- `audience == ProjectionAudience::Player(seat)`. -/
def owns (audience : ProjectionAudience) (seat : SeatId) : Bool := audience == .player seat

end ProjectionAudience

namespace MultiwayHand

variable (h : MultiwayHand)

def publiclyRevealed (seat : SeatId) : Bool := h.revealedHands.any (·.seat == seat)

/-- Street and hand contribution: a hand that is over shows what was settled. -/
def contributionFor (seat : SeatId) : Nat × Nat :=
  if h.phase.terminal then
    match h.settledContributions.find? (·.seat == seat) with
    | some entry => (0, entry.amount)
    | none => (0, 0)
  else ((h.seat seat).streetContribution, (h.seat seat).handContribution)

def projectSeat (audience : ProjectionAudience) (seat : SeatId) : ProjectedSeat where
  seat := seat
  stack := (h.seat seat).stack
  streetContribution := (h.contributionFor seat).1
  handContribution := (h.contributionFor seat).2
  participation := (h.seat seat).participation
  holeCards := if audience.owns seat || h.publiclyRevealed seat then some (h.seat seat).holeCards else none

def projectionPotTotal : Nat :=
  match h.phase with
  | .showdown => (h.pots.map (·.amount)).sum
  | .handComplete => (h.awards.map (·.amount)).sum
  | _ => h.sumSeats (·.handContribution)

/-- The audience holds a seat that is not dealt in. -/
def unseated : ProjectionAudience → Option SeatId
  | .player seat => if h.occupiedSeats.any (· == seat) then none else some seat
  | .spectator => none

def projectHand (handId : HandId) (audience : ProjectionAudience) : Except ProjectionError TableProjection :=
  match h.unseated audience with
  | some seat => .error (.playerSeatNotOccupied seat)
  | none =>
    .ok {
      showdown := h.showdownProgress
      mucked := h.muckedHands
      shown := h.revealedHands.map (·.seat)
      alwaysShow :=
        match audience with
        | .player seat => h.alwaysShow.contains seat
        | .spectator => false
      handId := handId
      audience := audience
      tableSize := h.tableSize
      phase := h.phase
      button := h.button
      smallBlind := h.smallBlind
      bigBlind := h.bigBlind
      smallBlindAmount := h.blindValues.smallBlind
      bigBlindAmount := h.blindValues.bigBlind
      anteAmount := h.blindValues.ante
      toAct := h.toAct
      board := h.board
      currentWager := h.currentWager
      potTotal := h.projectionPotTotal
      seats := h.occupiedSeats.map (h.projectSeat audience)
      pots := h.pots
      awards := h.awards
      legalActions :=
        match audience with
        | .player seat => h.legalActionsFor seat
        | .spectator => none }

variable {h}

/-- A seat shown to an audience: whose it is or whose cards are public. -/
theorem projectHand_holeCards {handId : HandId} {audience : ProjectionAudience} {view : TableProjection}
    {entry : ProjectedSeat} {cards : List Card} (hv : h.projectHand handId audience = .ok view) (he : entry ∈ view.seats)
    (hcards : entry.holeCards = some cards) :
    (audience = .player entry.seat ∨ entry.seat ∈ h.revealedHands.map (·.seat)) ∧
      cards = (h.seat entry.seat).holeCards := by
  simp only [projectHand] at hv
  split at hv
  · cases hv
  rw [← Except.ok.inj hv] at he
  obtain ⟨seat, _, rfl⟩ := List.mem_map.mp he
  simp only [projectSeat] at hcards ⊢
  split at hcards
  · rename_i hopen
    refine ⟨?_, (Option.some.inj hcards).symm⟩
    rcases Bool.or_eq_true _ _ ▸ hopen with howns | hpublic
    · exact Or.inl (of_decide_eq_true howns)
    · obtain ⟨shown, hmem, hseat⟩ := List.any_eq_true.mp hpublic
      exact Or.inr (List.mem_map.mpr ⟨shown, hmem, by simpa using hseat⟩)
  · cases hcards

end MultiwayHand

end OpenFelt
