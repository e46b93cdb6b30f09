/-
  OpenFelt.Game.HandPlay — betting, street by street.

  `UnderWay` holds of the books between the blinds and the showdown; `Playing` adds that
  the street is still open and somebody is to act. An accepted command leaves books that
  are under way (`UnderWay.acted`) and then does one of four things
  (`Playing.command_cases`): the last seat in takes the pot, the next seat to act is
  asked, the next street is dealt, or the showdown begins.
-/

import OpenFelt.Game.HandStreet

namespace OpenFelt

open Betting

/-! ## Streets and their records -/

namespace MultiwayPhase

/-- Cards on the board while a street is bet. -/
def boardLength : MultiwayPhase → Nat
  | preflop => 0
  | flop => 3
  | turn => 4
  | river | showdown | handComplete => 5

/-- The street after this one, and the cards it brings. -/
def next : MultiwayPhase → MultiwayPhase
  | preflop => flop
  | flop => turn
  | turn | river | showdown | handComplete => river

def nextCards : MultiwayPhase → Nat
  | preflop => 3
  | flop | turn => 1
  | river | showdown | handComplete => 0

theorem next_later {phase : MultiwayPhase} (ha : phase.acceptsActions = true) (hr : phase ≠ .river) :
    phase.next.acceptsActions = true ∧ phase.next.streetsLeft < phase.streetsLeft ∧ phase.next ≠ .preflop := by
  cases phase with
  | river => exact absurd rfl hr
  | showdown | handComplete => cases ha
  | preflop | flop | turn => exact ⟨rfl, by decide, by decide⟩

theorem nextCards_boardLength {phase : MultiwayPhase} (ha : phase.acceptsActions = true) (hr : phase ≠ .river) :
    phase.nextCards + phase.boardLength = phase.next.boardLength ∧ phase.next.boardLength ≤ 5 := by
  cases phase with
  | river => exact absurd rfl hr
  | showdown | handComplete => cases ha
  | preflop | flop | turn => exact ⟨rfl, by decide⟩

end MultiwayPhase

def MultiwayActionRecord.toTurn (record : MultiwayActionRecord) : Turn SeatId := ⟨record.seat, record.wagerAfter⟩

/-- Each record is of a kind that could leave the wager it left. -/
def Lifted : Nat × Nat → List MultiwayActionRecord → Prop
  | _, [] => True
  | f, record :: records => record.action.Lifts f record.wagerAfter ∧ Lifted (force f record.toTurn) records

theorem lifted_snoc (f : Nat × Nat) (records : List MultiwayActionRecord) (record : MultiwayActionRecord) :
    Lifted f (records ++ [record]) ↔
      Lifted f records ∧ record.action.Lifts (forceAfter f (records.map (·.toTurn))) record.wagerAfter := by
  induction records generalizing f with
  | nil => simp [Lifted, forceAfter]
  | cons r rs ih => simp [Lifted, ih, forceAfter, and_assoc]

namespace MultiwayHand

/-- The records of the street being played. -/
def streetHistory (h : MultiwayHand) : List MultiwayActionRecord := h.actionHistory.filter (·.phase = h.phase)

def turns (h : MultiwayHand) : List (Turn SeatId) := h.streetHistory.map (·.toTurn)

/-- The wager a street opens with: what was posted before the flop, nothing after it. -/
def opening (posted : Nat) (h : MultiwayHand) : Nat := if h.phase = .preflop then posted else 0

/-! ## Books under way -/

/-- Nothing of a showdown yet. -/
structure Quiet (h : MultiwayHand) : Prop where
  progress : h.showdownProgress = none
  revealed : h.revealedHands = []
  mucked : h.muckedHands = []
  evaluations : h.showdownEvaluations = []
  awards : h.awards = []

/-- The books between the blinds and the showdown; `posted` is the wager the blinds left. -/
structure UnderWay (posted : Nat) (h : MultiwayHand) : Prop where
  booked : h.Booked
  total : h.totalChips = h.initialTotal
  fits : h.initialTotal ≤ u32Max
  blind : 0 < h.blindValues.bigBlind
  accepts : h.phase.acceptsActions = true
  board : h.board.length = h.phase.boardLength
  deck : h.deck.index + (5 - h.board.length) ≤ h.deck.cards.length
  quiet : h.Quiet
  ok : h.panicked = false
  past : ∀ record ∈ h.actionHistory, h.phase.streetsLeft ≤ record.phase.streetsLeft
  play : ∃ s₀ : Street SeatId, Fresh h.blindValues.bigBlind s₀ ∧ s₀.wager = h.opening posted ∧
    Play s₀ h.turns h.street ∧ Lifted (s₀.wager, s₀.raise) h.streetHistory

/-- The seats that can still act. -/
def actors (h : MultiwayHand) : List SeatId := h.occupiedSeats.filter fun p => (h.seat p).canAct

/-- A hand that waits for an action. -/
structure Playing (posted : Nat) (h : MultiwayHand) : Prop extends UnderWay posted h where
  contested : 2 ≤ h.potEligibleCount
  isOpen : h.bettingRoundComplete = false
  toAct : ∃ p, h.toAct = some p ∧ h.needsAction p = true

section books
variable {h h' : MultiwayHand} {posted : Nat} {p : SeatId} {action : Action} {o : Outcome}

theorem UnderWay.sound (hu : h.UnderWay posted) : Sound h.blindValues.bigBlind h.street := by
  obtain ⟨s₀, hf, _, hp, _⟩ := hu.play
  exact hp.sound hf hu.blind

theorem mem_actors (hlen : h.seats.length = h.tableSize.get) : p ∈ h.actors ↔ (h.seat p).canAct = true := by
  simp only [actors, List.mem_filter, mem_occupiedSeats hlen, and_iff_right_iff_imp, MultiwaySeatState.canAct,
    Bool.and_eq_true, beq_iff_eq]
  exact fun hp => occupied_of_status (by rw [status_live.mpr hp.2]; simp)

theorem mem_eligible (hlen : h.seats.length = h.tableSize.get) :
    p ∈ h.occupiedSeats.filter (fun p => (h.seat p).eligibleForPot) ↔ h.street.InHand p := by
  rw [List.mem_filter, mem_occupiedSeats hlen, inHand_iff, and_iff_right_iff_imp]
  exact occupied_of_eligible

/-- A seat's chips are what the street says it holds. -/
theorem Booked.held_eq (hb : h.Booked) (p : SeatId) : h.street.held p = (h.seat p).stack + (h.seat p).handContribution := by
  have := hb.street_le p
  simp only [Street.held, Street.total, street]; omega

theorem totalChips_eq (h : MultiwayHand) : h.totalChips = h.sumSeats fun st => st.stack + st.handContribution :=
  (sumSeats_add h (·.stack) (·.handContribution)).symm

theorem Acted.occupiedSeats (ha : Acted h p action o h') : h'.occupiedSeats = h.occupiedSeats := by
  have ht : h'.tableSize = h.tableSize := by rw [ha.frame]
  simp only [MultiwayHand.occupiedSeats, ht]
  exact List.filter_congr fun q _ => ha.occupied q

theorem Acted.held (hacted : Acted h p action o h') (hb : h.Booked) (hs : Sound h.blindValues.bigBlind h.street)
    (ha : Allowed h.street p o) (q : SeatId) :
    (h'.seat q).stack + (h'.seat q).handContribution = (h.seat q).stack + (h.seat q).handContribution := by
  have h1 := held_act hs ha q
  rw [← hacted.street, hb.held_eq] at h1
  have h2 := hacted.street_le q
  simp only [Street.held, Street.total, MultiwayHand.street] at h1
  omega

theorem Acted.booked (hacted : Acted h p action o h') (hb : h.Booked) (hs : Sound h.blindValues.bigBlind h.street)
    (ha : Allowed h.street p o) : h'.Booked := by
  refine ⟨?_, hacted.street_le, fun q => by rw [hacted.held hb hs ha]; exact hb.fits q, fun q hq => ?_⟩
  · rw [hacted.length, hb.length, hacted.frame]
  · rw [hacted.occupied] at hq
    rw [hacted.street]
    by_cases e : q = p
    · subst e; rw [act_status_self]; exact ha.dealt
    · rw [act_status_ne _ _ e]; exact hb.dealt q hq

theorem Acted.totalChips (hacted : Acted h p action o h') (hb : h.Booked) (hs : Sound h.blindValues.bigBlind h.street)
    (ha : Allowed h.street p o) : h'.totalChips = h.totalChips := by
  simp only [totalChips_eq, sumSeats, hacted.occupiedSeats]
  exact congrArg List.sum (List.map_congr_left fun q _ => hacted.held hb hs ha q)

theorem Acted.streetHistory (ha : Acted h p action o h') :
    h'.streetHistory = h.streetHistory ++ [⟨h.actionHistory.length + 1, h.phase, p, action, o.wager⟩] := by
  have h1 : h'.phase = h.phase := by rw [ha.frame]
  have h2 : h'.actionHistory = _ := congrArg (·.actionHistory) ha.frame
  simp [MultiwayHand.streetHistory, h1, h2]

/-- An accepted action leaves books that are under way, one allowed turn on. -/
theorem UnderWay.acted (hu : h.UnderWay posted) (ht : h.OnTurn p) (hneeds : h.needsAction p = true)
    (hv : h.validateAction p action = .ok ()) :
    ∃ o, Allowed h.street p o ∧ Acted h p action o (h.recordAction p action) ∧ (h.recordAction p action).UnderWay posted := by
  have hs := hu.sound
  obtain ⟨o, ha, hlift, hacted⟩ := recordAction_spec hu.booked hs ht hv
  generalize h.recordAction p action = g at hacted
  refine ⟨o, ha, hacted, ?_⟩
  have hf := hacted.frame
  have hhist := hacted.streetHistory
  have hbooked := hacted.booked hu.booked hs ha
  have htotal := hacted.totalChips hu.booked hs ha
  obtain ⟨s₀, hfresh, hopen, hplay, hlifted⟩ := hu.play
  have hturns : g.turns = h.turns ++ [⟨p, o.wager⟩] := by simp [turns, hhist, MultiwayActionRecord.toTurn]
  have hplay' : Play s₀ g.turns g.street := by
    rw [hturns, hacted.street]
    exact hplay.snoc ((needsAction_iff hs).mp hneeds) ha
  have hlifted' : Lifted (s₀.wager, s₀.raise) g.streetHistory := by
    rw [hhist, lifted_snoc]
    refine ⟨hlifted, ?_⟩
    have := (hplay.force hfresh hu.blind).1
    rw [show List.map (·.toTurn) h.streetHistory = h.turns from rfl, this]
    exact hlift
  have hphase : g.phase = h.phase := by rw [hf]
  refine ⟨hbooked, by rw [htotal, hu.total, hf], by rw [hf]; exact hu.fits, by rw [hf]; exact hu.blind,
    by rw [hphase]; exact hu.accepts, by rw [hf]; exact hu.board, by rw [hf]; exact hu.deck, ?_,
    by rw [hf]; exact hu.ok, ?_, s₀, by rw [hf]; exact hfresh, by rw [opening, hphase]; exact hopen, hplay', hlifted'⟩
  · rw [hf]
    exact ⟨hu.quiet.1, hu.quiet.2, hu.quiet.3, hu.quiet.4, hu.quiet.5⟩
  · intro record hr
    rw [hf] at hr
    rw [hphase]
    rcases List.mem_append.mp hr with hr | hr
    · exact hu.past record hr
    · rw [List.mem_singleton.mp hr]

end books

/-! ## When the round is over -/

section round
variable {h : MultiwayHand} {posted : Nat} {p : SeatId}

theorem bettingRoundComplete_cases (h : MultiwayHand) :
    (h.actors = [] ∧ h.bettingRoundComplete = true) ∨
      (∃ p, h.actors = [p] ∧ h.bettingRoundComplete = decide (h.currentWager ≤ (h.seat p).streetContribution)) ∨
      (2 ≤ h.actors.length ∧ h.bettingRoundComplete = h.actors.all fun p => !h.needsAction p) := by
  unfold bettingRoundComplete
  rw [show (h.occupiedSeats.filter fun p => (h.seat p).canAct) = h.actors from rfl]
  rcases h.actors with _ | ⟨p, _ | ⟨q, l⟩⟩
  · exact Or.inl ⟨rfl, rfl⟩
  · exact Or.inr (Or.inl ⟨p, rfl, rfl⟩)
  · exact Or.inr (Or.inr ⟨by simp, rfl⟩)

/-- Over: nobody can act; or one can, and is not behind; or all who can have acted and matched. -/
theorem bettingRoundComplete_iff (hlen : h.seats.length = h.tableSize.get) : h.bettingRoundComplete = true ↔
    h.actors = [] ∨ (∃ p, h.actors = [p] ∧ h.currentWager ≤ (h.seat p).streetContribution) ∨
      ∀ p ∈ h.actors, (h.seat p).lastActionWager ≠ none ∧ h.currentWager ≤ (h.seat p).streetContribution := by
  have hneeds : ∀ p ∈ h.actors, h.needsAction p = false ↔
      (h.seat p).lastActionWager ≠ none ∧ h.currentWager ≤ (h.seat p).streetContribution := fun p hp => by
    have hact := (mem_actors hlen).mp hp
    cases hmark : (h.seat p).lastActionWager <;> simp [needsAction, hact, hmark]
  rcases bettingRoundComplete_cases h with ⟨hl, hc⟩ | ⟨q, hl, hc⟩ | ⟨hl, hc⟩
  · simp [hc, hl]
  · rw [hc, decide_eq_true_eq]
    constructor
    · intro hw; exact Or.inr (Or.inl ⟨q, hl, hw⟩)
    · rintro (hnil | ⟨r, hr, hw⟩ | hall)
      · rw [hl] at hnil; cases hnil
      · rw [hl] at hr; obtain rfl := (List.cons.inj hr).1; exact hw
      · exact (hall q (by rw [hl]; simp)).2
  · rw [hc, List.all_eq_true]
    constructor
    · intro hall
      exact Or.inr (Or.inr fun p hp => (hneeds p hp).mp (by simpa using hall p hp))
    · rintro (hnil | ⟨r, hr, _⟩ | hall) p hp
      · rw [hnil] at hp; cases hp
      · rw [hr] at hl; simp at hl
      · simpa using (hneeds p hp).mpr (hall p hp)

/-- Until then somebody is to respond. -/
theorem exists_needing (hlen : h.seats.length = h.tableSize.get) (hopen : h.bettingRoundComplete = false) :
    ∃ p, h.needsAction p = true := by
  rcases bettingRoundComplete_cases h with ⟨_, hc⟩ | ⟨q, hl, hc⟩ | ⟨_, hc⟩
  · rw [hc] at hopen; cases hopen
  · rw [hc, decide_eq_false_iff_not] at hopen
    have hact := (mem_actors hlen).mp (show q ∈ h.actors by rw [hl]; simp)
    exact ⟨q, by simp only [needsAction, hact, Bool.true_and, Bool.or_eq_true, decide_eq_true_eq]; omega⟩
  · rw [hc] at hopen
    obtain ⟨p, _, hp⟩ := List.all_eq_false.mp hopen
    exact ⟨p, by simpa using hp⟩

theorem canAct_of_needsAction (hp : h.needsAction p = true) : (h.seat p).canAct = true := by
  simp only [needsAction, Bool.and_eq_true] at hp; exact hp.1

theorem occupied_of_canAct (hp : (h.seat p).canAct = true) : occupiedIn h.seats p = true := by
  simp only [MultiwaySeatState.canAct, Bool.and_eq_true, beq_iff_eq] at hp
  exact occupied_of_status (by rw [status_live.mpr hp.2]; simp)

theorem Playing.needs (hp : h.Playing posted) (hto : h.toAct = some p) : h.needsAction p = true := by
  obtain ⟨q, hq, hneeds⟩ := hp.toAct
  obtain rfl : q = p := Option.some.inj (hq.symm.trans hto)
  exact hneeds

theorem Playing.onTurn (hp : h.Playing posted) (hto : h.toAct = some p) : h.OnTurn p :=
  ⟨hp.accepts, hto, canAct_of_needsAction (hp.needs hto)⟩

theorem Playing.live (hp : h.Playing posted) (hto : h.toAct = some p) : h.street.status p = .live :=
  (canAct_iff hp.sound).mp (hp.onTurn hto).canAct

/-- Before anybody has acted, whoever can act is asked to. -/
theorem needsAction_fresh {least : Nat} (hf : Fresh least h.street) (p : SeatId) : h.needsAction p = (h.seat p).canAct := by
  have hmark : (h.seat p).lastActionWager = none := hf.unmarked p
  rw [needsAction, hmark, Option.isNone_none, Bool.true_or, Bool.and_true]

theorem asked_fresh {least : Nat} (hf : Fresh least h.street) :
    (fun p => occupiedIn h.seats p && h.needsAction p) = fun p => (h.seat p).canAct := by
  funext p
  rw [needsAction_fresh hf]
  cases hable : (h.seat p).canAct with
  | false => rw [Bool.and_false]
  | true => rw [occupied_of_canAct hable, Bool.true_and]

theorem lt_of_occupied (hlen : h.seats.length = h.tableSize.get) (hp : occupiedIn h.seats p = true) : p.val < h.tableSize.get :=
  hlen ▸ lt_of_occupiedIn hp

/-- The next to act is the nearest clockwise of those who are to respond. -/
theorem nextNeedingAfter_spec (hlen : h.seats.length = h.tableSize.get) (hp : p.val < h.tableSize.get) {q : SeatId}
    (hq : h.nextNeedingAfter p = some q) : h.needsAction q = true ∧
      ∀ r, h.needsAction r = true → clockwiseAwardKey h.tableSize p q ≤ clockwiseAwardKey h.tableSize p r := by
  obtain ⟨_, hfq, hmin⟩ := find_clockwise hp hq
  simp only [Bool.and_eq_true] at hfq
  refine ⟨hfq.2, fun r hr => ?_⟩
  have hocc := occupied_of_canAct (canAct_of_needsAction hr)
  exact hmin r (lt_of_occupied hlen hocc) (by simp [hocc, hr])

theorem nextNeedingAfter_isSome (hlen : h.seats.length = h.tableSize.get) (hp : p.val < h.tableSize.get)
    (hopen : h.bettingRoundComplete = false) : (h.nextNeedingAfter p).isSome = true := by
  rw [Option.isSome_iff_ne_none]
  intro hnone
  obtain ⟨q, hq⟩ := exists_needing hlen hopen
  have hocc := occupied_of_canAct (canAct_of_needsAction hq)
  have := find_clockwise_none hp hnone q (lt_of_occupied hlen hocc)
  simp [hocc, hq] at this

theorem firstNeedingFrom_isSome (hlen : h.seats.length = h.tableSize.get) (hp : p.val < h.tableSize.get) {q : SeatId}
    (hq : h.needsAction q = true) : ∃ r, h.firstNeedingFrom p = some r ∧ h.needsAction r = true := by
  have hocc := occupied_of_canAct (canAct_of_needsAction hq)
  cases hr : h.firstNeedingFrom p with
  | none =>
    have := List.find?_eq_none.mp hr q (mem_clockwise hp q (lt_of_occupied hlen hocc))
    simp [hocc, hq] at this
  | some r =>
    have := List.find?_some hr
    simp only [Bool.and_eq_true] at this
    exact ⟨r, rfl, this.2⟩

end round

/-! ## The next street -/

/-- The street after this one: contributions pulled in, cards dealt, an opener found. -/
def dealStreet (h : MultiwayHand) : MultiwayHand :=
  openStreet { h.clearStreet.dealBoard h.phase.nextCards with phase := h.phase.next }

section deal
variable {h : MultiwayHand} {posted : Nat} {p : SeatId}

/-- Betting can go on: two players in the hand, and not all but one of them all-in. -/
theorem two_actors (hu : h.UnderWay posted) (hcount : 2 ≤ h.potEligibleCount)
    (hnot : ¬ (h.bettingLocked = true ∧ h.anyAllIn = true)) : 2 ≤ h.actors.length := by
  by_contra hlt
  have hlocked : h.bettingLocked = true := by
    simp only [bettingLocked, decide_eq_true_eq]
    exact Nat.le_of_lt_succ (Nat.lt_of_not_le hlt)
  have hnone : h.anyAllIn = false := by
    by_contra h'; exact hnot ⟨hlocked, by simpa using h'⟩
  -- nobody all-in: the players in the hand are those who can act
  have hsame : h.occupiedSeats.filter (fun p => (h.seat p).eligibleForPot) = h.actors := by
    refine List.filter_congr fun p hp => ?_
    have hne : ((h.seat p).participation == HandParticipation.allIn) = false := by
      simpa using List.any_eq_false.mp hnone p hp
    have hlive := canAct_iff (p := p) hu.sound
    rw [status_live] at hlive
    rw [Bool.eq_iff_iff, hlive]
    simp [MultiwaySeatState.eligibleForPot, hne]
  rw [potEligibleCount, hsame] at hcount
  omega

theorem seat_clearStreet (hlen : h.seats.length = h.tableSize.get) (p : SeatId) :
    h.clearStreet.seat p = { h.seat p with streetContribution := 0, lastActionWager := none } := by
  cases hp : occupiedIn h.seats p with
  | true => exact seat_updateOccupied hlen hp
  | false =>
    have hp' : occupiedIn h.clearStreet.seats p = false := by
      rw [show h.clearStreet.seats = (h.updateOccupied _).seats from rfl, (updateOccupied_table h _).occupied]; exact hp
    simp only [seat, seatOf_vacant hp, seatOf_vacant hp']; rfl

/-- Dealing the next street changes the table only in its cards, its phase and its opener. -/
theorem dealStreet_frame (hu : h.UnderWay posted) (hriver : h.phase ≠ .river) : h.dealStreet = { h.clearStreet with
    board := h.board ++ h.deck.upcoming h.phase.nextCards
    deck := { h.deck with index := h.deck.index + h.phase.nextCards }
    phase := h.phase.next
    toAct := h.dealStreet.toAct } ∧ h.dealStreet.board.length = h.phase.next.boardLength := by
  have hboard := hu.board
  have hroom := hu.deck
  have hcards := MultiwayPhase.nextCards_boardLength hu.accepts hriver
  have hdeal := Deck.dealN_eq h.deck h.phase.nextCards (by omega)
  have hup := h.deck.upcoming_length h.phase.nextCards (by omega)
  have hframe := (updateOccupied_table h fun state => { state with streetContribution := 0, lastActionWager := none }).frame
  have hdeck : h.clearStreet.deck = h.deck := by rw [clearStreet, hframe]
  have hbd : h.clearStreet.board = h.board := by rw [clearStreet, hframe]
  have heq : h.clearStreet.dealBoard h.phase.nextCards = { h.clearStreet with
      board := h.board ++ h.deck.upcoming h.phase.nextCards
      deck := { h.deck with index := h.deck.index + h.phase.nextCards } } := by
    simp only [dealBoard, hdeck, hdeal, hbd]
  constructor
  · simp only [dealStreet, openStreet, heq]
  · simp only [dealStreet, openStreet, heq, List.length_append, hup]; omega

/-- The new street's books, seat by seat. -/
theorem seat_dealStreet (hu : h.UnderWay posted) (hriver : h.phase ≠ .river) (p : SeatId) :
    h.dealStreet.seat p = { h.seat p with streetContribution := 0, lastActionWager := none } := by
  have hseats : h.dealStreet.seats = h.clearStreet.seats := by rw [(dealStreet_frame hu hriver).1]
  rw [show h.dealStreet.seat p = h.clearStreet.seat p by simp only [seat, hseats]]
  exact seat_clearStreet hu.booked.length p

theorem dealStreet_table (hu : h.UnderWay posted) (hriver : h.phase ≠ .river) :
    h.dealStreet.seats.length = h.seats.length ∧ (∀ p, occupiedIn h.dealStreet.seats p = occupiedIn h.seats p) ∧
      h.dealStreet.occupiedSeats = h.occupiedSeats := by
  have ht := updateOccupied_table h fun state => { state with streetContribution := 0, lastActionWager := none }
  have hf := (dealStreet_frame hu hriver).1
  have hseats : h.dealStreet.seats = _ := congrArg (·.seats) hf
  have hsize : h.dealStreet.tableSize = h.tableSize := by rw [hf]; exact ht.tableSize
  refine ⟨by rw [hseats]; exact ht.length, fun p => by rw [hseats]; exact ht.occupied p, ?_⟩
  simp only [occupiedSeats, hsize]
  exact List.filter_congr fun p _ => by rw [hseats]; exact ht.occupied p

theorem dealStreet_street (hu : h.UnderWay posted) (hriver : h.phase ≠ .river) :
    h.dealStreet.street = h.street.next h.blindValues.bigBlind := by
  have hf := (dealStreet_frame hu hriver).1
  refine street_ext (fun p => ?_) (fun p => ?_) (fun p => ?_) (fun p => ?_) (fun p => ?_) (by rw [street, hf]; rfl)
    (by rw [street, hf]; rfl)
  all_goals simp only [street, seat_dealStreet hu hriver p, Street.next]
  have := hu.booked.street_le p
  simp only [Street.total]; omega

/-- It has no records yet. -/
theorem dealStreet_streetHistory (hu : h.UnderWay posted) (hriver : h.phase ≠ .river) : h.dealStreet.streetHistory = [] := by
  have hf := (dealStreet_frame hu hriver).1
  have ht := (updateOccupied_table h fun state => { state with streetContribution := 0, lastActionWager := none }).frame
  have hhistory : h.dealStreet.actionHistory = h.actionHistory := by rw [hf, clearStreet, ht]
  have hphase : h.dealStreet.phase = h.phase.next := by rw [hf]
  have hlater := MultiwayPhase.next_later hu.accepts hriver
  rw [streetHistory, List.filter_eq_nil_iff, hhistory]
  intro record hr
  have hpast := hu.past record hr
  rw [decide_eq_true_eq, hphase]
  intro he
  rw [he] at hpast
  omega

theorem dealStreet_opener (hu : h.UnderWay posted) (hriver : h.phase ≠ .river) (hact : 2 ≤ h.actors.length) :
    h.dealStreet.bettingRoundComplete = false ∧ ∃ p, h.dealStreet.toAct = some p ∧ h.dealStreet.needsAction p = true := by
  obtain ⟨hlen, hocc, hseats⟩ := dealStreet_table hu hriver
  have hf := (dealStreet_frame hu hriver).1
  have hsize : h.dealStreet.tableSize = h.tableSize := by
    rw [hf]; exact (updateOccupied_table h _).tableSize
  have hlen' : h.dealStreet.seats.length = h.dealStreet.tableSize.get := by rw [hlen, hu.booked.length, hsize]
  have hactors : h.dealStreet.actors = h.actors := by
    simp only [actors, hseats]
    exact List.filter_congr fun p _ => by rw [seat_dealStreet hu hriver]; rfl
  have hneeds : ∀ p ∈ h.actors, h.dealStreet.needsAction p = true := fun p hp => by
    rw [← hactors] at hp
    have hc := (mem_actors hlen').mp hp
    rw [needsAction, Bool.and_eq_true]
    exact ⟨hc, by simp [seat_dealStreet hu hriver p]⟩
  obtain ⟨p, hp⟩ : ∃ p, p ∈ h.actors := List.exists_mem_of_length_pos (by omega)
  refine ⟨?_, ?_⟩
  · rcases bettingRoundComplete_cases h.dealStreet with ⟨hl, _⟩ | ⟨q, hl, _⟩ | ⟨_, hc⟩
    · rw [hactors] at hl; rw [hl] at hp; cases hp
    · rw [hactors] at hl; rw [hl] at hact; simp at hact
    · rw [hc, hactors]
      exact List.all_eq_false.mpr ⟨p, hp, by simp [hneeds p hp]⟩
  · -- the opener is looked for at a seat that can act, so the search finds one
    have hpre : ∃ g : MultiwayHand, h.dealStreet = g.openStreet ∧ g.seats = h.dealStreet.seats ∧
        g.tableSize = h.dealStreet.tableSize ∧ g.currentWager = h.dealStreet.currentWager := ⟨_, rfl, rfl, rfl, rfl⟩
    obtain ⟨g, hg, hgs, hgt, hgw⟩ := hpre
    have hglen : g.seats.length = g.tableSize.get := by rw [hgs, hgt, hlen']
    have hgneeds : ∀ q, g.needsAction q = h.dealStreet.needsAction q := fun q => by
      simp only [needsAction, seat, hgs, hgw]
    have hpc : (g.seat p).canAct = true := canAct_of_needsAction (by rw [hgneeds]; exact hneeds p hp)
    obtain ⟨start, hstart, hsc⟩ : ∃ start, g.firstPostflop = some start ∧ (g.seat start).canAct = true := by
      unfold firstPostflop
      cases hn : g.nextLiveAfter g.button with
      | some q =>
        have := List.find?_some hn
        simp only [Bool.and_eq_true] at this
        exact ⟨q, rfl, this.2⟩
      | none =>
        cases hfind : g.occupiedSeats.find? fun q => (g.seat q).canAct with
        | some q => exact ⟨q, rfl, by simpa using List.find?_some hfind⟩
        | none =>
          have := List.find?_eq_none.mp hfind p ((mem_occupiedSeats hglen).mpr (occupied_of_canAct hpc))
          exact absurd hpc this
    obtain ⟨r, hr, hrn⟩ := firstNeedingFrom_isSome hglen (lt_of_occupied hglen (occupied_of_canAct hsc))
      (q := p) (by rw [hgneeds]; exact hneeds p hp)
    refine ⟨r, ?_, by rw [← hgneeds]; exact hrn⟩
    rw [hg, openStreet, hstart]; exact hr

/-- The next street is played on the books of the last one. -/
theorem UnderWay.dealt (hu : h.UnderWay posted) (hriver : h.phase ≠ .river) (hcount : 2 ≤ h.potEligibleCount)
    (hact : 2 ≤ h.actors.length) : h.dealStreet.Playing posted := by
  obtain ⟨hf, hboard⟩ := dealStreet_frame hu hriver
  obtain ⟨hlen, hocc, hseats⟩ := dealStreet_table hu hriver
  have ht := updateOccupied_table h fun state => { state with streetContribution := 0, lastActionWager := none }
  have hclear : h.clearStreet = { h with
      seats := h.clearStreet.seats, panicked := h.clearStreet.panicked, currentWager := 0
      lastFullRaiseSize := h.blindValues.bigBlind, toAct := none } := by
    rw [clearStreet, ht.frame]
  have hpan : h.clearStreet.panicked = h.panicked := panicked_updateOccupied hu.booked.length
  rw [hclear, hpan] at hf
  have hsound := hu.sound
  have hphase : h.dealStreet.phase = h.phase.next := by rw [hf]
  have hbb : h.dealStreet.blindValues = h.blindValues := by rw [hf]
  have hlater := MultiwayPhase.next_later hu.accepts hriver
  have hempty := dealStreet_streetHistory hu hriver
  obtain ⟨hopen, htoAct⟩ := dealStreet_opener hu hriver hact
  have hstreet := dealStreet_street hu hriver
  have heligible : h.dealStreet.potEligibleCount = h.potEligibleCount := by
    simp only [potEligibleCount, hseats]
    congr 1
    exact List.filter_congr fun p _ => by rw [seat_dealStreet hu hriver]; rfl
  refine ⟨⟨⟨?_, fun p => ?_, fun p => ?_, fun p hp => ?_⟩, ?_, by rw [hf]; exact hu.fits, by rw [hbb]; exact hu.blind,
    by rw [hphase]; exact hlater.1, by rw [hphase]; exact hboard, ?_, ?_, by rw [hf]; exact hu.ok, ?_, ?_⟩,
    by rw [heligible]; exact hcount, hopen, htoAct⟩
  · rw [hlen, hu.booked.length, hf]
  · rw [seat_dealStreet hu hriver]; exact Nat.zero_le _
  · rw [seat_dealStreet hu hriver]; exact hu.booked.fits p
  · rw [hocc] at hp
    rw [hstreet]; exact hu.booked.dealt p hp
  · rw [show h.dealStreet.initialTotal = h.initialTotal by rw [hf], ← hu.total]
    simp only [totalChips_eq, sumSeats, hseats]
    exact congrArg List.sum (List.map_congr_left fun p _ => by rw [seat_dealStreet hu hriver])
  · have hroom := hu.deck
    have hb := congrArg (fun g : MultiwayHand => g.board.length) hf
    have hcards := MultiwayPhase.nextCards_boardLength hu.accepts hriver
    rw [← hu.board] at hcards
    have hup := h.deck.upcoming_length h.phase.nextCards (by omega)
    simp only [List.length_append, hup] at hb
    rw [hb, hf]; simp only; omega
  · rw [hf]; exact ⟨hu.quiet.1, hu.quiet.2, hu.quiet.3, hu.quiet.4, hu.quiet.5⟩
  · intro record hr
    rw [hf] at hr
    have := hu.past record hr
    rw [hphase]; omega
  · refine ⟨h.dealStreet.street, by rw [hbb, hstreet]; exact next_fresh hsound, ?_, ?_, ?_⟩
    · rw [hstreet, opening, hphase, if_neg hlater.2.2]; rfl
    · rw [turns, hempty]; exact .nil
    · rw [hempty]; trivial

/-- `advance_street` goes to the showdown or deals one street; it never has to call itself. -/
theorem advanceStreet_eq (hu : h.UnderWay posted) (hcount : 2 ≤ h.potEligibleCount) : h.advanceStreet =
    if h.phase = .river ∨ (h.bettingLocked = true ∧ h.anyAllIn = true) then h.beginShowdown h.anyAllIn else h.dealStreet := by
  have hne : ¬ h.potEligibleCount = 1 := by omega
  rw [advanceStreet, advanceStreetFrom, if_neg hne]
  by_cases hend : h.phase = .river ∨ (h.bettingLocked = true ∧ h.anyAllIn = true)
  · simp only [if_pos hend]
  · simp only [if_neg hend]
    have hriver : h.phase ≠ .river := fun e => hend (Or.inl e)
    have hopen := (dealStreet_opener hu hriver (two_actors hu hcount fun e => hend (Or.inr e))).1
    have hclear : h.clearStreet.phase = h.phase := by
      rw [clearStreet, (updateOccupied_table h _).frame]
    have hacc := hu.accepts
    rw [hclear]
    cases hp : h.phase with
    | river => exact absurd hp hriver
    | showdown => rw [hp] at hacc; cases hacc
    | handComplete => rw [hp] at hacc; cases hacc
    | preflop =>
      simp only [dealStreet, hp, MultiwayPhase.nextCards, MultiwayPhase.next] at hopen ⊢
      rw [hopen]; rfl
    | flop =>
      simp only [dealStreet, hp, MultiwayPhase.nextCards, MultiwayPhase.next] at hopen ⊢
      rw [hopen]; rfl
    | turn =>
      simp only [dealStreet, hp, MultiwayPhase.nextCards, MultiwayPhase.next] at hopen ⊢
      rw [hopen]; rfl

end deal

/-! ## One command -/

/-- What `apply_validated_action` makes of the books `g` the action left. -/
inductive Proceeds (posted : Nat) (p : SeatId) (g : MultiwayHand) : MultiwayHand → Prop
  | foldedOut : g.potEligibleCount = 1 → Proceeds posted p g g.awardFold
  | asks (q : SeatId) : 2 ≤ g.potEligibleCount → g.bettingRoundComplete = false → g.nextNeedingAfter p = some q →
      Proceeds posted p g { g with toAct := some q }
  | deals : 2 ≤ g.potEligibleCount → g.bettingRoundComplete = true → g.phase ≠ .river → 2 ≤ g.actors.length →
      Proceeds posted p g g.dealStreet
  | shows : 2 ≤ g.potEligibleCount → g.bettingRoundComplete = true →
      (g.phase = .river ∨ (g.bettingLocked = true ∧ g.anyAllIn = true)) → Proceeds posted p g (g.beginShowdown g.anyAllIn)

section command
variable {h g : MultiwayHand} {posted : Nat} {p : SeatId} {action : Action} {o : Outcome} {command : SeatCommand}

/-- Folding one of two or more players in the hand leaves one. -/
theorem Acted.eligible_pos (ha : Acted h p action o g) (hlen : h.seats.length = h.tableSize.get)
    (hcount : 2 ≤ h.potEligibleCount) :
    1 ≤ g.potEligibleCount := by
  have hn : (h.occupiedSeats.filter fun p => (h.seat p).eligibleForPot).Nodup := (nodup_occupiedSeats h).filter _
  have hlong : 0 < ((h.occupiedSeats.filter fun p => (h.seat p).eligibleForPot).erase p).length := by
    have := List.le_length_erase (a := p) (l := h.occupiedSeats.filter fun p => (h.seat p).eligibleForPot)
    simp only [potEligibleCount] at hcount
    omega
  obtain ⟨q, hq⟩ := List.exists_mem_of_length_pos hlong
  rw [hn.mem_erase_iff] at hq
  have hin : h.street.InHand q := (mem_eligible hlen).mp hq.2
  have hlen' : g.seats.length = g.tableSize.get := by rw [ha.length, hlen, ha.frame]
  have hin' : g.street.InHand q := by
    rw [ha.street]; simpa [Street.InHand, hq.1] using hin
  exact List.length_pos_of_mem ((mem_eligible hlen').mpr hin')

/-- The four ways on from an accepted command. -/
theorem Playing.command_cases (hp : h.Playing posted) (hv : h.validateCommand command = .ok ()) :
    ∃ o g, Allowed h.street command.seat o ∧ Acted h command.seat command.action o g ∧ g.UnderWay posted ∧
      g = h.recordAction command.seat command.action ∧ h.street.Asked command.seat ∧
      Proceeds posted command.seat g (h.applyValidatedAction command.seat command.action) := by
  obtain ⟨hturn, hva⟩ := validateCommand_ok hv
  obtain ⟨p, hto, hneeds⟩ := hp.toAct
  obtain rfl : p = command.seat := by rw [hturn.toAct] at hto; exact (Option.some.inj hto).symm
  obtain ⟨o, ha, hacted, hu⟩ := hp.toUnderWay.acted hturn hneeds hva
  refine ⟨o, _, ha, hacted, hu, rfl, (needsAction_iff hp.sound).mp hneeds, ?_⟩
  generalize hg : h.recordAction command.seat command.action = g at hacted hu
  have hpos := hacted.eligible_pos hp.booked.length hp.contested
  simp only [applyValidatedAction, hg]
  by_cases hone : g.potEligibleCount = 1
  · rw [if_pos hone]; exact .foldedOut hone
  have hcount : 2 ≤ g.potEligibleCount := by omega
  rw [if_neg hone]
  by_cases hdone : g.bettingRoundComplete = true
  · rw [if_pos hdone, advanceStreet_eq hu hcount]
    by_cases hend : g.phase = .river ∨ (g.bettingLocked = true ∧ g.anyAllIn = true)
    · rw [if_pos hend]; exact .shows hcount hdone hend
    · rw [if_neg hend]
      exact .deals hcount hdone (fun e => hend (Or.inl e)) (two_actors hu hcount fun e => hend (Or.inr e))
  · rw [if_neg hdone]
    have hopen : g.bettingRoundComplete = false := by simpa using hdone
    have hocc : occupiedIn g.seats command.seat = true := by
      rw [hacted.occupied]; exact occupied_of_canAct hturn.canAct
    have hsome := nextNeedingAfter_isSome hu.booked.length (lt_of_occupied hu.booked.length hocc) hopen
    obtain ⟨q, hq⟩ := Option.isSome_iff_exists.mp hsome
    rw [hq]
    simp only [Option.isSome_some, check_true]
    exact .asks q hcount hopen hq

/-- Asking the next seat keeps the hand in play. -/
theorem UnderWay.asked (hu : g.UnderWay posted) {q : SeatId} (hcount : 2 ≤ g.potEligibleCount)
    (hopen : g.bettingRoundComplete = false) (hq : g.needsAction q = true) :
    MultiwayHand.Playing posted { g with toAct := some q } :=
  ⟨⟨⟨hu.booked.1, hu.booked.2, hu.booked.3, hu.booked.4⟩, hu.total, hu.fits, hu.blind, hu.accepts, hu.board, hu.deck,
    ⟨hu.quiet.1, hu.quiet.2, hu.quiet.3, hu.quiet.4, hu.quiet.5⟩, hu.ok, hu.past, hu.play⟩, hcount, hopen, q, rfl, hq⟩

end command

end MultiwayHand

end OpenFelt
