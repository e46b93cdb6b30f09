/-
  OpenFelt.Game.Hidden — what play does without looking at the cards.

  `masked viewer cards h` is the hand `h` with every seat's cards but the viewer's face
  down and the deck stacked as `cards`. Until cards are tabled no operation reads a face-down
  card or one still in the deck: each commutes with `masked`, a deal included as long as
  the two decks agree on the cards dealt (`Playing.masked_step`). Two hands that mask alike are
  therefore played alike.
-/

import OpenFelt.Game.Runs

namespace OpenFelt

open Betting

/-- A seat as the viewer sees it. -/
def faceDown (viewer : Option SeatId) (p : SeatId) (st : MultiwaySeatState) : MultiwaySeatState :=
  if viewer = some p then st else { st with holeCards := [] }

def maskSeats (viewer : Option SeatId) (seats : List (Option MultiwaySeatState)) : List (Option MultiwaySeatState) :=
  seats.mapIdx fun i o => o.map fun st => if viewer.map (·.val) = some i then st else { st with holeCards := [] }

section faceDown
variable {viewer : Option SeatId} {p q : SeatId} {st : MultiwaySeatState} {seats : List (Option MultiwaySeatState)}

/-- Only the cards are hidden. -/
theorem faceDown_eq (viewer : Option SeatId) (p : SeatId) (st : MultiwaySeatState) :
    faceDown viewer p st = { st with holeCards := (faceDown viewer p st).holeCards } := by
  unfold faceDown; split <;> rfl

@[simp] theorem faceDown_stack : (faceDown viewer p st).stack = st.stack := by rw [faceDown_eq]

@[simp] theorem faceDown_streetContribution : (faceDown viewer p st).streetContribution = st.streetContribution := by
  rw [faceDown_eq]

@[simp] theorem faceDown_handContribution : (faceDown viewer p st).handContribution = st.handContribution := by
  rw [faceDown_eq]

@[simp] theorem faceDown_participation : (faceDown viewer p st).participation = st.participation := by rw [faceDown_eq]

@[simp] theorem faceDown_lastActionWager : (faceDown viewer p st).lastActionWager = st.lastActionWager := by
  rw [faceDown_eq]

@[simp] theorem faceDown_canAct : (faceDown viewer p st).canAct = st.canAct := by simp [MultiwaySeatState.canAct]

@[simp] theorem faceDown_eligibleForPot : (faceDown viewer p st).eligibleForPot = st.eligibleForPot := by
  simp [MultiwaySeatState.eligibleForPot]

theorem seatIn_maskSeats : seatIn (maskSeats viewer seats) p = (seatIn seats p).map (faceDown viewer p) := by
  simp only [seatIn, maskSeats, List.getElem?_mapIdx]
  have hsame : viewer.map (·.val) = some p.val ↔ viewer = some p := by
    cases viewer with
    | none => simp
    | some v => simp [Fin.ext_iff]
  rcases seats[p.val]? with _ | _ | st
  · rfl
  · rfl
  · simp [faceDown, hsame]

@[simp] theorem occupiedIn_maskSeats : occupiedIn (maskSeats viewer seats) p = occupiedIn seats p := by
  simp [occupiedIn, seatIn_maskSeats]

@[simp] theorem seatOf_maskSeats : seatOf (maskSeats viewer seats) p = faceDown viewer p (seatOf seats p) := by
  simp only [seatOf, seatIn_maskSeats]
  cases seatIn seats p with
  | some st => rfl
  | none =>
    show MultiwaySeatState.vacant = faceDown viewer p .vacant
    unfold faceDown; split <;> rfl

theorem maskSeats_modifySeat {f g : MultiwaySeatState → MultiwaySeatState}
    (hf : ∀ st, faceDown viewer p (f st) = g (faceDown viewer p st)) :
    maskSeats viewer (modifySeat seats p f) = modifySeat (maskSeats viewer seats) p g := by
  refine List.ext_getElem? fun i => ?_
  simp only [maskSeats, modifySeat, List.getElem?_mapIdx, List.getElem?_modify, Option.map_eq_map]
  by_cases hi : p.val = i
  · have hsame : viewer.map (·.val) = some i ↔ viewer = some p := by
      subst hi
      cases viewer with
      | none => simp
      | some v => simp [Fin.ext_iff]
    rcases seats[i]? with _ | _ | st
    · rfl
    · simp [hi]
    · have := hf st
      simp only [faceDown] at this
      simp only [hi, hsame, if_true, Option.map_some, this]
  · simp only [if_neg hi]
    cases seats[i]? <;> rfl

end faceDown

namespace MultiwayHand

/-- The hand as the viewer sees it, over the deck order `cards`. -/
def masked (viewer : Option SeatId) (cards : List Card) (h : MultiwayHand) : MultiwayHand :=
  { h with seats := maskSeats viewer h.seats, deck := { h.deck with cards := cards } }

section reads
variable {viewer : Option SeatId} {cards : List Card} {h : MultiwayHand} {p : SeatId}

/-! ## What is read -/

@[simp] theorem seat_masked : (h.masked viewer cards).seat p = faceDown viewer p (h.seat p) := seatOf_maskSeats

@[simp] theorem occupiedSeats_masked : (h.masked viewer cards).occupiedSeats = h.occupiedSeats := by
  simp only [occupiedSeats, masked]
  exact List.filter_congr fun q _ => occupiedIn_maskSeats

theorem sumSeats_masked {f : MultiwaySeatState → Nat} (hf : ∀ p st, f (faceDown viewer p st) = f st) :
    (h.masked viewer cards).sumSeats f = h.sumSeats f := by
  simp only [sumSeats, occupiedSeats_masked, seat_masked, hf]

@[simp] theorem potEligibleCount_masked : (h.masked viewer cards).potEligibleCount = h.potEligibleCount := by
  simp only [potEligibleCount, occupiedSeats_masked, seat_masked, faceDown_eligibleForPot]

@[simp] theorem needsAction_masked : (h.masked viewer cards).needsAction p = h.needsAction p := by
  simp only [needsAction, seat_masked, faceDown_canAct, faceDown_lastActionWager, faceDown_streetContribution]
  rfl

@[simp] theorem bettingRoundComplete_masked : (h.masked viewer cards).bettingRoundComplete = h.bettingRoundComplete := by
  simp only [bettingRoundComplete, occupiedSeats_masked, seat_masked, faceDown_canAct, needsAction_masked,
    faceDown_streetContribution]
  rfl

@[simp] theorem bettingLocked_masked : (h.masked viewer cards).bettingLocked = h.bettingLocked := by
  simp only [bettingLocked, occupiedSeats_masked, seat_masked, faceDown_canAct]

@[simp] theorem anyAllIn_masked : (h.masked viewer cards).anyAllIn = h.anyAllIn := by
  simp only [anyAllIn, occupiedSeats_masked, seat_masked, faceDown_participation]

@[simp] theorem firstNeedingFrom_masked : (h.masked viewer cards).firstNeedingFrom p = h.firstNeedingFrom p := by
  simp only [firstNeedingFrom, needsAction_masked]
  simp only [masked, occupiedIn_maskSeats]

@[simp] theorem nextNeedingAfter_masked : (h.masked viewer cards).nextNeedingAfter p = h.nextNeedingAfter p := by
  simp only [nextNeedingAfter, needsAction_masked]
  simp only [masked, occupiedIn_maskSeats]

@[simp] theorem firstPostflop_masked : (h.masked viewer cards).firstPostflop = h.firstPostflop := by
  simp only [firstPostflop, nextLiveAfter, occupiedSeats_masked, seat_masked, faceDown_canAct]
  simp only [masked, occupiedIn_maskSeats]

@[simp] theorem legalActionsFor_masked : (h.masked viewer cards).legalActionsFor p = h.legalActionsFor p := by
  simp only [legalActionsFor, amountToCall, raiseReopenedFor, occupiedSeats_masked, seat_masked, faceDown_canAct,
    faceDown_stack, faceDown_streetContribution, faceDown_lastActionWager]
  rfl

theorem validateCommand_masked (command : SeatCommand) :
    (h.masked viewer cards).validateCommand command = h.validateCommand command := by
  have haction : (h.masked viewer cards).validateAction command.seat command.action =
      h.validateAction command.seat command.action := by
    simp only [validateAction, legalActionsFor_masked, seat_masked, faceDown_streetContribution]
    rfl
  simp only [validateCommand, haction]
  simp only [masked, seatIn_maskSeats]
  cases seatIn h.seats command.seat with
  | none => rfl
  | some st => simp only [Option.map_some, faceDown_canAct]

theorem contributionSnapshot_masked : (h.masked viewer cards).contributionSnapshot = h.contributionSnapshot := by
  simp only [contributionSnapshot, occupiedSeats_masked, seat_masked, faceDown_handContribution, faceDown_eligibleForPot]

end reads

section writes
variable {viewer : Option SeatId} {cards : List Card} {h : MultiwayHand} {p : SeatId}

/-! ## What is written -/

theorem updateSeat_masked {f g : MultiwaySeatState → MultiwaySeatState}
    (hf : ∀ st, faceDown viewer p (f st) = g (faceDown viewer p st)) :
    (h.masked viewer cards).updateSeat p g = (h.updateSeat p f).masked viewer cards := by
  simp only [updateSeat, masked, maskSeats_modifySeat hf, occupiedIn_maskSeats]

/-- A write that passes the cards on as they are. -/
def CardBlind (f : MultiwaySeatState → MultiwaySeatState) : Prop :=
  ∀ st cards, f { st with holeCards := cards } = { f st with holeCards := cards }

theorem CardBlind.faceDown {f : MultiwaySeatState → MultiwaySeatState} (hf : CardBlind f) (viewer : Option SeatId) (p : SeatId)
    (st : MultiwaySeatState) : faceDown viewer p (f st) = f (faceDown viewer p st) := by
  unfold OpenFelt.faceDown
  split
  · rfl
  · exact (hf st []).symm

theorem updateOccupied_masked {f : MultiwaySeatState → MultiwaySeatState} (hf : CardBlind f) :
    (h.masked viewer cards).updateOccupied f = (h.updateOccupied f).masked viewer cards := by
  have hfold : ∀ (l : List SeatId) (h : MultiwayHand), l.foldl (fun h p => h.updateSeat p f) (h.masked viewer cards) =
      (l.foldl (fun h p => h.updateSeat p f) h).masked viewer cards := fun l => by
    induction l with
    | nil => exact fun h => rfl
    | cons q l ih =>
      intro h
      rw [List.foldl_cons, List.foldl_cons, updateSeat_masked (hf.faceDown viewer q), ih]
  simp only [updateOccupied, occupiedSeats_masked, hfold]

theorem check_masked (ok : Bool) : (h.masked viewer cards).check ok = (h.check ok).masked viewer cards := rfl

theorem commitChips_masked (p : SeatId) (n : Nat) :
    (h.masked viewer cards).commitChips p n = (h.commitChips p n).masked viewer cards := by
  simp only [commitChips, seat_masked, faceDown_stack, faceDown_streetContribution, faceDown_handContribution, check_masked]
  exact updateSeat_masked (CardBlind.faceDown (fun _ _ => rfl) viewer p)

theorem commitDeadChips_masked (p : SeatId) (n : Nat) :
    (h.masked viewer cards).commitDeadChips p n = (h.commitDeadChips p n).masked viewer cards := by
  simp only [commitDeadChips, seat_masked, faceDown_stack, faceDown_handContribution, check_masked]
  exact updateSeat_masked (CardBlind.faceDown (fun _ _ => rfl) viewer p)

theorem commitTo_masked (p : SeatId) (target : Nat) :
    (h.masked viewer cards).commitTo p target = (h.commitTo p target).masked viewer cards := by
  simp only [commitTo, seat_masked, faceDown_streetContribution, commitChips_masked]

theorem credit_masked (p : SeatId) (n : Nat) : (h.masked viewer cards).credit p n = (h.credit p n).masked viewer cards := by
  simp only [credit, seat_masked, faceDown_stack, check_masked]
  exact updateSeat_masked (CardBlind.faceDown (fun _ _ => rfl) viewer p)

theorem moveChips_masked (p : SeatId) (action : Action) :
    (h.masked viewer cards).moveChips p action = (h.moveChips p action).masked viewer cards := by
  have hfold : CardBlind fun st => { st with participation := .folded } := fun _ _ => rfl
  have hallIn : CardBlind fun st => { st with participation := .allIn } := fun _ _ => rfl
  cases action with
  | fold => exact updateSeat_masked (hfold.faceDown viewer p)
  | check => rfl
  | call n =>
    simp only [moveChips, seat_masked, faceDown_streetContribution, check_masked, commitTo_masked]
  | bet target => simp only [moveChips, commitTo_masked]; rfl
  | raise target => simp only [moveChips, commitTo_masked]; rfl
  | allIn target =>
    simp only [moveChips, commitTo_masked]
    rw [← updateSeat_masked (g := fun st => { st with participation := .allIn }) (hallIn.faceDown viewer p)]
    congr 1
    show (if h.currentWager < target then _ else _) = _
    split <;> rfl

theorem markResponse_masked (p : SeatId) :
    (h.masked viewer cards).markResponse p = (h.markResponse p).masked viewer cards := by
  simp only [markResponse, seat_masked, faceDown_participation]
  split
  · exact updateSeat_masked (CardBlind.faceDown (fun _ _ => rfl) viewer p)
  · rfl

theorem recordAction_masked (p : SeatId) (action : Action) :
    (h.masked viewer cards).recordAction p action = (h.recordAction p action).masked viewer cards := by
  simp only [recordAction, moveChips_masked, markResponse_masked]
  rfl

theorem clearContributions_masked :
    (h.masked viewer cards).clearContributions = h.clearContributions.masked viewer cards :=
  updateOccupied_masked fun _ _ => rfl

theorem awardFold_masked : (h.masked viewer cards).awardFold = h.awardFold.masked viewer cards := by
  have hwinner : (h.masked viewer cards).occupiedSeats.find? (fun p => ((h.masked viewer cards).seat p).eligibleForPot) =
      h.occupiedSeats.find? fun p => (h.seat p).eligibleForPot := by
    simp only [occupiedSeats_masked, seat_masked, faceDown_eligibleForPot]
  have hamount : (h.masked viewer cards).sumSeats (·.handContribution) = h.sumSeats (·.handContribution) :=
    sumSeats_masked fun _ _ => faceDown_handContribution
  cases hw : h.occupiedSeats.find? fun p => (h.seat p).eligibleForPot with
  | none =>
    rw [awardFold_none (hwinner.trans hw), awardFold_none hw]
    rfl
  | some winner =>
    rw [awardFold_some (hwinner.trans hw), awardFold_some hw, hamount, contributionSnapshot_masked]
    rw [show ({ MultiwayHand.check { h.masked viewer cards with showdownProgress := none } _ with
      settledContributions := h.contributionSnapshot } : MultiwayHand) = MultiwayHand.masked viewer cards
        { MultiwayHand.check { h with showdownProgress := none } (fitsU32 (h.sumSeats (·.handContribution))) with
          settledContributions := h.contributionSnapshot } from rfl, credit_masked]
    generalize MultiwayHand.credit _ winner _ = k
    generalize [(PotAward.mk _ _ _ _ _)] = awards
    exact congrArg (fun k : MultiwayHand => ({ k with toAct := none, phase := .handComplete } : MultiwayHand))
      (@clearContributions_masked viewer cards { k with awards := awards })

theorem clearStreet_masked : (h.masked viewer cards).clearStreet = h.clearStreet.masked viewer cards := by
  simp only [clearStreet]
  rw [updateOccupied_masked fun _ _ => rfl]
  rfl

/-- A deal hands out the same cards when the decks agree on them. -/
theorem dealBoard_masked {n : Nat} (hroom : h.deck.index + n ≤ h.deck.cards.length) (hlen : cards.length = h.deck.cards.length)
    (hsame : ∀ i, h.deck.index ≤ i → i < h.deck.index + n → cards[i]? = h.deck.cards[i]?) :
    (h.masked viewer cards).dealBoard n = (h.dealBoard n).masked viewer cards := by
  have hupcoming : Deck.upcoming { h.deck with cards := cards } n = h.deck.upcoming n := by
    refine List.ext_getElem? fun i => ?_
    simp only [Deck.upcoming, List.getElem?_take, List.getElem?_drop]
    split
    · exact hsame _ (by omega) (by omega)
    · rfl
  simp only [dealBoard, masked, Deck.dealN_eq h.deck n hroom,
    Deck.dealN_eq { h.deck with cards := cards } n (by rw [hlen]; exact hroom), hupcoming]

theorem dealStreet_masked {posted : Nat} (hu : h.UnderWay posted) (hriver : h.phase ≠ .river)
    (hlen : cards.length = h.deck.cards.length)
    (hsame : ∀ i, h.deck.index ≤ i → i < h.dealStreet.deck.index → cards[i]? = h.deck.cards[i]?) :
    (h.masked viewer cards).dealStreet = h.dealStreet.masked viewer cards := by
  have hdeck : h.clearStreet.deck = h.deck := by rw [clearStreet, (updateOccupied_table h _).frame]
  have hindex : h.dealStreet.deck.index = h.deck.index + h.phase.nextCards := by rw [(dealStreet_frame hu hriver).1]
  have hroom := hu.deck
  have hcards := MultiwayPhase.nextCards_boardLength hu.accepts hriver
  have hboard := hu.board
  have hdeal : (h.clearStreet.masked viewer cards).dealBoard h.phase.nextCards =
      (h.clearStreet.dealBoard h.phase.nextCards).masked viewer cards :=
    dealBoard_masked (by rw [hdeck]; omega) (by rw [hdeck]; exact hlen)
      fun i hi hlt => by rw [hdeck] at hi hlt ⊢; exact hsame i hi (by omega)
  have hopen : ∀ k : MultiwayHand, (k.masked viewer cards).openStreet = k.openStreet.masked viewer cards := fun k => by
    have hfirst : (fun p => (k.masked viewer cards).firstNeedingFrom p) = fun p => k.firstNeedingFrom p :=
      funext fun p => firstNeedingFrom_masked
    simp only [openStreet, firstPostflop_masked]
    rw [show (k.masked viewer cards).firstNeedingFrom = k.firstNeedingFrom from hfirst]
    rfl
  simp only [dealStreet]
  rw [← hopen, clearStreet_masked, show (h.masked viewer cards).phase = h.phase from rfl, hdeal]
  rfl

end writes

/-! ## One call -/

/-- `h'` came from `h` without a card tabled, and the deck order `cards` agrees with `h`'s on
    what was dealt on the way. -/
structure Hides (cards : List Card) (h h' : MultiwayHand) : Prop where
  length : cards.length = h.deck.cards.length
  hidden : h'.revealedHands = []
  same : ∀ i, h.deck.index ≤ i → i < h'.deck.index → cards[i]? = h.deck.cards[i]?

/-- The deck is dealt from, never reordered. -/
structure Deals (h h' : MultiwayHand) : Prop where
  cards : h'.deck.cards = h.deck.cards
  index : h.deck.index ≤ h'.deck.index

section steps
variable {viewer : Option SeatId} {cards : List Card} {c : HandConfig} {h g : MultiwayHand} {posted : Nat}
  {progress : ShowdownProgress} {op : HandOp}

theorem street_masked : (h.masked viewer cards).street = h.street :=
  street_ext (fun p => by simp [street]) (fun p => by simp [street]) (fun p => by simp [street]) (fun p => by simp [street])
    (fun p => by simp [street]) rfl rfl

theorem Booked.masked (hb : h.Booked) : (h.masked viewer cards).Booked := by
  refine ⟨?_, fun p => ?_, fun p => ?_, fun p hp => ?_⟩
  · show (maskSeats viewer h.seats).length = h.tableSize.get
    rw [← hb.length]; simp [maskSeats]
  · simpa using hb.street_le p
  · simpa using hb.fits p
  · rw [street_masked]
    refine hb.dealt p ?_
    simpa [MultiwayHand.masked] using hp

theorem totalChips_masked : (h.masked viewer cards).totalChips = h.totalChips := by
  simp only [totalChips, sumSeats_masked fun _ _ => faceDown_stack, sumSeats_masked fun _ _ => faceDown_handContribution]

/-- Face-down books are as much under way. -/
theorem UnderWay.masked (hu : h.UnderWay posted) (hlen : cards.length = h.deck.cards.length) :
    (h.masked viewer cards).UnderWay posted := by
  obtain ⟨s₀, h1, h2, h3, h4⟩ := hu.play
  refine ⟨hu.booked.masked, totalChips_masked.trans hu.total, hu.fits, hu.blind, hu.accepts, hu.board, ?_,
    ⟨hu.quiet.1, hu.quiet.2, hu.quiet.3, hu.quiet.4, hu.quiet.5⟩, hu.ok, hu.past, s₀, h1, h2, ?_, h4⟩
  · show h.deck.index + (5 - h.board.length) ≤ cards.length
    rw [hlen]; exact hu.deck
  · rw [street_masked]; exact h3

theorem settle_shown (hs : g.revealedHands ≠ []) : g.settle.revealedHands ≠ [] :=
  (resolveShowdown_ends { g with showdownProgress := none }).1.shown hs

/-- A showdown that has begun has tabled a hand. -/
theorem beginShowdown_shown (hu : h.UnderWay posted) (hcount : 2 ≤ h.potEligibleCount)
    (hend : h.phase = .river ∨ (h.bettingLocked = true ∧ h.anyAllIn = true)) :
    (h.beginShowdown h.anyAllIn).revealedHands ≠ [] := by
  rcases hu.begins hcount hend with ⟨_, _, hs, he⟩ | ⟨_, g, _, hg, _, he⟩
  · rw [he]; exact hs.tabled.shown
  · rw [he]; exact settle_shown hg.tabled.shown

theorem setAlwaysShow_masked (p : SeatId) (value : Bool) : (h.masked viewer cards).setAlwaysShow p value =
    ((h.setAlwaysShow p value).1, (h.setAlwaysShow p value).2.masked viewer cards) := by
  simp only [setAlwaysShow, occupiedSeats_masked]
  cases h.occupiedSeats.any (· == p) with
  | false => rfl
  | true =>
    show (if (!h.phase.acceptsActions || h.showdownProgress.isSome) = true then _ else _) = _
    cases !h.phase.acceptsActions || h.showdownProgress.isSome <;> rfl

/-- Accepted commands, as long as no card is tabled, do the same to a hand and to its mask. -/
theorem Playing.applyCommand_masked (hp : h.Playing posted) {command : SeatCommand}
    (hh : Hides cards h (h.applyCommand command).2) : (h.masked viewer cards).applyCommand command =
      ((h.applyCommand command).1, (h.applyCommand command).2.masked viewer cards) ∧ Deals h (h.applyCommand command).2 := by
  cases hv : h.validateCommand command with
  | error e =>
    have hsame : h.applyCommand command = (.error e, h) := by simp only [applyCommand, hv]
    rw [hsame]
    exact ⟨by simp only [applyCommand, validateCommand_masked, hv], rfl, Nat.le_refl _⟩
  | ok u =>
    have hdone : h.applyCommand command = (.ok (), h.applyValidatedAction command.seat command.action) := by
      simp only [applyCommand, hv]
    have hmask : (h.masked viewer cards).applyCommand command =
        (.ok (), (h.masked viewer cards).applyValidatedAction command.seat command.action) := by
      simp only [applyCommand, validateCommand_masked, hv]
    obtain ⟨o, g, _, hacted, hu, hg, _, hproceeds⟩ := hp.command_cases hv
    have hgdeck : g.deck = h.deck := by rw [hacted.frame]
    have hgm : (h.masked viewer cards).recordAction command.seat command.action = g.masked viewer cards := by
      rw [recordAction_masked, hg]
    rw [hdone] at hh ⊢
    rw [hmask]
    have hlen : cards.length = g.deck.cards.length := by rw [hgdeck]; exact hh.length
    have hgone : (h.masked viewer cards).applyValidatedAction command.seat command.action =
        if g.potEligibleCount = 1 then g.awardFold.masked viewer cards
        else if g.bettingRoundComplete = true then (g.masked viewer cards).advanceStreet
        else MultiwayHand.check { g.masked viewer cards with toAct := g.nextNeedingAfter command.seat }
          (g.nextNeedingAfter command.seat).isSome := by
      simp only [applyValidatedAction, hgm, potEligibleCount_masked, bettingRoundComplete_masked, awardFold_masked,
        nextNeedingAfter_masked]
    rw [hgone]
    generalize h.applyValidatedAction command.seat command.action = k at hproceeds hh
    simp only [Prod.mk.injEq, true_and]
    cases hproceeds with
    | foldedOut hone =>
      obtain ⟨_, hf⟩ := awardFold_spec hu.balanced hone
      have hdeck : g.awardFold.deck = h.deck := by rw [hf.frame]; exact hgdeck
      exact ⟨if_pos hone, by rw [hdeck], by rw [hdeck]⟩
    | asks q hcount hopen hq =>
      have hne : ¬ g.potEligibleCount = 1 := by omega
      refine ⟨?_, congrArg (·.cards) hgdeck, Nat.le_of_eq (congrArg (·.index) hgdeck.symm)⟩
      rw [if_neg hne, if_neg (by simp [hopen]), hq, Option.isSome_some, check_true]
      rfl
    | deals hcount hcomplete hriver hact =>
      have hne : ¬ g.potEligibleCount = 1 := by omega
      have hnot : ¬ (g.phase = .river ∨ (g.bettingLocked = true ∧ g.anyAllIn = true)) := fun e => by
        rcases e with e | ⟨e, _⟩
        · exact hriver e
        · have : g.actors.length ≤ 1 := by simpa [bettingLocked, actors] using e
          omega
      have hframe := (dealStreet_frame hu hriver).1
      have hdealt : g.dealStreet.deck = { g.deck with index := g.deck.index + g.phase.nextCards } := by rw [hframe]
      refine ⟨?_, by rw [hdealt]; exact congrArg (·.cards) hgdeck, by rw [hdealt, hgdeck]; exact Nat.le_add_right _ _⟩
      rw [if_neg hne, if_pos hcomplete, advanceStreet_eq (hu.masked hlen) (by rw [potEligibleCount_masked]; exact hcount)]
      simp only [bettingLocked_masked, anyAllIn_masked]
      rw [if_neg (show ¬ ((g.masked viewer cards).phase = .river ∨ _) from hnot)]
      exact dealStreet_masked hu hriver hlen fun i hi hlt => by
        rw [hgdeck] at hi ⊢
        exact hh.same i hi hlt
    | shows hcount _ hend => exact absurd hh.hidden (beginShowdown_shown hu hcount hend)

/-- A run with no hand tabled is in play or over. -/
theorem Stage.hidden_cases (hs : Stage c posted h) (hrev : h.revealedHands = []) : h.Playing posted ∨ h.Over := by
  cases hs with
  | playing _ hp => exact Or.inl hp
  | showing _ hsh _ => exact absurd hrev hsh.tabled.shown
  | settled _ hg => exact absurd hrev (settle_shown hg.tabled.shown)
  | folded _ hu hone => exact Or.inr (awardFold_over hu hone)

/-- What is tabled stays tabled. -/
theorem Stage.hidden_of_step (hs : Stage c posted h) (hrev : (op.apply h).2.revealedHands = []) : h.revealedHands = [] := by
  cases hs with
  | playing _ hp => exact hp.quiet.revealed
  | folded _ hu hone =>
    obtain ⟨_, hf⟩ := awardFold_spec hu.balanced hone
    rw [hf.frame]; exact hu.quiet.revealed
  | settled _ hg => rw [apply_refused (settle_over _).refuses] at hrev; exact hrev
  | showing _ hsh _ =>
    by_cases hop : op = .advance
    · subst hop
      rcases hsh.advance_cases with ⟨h', _, he, hs', _⟩ | ⟨g, _, hg, _, _, he⟩
      · rw [show HandOp.advance.apply h = _ from he] at hrev
        exact absurd hrev hs'.tabled.shown
      · rw [show HandOp.advance.apply h = _ from he] at hrev
        exact absurd hrev (settle_shown hg.tabled.shown)
    · rw [apply_refused (hsh.refuses hop)] at hrev; exact hrev

/-- A command, as long as no card is tabled, does the same to a hand and to its mask. -/
theorem Stage.applyCommand_masked (hs : Stage c posted h) {command : SeatCommand}
    (hh : Hides cards h (h.applyCommand command).2) : (h.masked viewer cards).applyCommand command =
      ((h.applyCommand command).1, (h.applyCommand command).2.masked viewer cards) ∧ Deals h (h.applyCommand command).2 := by
  rcases hs.hidden_cases (@Stage.hidden_of_step c h posted (.command command) hs hh.hidden) with hp | ho
  · exact hp.applyCommand_masked hh
  · have hrefused := @Over.refuses h (.command command) ho
    cases hv : h.validateCommand command with
    | ok u => simp [HandOp.apply, applyCommand, hv, Except.isOk, Except.toBool] at hrefused
    | error e =>
      have hsame : h.applyCommand command = (.error e, h) := by simp only [applyCommand, hv]
      rw [hsame]
      exact ⟨by simp only [applyCommand, validateCommand_masked, hv], rfl, Nat.le_refl _⟩

/-- Nothing waits to be advanced while no card is tabled. -/
theorem Stage.advance_hidden (hs : Stage c posted h) (hrev : h.revealedHands = []) : h.showdownProgress = none := by
  rcases hs.hidden_cases hrev with hp | ho
  · exact hp.quiet.progress
  · exact ho.progress

end steps

/-! ## The start of a hand -/

section start
variable {viewer : Option SeatId} {cards : List Card} {c : HandConfig} {h h' : MultiwayHand} {deck : Deck}

/-- Face down, all deals look alike. -/
theorem dealHoleCards_masked {l : List SeatId} (hm : h.masked none cards = h'.masked none cards)
    (hroom : h.deck.index + l.length ≤ h.deck.cards.length) (hroom' : h'.deck.index + l.length ≤ h'.deck.cards.length) :
    (dealHoleCards l h).masked none cards = (dealHoleCards l h').masked none cards := by
  induction l generalizing h h' with
  | nil => exact hm
  | cons q l ih =>
    simp only [List.length_cons] at hroom hroom'
    have hindex : (h.masked none cards).deck.index = (h'.masked none cards).deck.index := by rw [hm]
    replace hindex : h.deck.index = h'.deck.index := hindex
    simp only [dealHoleCards, Deck.deal_of_lt (d := h.deck) (by omega), Deck.deal_of_lt (d := h'.deck) (by omega)]
    refine ih ?_ (by simp only [updateSeat]; omega) (by simp only [updateSeat]; omega)
    have hdealt : ∀ (k : MultiwayHand) (card : Card),
        (MultiwayHand.updateSeat { k with deck := { k.deck with index := k.deck.index + 1 } } q
        fun state => { state with holeCards := state.holeCards ++ [card] }).masked none cards =
          MultiwayHand.updateSeat { k.masked none cards with deck := ⟨cards, k.deck.index + 1⟩ } q id := fun k card =>
      (updateSeat_masked (f := fun state => { state with holeCards := state.holeCards ++ [card] }) (g := id)
        (h := { k with deck := { k.deck with index := k.deck.index + 1 } }) fun _ => rfl).symm
    rw [hdealt, hdealt, hm, hindex]

theorem dealtTo_masked {seats : List (Option MultiwaySeatState)} {chips : Nat} {sb bb : SeatId} (hdeck : c.deck.Shuffled)
    (hdeck' : deck.Shuffled) : (c.dealtTo seats chips sb bb).masked none cards =
      (HandConfig.dealtTo { c with deck := deck } seats chips sb bb).masked none cards := by
  have hocc : ∀ p ∈ clockwiseOccupied c.tableSize seats c.button, occupiedIn seats p = true := fun p hp =>
    (List.mem_filter.mp hp).2
  have hlen : (clockwiseOccupied c.tableSize seats c.button).length ≤ 9 := by
    refine Nat.le_trans (List.length_filter_le ..) ?_
    simpa [clockwiseFrom] using c.tableSize.le_nine
  simp only [HandConfig.dealtTo]
  generalize clockwiseOccupied c.tableSize seats c.button = occ at hocc hlen
  have hstart : (seated c.tableSize seats c.button sb bb c.blindValues chips c.deck).masked none cards =
      (seated c.tableSize seats c.button sb bb c.blindValues chips deck).masked none cards := by
    simp only [masked, seated, hdeck.2, hdeck'.2]
  have hround : ∀ d : Deck, d.Shuffled →
      (dealHoleCards occ (seated c.tableSize seats c.button sb bb c.blindValues chips d)).deck =
        { d with index := d.index + occ.length } := fun d hd => by
    have := hd.length
    have := hd.2
    rw [(dealHoleCards_spec hocc (h := seated c.tableSize seats c.button sb bb c.blindValues chips d) (by
      show d.index + occ.length ≤ d.cards.length
      omega)).1]
    rfl
  have h1 := hdeck.length
  have h2 := hdeck'.length
  have h3 := hdeck.2
  have h4 := hdeck'.2
  refine dealHoleCards_masked (dealHoleCards_masked hstart ?_ ?_) ?_ ?_
  · show c.deck.index + occ.length ≤ c.deck.cards.length
    omega
  · show deck.index + occ.length ≤ deck.cards.length
    omega
  · rw [hround c.deck hdeck]; simp only; omega
  · rw [hround deck hdeck']; simp only; omega

theorem postAntes_masked : (h.masked viewer cards).postAntes = h.postAntes.masked viewer cards := by
  have hfold : ∀ (n : Nat) (l : List SeatId) (h : MultiwayHand),
      l.foldl (fun h p => h.commitDeadChips p n) (h.masked viewer cards) =
        (l.foldl (fun h p => h.commitDeadChips p n) h).masked viewer cards := fun n l => by
    induction l with
    | nil => exact fun h => rfl
    | cons q l ih =>
      intro h
      rw [List.foldl_cons, List.foldl_cons, commitDeadChips_masked, ih]
  simp only [postAntes, occupiedSeats_masked]
  rw [show (h.masked viewer cards).blindValues = h.blindValues from rfl]
  split
  · exact hfold _ _ h
  · rfl

theorem postBlinds_masked : (h.masked viewer cards).postBlinds = h.postBlinds.masked viewer cards := by
  simp only [postBlinds]
  rw [← commitChips_masked, ← commitChips_masked]
  rfl

theorem postForced_masked (posts : List ForcedPost) (h : MultiwayHand) :
    postForced posts (h.masked viewer cards) = (postForced posts h).map (·.masked viewer cards) := by
  induction posts generalizing h with
  | nil => rfl
  | cons post posts ih =>
    simp only [postForced, occupiedSeats_masked]
    split
    · rfl
    · split
      · rw [commitChips_masked, ih]
      · rw [commitDeadChips_masked, ih]

theorem started_masked (first : SeatId) : (h.masked viewer cards).started first = (h.started first).masked viewer cards := by
  have hwager : (h.masked viewer cards).wagerPosted = h.wagerPosted := by
    simp only [wagerPosted, occupiedSeats_masked, seat_masked, faceDown_streetContribution]
  simp only [started, hwager]
  rw [show ({ h.masked viewer cards with currentWager := h.wagerPosted } : MultiwayHand) =
    MultiwayHand.masked viewer cards { h with currentWager := h.wagerPosted } from rfl, firstNeedingFrom_masked]
  rfl

/-- A hand that has not gone to the showdown at once is the table with its first seat asked. -/
theorem Built.started {seats : List (Option MultiwaySeatState)} {chips : Nat} {sb bb first : SeatId} {table : MultiwayHand}
    (hdeck : c.deck.Shuffled) (hb : Built c seats chips sb bb first table h) (hrev : h.revealedHands = []) :
    h = { table.started first with pacedShowdown := false } := by
  rcases (hb.cases hdeck).2.2.2 with ⟨hopen, _⟩ | ⟨_, hs, _⟩
  · conv_lhs => rw [hb.opened]
    show ({ (table.started first).advanceAutomaticallyIfNeeded with pacedShowdown := false } : MultiwayHand) = _
    rw [advanceAutomaticallyIfNeeded, hopen, Bool.and_false]
    rfl
  · exact absurd hrev hs.tabled.shown

theorem dealHoleCards_cards (l : List SeatId) (h : MultiwayHand) : (dealHoleCards l h).deck.cards = h.deck.cards := by
  induction l generalizing h with
  | nil => rfl
  | cons q l ih =>
    simp only [dealHoleCards]
    by_cases hlt : h.deck.index < h.deck.cards.length
    · rw [Deck.deal_of_lt hlt]; exact ih _
    · rw [Deck.deal_of_le (Nat.le_of_not_lt hlt)]; exact ih _

/-- The hand plays on with the deck it was given. -/
theorem Built.cards_kept {seats : List (Option MultiwaySeatState)} {chips : Nat} {sb bb first : SeatId} {table : MultiwayHand}
    (hdeck : c.deck.Shuffled) (hb : Built c seats chips sb bb first table h) (hrev : h.revealedHands = []) :
    h.deck.cards = c.deck.cards := by
  rw [hb.started hdeck hrev]
  show table.deck.cards = c.deck.cards
  rw [(hb.posting hdeck).frame (hb.dealtIn hdeck).1]
  show (c.dealtTo seats chips sb bb).deck.cards = c.deck.cards
  rw [HandConfig.dealtTo, dealHoleCards_cards, dealHoleCards_cards]
  rfl

/-- Two decks deal hands that look alike with every card face down. -/
theorem build_masked (hdeck : c.deck.Shuffled) (hdeck' : deck.Shuffled) (hb : c.build = .ok h)
    (hb' : HandConfig.build { c with deck := deck } = .ok h') (hrev : h.revealedHands = []) (hrev' : h'.revealedHands = []) :
    h.masked none cards = h'.masked none cards := by
  obtain ⟨seats, chips, sb, bb, first, table, hbuilt⟩ := build_built hb
  obtain ⟨seats', chips', sb', bb', first', table', hbuilt'⟩ := build_built hb'
  -- the seating and the positions come before the deck
  obtain ⟨rfl, rfl⟩ : seats = seats' ∧ chips = chips' := by
    have := hbuilt.placed.symm.trans hbuilt'.placed
    simpa using this
  obtain ⟨rfl, rfl, rfl⟩ : sb = sb' ∧ bb = bb' ∧ first = first' := by
    have := hbuilt.positions.symm.trans hbuilt'.positions
    simpa using this
  have htable : table.masked none cards = table'.masked none cards := by
    have hsame : (postForced c.forcedPosts (c.dealtTo seats chips sb bb).postAntes.postBlinds).map (·.masked none cards) =
        (postForced c.forcedPosts (HandConfig.dealtTo { c with deck := deck } seats chips sb bb).postAntes.postBlinds).map
          (·.masked none cards) := by
      rw [← postForced_masked, ← postForced_masked, ← postBlinds_masked, ← postAntes_masked, dealtTo_masked hdeck hdeck',
        postAntes_masked, postBlinds_masked]
    rw [hbuilt.posts, show postForced c.forcedPosts _ = .ok table' from hbuilt'.posts] at hsame
    exact Except.ok.inj hsame
  rw [hbuilt.started hdeck hrev, hbuilt'.started hdeck' hrev']
  have hfirst := congrArg (fun k : MultiwayHand => ({ k with pacedShowdown := false } : MultiwayHand))
    (congrArg (fun k : MultiwayHand => k.started first) htable)
  simp only [started_masked] at hfirst
  exact hfirst

/-- What the viewer sees is the face-down hand and its own cards. -/
theorem masked_of_cards (hm : h.masked none cards = h'.masked none cards)
    (hcards : ∀ p, viewer = some p → (h.seat p).holeCards = (h'.seat p).holeCards) :
    h.masked viewer cards = h'.masked viewer cards := by
  have hseats : maskSeats viewer h.seats = maskSeats viewer h'.seats := by
    have hnone : maskSeats none h.seats = maskSeats none h'.seats := congrArg (·.seats) hm
    refine List.ext_getElem? fun i => ?_
    have hi := congrArg (·[i]?) hnone
    simp only [maskSeats, List.getElem?_mapIdx] at hi ⊢
    have hown : ∀ v, viewer = some v → v.val = i → ∀ st st', h.seats[i]? = some (some st) → h'.seats[i]? = some (some st') →
        st.holeCards = st'.holeCards := by
      rintro v hv rfl st st' hst hst'
      have := hcards v hv
      simpa [seat, seatOf, seatIn, hst, hst'] using this
    rcases hst : h.seats[i]? with _ | _ | st <;> rcases hst' : h'.seats[i]? with _ | _ | st' <;>
      simp only [hst, hst', Option.map_some, Option.map_none, reduceCtorEq, Option.some.injEq] at hi ⊢
    split
    · rename_i hv
      obtain ⟨v, hv, hvi⟩ := Option.map_eq_some_iff.mp hv
      have := hown v hv hvi st st' hst hst'
      cases st; cases st'
      simp_all
    · simpa using hi
  have hrest : ∀ k : MultiwayHand, k.masked viewer cards = { k.masked none cards with seats := maskSeats viewer k.seats } :=
    fun k => rfl
  rw [hrest h, hrest h', hm, hseats]

end start

end MultiwayHand

end OpenFelt
