/-
  OpenFelt.Offline.Wagers — what an accepted action, the end of a street and a new hand do
  to the chips of the offline game (`validate_action`, `apply_validated_action`,
  `return_uncalled_heads_up_excess`, `start_new_hand`).

  Proved of a table whose seats are in range: an accepted action moves chips of its seat
  only, and leaves the seat at the street's highest bet with chips behind, or all in
  (`wagered`); the end of a street returns to each seat what it bet beyond the other, and
  to nobody else (`collectBets_stack`); a new hand takes the blinds the two seats can pay
  (`startNewHand_spec`).
-/

import OpenFelt.Offline.GameState

namespace OpenFelt

namespace GameState

variable {g g' : GameState} {p q : HeadsUpSeat} {amount : Nat} {action : Action}

/-! ## An accepted action -/

theorem maxBet_eq (g : GameState) (p : HeadsUpSeat) : g.maxBet = max (g.streetBet p) (g.streetBet p.other) := by
  cases p
  · rfl
  · exact Nat.max_comm ..

theorem streetBet_le_maxBet (g : GameState) (p : HeadsUpSeat) : g.streetBet p ≤ g.maxBet := by
  rw [maxBet_eq g p]
  exact Nat.le_max_left ..

/-- The seat's action put chips in: it has chips left and at least the street's highest bet, or it is all in. -/
structure Wagered (p : HeadsUpSeat) (g g' : GameState) : Prop where
  other : g'.seat p.other = g.seat p.other
  chips : g'.stack p + g'.streetBet p = g.stack p + g.streetBet p
  more : g.streetBet p ≤ g'.streetBet p
  pot : g.pot + (g'.streetBet p - g.streetBet p) ≤ u32Max →
    g'.pot = g.pot + (g'.streetBet p - g.streetBet p) ∧ g'.overflowed = g.overflowed
  outcome : (0 < g'.stack p ∧ (g'.seat p).handParticipation = (g.seat p).handParticipation ∧ g.maxBet ≤ g'.streetBet p) ∨
    (g'.stack p = 0 ∧ (g'.seat p).handParticipation = .allIn)

theorem addChips_pot (hr : g.InRange) (hle : amount ≤ g.stack p) (hfits : g.pot + amount ≤ u32Max) :
    (g.addChips p amount).pot = g.pot + amount ∧ (g.addChips p amount).overflowed = g.overflowed := by
  have hp := hr p
  have hbet : fitsU32 (g.streetBet p + amount) = true := decide_eq_true (by omega)
  have hpot : fitsU32 (g.pot + amount) = true := decide_eq_true hfits
  simp [addChips, Nat.min_eq_left hle, hbet, hpot, wrap32_of_le hfits]

theorem addChips_wagered (hr : g.InRange) (hlt : amount < g.stack p) (hmax : g.maxBet ≤ g.streetBet p + amount) :
    Wagered p g (g.addChips p amount) := by
  have hseat := addChips_seat hr (Nat.le_of_lt hlt)
  have hstack : (g.addChips p amount).stack p = g.stack p - amount := by simp [stack, hseat]
  have hbet : (g.addChips p amount).streetBet p = g.streetBet p + amount := by simp [streetBet, hseat]
  refine ⟨addChips_seat_other, by omega, by omega, ?_, .inl ⟨by omega, by simp [hseat], by omega⟩⟩
  rw [hbet, Nat.add_sub_cancel_left]
  exact addChips_pot hr (Nat.le_of_lt hlt)

theorem arith_true : g.arith true = g := by simp [arith]

theorem wagerTo_eq (hle : g.streetBet p ≤ amount) : g.wagerTo p amount = g.addChips p (amount - g.streetBet p) := by
  have hfits : decide (g.streetBet p ≤ amount) = true := decide_eq_true hle
  rw [wagerTo, hfits, arith_true]

/-- The betting's record is not in what `Wagered` tells. -/
theorem Wagered.raised (hw : Wagered p g g') {oldMax : Nat} (hle : oldMax ≤ amount) :
    Wagered p g (g'.raised p amount oldMax) := by
  have hfits : (g'.raised p amount oldMax).overflowed = g'.overflowed := by simp [GameState.raised, arith, hle]
  refine ⟨hw.other, hw.chips, hw.more, ?_, hw.outcome⟩
  intro hpot
  rw [hfits]
  exact hw.pot hpot

theorem wagerTo_wagered (hr : g.InRange) (hmax : g.maxBet ≤ amount) (hlt : amount < g.streetBet p + g.stack p) :
    Wagered p g (g.wagerTo p amount) := by
  have hle := streetBet_le_maxBet g p
  rw [wagerTo_eq (by omega)]
  exact addChips_wagered hr (by omega) (by omega)

theorem allIn_seat (hr : g.InRange) (hamount : amount = g.streetBet p + g.stack p) :
    ((g.wagerTo p amount).seatMut p fun st => { st with handParticipation := .allIn }).seat p =
      { g.seat p with stack := 0, streetBet := amount, handParticipation := .allIn } := by
  have hadd : amount - g.streetBet p = g.stack p := by omega
  rw [wagerTo_eq (by omega), hadd, seat_seatMut, addChips_seat hr (Nat.le_refl _), Nat.sub_self, hamount]

theorem allIn_wagered (hr : g.InRange) (hamount : amount = g.streetBet p + g.stack p) :
    Wagered p g ((g.wagerTo p amount).seatMut p fun st => { st with handParticipation := .allIn }) := by
  have hseat := allIn_seat hr hamount
  have hadd : amount - g.streetBet p = g.stack p := by omega
  have hother : ((g.wagerTo p amount).seatMut p fun st => { st with handParticipation := .allIn }).seat p.other =
      g.seat p.other := by
    rw [seat_seatMut_other, wagerTo_eq (by omega), addChips_seat_other]
  have hpot : g.pot + g.stack p ≤ u32Max → (g.wagerTo p amount).pot = g.pot + g.stack p ∧
      (g.wagerTo p amount).overflowed = g.overflowed := by
    rw [wagerTo_eq (by omega), hadd]
    exact addChips_pot hr (Nat.le_refl _)
  have hbet : ((g.wagerTo p amount).seatMut p fun st => { st with handParticipation := .allIn }).streetBet p = amount :=
    congrArg SeatState.streetBet hseat
  have hstack : ((g.wagerTo p amount).seatMut p fun st => { st with handParticipation := .allIn }).stack p = 0 :=
    congrArg SeatState.stack hseat
  refine ⟨hother, by omega, by omega, ?_, .inr ⟨hstack, congrArg SeatState.handParticipation hseat⟩⟩
  rw [hbet, hadd]
  exact hpot

/-- What an accepted action other than a fold puts in. -/
theorem wagered (hr : g.InRange) (hpos : 0 < g.stack p) (hv : g.validateAction p action = .ok ()) (hfold : action ≠ .fold) :
    Wagered p g (g.wager p action) := by
  have hrange := hr p
  have hmax := maxBet_eq g p
  have htotal : saturatingAdd (g.streetBet p) (g.stack p) = g.streetBet p + g.stack p := by unfold saturatingAdd; omega
  have hraise : g.maxBet ≤ saturatingAdd g.maxBet (max g.lastRaiseSize bigBlind) := by
    have := hr p.other
    unfold saturatingAdd
    omega
  cases action with
  | fold => exact absurd rfl hfold
  | check =>
    have hcall : g.amountToCall p = 0 := by
      by_contra h
      simp [validateAction, h] at hv
    refine ⟨rfl, rfl, Nat.le_refl _, ?_, .inl ⟨hpos, rfl, Nat.le_of_sub_eq_zero hcall⟩⟩
    intro _
    exact ⟨by simp [wager], rfl⟩
  | call amount =>
    simp only [validateAction] at hv
    split at hv
    · cases hv
    split at hv
    · rename_i hcan heq
      simp only [amountToCall] at hcan heq
      exact addChips_wagered hr (by omega) (by omega)
    · cases hv
  | bet amount =>
    simp only [validateAction] at hv
    split at hv
    · cases hv
    rw [htotal] at hv
    generalize hleast : (if g.maxBet = 0 then bigBlind else saturatingAdd g.maxBet (max g.lastRaiseSize bigBlind)) = minimum at hv
    have hmin : g.maxBet ≤ minimum := by split at hleast <;> omega
    split at hv
    · rename_i hcall hin
      exact (wagerTo_wagered hr (by omega) (by omega)).raised (by omega)
    · cases hv
  | raise amount =>
    simp only [validateAction] at hv
    split at hv
    · cases hv
    rw [htotal] at hv
    split at hv
    · rename_i hcall hin
      have hle : g.maxBet ≤ amount := by omega
      exact (wagerTo_wagered hr hle (by omega)).raised hle
    · cases hv
  | allIn amount =>
    simp only [validateAction, htotal] at hv
    split at hv
    · rename_i hin
      have hw := allIn_wagered hr hin.1
      simp only [wager]
      split
      · exact hw.raised (by omega)
      · exact hw
    · cases hv

/-! ## The end of a street -/

theorem returnUncalled_cases (g : GameState) :
    ((∀ p, g.streetBet p = g.streetBet p.other) ∧ g.returnUncalledHeadsUpExcess = g) ∨
      ∃ p, g.streetBet p.other < g.streetBet p ∧ g.returnUncalledHeadsUpExcess =
        g.refund p (g.streetBet p - g.streetBet p.other) := by
  simp only [returnUncalledHeadsUpExcess]
  split
  · rename_i heq
    refine .inl ⟨?_, rfl⟩
    intro p
    cases p
    · exact heq
    · exact heq.symm
  · rename_i hne
    by_cases hlt : g.streetBet .second < g.streetBet .first
    · refine .inr ⟨.first, hlt, ?_⟩
      rw [Nat.min_eq_right (by omega), if_pos hlt]
      rfl
    · refine .inr ⟨.second, by simp only [HeadsUpSeat.other]; omega, ?_⟩
      rw [Nat.min_eq_left (by omega), if_neg (by omega)]
      rfl

/-- Each seat has back what it bet beyond the other. -/
theorem returnUncalled_seat (hr : g.InRange) (p : HeadsUpSeat) :
    g.returnUncalledHeadsUpExcess.seat p = { g.seat p with
      stack := g.stack p + (g.streetBet p - g.streetBet p.other)
      streetBet := min (g.streetBet p) (g.streetBet p.other) } := by
  obtain ⟨heq, h⟩ | ⟨q, hlt, h⟩ := returnUncalled_cases g
  · rw [h, heq p, Nat.sub_self, Nat.min_self, ← heq p]
    rfl
  have hq := hr q
  rw [h]
  obtain rfl | rfl := q.eq_or_other p
  · have hwrap : wrap32 (g.stack p + (g.streetBet p - g.streetBet p.other)) = g.stack p + (g.streetBet p - g.streetBet p.other) :=
      wrap32_of_le (by omega)
    have hmin : min (g.streetBet p) (g.streetBet p.other) = g.streetBet p - (g.streetBet p - g.streetBet p.other) := by omega
    rw [hmin, ← hwrap]
    exact seat_seatMut _
  · have hzero : g.streetBet q.other - g.streetBet q.other.other = 0 := by rw [HeadsUpSeat.other_other]; omega
    have hmin : min (g.streetBet q.other) (g.streetBet q.other.other) = g.streetBet q.other := by
      rw [HeadsUpSeat.other_other]
      omega
    rw [hzero, hmin]
    exact seat_seatMut_other _

theorem collectBets_seat (hr : g.InRange) (p : HeadsUpSeat) :
    g.collectBets.seat p = { g.seat p with stack := g.stack p + (g.streetBet p - g.streetBet p.other), streetBet := 0 } := by
  have h : g.collectBets.seat p = { g.returnUncalledHeadsUpExcess.seat p with streetBet := 0 } := by cases p <;> rfl
  rw [h, returnUncalled_seat hr p]

theorem collectBets_stack (hr : g.InRange) (p : HeadsUpSeat) :
    g.collectBets.stack p = g.stack p + (g.streetBet p - g.streetBet p.other) := by
  rw [stack, collectBets_seat hr p]

theorem collectBets_pot (hr : g.InRange) (hpot : g.streetBet .first + g.streetBet .second ≤ g.pot) (hfits : g.pot ≤ u32Max) :
    g.collectBets.pot = g.pot - (g.maxBet - min (g.streetBet .first) (g.streetBet .second)) ∧
      g.collectBets.overflowed = g.overflowed := by
  have h : g.collectBets.pot = g.returnUncalledHeadsUpExcess.pot ∧
      g.collectBets.overflowed = g.returnUncalledHeadsUpExcess.overflowed := ⟨rfl, rfl⟩
  rw [h.1, h.2]
  obtain ⟨heq, h⟩ | ⟨p, hlt, h⟩ := returnUncalled_cases g
  · have hsame : g.streetBet .first = g.streetBet .second := heq .first
    rw [h, maxBet]
    exact ⟨by omega, rfl⟩
  have hp := hr p
  have hsum : g.streetBet p + g.streetBet p.other ≤ g.pot := by
    cases p
    · exact hpot
    · exact (Nat.add_comm ..).trans_le hpot
  have hmin : g.maxBet - min (g.streetBet .first) (g.streetBet .second) = g.streetBet p - g.streetBet p.other := by
    rw [maxBet_eq g p]
    cases p <;> simp only [HeadsUpSeat.other] at hlt ⊢ <;> omega
  have hwrap : wrap32 (g.pot + 2 ^ 32 - (g.streetBet p - g.streetBet p.other)) =
      g.pot - (g.streetBet p - g.streetBet p.other) := by
    unfold wrap32
    unfold u32Max at hfits
    omega
  have hstack : fitsU32 (g.stack p + (g.streetBet p - g.streetBet p.other)) = true := decide_eq_true (by omega)
  have hle : decide (g.streetBet p - g.streetBet p.other ≤ g.pot) = true := decide_eq_true (by omega)
  have hover : (g.refund p (g.streetBet p - g.streetBet p.other)).overflowed = (g.overflowed ||
      !(fitsU32 (g.stack p + (g.streetBet p - g.streetBet p.other)) &&
        decide (g.streetBet p - g.streetBet p.other ≤ g.pot))) := rfl
  rw [h, hmin, hover, hstack, hle]
  exact ⟨hwrap, Bool.or_false _⟩

/-! ## A new hand -/

/-- The seat of a new hand after its blind. -/
def blindPosted (st : SeatState) (cards : List Card) (blind : Nat) : SeatState :=
  { st with
    holeCards := cards
    stack := st.stack - blind
    streetBet := min blind st.stack
    handParticipation := if st.stack ≤ blind then .allIn else .live }

theorem dealSeat_eq (helig : (g.seat p).eligibleForNextHand = true) : g.dealSeat p =
    { g.seatMut p fun st => { st with holeCards := (g.deck.dealN 2).1, streetBet := 0, handParticipation := .live } with
      deck := (g.deck.dealN 2).2 } := if_pos helig

/-- Both seats are dealt two cards; the rest is the deck's. -/
theorem dealHands_eq (helig : ∀ p, (g.seat p).eligibleForNextHand = true) : ∃ seats : HeadsUp SeatState,
    g.dealHands = { g with seats := seats, deck := ((g.deck.dealN 2).2.dealN 2).2 } ∧
      ∀ p, ∃ cards, seats.get p = { g.seat p with holeCards := cards, streetBet := 0, handParticipation := .live } := by
  have hfirst := dealSeat_eq (helig .first)
  have hsame : (g.dealSeat .first).seat .second = g.seat .second := by
    rw [hfirst]
    exact seat_seatMut_other (p := .first) _
  have hsecond := dealSeat_eq (g := g.dealSeat .first) (p := .second) (by rw [hsame]; exact helig _)
  refine ⟨g.dealHands.seats, ?_, ?_⟩
  · rw [dealHands, hsecond, hfirst]
    rfl
  · intro p
    rw [dealHands, hsecond, hfirst]
    cases p with
    | first => exact ⟨(g.deck.dealN 2).1, rfl⟩
    | second => exact ⟨((g.deck.dealN 2).2.dealN 2).1, rfl⟩

theorem addChips_posted (hr : g.stack p + g.streetBet p ≤ u32Max) (blind : Nat) : (g.addChips p blind).seat p = { g.seat p with
    stack := g.stack p - blind
    streetBet := g.streetBet p + min blind (g.stack p) } := by
  have hbet : wrap32 (g.streetBet p + min blind (g.stack p)) = g.streetBet p + min blind (g.stack p) := wrap32_of_le (by omega)
  have hstack : g.stack p - min blind (g.stack p) = g.stack p - blind := by omega
  have h : (g.addChips p blind).seat p = { g.seat p with
      stack := g.stack p - min blind (g.stack p), streetBet := wrap32 (g.streetBet p + min blind (g.stack p)) } :=
    seat_seatMut ..
  rw [h, hbet, hstack]

theorem postBlind_seat (hr : g.stack p + g.streetBet p ≤ u32Max) {blind : Nat} : (g.postBlind p blind).seat p = { g.seat p with
    stack := g.stack p - blind
    streetBet := g.streetBet p + min blind (g.stack p)
    handParticipation := if g.stack p ≤ blind then .allIn else (g.seat p).handParticipation } := by
  have hseat := addChips_posted hr blind
  have hstack : (g.addChips p blind).stack p = g.stack p - blind := by rw [stack, hseat]
  simp only [postBlind, hstack]
  by_cases hle : g.stack p ≤ blind
  · rw [if_pos (by omega), if_pos hle, seat_seatMut, hseat]
  · rw [if_neg (by omega), if_neg hle, hseat]

theorem postBlind_seat_other {blind : Nat} : (g.postBlind p blind).seat p.other = g.seat p.other := by
  simp only [postBlind]
  split
  · rw [seat_seatMut_other, addChips_seat_other]
  · exact addChips_seat_other

theorem postBlind_pot (hr : g.stack p + g.streetBet p ≤ u32Max) {blind : Nat} (hfits : g.pot + blind ≤ u32Max) :
    (g.postBlind p blind).pot = g.pot + min blind (g.stack p) ∧ (g.postBlind p blind).overflowed = g.overflowed := by
  have h : (g.postBlind p blind).pot = (g.addChips p blind).pot ∧
      (g.postBlind p blind).overflowed = (g.addChips p blind).overflowed := by
    simp only [postBlind]
    split <;> exact ⟨rfl, rfl⟩
  have hbet : fitsU32 (g.streetBet p + min blind (g.stack p)) = true := decide_eq_true (by omega)
  have hpot : fitsU32 (g.pot + min blind (g.stack p)) = true := decide_eq_true (by omega)
  have hwrap : wrap32 (g.pot + min blind (g.stack p)) = g.pot + min blind (g.stack p) := wrap32_of_le (by omega)
  rw [h.1, h.2]
  exact ⟨hwrap, by simp [addChips, hbet, hpot]⟩

/-- A new hand: the button moves on and its seat and the other post the two blinds, as far as their stacks go. -/
structure NewHand (g : GameState) (deck : Deck) (g' : GameState) : Prop where
  phase : g'.phase = .preflop
  button : g'.button = g.button.other
  toAct : g'.toAct = g.button.other
  board : g'.board = []
  deck : g'.deck = ((deck.dealN 2).2.dealN 2).2
  panicked : g'.panicked = g.panicked
  small : ∃ cards, g'.seat g.button.other = blindPosted (g.seat g.button.other) cards smallBlind
  big : ∃ cards, g'.seat g.button = blindPosted (g.seat g.button) cards bigBlind
  pot : g'.pot = min smallBlind (g.stack g.button.other) + min bigBlind (g.stack g.button)
  overflowed : g'.overflowed = (g.overflowed || !fitsU32 (g.handNumber + 1))
  handNumber : g'.handNumber = wrap32 (g.handNumber + 1)
  handsPlayed : g'.handsPlayed = g.handsPlayed
  seatStats : g'.seatStats = g.seatStats

theorem expect_true : g.expect true = g := by simp [expect]

theorem startNewHand_eq (helig : ∀ p, (g.seat p).eligibleForNextHand = true) (deck : Deck) : g.startNewHand deck =
    (g.clearHand g.button.other deck).dealHands.postBlinds ⟨g.button.other, g.button, g.button.other⟩ := by
  have hnext : g.nextForHand g.button = some g.button.other := if_pos (helig _)
  obtain ⟨seats, hdealt, hseats⟩ := dealHands_eq (g := g.clearHand g.button.other deck) helig
  have hdealtIn (p : HeadsUpSeat) : ((g.clearHand g.button.other deck).dealHands.seat p).eligibleForNextHand = true := by
    obtain ⟨cards, h⟩ := hseats p
    have hseat : (g.clearHand g.button.other deck).dealHands.seat p = seats.get p := by rw [hdealt]
    rw [hseat, h]
    exact helig p
  have hpos : (g.clearHand g.button.other deck).dealHands.positions g.button.other =
      some ⟨g.button.other, g.button, g.button.other⟩ := by
    rw [positions, hdealtIn, hdealtIn, HeadsUpSeat.other_other]
    rfl
  simp only [startNewHand, hnext, Option.isSome_some, Option.getD_some, expect_true, hpos]

/-- The blind of a seat just dealt in. -/
theorem postBlind_dealt {st : SeatState} {cards : List Card} {blind : Nat} (hst : st.stack ≤ u32Max)
    (hseat : g.seat p = { st with holeCards := cards, streetBet := 0, handParticipation := .live }) :
    (g.postBlind p blind).seat p = blindPosted st cards blind := by
  have hstack : g.stack p = st.stack := by rw [stack, hseat]
  have hbet : g.streetBet p = 0 := by rw [streetBet, hseat]
  rw [postBlind_seat (by omega), hstack, hbet, hseat, Nat.zero_add]
  rfl

theorem startNewHand_spec (helig : ∀ p, (g.seat p).eligibleForNextHand = true) (hr : ∀ p, g.stack p ≤ u32Max) (deck : Deck) :
    NewHand g deck (g.startNewHand deck) := by
  obtain ⟨seats, hdealt, hseats⟩ := dealHands_eq (g := g.clearHand g.button.other deck) helig
  rw [startNewHand_eq helig]
  generalize hg : (g.clearHand g.button.other deck).dealHands = dealt at *
  have hseat (p : HeadsUpSeat) : ∃ cards, dealt.seat p =
      { g.seat p with holeCards := cards, streetBet := 0, handParticipation := .live } := by
    rw [hdealt]
    exact hseats p
  obtain ⟨small, hsmall⟩ := hseat g.button.other
  obtain ⟨big, hbig⟩ := hseat g.button
  have hsmallStack : dealt.stack g.button.other = g.stack g.button.other ∧ dealt.streetBet g.button.other = 0 := by
    simp [stack, streetBet, hsmall]
  have hbigStack : dealt.stack g.button = g.stack g.button ∧ dealt.streetBet g.button = 0 := by
    simp [stack, streetBet, hbig]
  have hsame : (dealt.postBlind g.button.other smallBlind).seat g.button = dealt.seat g.button := by
    have h : (dealt.postBlind g.button.other smallBlind).seat g.button.other.other = dealt.seat g.button.other.other :=
      postBlind_seat_other
    rwa [HeadsUpSeat.other_other] at h
  have hsameStack : (dealt.postBlind g.button.other smallBlind).stack g.button = g.stack g.button ∧
      (dealt.postBlind g.button.other smallBlind).streetBet g.button = 0 := by
    rw [stack, streetBet, hsame]
    exact hbigStack
  have hrs := hr g.button.other
  have hrb := hr g.button
  have hpot : dealt.pot = 0 ∧ dealt.overflowed = (g.overflowed || !fitsU32 (g.handNumber + 1)) := by
    rw [hdealt]
    exact ⟨rfl, rfl⟩
  have hone : dealt.pot + smallBlind ≤ u32Max := by
    rw [hpot.1]
    decide
  obtain ⟨hpot₁, hover₁⟩ := postBlind_pot (g := dealt) (p := g.button.other) (by omega) hone
  have htwo : (dealt.postBlind g.button.other smallBlind).pot + bigBlind ≤ u32Max := by
    have : smallBlind + bigBlind ≤ u32Max := by decide
    omega
  obtain ⟨hpot₂, hover₂⟩ := postBlind_pot (g := dealt.postBlind g.button.other smallBlind) (p := g.button) (by omega) htwo
  have honly : OnlyChips dealt ((dealt.postBlind g.button.other smallBlind).postBlind g.button bigBlind) :=
    postBlind_only.trans postBlind_only
  refine ⟨?_, ?_, rfl, ?_, ?_, ?_, ⟨small, ?_⟩, ⟨big, ?_⟩, ?_, ?_, ?_, ?_, ?_⟩
  · exact honly.phase.trans (by rw [hdealt]; rfl)
  · exact honly.button.trans (by rw [hdealt]; rfl)
  · exact honly.board.trans (by rw [hdealt]; rfl)
  · exact honly.deck.trans (by rw [hdealt]; rfl)
  · exact honly.panicked.trans (by rw [hdealt]; rfl)
  · exact postBlind_seat_other.trans (postBlind_dealt hrs hsmall)
  · exact postBlind_dealt hrb (hsame.trans hbig)
  · refine hpot₂.trans ?_
    rw [hpot₁, hpot.1, hsmallStack.1, hsameStack.1, Nat.zero_add]
  · exact hover₂.trans (hover₁.trans hpot.2)
  · exact honly.handNumber.trans (by rw [hdealt]; rfl)
  · exact honly.handsPlayed.trans (by rw [hdealt]; rfl)
  · exact honly.seatStats.trans (by rw [hdealt]; rfl)

/-! ## Paying the pot -/

/-- What the showdown pays the seat: the winner has the pot, a tie halves it and the seat after the button has the odd chip. -/
def showdownShare (g : GameState) (p : HeadsUpSeat) : Nat :=
  match showdownWinner (evaluateHand (g.seat .first).holeCards g.board) (evaluateHand (g.seat .second).holeCards g.board) with
  | some winner => if p = winner then g.pot else 0
  | none => g.pot / 2 + if p = g.button.other then g.pot % 2 else 0

theorem showdownShare_sum (g : GameState) (p : HeadsUpSeat) : g.showdownShare p + g.showdownShare p.other = g.pot := by
  unfold showdownShare
  split
  · rename_i winner _
    obtain rfl | rfl := p.eq_or_other winner
    · simp
    · simp
  · obtain h | h := p.eq_or_other g.button
    · rw [h]
      simp only [HeadsUpSeat.ne_other, if_false, if_true]
      omega
    · rw [h, HeadsUpSeat.other_other]
      simp only [HeadsUpSeat.other_ne, if_false, if_true]
      omega

/-- Each seat has been paid its share of the pot. -/
structure PotPaid (share : HeadsUpSeat → Nat) (g g' : GameState) : Prop where
  stack : ∀ p, g.stack p ≤ u32Max → g'.stack p = wrap32 (g.stack p + share p)
  table : ∀ p, (g'.seat p).tableParticipation = (g.seat p).tableParticipation
  panicked : g'.panicked = g.panicked
  button : g'.button = g.button
  handNumber : g'.handNumber = g.handNumber
  handsPlayed : g'.handsPlayed = g.handsPlayed
  handsWon : ∀ p, (g'.seatStats.get p).handsWon ≤ (g.seatStats.get p).handsWon + 1
  overflowed : (∀ p, g.stack p + share p ≤ u32Max) → (∀ p, (g.seatStats.get p).handsWon < u32Max) → g'.overflowed = g.overflowed

/-- The hand is over with each seat paid its share of the pot. -/
structure HandPaid (share : HeadsUpSeat → Nat) (g g' : GameState) : Prop where
  stack : ∀ p, g.stack p ≤ u32Max → g'.stack p = wrap32 (g.stack p + share p)
  pot : g'.pot = 0
  table : ∀ p, (g'.seat p).tableParticipation = (g.seat p).tableParticipation
  panicked : g'.panicked = g.panicked
  button : g'.button = g.button
  handNumber : g'.handNumber = g.handNumber
  handsPlayed : g'.handsPlayed = wrap32 (g.handsPlayed + 1)
  handsWon : ∀ p, (g'.seatStats.get p).handsWon ≤ (g.seatStats.get p).handsWon + 1
  overflowed : (∀ p, g.stack p + share p ≤ u32Max) → g.handsPlayed < u32Max → (∀ p, (g.seatStats.get p).handsWon < u32Max) →
    g'.overflowed = g.overflowed

theorem PotPaid.endHand {share : HeadsUpSeat → Nat} (h : PotPaid share g g') (phase : GamePhase) :
    HandPaid share g (g'.endHand phase) := by
  refine ⟨h.stack, rfl, h.table, h.panicked, h.button, h.handNumber, congrArg (fun n => wrap32 (n + 1)) h.handsPlayed,
    h.handsWon, ?_⟩
  intro hfits hplayed hwon
  have hcount : fitsU32 (g'.handsPlayed + 1) = true := decide_eq_true (by rw [h.handsPlayed]; omega)
  have hended : (g'.endHand phase).overflowed = g'.overflowed := by simp [GameState.endHand, arith, hcount]
  exact hended.trans (h.overflowed hfits hwon)

theorem pay_stack (amount : Nat) (q : HeadsUpSeat) (hq : g.stack q ≤ u32Max) :
    (g.pay p amount).stack q = wrap32 (g.stack q + if q = p then amount else 0) := by
  have h : (g.pay p amount).seat p = { g.seat p with stack := wrap32 (g.stack p + amount) } := seat_seatMut _
  have hother : (g.pay p amount).seat p.other = g.seat p.other := seat_seatMut_other _
  obtain rfl | rfl := p.eq_or_other q
  · rw [if_pos rfl]
    exact congrArg SeatState.stack h
  · rw [if_neg (by simp), Nat.add_zero, wrap32_of_le hq]
    exact congrArg SeatState.stack hother

theorem pay_table (q : HeadsUpSeat) : ((g.pay p amount).seat q).tableParticipation = (g.seat q).tableParticipation := by
  have h : (g.pay p amount).seat p = { g.seat p with stack := wrap32 (g.stack p + amount) } := seat_seatMut _
  have hother : (g.pay p amount).seat p.other = g.seat p.other := seat_seatMut_other _
  obtain rfl | rfl := p.eq_or_other q
  · rw [h]
  · rw [hother]

theorem pay_overflowed (hfits : g.stack p + amount ≤ u32Max) : (g.pay p amount).overflowed = g.overflowed := by
  have h : fitsU32 (g.stack p + amount) = true := decide_eq_true hfits
  simp [pay, h, arith, seatMut]

theorem recordResult_handsWon {pot : Nat} (q : HeadsUpSeat) :
    ((g.recordResult p pot).seatStats.get q).handsWon ≤ (g.seatStats.get q).handsWon + 1 := by
  have hwrap : wrap32 ((g.seatStats.get p).handsWon + 1) ≤ (g.seatStats.get p).handsWon + 1 := Nat.mod_le _ _
  obtain rfl | rfl := p.eq_or_other q
  · simpa [recordResult, arith] using hwrap
  · simp [recordResult, arith]

theorem recordResult_overflowed {pot : Nat} (hfits : (g.seatStats.get p).handsWon < u32Max) :
    (g.recordResult p pot).overflowed = g.overflowed := by
  have h : fitsU32 ((g.seatStats.get p).handsWon + 1) = true := decide_eq_true hfits
  simp [recordResult, arith, h]

/-- The whole pot to one seat, and the result on record. -/
theorem payResult_paid : PotPaid (fun q => if q = p then amount else 0) g ((g.pay p amount).recordResult p amount) := by
  refine ⟨fun q hq => pay_stack _ q hq, fun q => pay_table q, rfl, rfl, rfl, rfl, ?_, ?_⟩
  · intro q
    exact recordResult_handsWon (g := g.pay p amount) (p := p) q
  · intro hfits hwon
    have hpay : g.stack p + amount ≤ u32Max := by simpa using hfits p
    exact (recordResult_overflowed (g := g.pay p amount) (hwon p)).trans (pay_overflowed hpay)

/-- Two shares paid one after the other. -/
theorem payBoth_paid (share : HeadsUpSeat → Nat) :
    PotPaid share g ((g.pay .first (share .first)).pay .second (share .second)) := by
  refine ⟨?_, fun q => (pay_table q).trans (pay_table q), rfl, rfl, rfl, rfl, fun _ => Nat.le_succ _, ?_⟩
  · intro q hq
    have hfirst := pay_stack (g := g) (p := .first) (share .first) q hq
    have hsecond := pay_stack (g := g.pay .first (share .first)) (p := .second) (share .second) q
      (by rw [hfirst]; exact wrap32_le _)
    rw [hsecond, hfirst]
    cases q with
    | first => exact wrap32_of_le (wrap32_le _)
    | second =>
      have h : wrap32 (g.stack .second + 0) = g.stack .second := wrap32_of_le hq
      rw [if_neg (by decide), h, if_pos rfl]
  · intro hfits _
    have hsame : (g.pay .first (share .first)).stack .second = g.stack .second := rfl
    rw [pay_overflowed (by rw [hsame]; exact hfits .second), pay_overflowed (hfits .first)]

/-- A fold pays the whole pot to the other seat. -/
theorem handleFold_paid (helig : (g.seat p.other).eligibleForPot = true) :
    HandPaid (fun q => if q = p.other then g.pot else 0) g (g.handleFold p) := by
  have hsame : (g.seatMut p fun st => { st with handParticipation := .folded }).seat p.other = g.seat p.other :=
    seat_seatMut_other _
  have honly : OnlyChips g (g.seatMut p fun st => { st with handParticipation := .folded }) :=
    .seatMut (fun _ => rfl) fun _ => rfl
  have hstack (q : HeadsUpSeat) : (g.seatMut p fun st => { st with handParticipation := .folded }).stack q = g.stack q := by
    obtain rfl | rfl := p.eq_or_other q <;> simp [stack]
  have hpot : (g.seatMut p fun st => { st with handParticipation := .folded }).pot = g.pot := rfl
  have hover : (g.seatMut p fun st => { st with handParticipation := .folded }).overflowed = g.overflowed := rfl
  have hwinner : (g.seatMut p fun st => { st with handParticipation := .folded }).nextForPot p = some p.other :=
    if_pos (by rw [hsame]; exact helig)
  simp only [handleFold, hwinner, Option.isSome_some, Option.getD_some, expect_true, hpot]
  generalize g.seatMut p _ = folded at *
  have hpaid : PotPaid (fun q => if q = p.other then g.pot else 0) folded _ := payResult_paid
  refine PotPaid.endHand ⟨?_, ?_, ?_, ?_, ?_, ?_, ?_, ?_⟩ _
  · intro q hq
    rw [hpaid.stack q (by rw [hstack]; exact hq), hstack]
  · intro q
    exact (hpaid.table q).trans (honly.table q)
  · exact hpaid.panicked.trans honly.panicked
  · exact hpaid.button.trans honly.button
  · exact hpaid.handNumber.trans honly.handNumber
  · exact hpaid.handsPlayed.trans honly.handsPlayed
  · intro q
    have h := hpaid.handsWon q
    rwa [honly.seatStats] at h
  · intro hfits hwon
    refine (hpaid.overflowed ?_ ?_).trans hover
    · intro q
      rw [hstack]
      exact hfits q
    · rw [honly.seatStats]
      exact hwon

theorem PotPaid.shown {share : HeadsUpSeat → Nat} (h : PotPaid share g g') (result : ShowdownResult) :
    PotPaid share g { g' with showdownResult := some result } :=
  ⟨h.stack, h.table, h.panicked, h.button, h.handNumber, h.handsPlayed, h.handsWon, h.overflowed⟩

/-- A showdown pays each seat its share. -/
theorem resolveShowdown_paid (helig : (g.seat g.button.other).eligibleForPot = true) :
    HandPaid g.showdownShare g g.resolveShowdown := by
  have hodd : g.nextForPot g.button = some g.button.other := if_pos helig
  simp only [resolveShowdown, hodd, Option.isSome_some, expect_true]
  refine PotPaid.endHand (PotPaid.shown ?_ _) _
  cases hwinner : showdownWinner (evaluateHand (g.seat .first).holeCards g.board)
    (evaluateHand (g.seat .second).holeCards g.board) with
  | some winner =>
    have hshare : g.showdownShare = fun p => if p = winner then g.pot else 0 := by
      funext p
      simp only [showdownShare, hwinner]
    rw [hshare]
    exact payResult_paid
  | none =>
    have hshare (p : HeadsUpSeat) : g.pot / 2 + (if some g.button.other = some p then g.pot % 2 else 0) = g.showdownShare p := by
      simp only [showdownShare, hwinner, Option.some.injEq, eq_comm]
    simp only [hshare]
    exact payBoth_paid g.showdownShare

end GameState

end OpenFelt
