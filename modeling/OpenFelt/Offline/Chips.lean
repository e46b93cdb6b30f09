/-
  OpenFelt.Offline.Chips — the offline game's chips and counters (`GameState`, the stack
  argument of the command line).

  Proved, over every run of hands, commands and runouts from a starting stack below 2^30 big
  blinds: the pot and the two stacks are always four times the big blinds a seat started
  with, a closed street returns to each seat what it bet beyond the other, a fold or a
  showdown pays out the whole pot, and a sum leaves its range exactly when a street takes a
  256th action or a 2^32th hand is dealt (`chips_kept`). From 2^30 big blinds on, two seats
  all in do not fit the pot.
-/

import OpenFelt.Offline.Streets

namespace OpenFelt

namespace GameState

variable {g g' called : GameState} {p q : HeadsUpSeat} {action : Action} {total : Nat}

/-! ## The books -/

def chips (g : GameState) : Nat := g.pot + (g.stack .first + g.stack .second)

theorem chips_eq (g : GameState) (p : HeadsUpSeat) : g.chips = g.pot + (g.stack p + g.stack p.other) := by
  cases p
  · rfl
  · exact congrArg (g.pot + ·) (Nat.add_comm ..)

/-- The chips add up to `total` and nothing has left its range. -/
structure Booked (total : Nat) (g : GameState) : Prop where
  sum : g.chips = total
  inRange : g.overflowed = false
  bets : g.phase.betting = true → g.streetBet .first + g.streetBet .second ≤ g.pot
  rest : g.phase.betting = false → g.pot = 0
  hands : g.handNumber ≤ u32Max
  playing : g.phase.betting = true → g.handsPlayed < g.handNumber
  played : g.handsPlayed ≤ g.handNumber
  won : ∀ p, (g.seatStats.get p).handsWon ≤ g.handsPlayed

theorem bets_eq (g : GameState) (p : HeadsUpSeat) :
    g.streetBet .first + g.streetBet .second = g.streetBet p + g.streetBet p.other := by
  cases p
  · rfl
  · exact Nat.add_comm ..

/-- An action that only moved chips from a stack to the pot. -/
theorem Booked.wagered (hb : Booked total g) (hfits : total ≤ u32Max) (hstreet : g.phase.betting = true) (hw : Wagered p g called)
    (honly : OnlyChips g called) : Booked total called := by
  have hsum := hb.sum
  have hbets := hb.bets hstreet
  have hchips := hw.chips
  have hmore := hw.more
  have hstack := hw.stack_other
  have hbet := hw.streetBet_other
  rw [chips_eq g p] at hsum
  rw [bets_eq g p] at hbets
  obtain ⟨hpot, hover⟩ := hw.pot (by omega)
  refine ⟨?_, hover.trans hb.inRange, ?_, ?_, ?_, ?_, ?_, ?_⟩
  · rw [chips_eq called p]
    omega
  · intro _
    rw [bets_eq called p]
    omega
  · intro h
    rw [honly.phase, hstreet] at h
    cases h
  · rw [honly.handNumber]
    exact hb.hands
  · intro _
    rw [honly.handsPlayed, honly.handNumber]
    exact hb.playing hstreet
  · rw [honly.handsPlayed, honly.handNumber]
    exact hb.played
  · intro q
    rw [honly.seatStats, honly.handsPlayed]
    exact hb.won q

theorem Booked.wagered_pot (hb : Booked total g) (hfits : total ≤ u32Max) (hw : Wagered p g called) :
    called.pot + g.streetBet p = g.pot + called.streetBet p := by
  have hsum := hb.sum
  have hchips := hw.chips
  have hmore := hw.more
  rw [chips_eq g p] at hsum
  obtain ⟨hpot, -⟩ := hw.pot (by omega)
  omega

/-! ## A closed street -/

/-- Each seat has back what it bet beyond the other, and at the showdown its share of the pot. -/
structure StreetPaid (called g' : GameState) : Prop where
  refund : ∀ p, called.collectBets.stack p = called.stack p + (called.streetBet p - called.streetBet p.other)
  pot : called.collectBets.pot + (called.streetBet .first - called.streetBet .second) +
    (called.streetBet .second - called.streetBet .first) = called.pot
  share : ∀ p, called.collectBets.showdownShare p + called.collectBets.showdownShare p.other = called.collectBets.pot
  next : (g'.phase.betting = true ∧ g'.pot = called.collectBets.pot ∧ ∀ p, g'.stack p = called.collectBets.stack p) ∨
    (g'.phase = .showdown ∧ g'.pot = 0 ∧
      ∀ p, g'.stack p = called.collectBets.stack p + called.collectBets.showdownShare p)

/-- A hand that ends with its pot shared out in full. -/
theorem HandPaid.booked {share : HeadsUpSeat → Nat} (h : HandPaid share g g') (hfits : total ≤ u32Max) (hb : Booked total g)
    (hplaying : g.handsPlayed < g.handNumber) (hshare : share .first + share .second = g.pot) (hover : g'.phase.betting = false) :
    Booked total g' ∧ ∀ p, g'.stack p = g.stack p + share p := by
  have hsum := hb.sum
  have hhands := hb.hands
  unfold chips at hsum
  have hle (p : HeadsUpSeat) : g.stack p + share p ≤ u32Max := by cases p <;> omega
  have hstack (p : HeadsUpSeat) : g'.stack p = g.stack p + share p := by
    rw [h.stack p ((Nat.le_add_right ..).trans (hle p)), wrap32_of_le (hle p)]
  have hplayed : g'.handsPlayed = g.handsPlayed + 1 := by rw [h.handsPlayed, wrap32_of_le (by omega)]
  have hwon (p : HeadsUpSeat) : (g.seatStats.get p).handsWon < u32Max := by
    have := hb.won p
    omega
  have hkept : g'.overflowed = g.overflowed := h.overflowed hle (by omega) hwon
  refine ⟨⟨?_, hkept.trans hb.inRange, ?_, fun _ => h.pot, ?_, ?_, ?_, ?_⟩, hstack⟩
  · unfold chips
    rw [h.pot, hstack, hstack]
    omega
  · intro hstreet
    rw [hover] at hstreet
    cases hstreet
  · rw [h.handNumber]
    exact hhands
  · intro hstreet
    rw [hover] at hstreet
    cases hstreet
  · rw [h.handNumber, hplayed]
    exact hplaying
  · intro p
    have hmore := h.handsWon p
    have := hb.won p
    rw [hplayed]
    omega

/-- The excess leaves the pot for the stack it came from. -/
theorem Booked.collectBets (hb : Booked total called) (hfits : total ≤ u32Max) (hr : called.InRange)
    (hstreet : called.phase.betting = true) : Booked total called.collectBets ∧
      called.collectBets.pot + (called.streetBet .first - called.streetBet .second) +
        (called.streetBet .second - called.streetBet .first) = called.pot := by
  have honly : OnlyChips called called.collectBets := collectBets_only
  have hsum := hb.sum
  have hbets := hb.bets hstreet
  unfold chips at hsum
  obtain ⟨hpot, hover⟩ := collectBets_pot hr hbets (by omega)
  have hfirst : called.collectBets.stack .first = called.stack .first + (called.streetBet .first - called.streetBet .second) :=
    collectBets_stack hr .first
  have hsecond : called.collectBets.stack .second = called.stack .second + (called.streetBet .second - called.streetBet .first) :=
    collectBets_stack hr .second
  have hzero (p : HeadsUpSeat) : called.collectBets.streetBet p = 0 := congrArg SeatState.streetBet (collectBets_seat hr p)
  have hback : called.collectBets.pot + (called.streetBet .first - called.streetBet .second) +
      (called.streetBet .second - called.streetBet .first) = called.pot := by
    rw [hpot, maxBet]
    omega
  refine ⟨⟨?_, hover.trans hb.inRange, ?_, ?_, ?_, ?_, ?_, ?_⟩, hback⟩
  · unfold chips
    omega
  · intro _
    rw [hzero, hzero]
    exact Nat.zero_le _
  · intro h
    rw [honly.phase, hstreet] at h
    cases h
  · rw [honly.handNumber]
    exact hb.hands
  · intro _
    rw [honly.handsPlayed, honly.handNumber]
    exact hb.playing hstreet
  · rw [honly.handsPlayed, honly.handNumber]
    exact hb.played
  · intro q
    rw [honly.seatStats, honly.handsPlayed]
    exact hb.won q

/-- The pot and the stacks after a street's end. -/
theorem Booked.advance (hb : Booked total called) (hfits : total ≤ u32Max) (hr : called.InRange)
    (hplaying : ∀ p, (called.seat p).eligibleForPot = true) (hstreet : called.phase.betting = true) :
    Booked total called.advancePhase ∧ StreetPaid called called.advancePhase := by
  obtain ⟨hbooked, hback⟩ := hb.collectBets hfits hr hstreet
  have honly : OnlyChips called called.collectBets := collectBets_only
  have hphase : called.collectBets.phase.betting = true := by rw [honly.phase]; exact hstreet
  have hrefund := collectBets_stack hr
  have hshare := called.collectBets.showdownShare_sum
  obtain ⟨-, h⟩ | ⟨cards, phase, h, hnext, -⟩ := advancePhase_cases hstreet
  · have hpaid := resolveShowdown_paid (g := called.collectBets) (by rw [collectBets_seat hr]; exact hplaying _)
    obtain ⟨hover, hstack⟩ := hpaid.booked hfits hbooked (hbooked.playing hphase) (hshare .first) rfl
    rw [h]
    exact ⟨hover, ⟨hrefund, hback, hshare, .inr ⟨rfl, hpaid.pot, hstack⟩⟩⟩
  · have ho := openStreet_opened called.collectBets cards phase
    rw [h]
    generalize called.collectBets.openStreet cards phase = g' at ho
    have hseat (p : HeadsUpSeat) : g'.seat p = called.collectBets.seat p := by rw [seat, ho.seats]
    have hstack (p : HeadsUpSeat) : g'.stack p = called.collectBets.stack p := congrArg SeatState.stack (hseat p)
    have hbet (p : HeadsUpSeat) : g'.streetBet p = called.collectBets.streetBet p := congrArg SeatState.streetBet (hseat p)
    have hbetting : g'.phase.betting = true := by rw [ho.phase]; exact hnext
    refine ⟨⟨?_, ho.overflowed.trans hbooked.inRange, ?_, ?_, ?_, ?_, ?_, ?_⟩, hrefund, hback, hshare,
      .inl ⟨hbetting, ho.pot, hstack⟩⟩
    · rw [chips, ho.pot, hstack, hstack]
      exact hbooked.sum
    · intro _
      rw [hbet, hbet, ho.pot]
      exact hbooked.bets hphase
    · intro h
      rw [hbetting] at h
      cases h
    · rw [ho.handNumber]
      exact hbooked.hands
    · intro _
      rw [ho.handsPlayed, ho.handNumber]
      exact hbooked.playing hphase
    · rw [ho.handsPlayed, ho.handNumber]
      exact hbooked.played
    · intro p
      rw [ho.seatStats, ho.handsPlayed]
      exact hbooked.won p

/-! ## A command -/

/-- What an accepted action does with the chips: a fold pays the pot to the other seat, and any other action puts chips in
from its seat alone, after which the street may be over. -/
inductive ActionPaid (g : GameState) : GameState → Prop where
  | folded {g' : GameState} (hphase : g'.phase = .handComplete) (hpot : g'.pot = 0) (hself : g'.stack g.toAct = g.stack g.toAct)
      (hother : g'.stack g.toAct.other = g.stack g.toAct.other + g.pot) : ActionPaid g g'
  | wagered {called g' : GameState} (hother : called.seat g.toAct.other = g.seat g.toAct.other)
      (hself : called.stack g.toAct + called.streetBet g.toAct = g.stack g.toAct + g.streetBet g.toAct)
      (hpot : called.pot + g.streetBet g.toAct = g.pot + called.streetBet g.toAct)
      (hend : StreetPaid called g' ∨ (g'.phase = g.phase ∧ g'.pot = called.pot ∧ g'.seats = called.seats)) : ActionPaid g g'

theorem Booked.note (hb : Booked total g) (hcount : g.actionsThisStreet < u8Max) : Booked total (g.note p action) := by
  have hfits : decide (g.actionsThisStreet + 1 ≤ u8Max) = true := decide_eq_true hcount
  have hover : (g.note p action).overflowed = g.overflowed := by
    simp only [GameState.note, hfits, arith, Bool.not_true, Bool.or_false]
  exact ⟨hb.sum, hover.trans hb.inRange, hb.bets, hb.rest, hb.hands, hb.playing, hb.played, hb.won⟩

theorem Booked.acted (hb : Booked total g) (hfits : total ≤ u32Max) (hu : g.Underway) (hstreet : g.phase.betting = true)
    (h : Acted g g') : Booked total g' ∧ ActionPaid g g' := by
  cases h with
  | folded hpaid hphase =>
    have hshare : (if HeadsUpSeat.first = g.toAct.other then g.pot else 0) +
        (if HeadsUpSeat.second = g.toAct.other then g.pot else 0) =
        g.pot := by
      cases g.toAct <;> simp [HeadsUpSeat.other]
    obtain ⟨hbooked, hstack⟩ := hpaid.booked hfits hb (hb.playing hstreet) hshare (by rw [hphase]; rfl)
    refine ⟨hbooked, .folded hphase hpaid.pot ?_ ?_⟩
    · rw [hstack, if_neg (by simp), Nat.add_zero]
    · rw [hstack, if_pos rfl]
  | @closed called hw honly hclosed =>
    have hbooked := hb.wagered hfits hstreet hw honly
    obtain ⟨hover, hpaid⟩ := hbooked.advance hfits (hw.range hu.range) (hw.playing hu.playing)
      (by rw [honly.phase]; exact hstreet)
    exact ⟨hover, .wagered hw.other hw.chips (hb.wagered_pot hfits hw) (.inl hpaid)⟩
  | @answers called hw honly hanswers =>
    have hbooked := hb.wagered hfits hstreet hw honly
    refine ⟨⟨hbooked.sum, hbooked.inRange, hbooked.bets, hbooked.rest, hbooked.hands, hbooked.playing, hbooked.played,
      hbooked.won⟩, ?_⟩
    exact .wagered hw.other hw.chips (hb.wagered_pot hfits hw) (.inr ⟨honly.phase, rfl, rfl⟩)

/-! ## Runs -/

/-- Hands are played one after the other: a new one starts when the last is over. -/
def playStep (g : GameState) : GameOp → Option GameState
  | .startNewHand deck => if g.phase.betting then none else g.step (.startNewHand deck)
  | .command command => g.step (.command command)
  | .runout => g.step .runout

def play (g : GameState) : List GameOp → Option GameState
  | [] => some g
  | op :: ops => (g.playStep op).bind (play · ops)

/-- The counter the operation adds to has room: a street's actions, the hands dealt. -/
def Counted (g : GameState) : GameOp → Prop
  | .startNewHand _ => g.handNumber < u32Max
  | .command command => g.validateCommand command = .ok () → g.actionsThisStreet < u8Max
  | .runout => True

/-- Every operation of the run finds room in its counter. -/
def AllCounted : GameState → List GameOp → Prop
  | _, [] => True
  | g, op :: ops => g.Counted op ∧ ∀ g', g.playStep op = some g' → AllCounted g' ops

theorem playStep_step {op : GameOp} (h : g.playStep op = some g') : g.step op = some g' := by
  cases op with
  | startNewHand deck =>
    simp only [playStep] at h
    split at h
    · cases h
    · exact h
  | command command => exact h
  | runout => exact h

/-- Between two hands every chip is in a stack. -/
structure Rested (total : Nat) (g : GameState) : Prop where
  sum : g.stack .first + g.stack .second = total
  inRange : g.overflowed = false
  played : g.handsPlayed ≤ g.handNumber
  won : ∀ p, (g.seatStats.get p).handsWon ≤ g.handsPlayed

theorem Booked.rested (hb : Booked total g) (hover : g.phase.betting = false) : Rested total g := by
  have hsum := hb.sum
  have hrest := hb.rest hover
  unfold chips at hsum
  exact ⟨by omega, hb.inRange, hb.played, hb.won⟩

theorem Rested.newHand {deck : Deck} (hb : Rested total g) (h : NewHand g deck g') (hpos : ∀ p, 0 < g.stack p)
    (hcount : g.handNumber < u32Max) : Booked total g' := by
  obtain ⟨hsmallStack, hsmallBet, hbigStack, hbigBet⟩ := h.chips hpos
  have hsum : g.stack g.button + g.stack g.button.other = total := by
    have := hb.sum
    cases g.button <;> simp only [HeadsUpSeat.other] <;> omega
  have hps := hpos g.button.other
  have hplayed := hb.played
  have hpot : g'.pot = min 1 (g.stack g.button.other) + min 2 (g.stack g.button) := h.pot
  have hfits : fitsU32 (g.handNumber + 1) = true := decide_eq_true (by omega)
  have hnumber : g'.handNumber = g.handNumber + 1 := by rw [h.handNumber, wrap32_of_le (by omega)]
  refine ⟨?_, ?_, ?_, ?_, by omega, ?_, ?_, ?_⟩
  · rw [chips_eq g' g.button]
    omega
  · rw [h.overflowed, hfits, hb.inRange]
    rfl
  · intro _
    rw [bets_eq g' g.button]
    omega
  · intro hstreet
    rw [h.phase] at hstreet
    cases hstreet
  · intro _
    rw [h.handsPlayed]
    omega
  · rw [h.handsPlayed]
    omega
  · intro p
    rw [h.seatStats, h.handsPlayed]
    exact hb.won p

/-- A new hand of a run, as `start_new_hand` deals it. -/
theorem playStep_startNewHand {deck : Deck} (ha : AtTable g) (h : g.playStep (.startNewHand deck) = some g') :
    g.phase.betting = false ∧ (∀ p, 0 < g.stack p) ∧ NewHand g deck g' := by
  simp only [playStep, GameState.step] at h
  split at h
  · cases h
  rename_i hover
  split at h
  · rename_i hboth
    have hpos (p : HeadsUpSeat) : 0 < g.stack p := by
      cases p
      · exact hboth.1
      · exact hboth.2
    cases h
    exact ⟨by simpa using hover, hpos, startNewHand_spec (eligible_of_active ha.active hpos) ha.chips deck⟩
  · cases h

theorem playStep_runout (h : g.playStep .runout = some g') : g.RunsOut ∧ g' = g.advancePhase := by
  simp only [playStep, GameState.step] at h
  split at h
  · rename_i hout
    cases h
    exact ⟨hout, rfl⟩
  · cases h

/-- An accepted command of a run: the action noted, then its chips. -/
theorem accepted_acted {command : SeatCommand} (ha : AtTable g) (hv : g.validateCommand command = .ok ()) :
    g.phase.betting = true ∧ Acted (g.note g.toAct command.action) (g.applyCommand command).2 := by
  obtain ⟨hstreet, -, hturn, haction⟩ := validateCommand_ok hv
  obtain ⟨error, herror, -⟩ | ⟨-, heq⟩ := g.applyCommand_cases command
  · rw [hv] at herror
    cases herror
  · rw [heq]
    exact ⟨hstreet, (ha.underway hstreet).act hturn haction⟩

theorem Booked.command {command : SeatCommand} (hb : Booked total g) (hfits : total ≤ u32Max) (ha : AtTable g)
    (hv : g.validateCommand command = .ok ()) (hcount : g.actionsThisStreet < u8Max) :
    Booked total (g.applyCommand command).2 ∧ ActionPaid g (g.applyCommand command).2 := by
  obtain ⟨hstreet, hacted⟩ := accepted_acted ha hv
  obtain ⟨hbooked, hpaid⟩ := (hb.note hcount).acted hfits (ha.note.underway hstreet) hstreet hacted
  refine ⟨hbooked, ?_⟩
  cases hpaid with
  | folded hphase hpot hself hother => exact .folded hphase hpot hself hother
  | wagered hother hself hpot hend => exact .wagered hother hself hpot hend

theorem Booked.playStep {op : GameOp} (hb : Booked total g) (hfits : total ≤ u32Max) (ha : AtTable g) (hcount : g.Counted op)
    (h : g.playStep op = some g') : Booked total g' := by
  cases op with
  | startNewHand deck =>
    obtain ⟨hover, hpos, hnew⟩ := playStep_startNewHand ha h
    exact (hb.rested hover).newHand hnew hpos hcount
  | command command =>
    cases h
    cases hv : g.validateCommand command with
    | error error =>
      have hsame : (g.applyCommand command).2 = g := by simp [applyCommand, hv]
      rw [hsame]
      exact hb
    | ok _ => exact (hb.command hfits ha hv (hcount hv)).1
  | runout =>
    obtain ⟨hout, heq⟩ := playStep_runout h
    have hu := ha.underway hout.1
    rw [heq]
    exact (hb.advance hfits hu.range hu.playing hout.1).1

/-! ### Sums out of range

What has left its range stays so. -/

section Overflowed

variable {amount : Nat} (h : g.overflowed = true)

include h

theorem addChips_keeps : (g.addChips p amount).overflowed = true := by simp [addChips, h]

theorem wagerTo_keeps : (g.wagerTo p amount).overflowed = true := by
  refine addChips_keeps ?_
  simp [arith, h]

theorem raised_keeps {oldMax : Nat} : (g.raised p amount oldMax).overflowed = true := by simp [raised, arith, h]

theorem wager_keeps : (g.wager p action).overflowed = true := by
  cases action with
  | fold | check => exact h
  | call amount => exact addChips_keeps h
  | bet amount | raise amount => exact raised_keeps (wagerTo_keeps h)
  | allIn amount =>
    have hin : ((g.wagerTo p amount).seatMut p fun st => { st with handParticipation := .allIn }).overflowed = true :=
      wagerTo_keeps h
    simp only [wager]
    split
    · exact raised_keeps hin
    · exact hin

theorem pay_keeps : (g.pay p amount).overflowed = true := by simp [pay, arith, seatMut, h]

theorem recordResult_keeps : (g.recordResult p amount).overflowed = true := by simp [recordResult, arith, h]

theorem endHand_keeps {phase : GamePhase} : (g.endHand phase).overflowed = true := by simp [endHand, arith, h]

theorem handleFold_keeps : (g.handleFold p).overflowed = true := by
  refine endHand_keeps (recordResult_keeps (pay_keeps ?_))
  exact h

theorem collectBets_keeps : g.collectBets.overflowed = true := by
  have hsame : g.collectBets.overflowed = g.returnUncalledHeadsUpExcess.overflowed := rfl
  rw [hsame]
  obtain ⟨-, heq⟩ | ⟨q, -, heq⟩ := returnUncalled_cases g
  · rw [heq]
    exact h
  · rw [heq]
    simp [refund, h]

theorem resolveShowdown_keeps : g.resolveShowdown.overflowed = true := by
  refine endHand_keeps ?_
  dsimp only
  split
  · exact recordResult_keeps (pay_keeps h)
  · exact pay_keeps (pay_keeps h)

theorem advancePhase_keeps (hstreet : g.phase.betting = true) : g.advancePhase.overflowed = true := by
  obtain ⟨-, heq⟩ | ⟨cards, phase, heq, -⟩ := advancePhase_cases hstreet
  · rw [heq]
    exact resolveShowdown_keeps (collectBets_keeps h)
  · rw [heq, (openStreet_opened ..).overflowed]
    exact collectBets_keeps h

theorem conclude_keeps (hstreet : g.phase.betting = true) : (g.conclude p).overflowed = true := by
  simp only [conclude]
  split
  · exact advancePhase_keeps h hstreet
  · exact h

theorem postBlind_keeps : (g.postBlind p amount).overflowed = true := by
  simp only [postBlind]
  split
  · exact addChips_keeps h
  · exact addChips_keeps h

theorem dealSeat_keeps : (g.dealSeat p).overflowed = true := by
  simp only [dealSeat]
  split
  · exact h
  · exact h

theorem startNewHand_keeps (deck : Deck) : (g.startNewHand deck).overflowed = true := by
  refine postBlind_keeps (postBlind_keeps ?_)
  refine dealSeat_keeps (dealSeat_keeps ?_)
  simp [clearHand, expect, h]

end Overflowed

/-- An action is counted first. -/
theorem applyValidatedAction_keeps (h : (g.note p action).overflowed = true) (hstreet : g.phase.betting = true) :
    (g.applyValidatedAction p action).overflowed = true := by
  simp only [applyValidatedAction]
  split
  · exact handleFold_keeps h
  · refine conclude_keeps (wager_keeps h) ?_
    rw [(wager_only action).phase]
    exact hstreet

theorem note_overflowed : (g.note p action).overflowed = (g.overflowed || !decide (g.actionsThisStreet + 1 ≤ u8Max)) := rfl

theorem playStep_keeps {op : GameOp} (ha : AtTable g) (h : g.playStep op = some g') (hover : g.overflowed = true) :
    g'.overflowed = true := by
  cases op with
  | startNewHand deck =>
    obtain ⟨-, -, hnew⟩ := playStep_startNewHand ha h
    rw [hnew.overflowed, hover]
    rfl
  | command command =>
    cases h
    obtain ⟨_, _, heq⟩ | ⟨hv, heq⟩ := g.applyCommand_cases command
    · rw [heq]
      exact hover
    · rw [heq]
      exact applyValidatedAction_keeps (by rw [note_overflowed, hover]; rfl) (validateCommand_ok hv).1
  | runout =>
    obtain ⟨hout, heq⟩ := playStep_runout h
    rw [heq]
    exact advancePhase_keeps hover hout.1

/-- An operation without room in its counter leaves the range. -/
theorem playStep_uncounted {op : GameOp} (ha : AtTable g) (h : g.playStep op = some g') (hcount : ¬ g.Counted op) :
    g'.overflowed = true := by
  cases op with
  | startNewHand deck =>
    obtain ⟨-, -, hnew⟩ := playStep_startNewHand ha h
    have hfits : fitsU32 (g.handNumber + 1) = false := decide_eq_false (by unfold Counted at hcount; omega)
    rw [hnew.overflowed, hfits]
    simp
  | command command =>
    unfold Counted at hcount
    push Not at hcount
    obtain ⟨hv, hfull⟩ := hcount
    cases h
    obtain ⟨_, herror, _⟩ | ⟨hv, heq⟩ := g.applyCommand_cases command
    · rw [hv] at herror
      cases herror
    · rw [heq]
      refine applyValidatedAction_keeps ?_ (validateCommand_ok hv).1
      have hfits : decide (g.actionsThisStreet + 1 ≤ u8Max) = false := decide_eq_false (by omega)
      rw [note_overflowed, hfits]
      simp
  | runout => exact absurd trivial hcount

/-! ### Whole runs -/

theorem AtTable.play {ops : List GameOp} (ha : AtTable g) (h : g.play ops = some g') : AtTable g' := by
  induction ops generalizing g with
  | nil =>
    cases h
    exact ha
  | cons op ops ih =>
    obtain ⟨next, hstep, hrest⟩ := Option.bind_eq_some_iff.mp h
    exact ih (ha.step (playStep_step hstep)) hrest

theorem Booked.play {ops : List GameOp} (hb : Booked total g) (hfits : total ≤ u32Max) (ha : AtTable g)
    (hcount : g.AllCounted ops)
    (h : g.play ops = some g') : Booked total g' := by
  induction ops generalizing g with
  | nil =>
    cases h
    exact hb
  | cons op ops ih =>
    obtain ⟨next, hstep, hrest⟩ := Option.bind_eq_some_iff.mp h
    exact ih (hb.playStep hfits ha hcount.1 hstep) (ha.step (playStep_step hstep)) (hcount.2 next hstep) hrest

theorem play_keeps {ops : List GameOp} (ha : AtTable g) (h : g.play ops = some g') (hover : g.overflowed = true) :
    g'.overflowed = true := by
  induction ops generalizing g with
  | nil =>
    cases h
    exact hover
  | cons op ops ih =>
    obtain ⟨next, hstep, hrest⟩ := Option.bind_eq_some_iff.mp h
    exact ih (ha.step (playStep_step hstep)) hrest (playStep_keeps ha hstep hover)

/-- A run that stays in range found room in every counter. -/
theorem allCounted_of_inRange {ops : List GameOp} (ha : AtTable g) (h : g.play ops = some g') (hrange : g'.overflowed = false) :
    g.AllCounted ops := by
  induction ops generalizing g with
  | nil => trivial
  | cons op ops ih =>
    obtain ⟨next, hstep, hrest⟩ := Option.bind_eq_some_iff.mp h
    have hnext := ha.step (playStep_step hstep)
    refine ⟨?_, ?_⟩
    · by_contra hcount
      have hover := play_keeps hnext hrest (playStep_uncounted ha hstep hcount)
      rw [hrange] at hover
      cases hover
    · intro g₁ hg₁
      cases hstep.symm.trans hg₁
      exact ih hnext hrest

/-! ### The first hand -/

theorem unplayed_rested {s : Nat} (hs : s * bigBlind ≤ u32Max) : Rested (4 * s) (unplayed s) := by
  have hwrap : wrap32 (s * bigBlind) = s * bigBlind := wrap32_of_le hs
  have hfits : fitsU32 (s * bigBlind) = true := decide_eq_true hs
  refine ⟨?_, ?_, Nat.le_refl _, ?_⟩
  · rw [unplayed_stack, unplayed_stack, hwrap]
    unfold bigBlind
    omega
  · have h : (unplayed s).overflowed = !fitsU32 (s * bigBlind) := rfl
    rw [h, hfits]
    rfl
  · intro p
    cases p <;> exact Nat.le_refl _

theorem stack_ne_zero {s : Nat} (hpos : 0 < s) (hs : s * bigBlind ≤ u32Max) : wrap32 (s * bigBlind) ≠ 0 := by
  rw [wrap32_of_le hs]
  unfold bigBlind
  omega

theorem new_booked {s : Nat} (hpos : 0 < s) (hs : s * bigBlind ≤ u32Max) (deck : Deck) : Booked (4 * s) (new s deck) := by
  have hstack := stack_ne_zero hpos hs
  refine (unplayed_rested hs).newHand (new_newHand hstack deck) (unplayed_pos hstack) ?_
  have h : (unplayed s).handNumber = 0 := rfl
  rw [h]
  decide

/-! ### Two seats all in -/

/-- Chips put in without leaving the range are all in the pot. -/
theorem allIn_pot {amount : Nat} (hle : g.streetBet p ≤ amount) (hall : amount = g.streetBet p + g.stack p)
    (h : (g.wager p (.allIn amount)).overflowed = false) :
    g.pot + g.stack p ≤ u32Max ∧ (g.wager p (.allIn amount)).pot = g.pot + g.stack p := by
  have hadd : amount - g.streetBet p = g.stack p := by omega
  have hsame : (g.wager p (.allIn amount)).pot = (g.addChips p (g.stack p)).pot ∧
      ((g.addChips p (g.stack p)).overflowed = true → (g.wager p (.allIn amount)).overflowed = true) := by
    simp only [wager, wagerTo_eq hle, hadd]
    split
    · exact ⟨rfl, fun hover => raised_keeps (by exact hover)⟩
    · exact ⟨rfl, fun hover => hover⟩
  have hrange : (g.addChips p (g.stack p)).overflowed = false := by
    by_contra hover
    rw [hsame.2 (by simpa using hover)] at h
    cases h
  have hfits : g.pot + g.stack p ≤ u32Max := by
    simp only [addChips, Nat.min_self, Bool.or_eq_false_iff, Bool.not_eq_false', Bool.and_eq_true, fitsU32,
      decide_eq_true_eq] at hrange
    exact hrange.2.2
  refine ⟨hfits, hsame.1.trans ?_⟩
  have hpot : (g.addChips p (g.stack p)).pot = wrap32 (g.pot + min (g.stack p) (g.stack p)) := rfl
  rw [hpot, Nat.min_self, wrap32_of_le hfits]

/-- The chips of an all-in. -/
structure AllIn (g called : GameState) : Prop where
  wagered : Wagered g.toAct (g.note g.toAct (.allIn (g.streetBet g.toAct + g.stack g.toAct))) called
  spent : called.stack g.toAct = 0
  pot : called.overflowed = false → g.pot + g.stack g.toAct ≤ u32Max ∧ called.pot = g.pot + g.stack g.toAct
  street : called.phase = g.phase

/-- The seat whose turn it is goes all in. -/
theorem applyCommand_allIn (ha : AtTable g) (hstreet : g.phase.betting = true) (hturn : (g.seat g.toAct).eligibleToAct = true) :
    ∃ called, AllIn g called ∧
      (g.applyCommand ⟨g.toAct.seatId, .allIn (g.streetBet g.toAct + g.stack g.toAct)⟩).2 = called.conclude g.toAct := by
  have hu := ha.underway hstreet
  have hrange := hu.range g.toAct
  have hself := eligibleToAct_iff.mp hturn
  have htotal : saturatingAdd (g.streetBet g.toAct) (g.stack g.toAct) = g.streetBet g.toAct + g.stack g.toAct := by
    unfold saturatingAdd
    omega
  have hv := accepts_allIn hstreet hturn
  rw [htotal] at hv
  obtain ⟨error, herror, -⟩ | ⟨-, heq⟩ := g.applyCommand_cases
    ⟨g.toAct.seatId, .allIn (g.streetBet g.toAct + g.stack g.toAct)⟩
  · rw [hv] at herror
    cases herror
  refine ⟨(g.note g.toAct _).wager g.toAct (.allIn (g.streetBet g.toAct + g.stack g.toAct)),
    ⟨wagered hu.range hself.1 (validateCommand_ok hv).2.2.2 (by simp), ?_, ?_, (wager_only _).phase⟩, heq⟩
  · have hseat := allIn_seat (g := g.note g.toAct (.allIn (g.streetBet g.toAct + g.stack g.toAct))) (p := g.toAct) hu.range rfl
    have hstack := congrArg SeatState.stack hseat
    simp only [wager]
    split
    · exact hstack
    · exact hstack
  · intro hkept
    exact allIn_pot (g := g.note g.toAct (.allIn (g.streetBet g.toAct + g.stack g.toAct))) (Nat.le_add_right ..) rfl hkept

/-- An all-in the other seat has chips to answer is followed by its turn. -/
theorem AllIn.answered (h : AllIn g called) (ha : AtTable g) (hstreet : g.phase.betting = true)
    (hturn : (g.seat g.toAct).eligibleToAct = true) (hother : 0 < g.stack g.toAct.other)
    (hlt : g.streetBet g.toAct.other < g.streetBet g.toAct + g.stack g.toAct) :
    called.conclude g.toAct = { called with toAct := g.toAct.other } ∧ Answers { called with toAct := g.toAct.other } := by
  have hself := (eligibleToAct_iff.mp hturn).2
  have hlive := (ha.underway hstreet).betting.live_other hturn
  have hbet := h.wagered.streetBet_other
  have hstack := h.wagered.stack_other
  have hchips := h.wagered.chips
  have hspent := h.spent
  obtain ⟨hclosed, -⟩ | hanswers := h.wagered.conclude hself hlive
  · exfalso
    obtain hboth | ⟨p, hzero, hle⟩ := hclosed
    · have := (eligibleToAct_iff.mp (hboth g.toAct).1).1
      omega
    · obtain rfl | rfl := g.toAct.eq_or_other p
      · have hsum : called.streetBet g.toAct = g.stack g.toAct + g.streetBet g.toAct := by
          rw [hspent, Nat.zero_add] at hchips
          exact hchips
        have hsame : called.streetBet g.toAct.other = g.streetBet g.toAct.other := hbet
        omega
      · have hsame : called.stack g.toAct.other = g.stack g.toAct.other := hstack
        omega
  · exact hanswers

/-- Both seats put everything in on the first hand. -/
def allInOps (s : Nat) : List GameOp := [.command ⟨0, .allIn (2 * s)⟩, .command ⟨1, .allIn (2 * s)⟩]

/-- From 2^30 big blinds on the pot of two seats all in does not fit. -/
theorem allIn_overflows {s : Nat} (hlow : 2 ^ 30 ≤ s) (hhigh : s < 2 ^ 31) (deck : Deck) :
    ∃ g, (new s deck).play (allInOps s) = some g ∧ g.overflowed = true := by
  have hscaled : s * bigBlind ≤ u32Max := by
    unfold bigBlind u32Max
    omega
  have hstack := stack_ne_zero (by omega) hscaled
  have hnew := new_newHand hstack deck
  have htwo (p : HeadsUpSeat) : (unplayed s).stack p = 2 * s := by
    rw [unplayed_stack, wrap32_of_le hscaled]
    exact Nat.mul_comm ..
  have hfirst : (new s deck).stack .first = 2 * s - 1 := by rw [← htwo .first]; exact (hnew.chips (unplayed_pos hstack)).1
  have hfirstBet : (new s deck).streetBet .first = 1 := (hnew.chips (unplayed_pos hstack)).2.1
  have hsecond : (new s deck).stack .second = 2 * s - 2 := by rw [← htwo .second]; exact (hnew.chips (unplayed_pos hstack)).2.2.1
  have hsecondBet : (new s deck).streetBet .second = 2 := by
    refine (hnew.chips (unplayed_pos hstack)).2.2.2.trans ?_
    rw [htwo]
    omega
  have hpot : (new s deck).pot = 3 := by
    refine hnew.pot.trans ?_
    rw [htwo, htwo]
    unfold smallBlind bigBlind
    omega
  have hturn : (new s deck).toAct = .first := hnew.toAct
  have ha := new_atTable hstack deck
  have hstreet : (new s deck).phase.betting = true := by rw [hnew.phase]; rfl
  have hact := (hnew.answers (unplayed_pos hstack) (by rw [htwo]; omega)).turn
  generalize new s deck = g at hfirst hfirstBet hsecond hsecondBet hpot hturn ha hstreet hact
  -- the button's all-in
  obtain ⟨called, hallIn, heq⟩ := applyCommand_allIn ha hstreet hact
  obtain ⟨hnext, hanswers⟩ := hallIn.answered ha hstreet hact (by rw [hturn, HeadsUpSeat.other]; omega)
    (by rw [hturn, HeadsUpSeat.other]; omega)
  have hamount : g.streetBet g.toAct + g.stack g.toAct = 2 * s := by rw [hturn]; omega
  have hpotted := hallIn.pot
  have hother : called.seat .second = g.seat .second := by
    have h := hallIn.wagered.other
    rw [hturn] at h
    exact h
  have hstreet' : called.phase.betting = true := by rw [hallIn.street]; exact hstreet
  rw [hnext, hamount, hturn] at heq
  rw [hturn] at hanswers hpotted
  have hstep : g.step (.command ⟨0, .allIn (2 * s)⟩) = some { called with toAct := .second } := congrArg some heq
  have ha' := ha.step hstep
  -- the answer
  obtain ⟨called', hallIn', heq'⟩ := applyCommand_allIn ha' hstreet' hanswers.turn
  have hstack' : called.stack .second = g.stack .second := congrArg SeatState.stack hother
  have hbet' : called.streetBet .second = g.streetBet .second := congrArg SeatState.streetBet hother
  have hamount' : called.streetBet .second + called.stack .second = 2 * s := by omega
  have hpotted' := hallIn'.pot
  have hstep' : playStep { called with toAct := .second } (.command ⟨1, .allIn (2 * s)⟩) = some (called'.conclude .second) := by
    rw [← hamount']
    exact congrArg some heq'
  refine ⟨called'.conclude .second, ?_, ?_⟩
  · have hrun : g.play (allInOps s) = (g.step (.command ⟨0, .allIn (2 * s)⟩)).bind (play · [.command ⟨1, .allIn (2 * s)⟩]) := rfl
    rw [hrun, hstep, Option.bind_some, play, hstep']
    rfl
  · by_contra hrange
    have hkept : called'.overflowed = false := by
      by_contra hover
      exact hrange (conclude_keeps (by simpa using hover) (by rw [hallIn'.street]; exact hstreet'))
    have hfine : called.overflowed = false := by
      by_contra hover
      exact hrange (playStep_keeps ha' hstep' (by simpa using hover))
    have hone := (hpotted hfine).2
    have htwo : called.pot + called.stack .second ≤ u32Max := (hpotted' hkept).1
    unfold u32Max at htwo
    omega

/-! ### The command line's stacks -/

theorem new_overflows {s : Nat} (hs : 2 ^ 31 ≤ s) (deck : Deck) : (new s deck).overflowed = true := by
  have hfits : fitsU32 (s * bigBlind) = false := by
    refine decide_eq_false ?_
    unfold bigBlind u32Max
    omega
  refine startNewHand_keeps ?_ deck
  have h : (unplayed s).overflowed = !fitsU32 (s * bigBlind) := rfl
  rw [h, hfits]
  rfl

end GameState

end OpenFelt
