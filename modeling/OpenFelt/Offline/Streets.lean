/-
  OpenFelt.Offline.Streets — the offline game always has a next step (`apply_command`,
  `is_betting_round_complete`, `advance_phase`, `start_new_hand`).

  Proved, over every run of new hands (both seats with chips), commands and the driver's
  advances of a street nobody owes a response on: the betting is `contested` (both seats can
  act), `called` (one is all in and the other's turn has come), a `runout` (the bets are in
  and a seat has no chips) or `blinded` (the small blind took the button's last chip)
  (`AtTable.step`). In the first two the turn is with a seat that can act.
-/

import OpenFelt.Offline.Wagers

namespace OpenFelt

/-- The board cards of a street. -/
def GamePhase.boardLength : GamePhase → Nat
  | preflop => 0
  | flop => 3
  | turn => 4
  | river | showdown | handComplete | sessionEnd | summary => 5

namespace GameState

variable {g g' : GameState} {p q : HeadsUpSeat} {action : Action}

/-! ## The next street -/

/-- After the river comes the showdown, before it the next street. -/
theorem advancePhase_cases (hb : g.phase.betting = true) :
    (g.phase = .river ∧ g.advancePhase = g.collectBets.resolveShowdown) ∨
      ∃ cards phase, g.advancePhase = g.collectBets.openStreet cards phase ∧ phase.betting = true ∧ phase ≠ .preflop ∧
        0 < cards ∧ g.phase.boardLength + cards = phase.boardLength := by
  have hphase : g.collectBets.phase = g.phase := collectBets_only.phase
  cases h : g.phase with
  | preflop => exact .inr ⟨3, .flop, by simp [advancePhase, hphase, h], rfl, by decide, by decide, rfl⟩
  | flop => exact .inr ⟨1, .turn, by simp [advancePhase, hphase, h], rfl, by decide, by decide, rfl⟩
  | turn => exact .inr ⟨1, .river, by simp [advancePhase, hphase, h], rfl, by decide, by decide, rfl⟩
  | river => exact .inl ⟨rfl, by simp [advancePhase, hphase, h]⟩
  | showdown | handComplete | sessionEnd | summary => simp [h, GamePhase.betting] at hb

/-- A street opens with its cards on the board and the turn of the seat after the button, if that can act. -/
structure Opened (cards : Nat) (phase : GamePhase) (g g' : GameState) : Prop where
  seats : g'.seats = g.seats
  phase : g'.phase = phase
  button : g'.button = g.button
  board : g'.board = g.board ++ (g.deck.dealN cards).1
  deck : g'.deck = (g.deck.dealN cards).2
  toAct : g'.toAct = if (g.seat g.button.other).eligibleToAct then g.button.other else g.toAct
  pot : g'.pot = g.pot
  overflowed : g'.overflowed = g.overflowed
  panicked : g'.panicked = g.panicked
  handNumber : g'.handNumber = g.handNumber
  handsPlayed : g'.handsPlayed = g.handsPlayed
  seatStats : g'.seatStats = g.seatStats
  actions : g'.actionsThisStreet = g.actionsThisStreet
  aggressor : g'.lastAggressor = g.lastAggressor

theorem openStreet_opened (g : GameState) (cards : Nat) (phase : GamePhase) :
    Opened cards phase g (g.openStreet cards phase) := by
  refine ⟨rfl, rfl, rfl, rfl, rfl, ?_, rfl, rfl, rfl, rfl, rfl, rfl, rfl, rfl⟩
  have h : (g.openStreet cards phase).toAct = (g.nextToAct g.button).getD g.toAct := rfl
  rw [h, nextToAct, nextEligible]
  split <;> rfl

/-! ## The betting of a street -/

/-- The turn is with a seat that can act: both can, or the other is all in and covers it. -/
inductive Answers (g : GameState) : Prop where
  | contested (hact : ∀ p, (g.seat p).eligibleToAct = true)
  | called (hturn : (g.seat g.toAct).eligibleToAct = true) (hzero : g.stack g.toAct.other = 0)
      (hle : g.streetBet g.toAct ≤ g.streetBet g.toAct.other)
      (hlt : g.phase ≠ .preflop → g.streetBet g.toAct < g.streetBet g.toAct.other)

/-- Whose turn it is, or why nobody can act. -/
inductive Betting (g : GameState) : Prop where
  | turn (hturn : g.Answers)
  | runout (hstreet : g.phase ≠ .preflop) (hbets : ∀ p, g.streetBet p = 0) (hzero : ∃ p, g.stack p = 0)
  | blinded (hstreet : g.phase = .preflop) (hturn : g.toAct = g.button) (hzero : g.stack g.button = 0)
      (hle : g.streetBet g.button ≤ g.streetBet g.button.other)

structure Underway (g : GameState) : Prop where
  range : g.InRange
  playing : ∀ p, (g.seat p).eligibleForPot = true
  betting : g.Betting

/-- Both seats hold their places and chips in range, and a hand being played has its betting in order. -/
structure AtTable (g : GameState) : Prop where
  active : ∀ p, (g.seat p).tableParticipation = .active
  chips : ∀ p, g.stack p ≤ u32Max
  panicked : g.panicked = false
  underway : g.phase.betting = true → g.Underway

/-- The bets are settled: both seats can act on equal bets, or a seat with no chips left is covered. -/
def Closed (g : GameState) : Prop :=
  (∀ p, (g.seat p).eligibleToAct = true ∧ g.streetBet p = g.streetBet p.other) ∨
    ∃ p, g.stack p = 0 ∧ g.streetBet p ≤ g.streetBet p.other

theorem HandPaid.atTable {share : HeadsUpSeat → Nat} (h : HandPaid share g g')
    (hactive : ∀ p, (g.seat p).tableParticipation = .active)
    (hstacks : ∀ p, g.stack p ≤ u32Max) (hpanicked : g.panicked = false) (hphase : g'.phase.betting = false) : AtTable g' := by
  refine ⟨fun p => (h.table p).trans (hactive p), ?_, h.panicked.trans hpanicked, ?_⟩
  · intro p
    rw [h.stack p (hstacks p)]
    exact wrap32_le _
  · intro hb
    rw [hphase] at hb
    cases hb

/-- The street after a settled one. -/
theorem Closed.advance (hc : Closed g) (hr : g.InRange) (hplaying : ∀ p, (g.seat p).eligibleForPot = true)
    (hactive : ∀ p, (g.seat p).tableParticipation = .active) (hpanicked : g.panicked = false) (hb : g.phase.betting = true) :
    AtTable g.advancePhase := by
  have hseat := collectBets_seat hr
  have hstack := collectBets_stack hr
  have honly : OnlyChips g g.collectBets := collectBets_only
  have hrange (p : HeadsUpSeat) : g.collectBets.stack p ≤ u32Max := by
    have := hr p
    rw [hstack]
    omega
  obtain ⟨-, h⟩ | ⟨cards, phase, h, -, hpre, -⟩ := advancePhase_cases hb
  · rw [h]
    refine (resolveShowdown_paid ?_).atTable (fun p => (honly.table p).trans (hactive p)) hrange
      (honly.panicked.trans hpanicked) rfl
    rw [hseat]
    exact hplaying _
  rw [h]
  have ho := openStreet_opened g.collectBets cards phase
  generalize g.collectBets.openStreet cards phase = g' at ho
  have hsame (p : HeadsUpSeat) : g'.seat p =
      { g.seat p with stack := g.stack p + (g.streetBet p - g.streetBet p.other), streetBet := 0 } := by
    rw [seat, ho.seats]
    exact hseat p
  have hbets (p : HeadsUpSeat) : g'.streetBet p = 0 := by rw [streetBet, hsame]
  have hstack' (p : HeadsUpSeat) : g'.stack p = g.stack p + (g.streetBet p - g.streetBet p.other) := by rw [stack, hsame]
  refine ⟨?_, ?_, ?_, fun _ => ⟨?_, ?_, ?_⟩⟩
  · intro p
    rw [hsame]
    exact hactive p
  · intro p
    have := hr p
    rw [hstack']
    omega
  · exact ho.panicked.trans (honly.panicked.trans hpanicked)
  · intro p
    have := hr p
    rw [hbets, hstack']
    omega
  · intro p
    rw [hsame]
    exact hplaying p
  obtain hboth | ⟨p, hzero, hle⟩ := hc
  · refine .turn (.contested ?_)
    intro p
    obtain ⟨hact, heq⟩ := hboth p
    rw [hsame, heq, Nat.sub_self, Nat.add_zero]
    exact hact
  · refine .runout (by rw [ho.phase]; exact hpre) hbets ⟨p, ?_⟩
    rw [hstack', hzero]
    omega

/-! ## An action's end -/

theorem complete_of_spent (hzero : ∀ p, g.stack p = 0) : g.isBettingRoundComplete = true := by
  simp [isBettingRoundComplete, hzero]

/-- With one seat out of chips a round is complete once the other covers it. -/
theorem complete_iff_covered (hzero : g.stack p = 0) (hpos : 0 < g.stack p.other) :
    g.isBettingRoundComplete = true ↔ g.streetBet p ≤ g.streetBet p.other := by
  have hne : g.stack p.other ≠ 0 := by omega
  cases p with
  | first =>
    simp only [HeadsUpSeat.other] at hne ⊢
    simp [isBettingRoundComplete, hzero, hne]
    omega
  | second =>
    simp only [HeadsUpSeat.other] at hne ⊢
    simp [isBettingRoundComplete, hzero, hne]
    omega

theorem equal_of_complete (hpos : ∀ p, 0 < g.stack p) (h : g.isBettingRoundComplete = true) (p : HeadsUpSeat) :
    g.streetBet p = g.streetBet p.other := by
  have hfirst : g.stack .first ≠ 0 := by have := hpos .first; omega
  have hsecond : g.stack .second ≠ 0 := by have := hpos .second; omega
  have heq : g.streetBet .first = g.streetBet .second := by
    by_contra hne
    simp [isBettingRoundComplete, hfirst, hsecond, hne] at h
  cases p
  · exact heq
  · exact heq.symm

/-- A round is complete only when its bets are settled. -/
theorem closed_of_complete (h : g.isBettingRoundComplete = true) (hlive : ∀ p, 0 < g.stack p → (g.seat p).eligibleToAct = true) :
    Closed g := by
  by_cases hpos : ∀ p, 0 < g.stack p
  · exact .inl fun p => ⟨hlive p (hpos p), equal_of_complete hpos h p⟩
  push Not at hpos
  obtain ⟨p, hp⟩ := hpos
  have hzero : g.stack p = 0 := by omega
  by_cases hother : g.stack p.other = 0
  · obtain hle | hle := Nat.le_total (g.streetBet p) (g.streetBet p.other)
    · exact .inr ⟨p, hzero, hle⟩
    · exact .inr ⟨p.other, hother, by rwa [HeadsUpSeat.other_other]⟩
  · exact .inr ⟨p, hzero, (complete_iff_covered hzero (by omega)).mp h⟩

/-- A round stays open while both have chips, or a seat has not answered the other's all-in. -/
theorem open_of_incomplete (h : g.isBettingRoundComplete = false) :
    (∀ p, 0 < g.stack p) ∨ ∃ p, g.stack p = 0 ∧ 0 < g.stack p.other ∧ g.streetBet p.other < g.streetBet p := by
  by_cases hpos : ∀ p, 0 < g.stack p
  · exact .inl hpos
  push Not at hpos
  obtain ⟨p, hp⟩ := hpos
  have hzero : g.stack p = 0 := by omega
  have hother : 0 < g.stack p.other := by
    by_contra hother
    rw [complete_of_spent fun q => by obtain rfl | rfl := p.eq_or_other q <;> omega] at h
    cases h
  refine .inr ⟨p, hzero, hother, ?_⟩
  by_contra hle
  rw [(complete_iff_covered hzero hother).mpr (by omega)] at h
  cases h

theorem eligibleToAct_iff : (g.seat p).eligibleToAct = true ↔ 0 < g.stack p ∧ (g.seat p).handParticipation = .live := by
  simp [SeatState.eligibleToAct, stack]

/-- The seat whose turn it is has chips; the other, if it has any, can act too. -/
theorem Betting.live_other (hb : Betting g) (hturn : (g.seat g.toAct).eligibleToAct = true) (hpos : 0 < g.stack g.toAct.other) :
    (g.seat g.toAct.other).handParticipation = .live := by
  have hself := (eligibleToAct_iff.mp hturn).1
  cases hb with
  | turn hturn =>
    cases hturn with
    | contested hact => exact (eligibleToAct_iff.mp (hact _)).2
    | called _ hzero _ _ => omega
  | runout _ _ hzero =>
    obtain ⟨p, hp⟩ := hzero
    obtain rfl | rfl := g.toAct.eq_or_other p <;> omega
  | blinded _ hsame hzero _ =>
    rw [hsame] at hself
    omega

/-! ### What the action leaves in order -/

theorem Wagered.stack_other (hw : Wagered p g g') : g'.stack p.other = g.stack p.other := congrArg SeatState.stack hw.other

theorem Wagered.streetBet_other (hw : Wagered p g g') : g'.streetBet p.other = g.streetBet p.other :=
  congrArg SeatState.streetBet hw.other

theorem Wagered.range (hw : Wagered p g g') (hr : g.InRange) : g'.InRange := by
  intro q
  have hp := hr p
  have hq := hr p.other
  have hchips := hw.chips
  have hstack := hw.stack_other
  have hbet := hw.streetBet_other
  obtain rfl | rfl := p.eq_or_other q <;> omega

theorem Wagered.playing (hw : Wagered p g g') (hplaying : ∀ q, (g.seat q).eligibleForPot = true) (q : HeadsUpSeat) :
    (g'.seat q).eligibleForPot = true := by
  obtain rfl | rfl := p.eq_or_other q
  · obtain ⟨-, hpart, -⟩ | ⟨-, hpart⟩ := hw.outcome
    · rw [SeatState.eligibleForPot, hpart]
      exact hplaying _
    · simp [SeatState.eligibleForPot, hpart]
  · rw [hw.other]
    exact hplaying _

/-- A seat with chips left after the action can act if it could before. -/
theorem Wagered.live (hw : Wagered p g g') (hself : (g.seat p).handParticipation = .live)
    (hother : 0 < g.stack p.other → (g.seat p.other).handParticipation = .live) (q : HeadsUpSeat) (hq : 0 < g'.stack q) :
    (g'.seat q).eligibleToAct = true := by
  refine eligibleToAct_iff.mpr ⟨hq, ?_⟩
  obtain rfl | rfl := p.eq_or_other q
  · obtain ⟨-, hpart, -⟩ | ⟨hzero, -⟩ := hw.outcome
    · exact hpart.trans hself
    · omega
  · rw [hw.other]
    exact hother (by rwa [hw.stack_other] at hq)

/-- In a round the action leaves open the other seat has chips, and answers unless both do. -/
theorem Wagered.open_other (hw : Wagered p g g') (h : g'.isBettingRoundComplete = false) :
    0 < g'.stack p.other ∧ ((∀ q, 0 < g'.stack q) ∨ g'.stack p = 0 ∧ g'.streetBet p.other < g'.streetBet p) := by
  obtain hpos | ⟨q, hzero, hpos, hlt⟩ := open_of_incomplete h
  · exact ⟨hpos _, .inl hpos⟩
  obtain rfl | rfl := p.eq_or_other q
  · exact ⟨hpos, .inr ⟨hzero, hlt⟩⟩
  · rw [HeadsUpSeat.other_other] at hpos hlt
    have hmax := maxBet_eq g p
    have hbet := hw.streetBet_other
    obtain ⟨-, -, hcover⟩ | ⟨hnone, -⟩ := hw.outcome <;> omega

/-- After the seat's action the street is over with its bets settled, or the other seat's turn has come. -/
theorem Wagered.conclude (hw : Wagered p g g') (hself : (g.seat p).handParticipation = .live)
    (hother : 0 < g.stack p.other → (g.seat p.other).handParticipation = .live) :
    (Closed g' ∧ g'.conclude p = g'.advancePhase) ∨
      (g'.conclude p = { g' with toAct := p.other } ∧ Answers { g' with toAct := p.other }) := by
  have hlive := hw.live hself hother
  cases hcomplete : g'.isBettingRoundComplete with
  | true => exact .inl ⟨closed_of_complete hcomplete hlive, if_pos hcomplete⟩
  | false =>
    obtain ⟨hpos, hturns⟩ := hw.open_other hcomplete
    have hnext : g'.nextToAct p = some p.other := if_pos (hlive _ hpos)
    refine .inr ⟨?_, ?_⟩
    · simp only [GameState.conclude, hcomplete, Bool.false_eq_true, if_false, hnext, Option.isSome_some, expect_true,
        Option.getD_some]
    · obtain hboth | ⟨hzero, hlt⟩ := hturns
      · exact .contested fun q => hlive q (hboth q)
      · have hzero' : g'.stack p.other.other = 0 := by rw [HeadsUpSeat.other_other]; exact hzero
        have hlt' : g'.streetBet p.other < g'.streetBet p.other.other := by rw [HeadsUpSeat.other_other]; exact hlt
        exact .called (hlive _ hpos) hzero' (Nat.le_of_lt hlt') fun _ => hlt'

/-! ## Runs -/

/-- A command is accepted from the seat whose turn it is, able to act, with an action the rules allow. -/
theorem validateCommand_ok {command : SeatCommand} (h : g.validateCommand command = .ok ()) :
    g.phase.betting = true ∧ HeadsUpSeat.ofSeat command.seat = some g.toAct ∧ (g.seat g.toAct).eligibleToAct = true ∧
      g.validateAction g.toAct command.action = .ok () := by
  simp only [validateCommand] at h
  split at h
  · cases h
  rename_i hb
  split at h
  · cases h
  rename_i p hp
  split at h
  · cases h
  rename_i helig
  split at h
  · cases h
  rename_i hturn
  obtain rfl := not_not.mp hturn
  split at h
  · cases h
  rename_i haction
  exact ⟨by simpa using hb, hp, by simpa using helig, haction⟩

theorem applyCommand_cases (g : GameState) (command : SeatCommand) :
    (∃ error, g.validateCommand command = .error error ∧ (g.applyCommand command).2 = g) ∨
      (g.validateCommand command = .ok () ∧ (g.applyCommand command).2 = g.applyValidatedAction g.toAct command.action) := by
  cases h : g.validateCommand command with
  | error error => exact .inl ⟨error, rfl, by simp [applyCommand, h]⟩
  | ok _ => exact .inr ⟨rfl, by simp [applyCommand, h, (validateCommand_ok h).2.1]⟩

/-- What an accepted action leads to: the hand folded, the next street, or the other seat's turn on the same street. -/
inductive Acted (g : GameState) : GameState → Prop where
  | folded {g' : GameState} (hpaid : HandPaid (fun q => if q = g.toAct.other then g.pot else 0) g g')
      (hphase : g'.phase = .handComplete) : Acted g g'
  | closed {called : GameState} (hw : Wagered g.toAct g called) (honly : OnlyChips g called) (hclosed : Closed called) :
      Acted g called.advancePhase
  | answers {called : GameState} (hw : Wagered g.toAct g called) (honly : OnlyChips g called)
      (hanswers : Answers { called with toAct := g.toAct.other }) : Acted g { called with toAct := g.toAct.other }

theorem Underway.act (hu : g.Underway) (hturn : (g.seat g.toAct).eligibleToAct = true)
    (hv : g.validateAction g.toAct action = .ok ()) : Acted (g.note g.toAct action) (g.applyValidatedAction g.toAct action) := by
  have hself := eligibleToAct_iff.mp hturn
  have hsame : (g.note g.toAct action).toAct = g.toAct := rfl
  simp only [applyValidatedAction]
  by_cases hfold : action = .fold
  · rw [if_pos hfold]
    exact .folded (handleFold_paid (hu.playing _)) rfl
  · rw [if_neg hfold]
    have hw : Wagered g.toAct (g.note g.toAct action) ((g.note g.toAct action).wager g.toAct action) :=
      wagered hu.range hself.1 hv hfold
    obtain ⟨hclosed, heq⟩ | ⟨heq, hanswers⟩ := hw.conclude hself.2 (hu.betting.live_other hturn)
    · rw [heq]
      exact .closed hw (wager_only action) hclosed
    · rw [heq]
      exact .answers hw (wager_only action) hanswers

/-- An action noted leaves the table in order. -/
theorem AtTable.note (ha : AtTable g) : AtTable (g.note p action) := by
  refine ⟨ha.active, ha.chips, ha.panicked, ?_⟩
  intro hb
  have hu := ha.underway hb
  refine ⟨hu.range, hu.playing, ?_⟩
  cases hu.betting with
  | turn hturn =>
    cases hturn with
    | contested hact => exact .turn (.contested hact)
    | called hturn hzero hle hlt => exact .turn (.called hturn hzero hle hlt)
  | runout hstreet hbets hzero => exact .runout hstreet hbets hzero
  | blinded hstreet hturn hzero hle => exact .blinded hstreet hturn hzero hle

/-- An accepted command keeps the table in order. -/
theorem AtTable.acted (ha : AtTable g) (hb : g.phase.betting = true) (h : Acted g g') : AtTable g' := by
  have hu := ha.underway hb
  cases h with
  | folded hpaid hphase => exact hpaid.atTable ha.active ha.chips ha.panicked (by rw [hphase]; rfl)
  | closed hw honly hclosed =>
    exact hclosed.advance (hw.range hu.range) (hw.playing hu.playing) (fun p => (honly.table p).trans (ha.active p))
      (honly.panicked.trans ha.panicked) (by rw [honly.phase]; exact hb)
  | answers hw honly hanswers =>
    have hrange := hw.range hu.range
    refine ⟨fun p => (honly.table p).trans (ha.active p), ?_, honly.panicked.trans ha.panicked,
      fun _ => ⟨hrange, hw.playing hu.playing, .turn hanswers⟩⟩
    intro q
    exact (Nat.le_add_right ..).trans (hrange q)

theorem eligible_of_active (hactive : ∀ p, (g.seat p).tableParticipation = .active) (hpos : ∀ p, 0 < g.stack p)
    (p : HeadsUpSeat) :
    (g.seat p).eligibleForNextHand = true := by
  have hp : 0 < (g.seat p).stack := hpos p
  simp [SeatState.eligibleForNextHand, hactive p, hp]

theorem blindPosted_eligibleForPot (st : SeatState) (cards : List Card) (blind : Nat) :
    (blindPosted st cards blind).eligibleForPot = true := by
  unfold SeatState.eligibleForPot blindPosted
  split <;> rfl

theorem blindPosted_eligibleToAct {st : SeatState} {blind : Nat} (hlt : blind < st.stack) (cards : List Card) :
    (blindPosted st cards blind).eligibleToAct = true := by
  have hpos : 0 < st.stack - blind := by omega
  have hnot : ¬ st.stack ≤ blind := by omega
  simp [SeatState.eligibleToAct, blindPosted, hpos, hnot]

/-- The chips of a new hand's two seats. -/
theorem NewHand.chips {deck : Deck} (h : NewHand g deck g') (hpos : ∀ p, 0 < g.stack p) :
    g'.stack g.button.other = g.stack g.button.other - 1 ∧ g'.streetBet g.button.other = 1 ∧
      g'.stack g.button = g.stack g.button - 2 ∧ g'.streetBet g.button = min 2 (g.stack g.button) := by
  obtain ⟨small, hsmall⟩ := h.small
  obtain ⟨big, hbig⟩ := h.big
  refine ⟨congrArg SeatState.stack hsmall, ?_, congrArg SeatState.stack hbig, congrArg SeatState.streetBet hbig⟩
  have hbet : g'.streetBet g.button.other = min 1 (g.stack g.button.other) := congrArg SeatState.streetBet hsmall
  have := hpos g.button.other
  omega

/-- A button with a chip behind its small blind has the first turn. -/
theorem NewHand.answers {deck : Deck} (h : NewHand g deck g') (hpos : ∀ p, 0 < g.stack p) (htwo : 2 ≤ g.stack g.button.other) :
    Answers g' := by
  obtain ⟨hsmallStack, hsmallBet, hbigStack, hbigBet⟩ := h.chips hpos
  obtain ⟨small, hsmall⟩ := h.small
  obtain ⟨big, hbig⟩ := h.big
  have hpb := hpos g.button
  have hact : (g'.seat g.button.other).eligibleToAct = true := by
    rw [hsmall]
    exact blindPosted_eligibleToAct (show 1 < g.stack g.button.other by omega) small
  by_cases hshort : g.stack g.button ≤ 2
  · refine .called ?_ ?_ ?_ fun hne => absurd h.phase hne <;> rw [h.toAct]
    · exact hact
    · rw [HeadsUpSeat.other_other]
      omega
    · rw [HeadsUpSeat.other_other]
      omega
  · refine .contested ?_
    intro p
    obtain rfl | rfl := g.button.eq_or_other p
    · rw [hbig]
      exact blindPosted_eligibleToAct (show 2 < g.stack g.button by omega) big
    · exact hact

/-- A button whose small blind was its last chip has the first turn and cannot act. -/
theorem NewHand.spent {deck : Deck} (h : NewHand g deck g') (hpos : ∀ p, 0 < g.stack p) (hone : g.stack g.button.other ≤ 1) :
    (g'.seat g'.toAct).eligibleToAct = false := by
  have hchips := h.chips hpos
  refine Bool.eq_false_iff.mpr ?_
  rw [h.toAct]
  intro hact
  have hstack := (eligibleToAct_iff.mp hact).1
  omega

/-- A new hand puts the table in order; its button is stuck when the small blind was its last chip. -/
theorem NewHand.atTable {deck : Deck} (h : NewHand g deck g') (hactive : ∀ p, (g.seat p).tableParticipation = .active)
    (hchips : ∀ p, g.stack p ≤ u32Max) (hpos : ∀ p, 0 < g.stack p) (hpanicked : g.panicked = false) : AtTable g' := by
  obtain ⟨hsmallStack, hsmallBet, hbigStack, hbigBet⟩ := h.chips hpos
  obtain ⟨small, hsmall⟩ := h.small
  obtain ⟨big, hbig⟩ := h.big
  have hrs := hchips g.button.other
  have hrb := hchips g.button
  have hps := hpos g.button.other
  have hpb := hpos g.button
  refine ⟨?_, ?_, h.panicked.trans hpanicked, fun _ => ⟨?_, ?_, ?_⟩⟩
  · intro p
    obtain rfl | rfl := g.button.eq_or_other p
    · exact (congrArg SeatState.tableParticipation hbig).trans (hactive _)
    · exact (congrArg SeatState.tableParticipation hsmall).trans (hactive _)
  · intro p
    obtain rfl | rfl := g.button.eq_or_other p <;> omega
  · intro p
    obtain rfl | rfl := g.button.eq_or_other p <;> omega
  · intro p
    obtain rfl | rfl := g.button.eq_or_other p
    · rw [hbig]
      exact blindPosted_eligibleForPot ..
    · rw [hsmall]
      exact blindPosted_eligibleForPot ..
  by_cases hone : g.stack g.button.other = 1
  · refine .blinded h.phase (h.toAct.trans h.button.symm) ?_ ?_ <;> rw [h.button]
    · omega
    · rw [HeadsUpSeat.other_other]
      omega
  · exact .turn (h.answers hpos (by omega))

/-! ### The operations -/

/-- The seat has chips and has not answered the street's highest bet. -/
def Owes (g : GameState) (p : HeadsUpSeat) : Prop := 0 < g.stack p ∧ g.streetBet p < g.maxBet

instance : Decidable (g.Owes p) := inferInstanceAs (Decidable (_ ∧ _))

/-- A betting street with a seat out of chips and nobody left to answer. -/
def RunsOut (g : GameState) : Prop :=
  g.phase.betting = true ∧ (g.stack .first = 0 ∨ g.stack .second = 0) ∧ ¬ g.Owes .first ∧ ¬ g.Owes .second

instance : Decidable g.RunsOut := inferInstanceAs (Decidable (_ ∧ _))

end GameState

/-- What is done to the game: a new hand with a deck, a seat's command, the next street of an all-in hand. -/
inductive GameOp where
  | startNewHand (deck : Deck)
  | command (command : SeatCommand)
  | runout
  deriving DecidableEq, Repr

namespace GameState

variable {g g' : GameState} {p q : HeadsUpSeat} {action : Action}

/-- A new hand needs chips on both sides, an advance a street that runs out; a refused command changes nothing. -/
def step (g : GameState) : GameOp → Option GameState
  | .startNewHand deck => if 0 < g.stack .first ∧ 0 < g.stack .second then some (g.startNewHand deck) else none
  | .command command => some (g.applyCommand command).2
  | .runout => if g.RunsOut then some g.advancePhase else none

def run (g : GameState) : List GameOp → Option GameState
  | [] => some g
  | op :: ops => (g.step op).bind (run · ops)

theorem RunsOut.settled (h : g.RunsOut) (p : HeadsUpSeat) : ¬ g.Owes p := by
  cases p
  · exact h.2.2.1
  · exact h.2.2.2

/-- A street that runs out has its bets settled. -/
theorem RunsOut.closed (h : g.RunsOut) (hb : Betting g) : Closed g := by
  cases hb with
  | turn hturn =>
    cases hturn with
    | contested hact =>
      have hfirst := (eligibleToAct_iff.mp (hact .first)).1
      have hsecond := (eligibleToAct_iff.mp (hact .second)).1
      have := h.2.1
      omega
    | called hturn hzero _ _ =>
      have howes := h.settled g.toAct
      have hself := (eligibleToAct_iff.mp hturn).1
      have hmax := maxBet_eq g g.toAct
      refine .inr ⟨g.toAct.other, hzero, ?_⟩
      rw [HeadsUpSeat.other_other]
      by_contra hlt
      exact howes ⟨hself, by omega⟩
  | runout _ hbets hzero =>
    obtain ⟨p, hp⟩ := hzero
    exact .inr ⟨p, hp, by rw [hbets, hbets]⟩
  | blinded _ _ hzero hle => exact .inr ⟨g.button, hzero, hle⟩

/-- Each operation keeps the table in order. -/
theorem AtTable.step {op : GameOp} (ha : AtTable g) (h : g.step op = some g') : AtTable g' := by
  cases op with
  | startNewHand deck =>
    simp only [GameState.step] at h
    split at h
    · rename_i hboth
      have hpos (p : HeadsUpSeat) : 0 < g.stack p := by
        cases p
        · exact hboth.1
        · exact hboth.2
      cases h
      exact (startNewHand_spec (eligible_of_active ha.active hpos) ha.chips deck).atTable ha.active ha.chips hpos ha.panicked
    · cases h
  | command command =>
    cases h
    obtain ⟨_, _, heq⟩ | ⟨hok, heq⟩ := g.applyCommand_cases command
    · rw [heq]
      exact ha
    · obtain ⟨hb, -, hturn, hv⟩ := validateCommand_ok hok
      rw [heq]
      exact ha.note.acted hb ((ha.underway hb).act hturn hv)
  | runout =>
    simp only [GameState.step] at h
    split at h
    · rename_i hout
      have hu := ha.underway hout.1
      cases h
      exact (hout.closed hu.betting).advance hu.range hu.playing ha.active ha.panicked hout.1
    · cases h

theorem AtTable.run {ops : List GameOp} (ha : AtTable g) (h : g.run ops = some g') : AtTable g' := by
  induction ops generalizing g with
  | nil =>
    cases h
    exact ha
  | cons op ops ih =>
    obtain ⟨next, hstep, hrest⟩ := Option.bind_eq_some_iff.mp h
    exact ih (ha.step hstep) hrest

theorem validateAction_allIn (hpos : 0 < g.stack p) :
    g.validateAction p (.allIn (saturatingAdd (g.streetBet p) (g.stack p))) = .ok () := by
  simp [validateAction, hpos]

/-- A seat whose turn it is and that can act has an action the game accepts. -/
theorem accepts_allIn (hb : g.phase.betting = true) (hturn : (g.seat g.toAct).eligibleToAct = true) :
    g.validateCommand ⟨g.toAct.seatId, .allIn (saturatingAdd (g.streetBet g.toAct) (g.stack g.toAct))⟩ = .ok () := by
  have hpos := (eligibleToAct_iff.mp hturn).1
  simp [validateCommand, hb, hturn, validateAction_allIn hpos]

/-- After the flop a seat whose turn it is owes a response, or both have chips. -/
theorem Answers.not_runsOut (h : Answers g) (hstreet : g.phase ≠ .preflop) : ¬ g.RunsOut := by
  intro hout
  cases h with
  | contested hact =>
    have hfirst := (eligibleToAct_iff.mp (hact .first)).1
    have hsecond := (eligibleToAct_iff.mp (hact .second)).1
    have := hout.2.1
    omega
  | called hturn _ _ hlt =>
    have hself := (eligibleToAct_iff.mp hturn).1
    have hmax := maxBet_eq g g.toAct
    have := hlt hstreet
    exact hout.settled g.toAct ⟨hself, by omega⟩

theorem Answers.turn (h : Answers g) : (g.seat g.toAct).eligibleToAct = true := by
  cases h with
  | contested hact => exact hact _
  | called hturn _ _ _ => exact hturn

/-- With chips on both sides, or a bet unanswered, the turn is with a seat that can act. -/
theorem Betting.acts (hb : Betting g) (hnext : (∀ p, 0 < g.stack p) ∨ ∃ p, g.Owes p) : (g.seat g.toAct).eligibleToAct = true := by
  cases hb with
  | turn hturn => exact hturn.turn
  | runout _ hbets hzero =>
    obtain ⟨p, hp⟩ := hzero
    obtain hpos | ⟨q, -, hlt⟩ := hnext
    · have := hpos p
      omega
    · rw [maxBet_eq g q, hbets, hbets] at hlt
      omega
  | blinded _ _ hzero hle =>
    obtain hpos | ⟨q, hq, hlt⟩ := hnext
    · have := hpos g.button
      omega
    · rw [maxBet_eq g g.button] at hlt
      obtain rfl | rfl := g.button.eq_or_other q <;> omega

/-! ### The first hand -/

theorem unplayed_stack (s : Nat) (p : HeadsUpSeat) : (unplayed s).stack p = wrap32 (s * bigBlind) := by cases p <;> rfl

theorem unplayed_active (s : Nat) (p : HeadsUpSeat) : ((unplayed s).seat p).tableParticipation = .active := by cases p <;> rfl

/-- `new` stops at its first `expect` when the scaled stack is nothing. -/
theorem new_panicked {s : Nat} (hzero : wrap32 (s * bigBlind) = 0) (deck : Deck) : (new s deck).panicked = true := by
  have hnone (p : HeadsUpSeat) : ((unplayed s).seat p).eligibleForNextHand = false := by
    have h : ((unplayed s).seat p).stack = 0 := (unplayed_stack s p).trans hzero
    simp [SeatState.eligibleForNextHand, h]
  have hnext : (unplayed s).nextForHand (unplayed s).button = none := if_neg (by simp [hnone])
  have hdeal (g : GameState) (p : HeadsUpSeat) : (g.dealSeat p).panicked = g.panicked := by
    simp only [dealSeat]
    split <;> rfl
  have hblinds (g : GameState) (positions : HeadsUpPositions) : (g.postBlinds positions).panicked = g.panicked :=
    (postBlind_only.trans postBlind_only).panicked
  simp only [new, startNewHand, hnext, hblinds, dealHands, expect, hdeal, clearHand]
  rfl

theorem unplayed_le (s : Nat) (p : HeadsUpSeat) : (unplayed s).stack p ≤ u32Max := by
  rw [unplayed_stack]
  exact wrap32_le _

theorem unplayed_pos {s : Nat} (hstack : wrap32 (s * bigBlind) ≠ 0) (p : HeadsUpSeat) : 0 < (unplayed s).stack p := by
  rw [unplayed_stack]
  omega

theorem new_newHand {s : Nat} (hstack : wrap32 (s * bigBlind) ≠ 0) (deck : Deck) : NewHand (unplayed s) deck (new s deck) :=
  startNewHand_spec (eligible_of_active (unplayed_active s) (unplayed_pos hstack)) (unplayed_le s) deck

theorem stack_of_new {s : Nat} {deck : Deck} (h : (new s deck).panicked = false) : wrap32 (s * bigBlind) ≠ 0 := by
  intro hzero
  rw [new_panicked hzero deck] at h
  cases h

/-- A game `new` has dealt is in order. -/
theorem new_atTable {s : Nat} (hstack : wrap32 (s * bigBlind) ≠ 0) (deck : Deck) : AtTable (new s deck) :=
  (new_newHand hstack deck).atTable (unplayed_active s) (unplayed_le s) (unplayed_pos hstack) rfl

end GameState

end OpenFelt
