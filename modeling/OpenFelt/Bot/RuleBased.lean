/-
  OpenFelt.Bot.RuleBased — the offline opponent (`src/bot/rule_based.rs`).

  Translation. What the bot computes in floating point is given to it: the strength with
  its noise (`adjusted`), the one coin a decision tosses (`coin`), and the part of the pot
  a size is (`potPart`, of a percentage). Multiples of bets by 2.5 and 3 are exact in an
  `f64` and saturate in a `u32`. A `u32` sum wraps.

  Proved: in every state a game reaches with the bot to act, the rules accept whatever the
  bot decides exactly where `BotFits` (`bot_acts_legally`): there is nothing to call, or
  the least raise is a `u32`, or wrapped it is not below the stack, or every size the bot
  would raise to is all its chips.
-/

import OpenFelt.Offline.Aggressors
import OpenFelt.Offline.Menu
import Mathlib.Data.Rat.Init
import Mathlib.Algebra.Order.Field.Rat
import Mathlib.Tactic.NormNum

namespace OpenFelt

inductive BoardTexture where
  | dry
  | medium
  | wet
  deriving DecidableEq, Repr

inductive BetSize where
  | small
  | medium
  | large
  deriving DecidableEq, Repr

/-- `pot_fraction`, in hundredths. -/
def BetSize.potFraction : BetSize → Nat
  | small => 30
  | medium => 60
  | large => 85

/-- A bet times so many halves. -/
def timesHalves (bet halves : Nat) : Nat := min (bet * halves / 2) u32Max

/-- How much a board helps draws. -/
def analyzeBoardTexture (board : List Card) : BoardTexture :=
  if board.isEmpty then .dry
  else
    let maxSuit := ([Suit.spades, .hearts, .diamonds, .clubs].map (suitCount board)).foldl max 0
    let ranks := (board.map (·.rank.value)).insertionSort (· ≤ ·)
    let gaps := (ranks.zip (ranks.drop 1)).map fun (low, high) => high - low
    let wetness := (if 3 ≤ maxSuit then 2 else if maxSuit = 2 then 1 else 0) + gaps.countP (· ≤ 2) +
      (if gaps.any (· = 0) then 1 else 0)
    if wetness ≤ 1 then .dry else if wetness ≤ 3 then .medium else .wet

structure RuleBasedBot where
  aggression : ℚ

namespace RuleBasedBot

/-- Clamped to the range from zero to one. -/
def new (aggression : ℚ) : RuleBasedBot := ⟨max 0 (min 1 aggression)⟩

variable (bot : RuleBasedBot) (potPart : Nat → Nat → Nat) (g : GameState) (adjusted : ℚ) (coin : Bool)

def makeCall (toCall : Nat) : Action :=
  if g.stack botSeat ≤ toCall then .allIn (g.allChips botSeat) else .call toCall

def makeBet (size : BetSize) : Action :=
  match g.availableActions.minBet with
  | none => .check
  | some minBet =>
    let amount := min (max (potPart size.potFraction g.pot) minBet) (g.stack botSeat)
    if g.stack botSeat ≤ amount then .allIn (g.allChips botSeat) else .bet amount

def calculateRaiseSize (minRaiseTo : Nat) : Nat :=
  min (max (wrap32 (potPart 70 g.pot + g.streetBet botSeat)) minRaiseTo) (g.allChips botSeat)

/-! ### Preflop -/

/-- A raise to so many half big blinds. -/
def preflopRaise (halves : Nat) : Action :=
  let raiseTo := timesHalves bigBlind halves
  if g.amountToCall botSeat = 0 then
    let amount := max raiseTo (g.availableActions.minBet.getD bigBlind)
    if g.allChips botSeat ≤ amount then .allIn (g.allChips botSeat) else .bet amount
  else
    let amount := max raiseTo (g.availableActions.minRaise.getD raiseTo)
    if g.allChips botSeat ≤ amount then .allIn (g.allChips botSeat) else .raise amount

/-- A raise to `raiseTo`, unless it takes all the chips. -/
def raiseBelow (raiseTo : Nat) (otherwise : Action) : Action := if raiseTo < g.allChips botSeat then .raise raiseTo else otherwise

def preflopOption : Action :=
  if 70 / 100 < adjusted ∧ 2 / 10 < bot.aggression then preflopRaise g 6
  else if 55 / 100 < adjusted ∧ 3 / 10 < bot.aggression then preflopRaise g 5
  else if 45 / 100 < adjusted ∧ 5 / 10 < bot.aggression ∧ coin then preflopRaise g 5
  else .check

def preflopOpen : Action :=
  if 50 / 100 < adjusted ∧ 15 / 100 < bot.aggression then preflopRaise g (if 80 / 100 < adjusted then 6 else 5)
  else if 35 / 100 < adjusted then makeCall g (g.amountToCall botSeat)
  else if 7 / 10 < bot.aggression ∧ coin then preflopRaise g 6
  else .fold

def preflopFacingRaise : Action :=
  let toCall := g.amountToCall botSeat
  let call := makeCall g toCall
  if 80 / 100 < adjusted then
    match g.availableActions.minRaise with
    | some minRaise => raiseBelow g (max (timesHalves g.maxBet 6) minRaise) (.allIn (g.allChips botSeat))
    | none => call
  else if 65 / 100 < adjusted then
    match g.availableActions.minRaise with
    | some minRaise =>
      if 5 / 10 < bot.aggression ∧ coin then raiseBelow g (max (timesHalves g.maxBet 5) minRaise) call else call
    | none => call
  else if 50 / 100 < adjusted then call
  else if 35 / 100 < adjusted ∧ toCall ≤ bigBlind * 3 then call
  else if 7 / 10 < bot.aggression ∧ coin then
    match g.availableActions.minRaise with
    | some minRaise => raiseBelow g (max (bigBlind * 7) minRaise) .fold
    | none => .fold
  else .fold

def decidePreflop : Action :=
  if g.amountToCall botSeat = 0 then preflopOption bot g adjusted coin
  else if g.lastAggressor.isSome then preflopFacingRaise bot g adjusted coin
  else preflopOpen bot g adjusted coin

/-! ### Postflop -/

def postflopBetOrCheck (texture : BoardTexture) : Action :=
  if 45 / 100 < adjusted then makeBet potPart g .large
  else if 25 / 100 < adjusted then
    makeBet potPart g (match texture with
      | .dry => .small
      | .medium => .medium
      | .wet => .large)
  else if 15 / 100 < adjusted ∧ 4 / 10 < bot.aggression then makeBet potPart g .small
  else if adjusted < 10 / 100 ∧ 6 / 10 < bot.aggression ∧ coin then
    makeBet potPart g (match texture with
      | .dry => .small
      | _ => .medium)
  else .check

def riverBetOrCheck : Action :=
  if 45 / 100 < adjusted then makeBet potPart g .large
  else if 20 / 100 < adjusted then makeBet potPart g .small
  else if adjusted < 8 / 100 ∧ 6 / 10 < bot.aggression ∧ coin then makeBet potPart g .large
  else .check

def postflopFacingBet : Action :=
  let call := makeCall g (g.amountToCall botSeat)
  if 35 / 100 < adjusted then
    match g.availableActions.minRaise with
    | some minRaise => raiseBelow g (calculateRaiseSize potPart g minRaise) (.allIn (g.allChips botSeat))
    | none => call
  else if 20 / 100 < adjusted then
    match g.availableActions.minRaise with
    | some minRaise =>
      if 5 / 10 < bot.aggression ∧ coin then raiseBelow g (calculateRaiseSize potPart g minRaise) call else call
    | none => call
  else if 12 / 100 < adjusted then call
  else if adjusted < 8 / 100 ∧ 7 / 10 < bot.aggression ∧ coin then
    match g.availableActions.minRaise with
    | some minRaise => raiseBelow g (calculateRaiseSize potPart g minRaise) .fold
    | none => .fold
  else .fold

def decidePostflop : Action :=
  if g.amountToCall botSeat = 0 then postflopBetOrCheck bot potPart g adjusted coin (analyzeBoardTexture g.board)
  else postflopFacingBet bot potPart g adjusted coin

def decideRiver : Action :=
  if g.amountToCall botSeat = 0 then riverBetOrCheck bot potPart g adjusted coin
  else postflopFacingBet bot potPart g adjusted coin

def decide : Action :=
  match g.phase with
  | .preflop => decidePreflop bot g adjusted coin
  | .flop | .turn => decidePostflop bot potPart g adjusted coin
  | .river => decideRiver bot potPart g adjusted coin
  | _ => .check

end RuleBasedBot

/-! ## Legality -/

namespace GameState

/-- Whatever the bot is set to and draws, the rules accept its action. -/
def BotLegal (potPart : Nat → Nat → Nat) (g : GameState) : Prop :=
  ∀ setting adjusted coin, g.Accepts botSeat ((RuleBasedBot.new setting).decide potPart g adjusted coin)

/-- Nothing to call, a least raise that is a `u32` or wraps to at least the stack, or no size below all the chips. -/
def BotFits (potPart : Nat → Nat → Nat) (g : GameState) : Prop :=
  g.amountToCall botSeat = 0 ∨ g.leastRaise ≤ u32Max ∨ g.stack botSeat ≤ wrap32 g.leastRaise ∨
    if g.phase = .preflop then g.allChips botSeat ≤ bigBlind * 7
    else g.allChips botSeat ≤ wrap32 (potPart 70 g.pot + g.streetBet botSeat)

/-- What the proofs use of a state with the bot to act. -/
structure BotTurn (g : GameState) : Prop where
  turn : g.isTurn botSeat = true
  eligible : (g.seat botSeat).eligibleToAct = true
  range : g.InRange
  marked : g.Marked

namespace BotTurn

variable {potPart : Nat → Nat → Nat} {g : GameState} {bot : RuleBasedBot} {adjusted : ℚ} {coin : Bool} {amount least : Nat}

theorem pos (hb : g.BotTurn) : 0 < g.stack botSeat := (eligibleToAct_iff.mp hb.eligible).1

theorem allIn (hb : g.BotTurn) : g.Accepts botSeat (.allIn (g.allChips botSeat)) :=
  accepts_allChips hb.turn hb.range hb.eligible

theorem check (hb : g.BotTurn) (hcall : g.amountToCall botSeat = 0) : g.Accepts botSeat .check :=
  (accepts_check hb.turn).mpr ⟨hb.eligible, hcall⟩

theorem fold (hb : g.BotTurn) (hcall : 0 < g.amountToCall botSeat) : g.Accepts botSeat .fold :=
  (accepts_fold hb.turn).mpr ⟨hb.eligible, hcall⟩

theorem makeCall (hb : g.BotTurn) (hcall : 0 < g.amountToCall botSeat) :
    g.Accepts botSeat (RuleBasedBot.makeCall g (g.amountToCall botSeat)) := by
  unfold RuleBasedBot.makeCall
  split
  · exact hb.allIn
  · exact (accepts_call hb.turn).mpr ⟨hb.eligible, hcall, by omega, rfl⟩

/-- With nothing to call nobody has bet. -/
theorem quiet (hb : g.BotTurn) (hcall : g.amountToCall botSeat = 0) : g.lastAggressor = none := by
  by_contra hsome
  have hturn := hb.turn
  simp only [isTurn, Bool.and_eq_true, decide_eq_true_eq] at hturn
  have hraised := (hb.marked.raised hsome).1
  rw [hturn.1] at hraised
  omega

/-- Before a raise the least one is to two big blinds at most. -/
theorem leastRaise_preflop (hb : g.BotTurn) (hpre : g.phase = .preflop) (hquiet : g.lastAggressor = none) : g.leastRaise ≤ 4 := by
  obtain ⟨hmax, hsize⟩ := hb.marked.quiet hquiet
  rw [if_pos hpre] at hmax
  unfold leastRaise
  rw [hsize hpre]
  unfold bigBlind at *
  omega

/-! ### Nothing to call -/

theorem makeBet (hb : g.BotTurn) (hcall : g.amountToCall botSeat = 0) (hpost : g.phase ≠ .preflop) (size : BetSize) :
    g.Accepts botSeat (RuleBasedBot.makeBet potPart g size) := by
  have hpos := hb.pos
  have hmin : g.availableActions.minBet = some (min bigBlind (g.stack botSeat)) := by
    rw [availableActions_eq hb.turn]
    exact if_pos ⟨hcall, hpos⟩
  have hzero : g.maxBet = 0 := by
    have hmax := (hb.marked.quiet (hb.quiet hcall)).1
    rwa [if_neg hpost, Nat.le_zero] at hmax
  unfold RuleBasedBot.makeBet
  rw [hmin]
  dsimp only
  split
  · exact hb.allIn
  · refine (accepts_bet hb.turn hb.range).mpr ⟨hb.eligible, hcall, ?_, by omega⟩
    rw [if_pos hzero]
    omega

theorem preflopRaise (hb : g.BotTurn) (hpre : g.phase = .preflop) (hquiet : g.lastAggressor = none) {halves : Nat}
    (hhalves : 4 ≤ timesHalves bigBlind halves) : g.Accepts botSeat (RuleBasedBot.preflopRaise g halves) := by
  have hleast := hb.leastRaise_preflop hpre hquiet
  have htotal := allChips_eq (p := botSeat) hb.range
  unfold RuleBasedBot.preflopRaise
  dsimp only
  split
  · rename_i hcall
    split
    · exact hb.allIn
    · refine (accepts_bet hb.turn hb.range).mpr ⟨hb.eligible, hcall, ?_, by omega⟩
      split
      · unfold bigBlind at *
        omega
      · omega
  · rename_i hcall
    split
    · exact hb.allIn
    · exact (accepts_raise hb.turn hb.range).mpr ⟨hb.eligible, by omega, by omega, by omega⟩

/-! ### A bet to call -/

/-- A raise of the menu's least or more, where it is not below the rules' least. -/
theorem raiseBelow (hb : g.BotTurn) (hcall : 0 < g.amountToCall botSeat) (hleast : g.availableActions.minRaise = some least)
    (hle : least ≤ amount) (hfits : g.leastRaise ≤ u32Max ∨ g.allChips botSeat ≤ amount) {otherwise : Action}
    (hother : g.Accepts botSeat otherwise) : g.Accepts botSeat (RuleBasedBot.raiseBelow g amount otherwise) := by
  have htotal := allChips_eq (p := botSeat) hb.range
  unfold RuleBasedBot.raiseBelow
  split
  · rename_i hlt
    have hu32 : g.leastRaise ≤ u32Max := by omega
    rw [availableActions_eq hb.turn] at hleast
    simp only [AvailableActions.new] at hleast
    split at hleast
    · cases hleast
      rw [wrap32_of_le hu32] at hle
      exact (accepts_raise hb.turn hb.range).mpr ⟨hb.eligible, hcall, by omega, by omega⟩
    · cases hleast
  · exact hother

/-- A least raise that is no `u32` is of a bet above half of it, which no multiple keeps below a seat's chips. -/
theorem multiple_covers (hb : g.BotTurn) (hraised : g.lastAggressor ≠ none) (hover : u32Max < g.leastRaise) {halves : Nat}
    (hhalves : 5 ≤ halves) : g.allChips botSeat ≤ timesHalves g.maxBet halves := by
  have hsize := (hb.marked.raised hraised).2
  have hmul : g.maxBet * 5 ≤ g.maxBet * halves := Nat.mul_le_mul_left _ hhalves
  have hle : g.allChips botSeat ≤ u32Max := wrap32_le _
  unfold leastRaise at hover
  unfold timesHalves
  unfold u32Max bigBlind at *
  omega

/-! ### The branches -/

theorem preflopOption (hb : g.BotTurn) (hpre : g.phase = .preflop) (hcall : g.amountToCall botSeat = 0) :
    g.Accepts botSeat (bot.preflopOption g adjusted coin) := by
  have hquiet := hb.quiet hcall
  unfold RuleBasedBot.preflopOption
  split
  · exact hb.preflopRaise hpre hquiet (by decide)
  · split
    · exact hb.preflopRaise hpre hquiet (by decide)
    · split
      · exact hb.preflopRaise hpre hquiet (by decide)
      · exact hb.check hcall

theorem preflopOpen (hb : g.BotTurn) (hpre : g.phase = .preflop) (hcall : 0 < g.amountToCall botSeat)
    (hquiet : g.lastAggressor = none) :
    g.Accepts botSeat (bot.preflopOpen g adjusted coin) := by
  unfold RuleBasedBot.preflopOpen
  split
  · refine hb.preflopRaise hpre hquiet ?_
    split <;> decide
  · split
    · exact hb.makeCall hcall
    · split
      · exact hb.preflopRaise hpre hquiet (by decide)
      · exact hb.fold hcall

/-- Sizes that the least raise being no `u32` leaves with all the chips. -/
theorem fits_or_short (hfits : g.BotFits potPart) (hcall : 0 < g.amountToCall botSeat)
    (hleast : g.availableActions.minRaise = some least)
    (hturn : g.isTurn botSeat = true) : g.leastRaise ≤ u32Max ∨
      if g.phase = .preflop then g.allChips botSeat ≤ bigBlind * 7
      else g.allChips botSeat ≤ wrap32 (potPart 70 g.pot + g.streetBet botSeat) := by
  rcases hfits with hzero | hle | hshort | hsize
  · omega
  · exact Or.inl hle
  · rw [availableActions_eq hturn] at hleast
    simp only [AvailableActions.new] at hleast
    rw [if_neg (by omega)] at hleast
    cases hleast
  · exact Or.inr hsize

theorem preflopFacingRaise (hb : g.BotTurn) (hfits : g.BotFits potPart) (hpre : g.phase = .preflop)
    (hcall : 0 < g.amountToCall botSeat) (hraised : g.lastAggressor ≠ none) :
    g.Accepts botSeat (bot.preflopFacingRaise g adjusted coin) := by
  have hcalls := hb.makeCall hcall
  have hmultiple : ∀ halves least, 5 ≤ halves → g.leastRaise ≤ u32Max ∨
      g.allChips botSeat ≤ max (timesHalves g.maxBet halves) least := by
    intro halves least hhalves
    by_cases hle : g.leastRaise ≤ u32Max
    · exact Or.inl hle
    · exact Or.inr (Nat.le_trans (hb.multiple_covers hraised (by omega) hhalves) (Nat.le_max_left _ _))
  unfold RuleBasedBot.preflopFacingRaise
  dsimp only
  split
  · split
    · rename_i least hleast
      exact hb.raiseBelow hcall hleast (Nat.le_max_right _ _) (hmultiple 6 least (by decide)) hb.allIn
    · exact hcalls
  · split
    · split
      · rename_i least hleast
        split
        · exact hb.raiseBelow hcall hleast (Nat.le_max_right _ _) (hmultiple 5 least (by decide)) hcalls
        · exact hcalls
      · exact hcalls
    · split
      · exact hcalls
      · split
        · exact hcalls
        · split
          · split
            · rename_i least hleast
              refine hb.raiseBelow hcall hleast (Nat.le_max_right _ _) ?_ (hb.fold hcall)
              have hsize := fits_or_short hfits hcall hleast hb.turn
              rw [if_pos hpre] at hsize
              exact hsize.imp_right fun hle => Nat.le_trans hle (Nat.le_max_left _ _)
            · exact hb.fold hcall
          · exact hb.fold hcall

theorem postflopFacingBet (hb : g.BotTurn) (hfits : g.BotFits potPart) (hpost : g.phase ≠ .preflop)
    (hcall : 0 < g.amountToCall botSeat) : g.Accepts botSeat (bot.postflopFacingBet potPart g adjusted coin) := by
  have hcalls := hb.makeCall hcall
  have hraise : ∀ least otherwise, g.availableActions.minRaise = some least → g.Accepts botSeat otherwise →
      g.Accepts botSeat (RuleBasedBot.raiseBelow g (RuleBasedBot.calculateRaiseSize potPart g least) otherwise) := by
    intro least otherwise hleast hother
    have hsize := fits_or_short hfits hcall hleast hb.turn
    rw [if_neg hpost] at hsize
    have htotal := allChips_eq (p := botSeat) hb.range
    have hlt : least ≤ g.allChips botSeat := by
      rw [availableActions_eq hb.turn] at hleast
      simp only [AvailableActions.new] at hleast
      split at hleast
      · cases hleast
        omega
      · cases hleast
    refine hb.raiseBelow hcall hleast ?_ ?_ hother
    · unfold RuleBasedBot.calculateRaiseSize
      omega
    · unfold RuleBasedBot.calculateRaiseSize
      omega
  unfold RuleBasedBot.postflopFacingBet
  dsimp only
  split
  · split
    · rename_i least hleast
      exact hraise least _ hleast hb.allIn
    · exact hcalls
  · split
    · split
      · rename_i least hleast
        split
        · exact hraise least _ hleast hcalls
        · exact hcalls
      · exact hcalls
    · split
      · exact hcalls
      · split
        · split
          · rename_i least hleast
            exact hraise least _ hleast (hb.fold hcall)
          · exact hb.fold hcall
        · exact hb.fold hcall

theorem postflopBetOrCheck (hb : g.BotTurn) (hpost : g.phase ≠ .preflop) (hcall : g.amountToCall botSeat = 0)
    (texture : BoardTexture) :
    g.Accepts botSeat (bot.postflopBetOrCheck potPart g adjusted coin texture) := by
  unfold RuleBasedBot.postflopBetOrCheck
  repeat' split
  all_goals first | exact hb.makeBet hcall hpost _ | exact hb.check hcall

theorem riverBetOrCheck (hb : g.BotTurn) (hpost : g.phase ≠ .preflop) (hcall : g.amountToCall botSeat = 0) :
    g.Accepts botSeat (bot.riverBetOrCheck potPart g adjusted coin) := by
  unfold RuleBasedBot.riverBetOrCheck
  repeat' split
  all_goals first | exact hb.makeBet hcall hpost _ | exact hb.check hcall

/-- Where the bot fits, whatever it decides is accepted. -/
theorem decides (hb : g.BotTurn) (hfits : g.BotFits potPart) : g.Accepts botSeat (bot.decide potPart g adjusted coin) := by
  have hturn := hb.turn
  simp only [isTurn, Bool.and_eq_true, decide_eq_true_eq] at hturn
  have hstreet := hturn.2
  unfold RuleBasedBot.decide
  split
  · rename_i hphase
    unfold RuleBasedBot.decidePreflop
    split
    · rename_i hcall
      exact hb.preflopOption hphase hcall
    · rename_i hcall
      split
      · rename_i hraised
        exact hb.preflopFacingRaise hfits hphase (by omega) (by rintro hnone; rw [hnone] at hraised; cases hraised)
      · rename_i hquiet
        exact hb.preflopOpen hphase (by omega) (by simpa using hquiet)
  · rename_i hphase
    unfold RuleBasedBot.decidePostflop
    split
    · rename_i hcall
      exact hb.postflopBetOrCheck (by rw [hphase]; decide) hcall _
    · exact hb.postflopFacingBet hfits (by rw [hphase]; decide) (by omega)
  · rename_i hphase
    unfold RuleBasedBot.decidePostflop
    split
    · rename_i hcall
      exact hb.postflopBetOrCheck (by rw [hphase]; decide) hcall _
    · exact hb.postflopFacingBet hfits (by rw [hphase]; decide) (by omega)
  · rename_i hphase
    unfold RuleBasedBot.decideRiver
    split
    · rename_i hcall
      exact hb.riverBetOrCheck (by rw [hphase]; decide) hcall
    · exact hb.postflopFacingBet hfits (by rw [hphase]; decide) (by omega)
  · rename_i hpre hflop hturn' hriver
    cases hphase : g.phase with
    | preflop => exact (hpre hphase).elim
    | flop => exact (hflop hphase).elim
    | turn => exact (hturn' hphase).elim
    | river => exact (hriver hphase).elim
    | showdown | handComplete | sessionEnd | summary =>
      rw [hphase] at hstreet
      cases hstreet

/-! ### A size the rules refuse -/

/-- No raise is accepted of a least one that is no `u32`. -/
theorem raise_refused (hb : g.BotTurn) (hover : u32Max < g.leastRaise) : ¬g.Accepts botSeat (.raise amount) := by
  intro h
  have hrange := (least_le hb.range botSeat).1
  obtain ⟨-, -, hlow, hhigh⟩ := (accepts_raise hb.turn hb.range).mp h
  omega

theorem bold_aggression : (RuleBasedBot.new 1).aggression = 1 := by
  simp [RuleBasedBot.new]

/-- A bluff to seven big blinds. -/
theorem preflop_bluff (hpre : g.phase = .preflop) (hcall : 0 < g.amountToCall botSeat) (hraised : g.lastAggressor ≠ none)
    (hleast : g.availableActions.minRaise = some least) :
    (RuleBasedBot.new 1).decide potPart g 0 true = RuleBasedBot.raiseBelow g (max (bigBlind * 7) least) .fold := by
  have hsome : g.lastAggressor.isSome = true := Option.isSome_iff_ne_none.mpr hraised
  simp only [RuleBasedBot.decide, hpre, RuleBasedBot.decidePreflop, RuleBasedBot.preflopFacingRaise, bold_aggression,
    hleast, hsome]
  rw [if_neg (by omega)]
  norm_num

/-- A value raise. -/
theorem postflop_raise (hpost : g.phase ≠ .preflop) (hturn : g.isTurn botSeat = true) (hcall : 0 < g.amountToCall botSeat)
    (hleast : g.availableActions.minRaise = some least) : (RuleBasedBot.new 1).decide potPart g 1 true =
      RuleBasedBot.raiseBelow g (RuleBasedBot.calculateRaiseSize potPart g least) (.allIn (g.allChips botSeat)) := by
  simp only [isTurn, Bool.and_eq_true, decide_eq_true_eq] at hturn
  have hstreet := hturn.2
  have hfacing : (RuleBasedBot.new 1).postflopFacingBet potPart g 1 true =
      RuleBasedBot.raiseBelow g (RuleBasedBot.calculateRaiseSize potPart g least) (.allIn (g.allChips botSeat)) := by
    simp only [RuleBasedBot.postflopFacingBet, hleast]
    norm_num
  have hnot : ¬g.amountToCall botSeat = 0 := by omega
  cases hphase : g.phase with
  | preflop => exact absurd hphase hpost
  | flop | turn => rw [RuleBasedBot.decide, hphase, ← hfacing]; exact if_neg hnot
  | river => rw [RuleBasedBot.decide, hphase, ← hfacing]; exact if_neg hnot
  | showdown | handComplete | sessionEnd | summary =>
    rw [hphase] at hstreet
    cases hstreet

theorem fits_of_legal (hb : g.BotTurn) (hlegal : g.BotLegal potPart) : g.BotFits potPart := by
  by_contra hnot
  simp only [BotFits, not_or] at hnot
  obtain ⟨hcall, hover, hoffered, hsize⟩ := hnot
  have hcall : 0 < g.amountToCall botSeat := by omega
  have hover : u32Max < g.leastRaise := by omega
  have htotal := allChips_eq (p := botSeat) hb.range
  have hleast : g.availableActions.minRaise = some (wrap32 g.leastRaise) := by
    rw [availableActions_eq hb.turn]
    exact if_pos ⟨hcall, by omega⟩
  by_cases hpre : g.phase = .preflop
  · rw [if_pos hpre] at hsize
    have hraised : g.lastAggressor ≠ none := by
      intro hquiet
      have hsmall := hb.leastRaise_preflop hpre hquiet
      unfold u32Max at hover
      omega
    have hdecides := hlegal 1 0 true
    rw [preflop_bluff hpre hcall hraised hleast, RuleBasedBot.raiseBelow, if_pos (by omega)] at hdecides
    exact hb.raise_refused hover hdecides
  · rw [if_neg hpre] at hsize
    have hdecides := hlegal 1 1 true
    rw [postflop_raise hpre hb.turn hcall hleast, RuleBasedBot.raiseBelow,
      if_pos (by unfold RuleBasedBot.calculateRaiseSize; omega)] at hdecides
    exact hb.raise_refused hover hdecides

end BotTurn

/-- In a state a game reaches with the bot to act, the rules accept whatever the bot decides exactly where it fits. -/
theorem bot_acts_legally (potPart : Nat → Nat → Nat) (s : Nat) (deck : Deck) (ops : List GameOp) {g : GameState}
    (hnew : (new s deck).panicked = false) (hrun : (new s deck).run ops = some g) (hturn : g.isTurn botSeat = true)
    (helig : (g.seat botSeat).eligibleToAct = true) : g.BotLegal potPart ↔ g.BotFits potPart := by
  have hstack := stack_of_new hnew
  have ha := (new_atTable hstack deck).run hrun
  have hstreet : g.phase.betting = true := by
    simp only [isTurn, Bool.and_eq_true] at hturn
    exact hturn.2
  have hb : g.BotTurn := ⟨hturn, helig, (ha.underway hstreet).range,
    run_marked (new_atTable hstack deck) (new_marked hstack deck) hrun hstreet⟩
  exact ⟨hb.fits_of_legal, fun hfits setting adjusted coin => hb.decides hfits⟩

/-- Facing a raise to three big blinds. -/
theorem bot_acts_legally_raised : ∃ g, (new 100 .new).run [.command ⟨0, .raise 6⟩] = some g ∧
    g.Accepts botSeat ((RuleBasedBot.new 1).decide (fun percent pot => pot * percent / 100) g 0 true) := by
  refine ⟨_, rfl, ?_⟩
  have hfits := (bot_acts_legally (fun percent pot => pot * percent / 100) 100 .new [.command ⟨0, .raise 6⟩]
    (by decide +kernel) rfl (by decide +kernel) (by decide +kernel)).mpr (Or.inr (Or.inl (by decide +kernel)))
  exact hfits 1 0 true

/-- A raise of more than half a `u32` wraps the menu's least raise, and the bot's bluff is below the rules' least. -/
theorem wrapped_raise_refused : ∃ g, (new (2 ^ 31 - 1) .new).run [.command ⟨0, .raise 2500000000⟩] = some g ∧
    g.isTurn botSeat = true ∧ (g.seat botSeat).eligibleToAct = true ∧ ¬g.BotLegal fun percent pot => pot * percent / 100 := by
  refine ⟨_, rfl, by decide +kernel, by decide +kernel, ?_⟩
  intro h
  have hbluff := h 1 0 true
  revert hbluff
  unfold Accepts
  decide +kernel

end GameState

end OpenFelt
