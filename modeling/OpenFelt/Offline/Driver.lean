/-
  OpenFelt.Offline.Driver — the terminal's loop around the offline game (`src/ui/app.rs`,
  `run_game_loop`).

  Translation. At most one event is pending, due at `nextEventAt` (milliseconds). Each turn
  of the loop processes a due event, then a key, then the end of a session; a `Frame` has
  the clock, the bot's choice, the deck a shuffle leaves and the key. Statistics, texts and
  what only the renderer reads are left out.

  Proved: each turn of the loop keeps it in order (`Fit`): at most one event is pending and
  its time is set, cards are revealed only on a street without bets, a hand is started only
  with chips on both sides, and a street after the flop that runs out is about to be
  advanced. A hand is in order from its start when the button has a chip behind its small
  blind (`ButtonCovered`).
-/

import OpenFelt.Offline.Streets

namespace OpenFelt

inductive GameEvent where
  | botAction
  | startNewHand
  | postSmallBlind
  | postBigBlind
  | revealCards
  | revealShowdown
  | showResult
  deriving DecidableEq, Repr

def delayBotActionMs : Nat := 2500

def delayBotActionAfterRevealMs : Nat := 3500

def delayCardRevealMs : Nat := 500

def delayCardRevealAfterBotMs : Nat := 2500

def delayNewHandMs : Nat := 1200

def delayShowdownRevealMs : Nat := 1000

def delayShowdownResultMs : Nat := 1000

def delayPostSbMs : Nat := 500

def delayPostBbMs : Nat := 800

def delayAllinRunoutMs : Nat := 1200

def localSeat : HeadsUpSeat := .first

def botSeat : HeadsUpSeat := .second

structure App where
  gameState : GameState
  pendingEvents : List GameEvent
  nextEventAt : Option Nat
  visibleBoardLen : Nat
  showdownResultShown : Bool
  startingStackBb : Nat
  lastPhase : GamePhase
  deriving DecidableEq, Repr

/-- The keys the loop tells apart; a key in a hand may be an action. -/
inductive Key where
  | quit
  | newSession
  | action (action : Action)
  deriving DecidableEq, Repr

structure Frame where
  now : Nat
  botAction : Action
  deck : Deck
  key : Option Key
  deriving DecidableEq, Repr

/-- `is_turn`. -/
def GameState.isTurn (g : GameState) (p : HeadsUpSeat) : Bool := g.toAct = p && g.phase.betting

namespace App

variable (app : App) (now : Nat)

def new (startingStackBb : Nat) (deck : Deck) : App :=
  let gameState := GameState.new startingStackBb deck
  { gameState := gameState
    pendingEvents := []
    nextEventAt := none
    visibleBoardLen := 0
    showdownResultShown := false
    startingStackBb := startingStackBb
    lastPhase := gameState.phase }

/-- The event is next, `delay` from now. -/
def push (event : GameEvent) (delay : Nat) : App :=
  { app with pendingEvents := app.pendingEvents ++ [event], nextEventAt := some (now + delay) }

/-- `initialize`. -/
def initializeSession : App := app.push now .postSmallBlind delayPostSbMs

def newSession (deck : Deck) : App :=
  let gameState := GameState.new app.startingStackBb deck
  { app with
    gameState := gameState
    lastPhase := gameState.phase
    pendingEvents := []
    nextEventAt := none
    visibleBoardLen := 0
    showdownResultShown := false }.initializeSession now

def spent : Bool := app.gameState.stack localSeat = 0 || app.gameState.stack botSeat = 0

def revealDelay : Nat :=
  if app.spent then delayAllinRunoutMs
  else if app.gameState.lastAction.map (·.1) = some botSeat then delayCardRevealAfterBotMs
  else delayCardRevealMs

def enqueueNextEvents : App :=
  if !app.pendingEvents.isEmpty then app
  else
    let phaseChanged := app.gameState.phase ≠ app.lastPhase
    let app := { app with lastPhase := app.gameState.phase }
    match app.gameState.phase with
    | .handComplete => if !app.spent then app.push now .startNewHand delayNewHandMs else app
    | .showdown => app.push now .revealShowdown delayShowdownRevealMs
    | .sessionEnd | .summary => app
    | .preflop | .flop | .turn | .river =>
      if phaseChanged ∧ app.visibleBoardLen < app.gameState.board.length then app.push now .revealCards app.revealDelay
      else if app.gameState.toAct = botSeat then app.push now .botAction delayBotActionMs
      else app

def applyPlayerAction (action : Action) : App :=
  if !app.gameState.isTurn localSeat then app
  else
    match app.gameState.applyCommand ⟨localSeat.seatId, action⟩ with
    | (.error _, _) => app
    | (.ok (), gameState) => { app with gameState := gameState }.enqueueNextEvents now

/-- The timer is cleared and the next event enqueued. -/
def settleEvent : App := { app with nextEventAt := none }.enqueueNextEvents now

def processEvent (event : GameEvent) (botAction : Action) (deck : Deck) : App :=
  match event with
  | .botAction =>
    match app.gameState.applyCommand ⟨botSeat.seatId, botAction⟩ with
    | (.error _, _) => { app with nextEventAt := none }
    | (.ok (), gameState) => { app with gameState := gameState }.settleEvent now
  | .startNewHand =>
    let gameState := app.gameState.startNewHand deck
    { app with
      gameState := gameState
      showdownResultShown := false
      visibleBoardLen := 0
      lastPhase := gameState.phase }.push now .postSmallBlind delayPostSbMs
  | .postSmallBlind => app.push now .postBigBlind delayPostBbMs
  | .postBigBlind => app.settleEvent now
  | .revealCards =>
    let app := { app with visibleBoardLen := app.gameState.board.length }
    if app.spent then { app with gameState := app.gameState.advancePhase }.settleEvent now
    else if app.gameState.toAct = botSeat then app.push now .botAction delayBotActionAfterRevealMs
    else app.settleEvent now
  | .revealShowdown => app.push now .showResult delayShowdownResultMs
  | .showResult => { app with showdownResultShown := true, nextEventAt := none }

def processNextEvent (botAction : Action) (deck : Deck) : App :=
  match app.nextEventAt with
  | none => app
  | some eventTime =>
    if now < eventTime then app
    else
      match app.pendingEvents with
      | [] => { app with nextEventAt := none }
      | event :: rest => { app with pendingEvents := rest }.processEvent now event botAction deck

def setPhase (phase : GamePhase) : App := { app with gameState := { app.gameState with phase := phase } }

def continueAfterShowdown : App :=
  if app.gameState.phase = .showdown ∧ app.showdownResultShown then
    let app := { app with pendingEvents := [] }
    if !app.spent then app.push now .startNewHand 0
    else { app.setPhase .sessionEnd with nextEventAt := none }
  else app

def pressKey (deck : Deck) (key : Key) : App :=
  match app.gameState.phase with
  | .showdown =>
    match key with
    | .quit => app.setPhase .summary
    | .newSession | .action _ => app.continueAfterShowdown now
  | .sessionEnd =>
    match key with
    | .newSession => app.newSession now deck
    | .quit | .action _ => app
  | .summary => app
  | .preflop | .flop | .turn | .river | .handComplete =>
    match key with
    | .quit => app.setPhase .summary
    | .newSession => app
    | .action action => if app.pendingEvents.isEmpty then app.applyPlayerAction now action else app

/-- A fold that leaves a seat without chips ends the session. -/
def endSession : App := if app.gameState.phase = .handComplete ∧ app.spent then app.setPhase .sessionEnd else app

/-- One turn of the loop. -/
def frame (frame : Frame) : App :=
  let app := app.processNextEvent frame.now frame.botAction frame.deck
  let app := match frame.key with
    | some key => app.pressKey frame.now frame.deck key
    | none => app
  app.endSession

end App

/-! ## The board -/

namespace GameState

variable {g g' : GameState}

/-- The street's cards are on the board and the deck holds the rest of the five. -/
structure OnBoard (g : GameState) : Prop where
  board : g.board.length = g.phase.boardLength
  room : g.deck.index + (5 - g.phase.boardLength) ≤ g.deck.cards.length

/-- An advanced street has ended the betting, or is a later one with its cards on the board and no bets. -/
structure Moved (g g' : GameState) : Prop where
  street : g'.phase ≠ .preflop
  phase : g'.phase ≠ g.phase
  board : g.board.length < g'.board.length
  bets : ∀ p, g'.streetBet p = 0
  dealt : g'.OnBoard

theorem advancePhase_moved (hb : g.phase.betting = true) (hr : g.InRange) (hd : g.OnBoard) :
    g.advancePhase.phase.betting = false ∨ Moved g g.advancePhase := by
  have honly : OnlyChips g g.collectBets := collectBets_only
  obtain ⟨-, h⟩ | ⟨cards, phase, h, hnext, hpre, hpos, hcards⟩ := advancePhase_cases hb
  · rw [h]
    exact .inl rfl
  refine .inr ?_
  rw [h]
  have ho := openStreet_opened g.collectBets cards phase
  generalize g.collectBets.openStreet cards phase = g' at ho
  have hfive : phase.boardLength ≤ 5 := by cases phase <;> decide
  have hroom := hd.room
  have hboard := hd.board
  have hdeal := g.deck.dealN_eq cards (by omega)
  have hdealt : (g.deck.upcoming cards).length = cards := g.deck.upcoming_length cards (by omega)
  have hlen : g'.board.length = phase.boardLength := by
    rw [ho.board, honly.board, honly.deck, hdeal, List.length_append, hdealt]
    omega
  refine ⟨by rw [ho.phase]; exact hpre, ?_, by omega, ?_, by rw [ho.phase]; exact hlen, ?_⟩
  · intro hsame
    rw [ho.phase] at hsame
    rw [hsame] at hcards
    omega
  · intro p
    rw [streetBet, seat, ho.seats]
    exact congrArg SeatState.streetBet (collectBets_seat hr p)
  · rw [ho.deck, honly.deck, hdeal, ho.phase]
    simp only
    omega

/-- Outside a street an advance only clears the bets. -/
theorem advancePhase_idle (hb : g.phase.betting = false) : g.advancePhase = g.collectBets := by
  have hphase : g.collectBets.phase = g.phase := collectBets_only.phase
  cases h : g.phase <;> simp [advancePhase, hphase, h, GamePhase.betting] at hb ⊢

theorem NewHand.onBoard {deck : Deck} (h : NewHand g deck g') (hdeck : deck.Shuffled) : OnBoard g' := by
  have hlen := hdeck.length
  have hindex := hdeck.2
  have hfirst := deck.dealN_eq 2 (by omega)
  have hsecond := (deck.dealN 2).2.dealN_eq 2 (by rw [hfirst]; simp only; omega)
  refine ⟨by rw [h.board, h.phase]; rfl, ?_⟩
  rw [h.deck, h.phase, hsecond, hfirst]
  simp only [GamePhase.boardLength]
  omega

end GameState

/-! ## The loop's order -/

namespace App

variable {app : App} {now : Nat} {event : GameEvent} {g' : GameState}

/-- The hand on the table, and what the loop has shown of it. -/
structure Ready (app : App) : Prop where
  table : app.gameState.AtTable
  dealt : app.gameState.phase.betting = true → app.gameState.OnBoard
  visible : app.gameState.phase.betting = true → app.visibleBoardLen ≤ app.gameState.board.length
  same : app.gameState.phase.betting = true → app.lastPhase = app.gameState.phase
  turn : app.gameState.phase = .preflop → (app.gameState.seat app.gameState.toAct).eligibleToAct = true

/-- A street that runs out after the flop is about to be advanced, and what is pending can be done. -/
structure Fit (app : App) : Prop where
  ready : app.Ready
  single : app.pendingEvents.length ≤ 1
  armed : app.pendingEvents ≠ [] → app.nextEventAt.isSome = true
  revealing : app.gameState.RunsOut → app.gameState.phase ≠ .preflop → app.pendingEvents = [.revealCards]
  reveals : .revealCards ∈ app.pendingEvents → app.gameState.phase ≠ .preflop ∧ ∀ p, app.gameState.streetBet p = 0
  starts : .startNewHand ∈ app.pendingEvents → ∀ p, 0 < app.gameState.stack p

/-- No street after the flop runs out. -/
def Open (app : App) : Prop := app.gameState.RunsOut → app.gameState.phase = .preflop

/-- The loop before it enqueues: a street that has moved on is a later one with its cards hidden. -/
structure Settling (app : App) : Prop where
  table : app.gameState.AtTable
  none : app.pendingEvents = []
  dealt : app.gameState.phase.betting = true → app.gameState.OnBoard
  visible : app.gameState.phase.betting = true → app.visibleBoardLen ≤ app.gameState.board.length
  turn : app.gameState.phase = .preflop → (app.gameState.seat app.gameState.toAct).eligibleToAct = true
  moved : app.gameState.phase.betting = true → app.lastPhase ≠ app.gameState.phase →
    app.gameState.phase ≠ .preflop ∧ (∀ p, app.gameState.streetBet p = 0) ∧ app.visibleBoardLen < app.gameState.board.length
  stays : app.gameState.phase.betting = true → app.lastPhase = app.gameState.phase → app.Open

theorem Ready.idle (hr : app.Ready) (hopen : app.Open) (hnone : app.pendingEvents = []) : app.Fit := by
  refine ⟨hr, by simp [hnone], fun h => absurd hnone h, fun hout hne => absurd (hopen hout) hne, ?_, ?_⟩ <;> intro h <;>
    simp [hnone] at h

/-- An event that neither reveals cards nor starts a hand. -/
theorem Ready.push (hr : app.Ready) (hopen : app.Open) (hnone : app.pendingEvents = []) (hreveal : event ≠ .revealCards)
    (hstart : event ≠ .startNewHand) (delay : Nat) : (app.push now event delay).Fit := by
  refine ⟨⟨hr.table, hr.dealt, hr.visible, hr.same, hr.turn⟩, by simp [App.push, hnone], fun _ => rfl,
    fun hout hne => absurd (hopen hout) hne, ?_, ?_⟩
  · intro h
    simp [App.push, hnone, hreveal.symm] at h
  · intro h
    simp [App.push, hnone, hstart.symm] at h

theorem Ready.settling (hr : app.Ready) (hopen : app.Open) (hnone : app.pendingEvents = []) : app.Settling :=
  ⟨hr.table, hnone, hr.dealt, hr.visible, hr.turn, fun hb hne => absurd (hr.same hb) hne, fun _ _ => hopen⟩

theorem spent_iff : app.spent = true ↔ app.gameState.stack .first = 0 ∨ app.gameState.stack .second = 0 := by
  simp only [spent, Bool.or_eq_true, decide_eq_true_eq]
  exact Iff.rfl

theorem pos_of_not_spent (app : App) (h : app.spent = false) (p : HeadsUpSeat) : 0 < app.gameState.stack p := by
  have hnot : ¬ (app.gameState.stack .first = 0 ∨ app.gameState.stack .second = 0) := by
    rw [← spent_iff, h]
    decide
  cases p <;> omega

/-- What is enqueued in a hand: its new cards, or the bot's action when it is the bot's turn. -/
theorem Settling.enqueue_street (hs : app.Settling) (hb : app.gameState.phase.betting = true) :
    Fit (if app.gameState.phase ≠ app.lastPhase ∧ app.visibleBoardLen < app.gameState.board.length then
        { app with lastPhase := app.gameState.phase }.push now .revealCards app.revealDelay
      else if app.gameState.toAct = botSeat then
        { app with lastPhase := app.gameState.phase }.push now .botAction delayBotActionMs
      else { app with lastPhase := app.gameState.phase }) := by
  have hready : Ready { app with lastPhase := app.gameState.phase } := ⟨hs.table, hs.dealt, hs.visible, fun _ => rfl, hs.turn⟩
  by_cases hsame : app.lastPhase = app.gameState.phase
  · have hopen : Open { app with lastPhase := app.gameState.phase } := hs.stays hb hsame
    rw [if_neg fun h => h.1 hsame.symm]
    split
    · exact hready.push hopen hs.none (by decide) (by decide) _
    · exact hready.idle hopen hs.none
  · obtain ⟨hstreet, hbets, hvisible⟩ := hs.moved hb hsame
    rw [if_pos ⟨fun h => hsame h.symm, hvisible⟩]
    refine ⟨⟨hs.table, hs.dealt, hs.visible, fun _ => rfl, hs.turn⟩, by simp [push, hs.none], fun _ => rfl, ?_, ?_, ?_⟩
    · intro _ _
      simp [push, hs.none]
    · intro _
      exact ⟨hstreet, hbets⟩
    · intro h
      simp [push, hs.none] at h

/-- What is enqueued next keeps the loop in order. -/
theorem Settling.enqueue (hs : app.Settling) : (app.enqueueNextEvents now).Fit := by
  have hready : Ready { app with lastPhase := app.gameState.phase } := ⟨hs.table, hs.dealt, hs.visible, fun _ => rfl, hs.turn⟩
  have hopen (hb : app.gameState.phase.betting = false) : Open { app with lastPhase := app.gameState.phase } := by
    intro hout
    have h : app.gameState.phase.betting = true := hout.1
    rw [hb] at h
    cases h
  unfold enqueueNextEvents
  rw [if_neg (by simp [hs.none])]
  dsimp only
  split
  · rename_i hphase
    have hover : Open { app with lastPhase := app.gameState.phase } := hopen (by rw [hphase]; rfl)
    split
    · rename_i hspent
      have hpos := pos_of_not_spent { app with lastPhase := app.gameState.phase } (by simpa using hspent)
      refine ⟨⟨hs.table, hs.dealt, hs.visible, fun _ => rfl, hs.turn⟩, by simp [push, hs.none], fun _ => rfl,
        fun hout hne => absurd (hover hout) hne, ?_, ?_⟩
      · intro h
        simp [push, hs.none] at h
      · intro _
        exact hpos
    · exact hready.idle hover hs.none
  · rename_i hphase
    exact hready.push (hopen (by rw [hphase]; rfl)) hs.none (by decide) (by decide) _
  · rename_i hphase
    exact hready.idle (hopen (by rw [hphase]; rfl)) hs.none
  · rename_i hphase
    exact hready.idle (hopen (by rw [hphase]; rfl)) hs.none
  all_goals
    rename_i hphase
    exact hs.enqueue_street (by rw [hphase]; rfl)

theorem Settling.settleEvent (hs : app.Settling) : (app.settleEvent now).Fit :=
  Settling.enqueue ⟨hs.table, hs.none, hs.dealt, hs.visible, hs.turn, hs.moved, hs.stays⟩

/-! ### A command -/

/-- A hand that has ended leaves nothing to keep. -/
theorem Settling.over (htable : app.gameState.AtTable) (hnone : app.pendingEvents = [])
    (hover : app.gameState.phase.betting = false) :
    app.Settling := by
  have hnot (hb : app.gameState.phase.betting = true) : False := by
    rw [hover] at hb
    cases hb
  refine ⟨htable, hnone, fun hb => (hnot hb).elim, fun hb => (hnot hb).elim, ?_,
    fun hb => (hnot hb).elim, fun hb => (hnot hb).elim⟩
  intro hpre
  exact (hnot (by rw [hpre]; rfl)).elim

/-- A street that has moved on from the one the loop knew. -/
theorem Settling.later {g : GameState} (htable : app.gameState.AtTable) (hnone : app.pendingEvents = [])
    (hm : GameState.Moved g app.gameState) (hknown : app.lastPhase = g.phase) (hvisible : app.visibleBoardLen ≤ g.board.length) :
    app.Settling := by
  have hlt := Nat.lt_of_le_of_lt hvisible hm.board
  refine ⟨htable, hnone, fun _ => hm.dealt, fun _ => Nat.le_of_lt hlt, fun h => absurd h hm.street,
    fun _ _ => ⟨hm.street, hm.bets, hlt⟩, ?_⟩
  intro _ hsame
  exact absurd (hsame.symm.trans hknown) hm.phase

/-- A hand the loop was waiting on, after an accepted action. -/
theorem Ready.acted {action : Action} (hr : app.Ready) (hnone : app.pendingEvents = []) (hb : app.gameState.phase.betting = true)
    (h : GameState.Acted (app.gameState.note app.gameState.toAct action) g') (eventAt : Option Nat) :
    Settling { app with gameState := g', nextEventAt := eventAt } := by
  have htable : g'.AtTable := hr.table.note.acted hb h
  have hnoted : (app.gameState.note app.gameState.toAct action).AtTable := hr.table.note
  have hu := hnoted.underway hb
  have hsame := hr.same hb
  have hd := hr.dealt hb
  have hvisible := hr.visible hb
  cases h with
  | folded hpaid hphase => exact .over htable hnone (by simp only [hphase]; rfl)
  | @closed called hw honly hclosed =>
    have hphase : called.phase = app.gameState.phase := honly.phase
    have hboard : called.board = app.gameState.board := honly.board
    have hd' : called.OnBoard := ⟨by rw [hboard, hphase]; exact hd.board, by rw [honly.deck, hphase]; exact hd.room⟩
    obtain hover | hm := GameState.advancePhase_moved (by rw [hphase]; exact hb) (hw.range hu.range) hd'
    · exact .over htable hnone hover
    · exact .later htable hnone hm (hsame.trans hphase.symm) (by rw [hboard]; exact hvisible)
  | @answers called hw honly hanswers =>
    have hphase : called.phase = app.gameState.phase := honly.phase
    have hboard : called.board = app.gameState.board := honly.board
    refine ⟨htable, hnone, ?_, ?_, fun _ => hanswers.turn, ?_, ?_⟩
    · intro _
      exact ⟨by simp only [hboard, hphase]; exact hd.board, by simp only [honly.deck, hphase]; exact hd.room⟩
    · intro _
      simpa only [hboard] using hvisible
    · intro _ hne
      exact absurd (hsame.trans hphase.symm) hne
    · intro _ _ hout
      by_contra hstreet
      exact hanswers.not_runsOut hstreet hout

/-- A command leaves the game as it is or is an accepted action of the seat whose turn it is. -/
theorem applyCommand_told (g : GameState) (command : SeatCommand) :
    (∃ error, g.applyCommand command = (.error error, g)) ∨
      ∃ g', g.applyCommand command = (.ok (), g') ∧ g.validateCommand command = .ok () ∧
        (g.AtTable → GameState.Acted (g.note g.toAct command.action) g') := by
  cases hv : g.validateCommand command with
  | error error => exact .inl ⟨error, by simp [GameState.applyCommand, hv]⟩
  | ok _ =>
    obtain ⟨hb, hseat, hturn, haction⟩ := GameState.validateCommand_ok hv
    refine .inr ⟨g.applyValidatedAction g.toAct command.action, ?_, rfl, fun ha => (ha.underway hb).act hturn haction⟩
    simp [GameState.applyCommand, hv, hseat]

theorem Fit.applyPlayerAction {action : Action} (hf : app.Fit) (hnone : app.pendingEvents = []) :
    (app.applyPlayerAction now action).Fit := by
  unfold App.applyPlayerAction
  split
  · exact hf
  obtain ⟨error, h⟩ | ⟨g', h, hv, hacted⟩ := applyCommand_told app.gameState ⟨localSeat.seatId, action⟩
  · rw [h]
    exact hf
  · rw [h]
    exact (hf.ready.acted hnone (GameState.validateCommand_ok hv).1 (hacted hf.ready.table) app.nextEventAt).enqueue

/-! ### An event -/

/-- The seat that becomes the button has a chip behind its small blind. -/
def ButtonCovered (app : App) : Prop := 2 ≤ app.gameState.stack app.gameState.button.other

instance (app : App) : Decidable app.ButtonCovered := inferInstanceAs (Decidable (_ ≤ _))

/-- The event at hand starts a hand. -/
def StartsHand (app : App) (now : Nat) : Prop :=
  app.pendingEvents.head? = some .startNewHand ∧ app.nextEventAt.any (· ≤ now) = true

instance (app : App) (now : Nat) : Decidable (app.StartsHand now) := inferInstanceAs (Decidable (_ ∧ _))

theorem NewHand.ready {g : GameState} {deck : Deck} (app : App) (h : GameState.NewHand g deck g') (hdeck : deck.Shuffled)
    (hactive : ∀ p, (g.seat p).tableParticipation = .active) (hchips : ∀ p, g.stack p ≤ u32Max) (hpos : ∀ p, 0 < g.stack p)
    (hpanicked : g.panicked = false) (hbutton : 2 ≤ g.stack g.button.other) (hgame : app.gameState = g')
    (hvisible : app.visibleBoardLen = 0) (hphase : app.lastPhase = g'.phase) : app.Ready ∧ app.Open := by
  subst hgame
  have hanswers := h.answers hpos hbutton
  refine ⟨⟨h.atTable hactive hchips hpos hpanicked, fun _ => h.onBoard hdeck, ?_, fun _ => hphase, fun _ => hanswers.turn⟩, ?_⟩
  · intro _
    rw [hvisible]
    exact Nat.zero_le _
  · intro _
    exact h.phase

theorem Ready.startNewHand {deck : Deck} (hr : app.Ready) (hnone : app.pendingEvents = []) (hpos : ∀ p, 0 < app.gameState.stack p)
    (hdeck : deck.Shuffled) (hbutton : app.ButtonCovered) (botAction : Action) :
    (app.processEvent now .startNewHand botAction deck).Fit := by
  have ht := hr.table
  have hnew := GameState.startNewHand_spec (GameState.eligible_of_active ht.active hpos) ht.chips deck
  obtain ⟨hready, hopen⟩ := NewHand.ready { app with
      gameState := app.gameState.startNewHand deck
      showdownResultShown := false
      visibleBoardLen := 0
      lastPhase := (app.gameState.startNewHand deck).phase }
    hnew hdeck ht.active ht.chips hpos ht.panicked hbutton rfl rfl rfl
  exact hready.push hopen hnone (by decide) (by decide) _

theorem collectBets_atTable {g : GameState} (ht : g.AtTable) (hb : g.phase.betting = false) (hbets : ∀ p, g.streetBet p = 0) :
    g.collectBets.AtTable := by
  have honly : GameState.OnlyChips g g.collectBets := GameState.collectBets_only
  have hrange : g.InRange := by
    intro p
    rw [hbets]
    exact ht.chips p
  refine ⟨fun p => (honly.table p).trans (ht.active p), ?_, honly.panicked.trans ht.panicked, ?_⟩
  · intro p
    rw [GameState.collectBets_stack hrange, hbets, Nat.zero_sub]
    exact ht.chips p
  · intro h
    rw [honly.phase, hb] at h
    cases h

/-- New cards shown on a street with nobody left to bet: the next street. -/
theorem Ready.runOut (hr : app.Ready) (hnone : app.pendingEvents = []) (hbets : ∀ p, app.gameState.streetBet p = 0)
    (hspent : app.spent = true) {visible : Nat} (hvisible : visible ≤ app.gameState.board.length) (eventAt : Option Nat) :
    Settling { app with gameState := app.gameState.advancePhase, visibleBoardLen := visible, nextEventAt := eventAt } := by
  have ht := hr.table
  cases hb : app.gameState.phase.betting with
  | true =>
    have hu := ht.underway hb
    have hclosed : app.gameState.Closed := by
      obtain hzero | hzero := spent_iff.mp hspent
      · exact .inr ⟨.first, hzero, by rw [hbets, hbets]⟩
      · exact .inr ⟨.second, hzero, by rw [hbets, hbets]⟩
    have htable := hclosed.advance hu.range hu.playing ht.active ht.panicked hb
    obtain hover | hm := GameState.advancePhase_moved hb hu.range (hr.dealt hb)
    · exact .over htable hnone hover
    · exact .later htable hnone hm (hr.same hb) hvisible
  | false =>
    rw [GameState.advancePhase_idle hb]
    exact .over (collectBets_atTable ht hb hbets) hnone (by rw [GameState.collectBets_only.phase]; exact hb)

/-- The event that is due is done, and what follows it enqueued. -/
theorem Fit.processEvent {botAction : Action} {deck : Deck} (hf : app.Fit) (hevent : app.pendingEvents = [event])
    (hdeck : deck.Shuffled) (hbutton : event = .startNewHand → app.ButtonCovered) :
    (App.processEvent { app with pendingEvents := [] } now event botAction deck).Fit := by
  have hready : Ready { app with pendingEvents := [] } :=
    ⟨hf.ready.table, hf.ready.dealt, hf.ready.visible, hf.ready.same, hf.ready.turn⟩
  have hopen (hne : event ≠ .revealCards) : Open { app with pendingEvents := [] } := by
    intro hout
    by_contra hstreet
    have h := hf.revealing hout hstreet
    rw [hevent] at h
    cases h
    exact hne rfl
  cases event with
  | botAction =>
    have hopen := hopen (by decide)
    obtain ⟨error, h⟩ | ⟨g', h, hv, hacted⟩ := applyCommand_told app.gameState ⟨botSeat.seatId, botAction⟩
    · simp only [App.processEvent, h]
      exact Ready.idle ⟨hready.table, hready.dealt, hready.visible, hready.same, hready.turn⟩ hopen rfl
    · simp only [App.processEvent, h]
      exact (hready.acted rfl (GameState.validateCommand_ok hv).1 (hacted hready.table) none).settleEvent
  | startNewHand => exact hready.startNewHand rfl (hf.starts (by simp [hevent])) hdeck (hbutton rfl) botAction
  | postSmallBlind => exact hready.push (hopen (by decide)) rfl (by decide) (by decide) _
  | postBigBlind => exact (hready.settling (hopen (by decide)) rfl).settleEvent
  | revealCards =>
    obtain ⟨-, hbets⟩ := hf.reveals (by simp [hevent])
    simp only [App.processEvent]
    split
    · rename_i hspent
      exact (hready.runOut rfl hbets hspent (Nat.le_refl _) none).enqueue
    · rename_i hspent
      have hpos := pos_of_not_spent { app with pendingEvents := [] } (Bool.eq_false_iff.mpr hspent)
      have hshown : Ready { app with pendingEvents := [], visibleBoardLen := app.gameState.board.length } :=
        ⟨hready.table, hready.dealt, fun _ => Nat.le_refl _, hready.same, hready.turn⟩
      have hover : Open { app with pendingEvents := [], visibleBoardLen := app.gameState.board.length } := by
        intro hout
        have hfirst := hpos .first
        have hsecond := hpos .second
        have hzero : app.gameState.stack .first = 0 ∨ app.gameState.stack .second = 0 := hout.2.1
        simp only at hfirst hsecond
        omega
      split
      · exact hshown.push hover rfl (by decide) (by decide) _
      · exact (hshown.settling hover rfl).settleEvent
  | revealShowdown => exact hready.push (hopen (by decide)) rfl (by decide) (by decide) _
  | showResult => exact Ready.idle ⟨hready.table, hready.dealt, hready.visible, hready.same, hready.turn⟩ (hopen (by decide)) rfl

theorem Fit.processNextEvent {botAction : Action} {deck : Deck} (hf : app.Fit) (hdeck : deck.Shuffled)
    (hbutton : app.StartsHand now → app.ButtonCovered) : (app.processNextEvent now botAction deck).Fit := by
  unfold App.processNextEvent
  split
  · exact hf
  rename_i eventTime htime
  split
  · exact hf
  rename_i hdue
  split
  · rename_i hnone
    refine ⟨⟨hf.ready.table, hf.ready.dealt, hf.ready.visible, hf.ready.same, hf.ready.turn⟩, hf.single, ?_,
      hf.revealing, hf.reveals,
      hf.starts⟩
    intro h
    exact absurd hnone h
  · rename_i event rest hevent
    have hrest : rest = [] := by
      have h := hf.single
      rw [hevent, List.length_cons] at h
      exact List.eq_nil_of_length_eq_zero (by omega)
    subst hrest
    refine hf.processEvent hevent hdeck ?_
    intro hstart
    refine hbutton ⟨by rw [hevent, hstart]; rfl, ?_⟩
    rw [htime, Option.any_some, decide_eq_true_eq]
    omega

/-! ### A key -/

theorem Fit.setPhase {phase : GamePhase} (hf : app.Fit) (hover : phase.betting = false) : (app.setPhase phase).Fit := by
  have hnot (hb : phase.betting = true) : False := by
    rw [hover] at hb
    cases hb
  have hstreet : phase ≠ .preflop := by
    intro h
    exact hnot (by rw [h]; rfl)
  refine ⟨⟨⟨hf.ready.table.active, hf.ready.table.chips, hf.ready.table.panicked, fun hb => (hnot hb).elim⟩,
    fun hb => (hnot hb).elim,
    fun hb => (hnot hb).elim, fun hb => (hnot hb).elim, fun h => absurd h hstreet⟩, hf.single, hf.armed,
    fun hout _ => (hnot hout.1).elim, ?_, hf.starts⟩
  intro h
  exact ⟨hstreet, (hf.reveals h).2⟩

theorem Fit.continueAfterShowdown (hf : app.Fit) : (app.continueAfterShowdown now).Fit := by
  unfold App.continueAfterShowdown
  split
  · rename_i hshown
    have hover : app.gameState.phase.betting = false := by rw [hshown.1]; rfl
    have hready : Ready { app with pendingEvents := [] } :=
      ⟨hf.ready.table, hf.ready.dealt, hf.ready.visible, hf.ready.same, hf.ready.turn⟩
    have hopen : Open { app with pendingEvents := [] } := by
      intro hout
      exact absurd (hover.symm.trans hout.1) (by decide)
    dsimp only
    split
    · rename_i hspent
      have hpos := pos_of_not_spent { app with pendingEvents := [] } (by simpa using hspent)
      refine ⟨⟨hready.table, hready.dealt, hready.visible, hready.same, hready.turn⟩, by simp [push], fun _ => rfl,
        fun hout hne => absurd (hopen hout) hne, ?_, fun _ => hpos⟩
      intro h
      simp [push] at h
    · have h : (App.setPhase { app with pendingEvents := [] } .sessionEnd).Fit := Fit.setPhase (hready.idle hopen rfl) rfl
      refine ⟨⟨h.ready.table, h.ready.dealt, h.ready.visible, h.ready.same, h.ready.turn⟩, h.single, ?_, h.revealing,
        h.reveals, h.starts⟩
      intro hne
      exact absurd rfl hne
  · exact hf

/-- `new` with a starting stack that is not nothing. -/
theorem started {s : Nat} {deck : Deck} (hstack : wrap32 (s * bigBlind) ≠ 0) (hdeck : deck.Shuffled)
    (hgame : app.gameState = .new s deck) (hnone : app.pendingEvents = []) (hvisible : app.visibleBoardLen = 0)
    (hphase : app.lastPhase = (GameState.new s deck).phase) : (app.initializeSession now).Fit := by
  have htwo (p : HeadsUpSeat) : 2 ≤ (GameState.unplayed s).stack p := by
    rw [GameState.unplayed_stack]
    simp only [wrap32, bigBlind] at hstack ⊢
    omega
  obtain ⟨hready, hopen⟩ := NewHand.ready _ (GameState.new_newHand hstack deck) hdeck (GameState.unplayed_active s)
    (GameState.unplayed_le s) (GameState.unplayed_pos hstack) rfl (htwo _) hgame hvisible hphase
  exact hready.push hopen hnone (by decide) (by decide) _

theorem Fit.pressKey {deck : Deck} {key : Key} (hf : app.Fit) (hstack : wrap32 (app.startingStackBb * bigBlind) ≠ 0)
    (hdeck : deck.Shuffled) : (app.pressKey now deck key).Fit := by
  unfold App.pressKey
  split
  · split
    · exact hf.setPhase rfl
    · exact hf.continueAfterShowdown
    · exact hf.continueAfterShowdown
  · split
    · exact started hstack hdeck rfl rfl rfl rfl
    · exact hf
    · exact hf
  · exact hf
  all_goals
    split
    · exact hf.setPhase rfl
    · exact hf
    · split
      · rename_i hnone
        exact hf.applyPlayerAction (List.isEmpty_iff.mp hnone)
      · exact hf

theorem Fit.endSession (hf : app.Fit) : app.endSession.Fit := by
  unfold App.endSession
  split
  · exact hf.setPhase rfl
  · exact hf

end App

end OpenFelt
