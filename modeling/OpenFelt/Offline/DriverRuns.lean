/-
  OpenFelt.Offline.DriverRuns — runs of the terminal's loop.

  Proved, over every run in which the seat that becomes the button has two chips: whenever
  a street is being bet on, the turn is with a seat that can act or the loop is about to
  advance the street (`streets_go_on`). A button dealt its last chip as the small blind
  waits for ever (`spent_button_waits`).
-/

import OpenFelt.Offline.Driver

namespace OpenFelt

namespace App

variable {app : App} {now : Nat} {event : GameEvent} {g' : GameState}

/-! ## Runs of the loop -/

theorem enqueueNextEvents_frame : (app.enqueueNextEvents now).gameState = app.gameState ∧
    (app.enqueueNextEvents now).startingStackBb = app.startingStackBb := by
  unfold enqueueNextEvents
  split
  · exact ⟨rfl, rfl⟩
  dsimp only
  split
  · split <;> exact ⟨rfl, rfl⟩
  · exact ⟨rfl, rfl⟩
  · exact ⟨rfl, rfl⟩
  · exact ⟨rfl, rfl⟩
  all_goals
    split
    · exact ⟨rfl, rfl⟩
    · split <;> exact ⟨rfl, rfl⟩

theorem settleEvent_frame : (app.settleEvent now).gameState = app.gameState ∧
    (app.settleEvent now).startingStackBb = app.startingStackBb := enqueueNextEvents_frame

theorem processEvent_startingStackBb (botAction : Action) (deck : Deck) :
    (app.processEvent now event botAction deck).startingStackBb = app.startingStackBb := by
  unfold processEvent
  split
  · split
    · rfl
    · exact settleEvent_frame.2
  · rfl
  · rfl
  · exact settleEvent_frame.2
  · dsimp only
    split
    · exact settleEvent_frame.2
    · split
      · rfl
      · exact settleEvent_frame.2
  · rfl
  · rfl

theorem processNextEvent_startingStackBb (botAction : Action) (deck : Deck) :
    (app.processNextEvent now botAction deck).startingStackBb = app.startingStackBb := by
  unfold processNextEvent
  split
  · rfl
  · split
    · rfl
    · split
      · rfl
      · exact processEvent_startingStackBb ..

theorem pressKey_startingStackBb (deck : Deck) (key : Key) :
    (app.pressKey now deck key).startingStackBb = app.startingStackBb := by
  have hact (action : Action) : (app.applyPlayerAction now action).startingStackBb = app.startingStackBb := by
    unfold applyPlayerAction
    split
    · rfl
    · split
      · rfl
      · exact enqueueNextEvents_frame.2
  have hcontinue : (app.continueAfterShowdown now).startingStackBb = app.startingStackBb := by
    unfold continueAfterShowdown
    split
    · dsimp only
      split <;> rfl
    · rfl
  unfold pressKey
  split
  · split
    · rfl
    · exact hcontinue
    · exact hcontinue
  · split <;> rfl
  · rfl
  all_goals
    split
    · rfl
    · rfl
    · split
      · exact hact _
      · rfl

theorem frame_startingStackBb (f : Frame) : (app.frame f).startingStackBb = app.startingStackBb := by
  have hend (app : App) : app.endSession.startingStackBb = app.startingStackBb := by
    unfold endSession
    split <;> rfl
  unfold frame
  dsimp only
  rw [hend]
  split
  · rw [pressKey_startingStackBb, processNextEvent_startingStackBb]
  · rw [processNextEvent_startingStackBb]

theorem Fit.frame {f : Frame} (hf : app.Fit) (hstack : wrap32 (app.startingStackBb * bigBlind) ≠ 0) (hdeck : f.deck.Shuffled)
    (hbutton : app.StartsHand f.now → app.ButtonCovered) : (app.frame f).Fit := by
  have hprocessed : (app.processNextEvent f.now f.botAction f.deck).Fit := hf.processNextEvent hdeck hbutton
  unfold App.frame
  dsimp only
  refine Fit.endSession ?_
  split
  · refine hprocessed.pressKey ?_ hdeck
    rw [processNextEvent_startingStackBb]
    exact hstack
  · exact hprocessed

def frames (app : App) (fs : List Frame) : App := fs.foldl App.frame app

/-- Every hand a run starts has a button with a chip behind its small blind. -/
def CoveredStarts : App → List Frame → Prop
  | _, [] => True
  | app, f :: fs => (app.StartsHand f.now → app.ButtonCovered) ∧ CoveredStarts (app.frame f) fs

def decideCoveredStarts : (app : App) → (fs : List Frame) → Decidable (app.CoveredStarts fs)
  | _, [] => isTrue trivial
  | app, f :: fs =>
    haveI := decideCoveredStarts (app.frame f) fs
    inferInstanceAs (Decidable ((app.StartsHand f.now → app.ButtonCovered) ∧ CoveredStarts (app.frame f) fs))

instance (app : App) (fs : List Frame) : Decidable (app.CoveredStarts fs) := decideCoveredStarts app fs

theorem Fit.frames {fs : List Frame} (hf : app.Fit) (hstack : wrap32 (app.startingStackBb * bigBlind) ≠ 0)
    (hdecks : ∀ f ∈ fs, f.deck.Shuffled) (hstarts : app.CoveredStarts fs) : (app.frames fs).Fit := by
  induction fs generalizing app with
  | nil => exact hf
  | cons f fs ih =>
    refine ih (hf.frame hstack (hdecks f (List.mem_cons_self ..)) hstarts.1) ?_ ?_ hstarts.2
    · rw [frame_startingStackBb]
      exact hstack
    · intro f' hf'
      exact hdecks f' (List.mem_cons_of_mem _ hf')

/-- The loop's next event shows the street's cards and moves on to the next street or the showdown. -/
def Advances (app : App) : Prop :=
  app.pendingEvents = [.revealCards] ∧ ∃ eventTime, app.nextEventAt = some eventTime ∧
    ∀ now botAction deck, eventTime ≤ now → (app.processNextEvent now botAction deck).gameState.phase ≠ app.gameState.phase

theorem advancePhase_phase {g : GameState} (hb : g.phase.betting = true) : g.advancePhase.phase ≠ g.phase := by
  obtain ⟨hriver, h⟩ | ⟨cards, phase, h, -, -, hpos, hcards⟩ := GameState.advancePhase_cases hb
  · rw [h, hriver]
    intro hsame
    cases hsame
  · rw [h, (GameState.openStreet_opened ..).phase]
    intro hsame
    rw [hsame] at hcards
    omega

/-- Cards shown to a seat without chips: the next street. -/
theorem processEvent_spent (hspent : app.spent = true) (now : Nat) (botAction : Action) (deck : Deck) :
    (app.processEvent now .revealCards botAction deck).gameState = app.gameState.advancePhase := by
  have h : app.processEvent now .revealCards botAction deck = App.settleEvent
      { app with visibleBoardLen := app.gameState.board.length, gameState := app.gameState.advancePhase } now := if_pos hspent
  rw [h]
  exact settleEvent_frame.1

/-- A street that runs out after the flop is about to be advanced. -/
theorem Fit.advances (hf : app.Fit) (hout : app.gameState.RunsOut) (hstreet : app.gameState.phase ≠ .preflop) : app.Advances := by
  have hevent := hf.revealing hout hstreet
  obtain ⟨eventTime, htime⟩ := Option.isSome_iff_exists.mp (hf.armed (by simp [hevent]))
  refine ⟨hevent, eventTime, htime, ?_⟩
  intro now botAction deck hdue
  have hspent : spent { app with pendingEvents := [] } = true := spent_iff.mpr hout.2.1
  have hgame : (app.processNextEvent now botAction deck).gameState = app.gameState.advancePhase := by
    rw [← processEvent_spent hspent now botAction deck]
    simp only [App.processNextEvent, htime, hevent, if_neg (Nat.not_lt.mpr hdue)]
  rw [hgame]
  exact advancePhase_phase hout.1

/-- On a street the turn is with a seat that can act, or the loop is about to advance it. -/
theorem Fit.goes_on (hf : app.Fit) (hb : app.gameState.phase.betting = true) :
    (app.gameState.seat app.gameState.toAct).eligibleToAct = true ∨ app.Advances := by
  cases (hf.ready.table.underway hb).betting with
  | turn hturn => exact .inl hturn.turn
  | runout hstreet hbets hzero =>
    refine .inr (hf.advances ⟨hb, ?_, ?_, ?_⟩ hstreet)
    · obtain ⟨p, hp⟩ := hzero
      cases p
      · exact .inl hp
      · exact .inr hp
    · intro howes
      have hmax := howes.2
      rw [GameState.maxBet_eq _ .first, hbets, hbets] at hmax
      omega
    · intro howes
      have hmax := howes.2
      rw [GameState.maxBet_eq _ .second, hbets, hbets] at hmax
      omega
  | blinded hstreet _ _ _ => exact .inl (hf.ready.turn hstreet)

theorem processNextEvent_starts (hf : app.Fit) (h : app.StartsHand now) (botAction : Action) (deck : Deck) :
    (∀ p, 0 < app.gameState.stack p) ∧
      (app.processNextEvent now botAction deck).gameState = app.gameState.startNewHand deck := by
  obtain ⟨hhead, htime⟩ := h
  obtain ⟨rest, hevents⟩ := List.head?_eq_some_iff.mp hhead
  cases hat : app.nextEventAt with
  | none =>
    rw [hat] at htime
    cases htime
  | some eventTime =>
    have hdue : eventTime ≤ now := by simpa [hat] using htime
    refine ⟨hf.starts (by simp [hevents]), ?_⟩
    simp only [App.processNextEvent, hat, hevents, if_neg (Nat.not_lt.mpr hdue)]
    rfl

/-- A hand the loop starts has an action the game accepts exactly when its button has a chip behind its small blind. -/
theorem Fit.accepts_iff_covered (hf : app.Fit) (hstart : app.StartsHand now) (botAction : Action) (deck : Deck) :
    (∃ command, (app.processNextEvent now botAction deck).gameState.validateCommand command = .ok ()) ↔ app.ButtonCovered := by
  obtain ⟨hpos, hgame⟩ := processNextEvent_starts hf hstart botAction deck
  have ht := hf.ready.table
  have hnew := GameState.startNewHand_spec (GameState.eligible_of_active ht.active hpos) ht.chips deck
  rw [hgame]
  constructor
  · intro hcan
    obtain ⟨command, hv⟩ := hcan
    by_contra hspent
    have hnot := hnew.spent hpos (by unfold ButtonCovered at hspent; omega)
    exact absurd (hnot.symm.trans (GameState.validateCommand_ok hv).2.2.1) (by decide)
  · intro hcovered
    exact ⟨_, GameState.accepts_allIn (by rw [hnew.phase]; rfl) (hnew.answers hpos hcovered).turn⟩

/-- In every game the turn of a street still being bet on is with a seat that can act and has an action the game accepts;
a loop whose hands start with a chip behind the button's small blind advances each street on which nobody can act, and the
next hand it starts has an accepted action only with such a chip. -/
theorem streets_go_on (s : Nat) (deck : Deck) (hdeck : deck.Shuffled) (hnew : (GameState.new s deck).panicked = false) :
    (∀ ops g, (GameState.new s deck).run ops = some g → g.phase.betting = true →
      ((∀ p, 0 < g.stack p) ∨ ∃ p, g.Owes p) →
        (g.seat g.toAct).eligibleToAct = true ∧ ∃ action, g.validateCommand ⟨g.toAct.seatId, action⟩ = .ok ()) ∧
      ∀ now fs, (∀ f ∈ fs, f.deck.Shuffled) → ((App.new s deck).initializeSession now).CoveredStarts fs →
        ∀ app, app = ((App.new s deck).initializeSession now).frames fs →
          (app.gameState.phase.betting = true →
            ((∀ command, app.gameState.validateCommand command ≠ .ok ()) → app.Advances) ∧
              ((app.gameState.seat app.gameState.toAct).eligibleToAct = false → app.Advances) ∧
              (app.gameState.phase ≠ .preflop → app.gameState.RunsOut → app.Advances)) ∧
            ∀ later botAction deck', app.StartsHand later →
              ((∃ command, (app.processNextEvent later botAction deck').gameState.validateCommand command = .ok ()) ↔
                app.ButtonCovered) := by
  refine ⟨?_, ?_⟩
  · intro ops g hrun hb hnext
    have ha := (GameState.new_atTable (GameState.stack_of_new hnew) deck).run hrun
    have hturn := (ha.underway hb).betting.acts hnext
    exact ⟨hturn, _, GameState.accepts_allIn hb hturn⟩
  · intro now fs hdecks hstarts app happ
    have hstack := GameState.stack_of_new hnew
    have hf : app.Fit := by
      rw [happ]
      exact Fit.frames (started hstack hdeck rfl rfl rfl rfl) hstack hdecks hstarts
    refine ⟨?_, fun later botAction deck' hstart => hf.accepts_iff_covered hstart botAction deck'⟩
    intro hb
    refine ⟨?_, ?_, ?_⟩
    · intro hrejects
      obtain hturn | hadvances := hf.goes_on hb
      · exact absurd (GameState.accepts_allIn hb hturn) (hrejects _)
      · exact hadvances
    · intro hturn
      obtain hcan | hadvances := hf.goes_on hb
      · exact absurd (hturn.symm.trans hcan) (by decide)
      · exact hadvances
    · intro hstreet hout
      exact hf.advances hout hstreet

/-- A session from two big blinds in which the local seat and the bot are all in before the flop. -/
def allInFrames : List Frame :=
  [⟨500, .check, .new, none⟩, ⟨1300, .check, .new, some (.action (.allIn 4))⟩, ⟨3800, .allIn 4, .new, none⟩]

theorem streets_go_on_all_in :
    (GameState.new 2 .new).run [.command ⟨0, .call 1⟩] = some ((GameState.new 2 .new).applyCommand ⟨0, .call 1⟩).2 ∧
      (∃ action, ((GameState.new 2 .new).applyCommand ⟨0, .call 1⟩).2.validateCommand ⟨1, action⟩ = .ok ()) ∧
      (((App.new 2 .new).initializeSession 0).frames allInFrames).Advances := by
  have hdeck : (Deck.new).Shuffled := ⟨List.Perm.refl _, rfl⟩
  have hdecks : ∀ f ∈ allInFrames, f.deck = .new := by decide +kernel
  obtain ⟨hgames, hloops⟩ := streets_go_on 2 .new hdeck (by decide +kernel)
  refine ⟨rfl, ?_, ?_⟩
  · obtain ⟨-, hcan⟩ := hgames [.command ⟨0, .call 1⟩] ((GameState.new 2 .new).applyCommand ⟨0, .call 1⟩).2 rfl
      (by decide +kernel) (.inl (by
      intro p
      cases p <;> decide +kernel))
    have hturn : ((GameState.new 2 .new).applyCommand ⟨0, .call 1⟩).2.toAct.seatId = 1 := by decide +kernel
    rwa [hturn] at hcan
  · have hloop := hloops 0 allInFrames (fun f hf => by rw [hdecks f hf]; exact hdeck) (by decide +kernel) _ rfl
    exact (hloop.1 (by decide +kernel)).2.2 (by decide +kernel) (by decide +kernel)

/-! ### The spent button -/

/-- Keys pressed and events due in a session from two big blinds: the local seat loses its stack
    down to one chip and has the button. -/
def spentButtonFrames : List Frame :=
  [⟨500, .check, .new, none⟩, ⟨1300, .check, .new, some (.action .fold)⟩, ⟨2500, .check, .new, none⟩, ⟨3000, .check, .new, none⟩,
    ⟨3800, .check, .new, none⟩, ⟨6300, .call 1, .new, some (.action .check)⟩, ⟨6800, .check, .new, some (.action .check)⟩,
    ⟨9300, .allIn 3, .new, some (.action .fold)⟩, ⟨10500, .check, .new, none⟩, ⟨11000, .check, .new, none⟩,
      ⟨11800, .check, .new, none⟩]

/-- With no event due ever and the turn with a seat that cannot act, only quitting changes anything. -/
theorem frame_waits {f : Frame} (hidle : app.nextEventAt = none)
    (hb : app.gameState.phase.betting = true) (hturn : (app.gameState.seat app.gameState.toAct).eligibleToAct = false)
    (hkey : f.key ≠ some .quit) : app.frame f = app := by
  have hprocess : app.processNextEvent f.now f.botAction f.deck = app := by simp [processNextEvent, hidle]
  have hrejects (command : SeatCommand) : app.gameState.validateCommand command ≠ .ok () := by
    intro h
    exact absurd (hturn.symm.trans (GameState.validateCommand_ok h).2.2.1) (by decide)
  have hact (action : Action) : app.applyPlayerAction f.now action = app := by
    unfold applyPlayerAction
    split
    · rfl
    obtain ⟨error, h⟩ | ⟨g', -, hv, -⟩ := applyCommand_told app.gameState ⟨localSeat.seatId, action⟩
    · rw [h]
    · exact absurd hv (hrejects _)
  have hpress (key : Key) (hne : key ≠ .quit) : app.pressKey f.now f.deck key = app := by
    unfold pressKey
    split
    · rename_i hphase
      rw [hphase] at hb
      cases hb
    · rename_i hphase
      rw [hphase] at hb
      cases hb
    · rfl
    all_goals
      split
      · exact absurd rfl hne
      · rfl
      · split
        · exact hact _
        · rfl
  have hend : app.endSession = app := by
    refine if_neg ?_
    intro h
    rw [h.1] at hb
    cases hb
  unfold frame
  dsimp only
  rw [hprocess]
  split
  · rename_i key hpressed
    rw [hpress key, hend]
    intro hquit
    exact hkey (by rw [hpressed, hquit])
  · exact hend

/-- A button whose last chip was the small blind. -/
theorem spent_button_waits : (∀ f ∈ spentButtonFrames, f.deck.Shuffled) ∧
    (((App.new 2 .new).initializeSession 0).frames spentButtonFrames).gameState.phase.betting = true ∧
    (∀ command, (((App.new 2 .new).initializeSession 0).frames spentButtonFrames).gameState.validateCommand command ≠ .ok ()) ∧
    ¬ (((App.new 2 .new).initializeSession 0).frames spentButtonFrames).Advances ∧
    ∀ f, f.key ≠ some .quit → (((App.new 2 .new).initializeSession 0).frames spentButtonFrames).frame f =
      ((App.new 2 .new).initializeSession 0).frames spentButtonFrames := by
  have hreached : ((((App.new 2 .new).initializeSession 0).frames spentButtonFrames).gameState.phase = .preflop ∧
      (((App.new 2 .new).initializeSession 0).frames spentButtonFrames).pendingEvents = [] ∧
      (((App.new 2 .new).initializeSession 0).frames spentButtonFrames).nextEventAt = none ∧
      ((((App.new 2 .new).initializeSession 0).frames spentButtonFrames).gameState.seat
        (((App.new 2 .new).initializeSession 0).frames spentButtonFrames).gameState.toAct).eligibleToAct = false) := by
    decide +kernel
  generalize ((App.new 2 .new).initializeSession 0).frames spentButtonFrames = app at hreached ⊢
  obtain ⟨hphase, hnone, hidle, hturn⟩ := hreached
  have hb : app.gameState.phase.betting = true := by rw [hphase]; rfl
  refine ⟨?_, hb, ?_, ?_, fun f hkey => frame_waits hidle hb hturn hkey⟩
  · have hnew : ∀ f ∈ spentButtonFrames, f.deck = .new := by decide +kernel
    intro f hf
    rw [hnew f hf]
    exact ⟨List.Perm.refl _, rfl⟩
  · intro command h
    exact absurd (hturn.symm.trans (GameState.validateCommand_ok h).2.2.1) (by decide)
  · intro h
    exact absurd (hnone.symm.trans h.1) (by decide)

end App

end OpenFelt
