/-
  OpenFelt.Trainer.SessionRuns — a session between its calls.

  A session either plays a hand it has dealt to the whole table (`Plays`: a run of
  commands on what the constructor returned, not yet counted) or stands between hands
  (`Between`: the hand over, nothing in the pot, counted). Every call keeps this
  (`Stands.step`), so every run does (`Stands.run`).
-/

import OpenFelt.Game.FullTable
import OpenFelt.Trainer.Session

namespace OpenFelt

open Betting

namespace MultiwayHand

section kept
variable {c : HandConfig} {h : MultiwayHand} {posted : Nat}

/-- What a run of a hand leaves of its configuration. -/
structure Kept (c : HandConfig) (h : MultiwayHand) : Prop where
  tableSize : h.tableSize = c.tableSize
  button : h.button = c.button
  blindValues : h.blindValues = c.blindValues
  length : h.seats.length = h.tableSize.get
  occupied : ∀ p, occupiedIn h.seats p = (c.seatStacks.lookup p).isSome
  ok : h.panicked = false

theorem Carries.kept (hc : Carries c h) (hb : h.Balanced) : Kept c h :=
  ⟨hc.tableSize, hc.button, hc.blindValues, hb.booked.length, hc.occupied, hb.ok⟩

theorem Stage.kept (hs : Stage c posted h) (hbacked : c.Backed) : Kept c h := by
  have hok := (hs.sums hbacked).ok
  cases hs with
  | playing hc hp => exact hc.kept hp.balanced
  | showing hc hsh _ => exact hc.kept hsh.contest.balanced
  | @settled progress g hc hg =>
    have hset := hg.settled (hg.takers hc hbacked)
    have hsize : g.settle.tableSize = g.tableSize := by rw [hset.frame]
    have hbutton : g.settle.button = g.button := by rw [hset.frame]
    have hblinds : g.settle.blindValues = g.blindValues := by rw [hset.frame]
    refine ⟨hsize.trans hc.tableSize, hbutton.trans hc.button, hblinds.trans hc.blindValues, ?_, ?_, hok⟩
    · rw [hset.length, hsize]
      exact hg.balanced.booked.length
    · intro p
      exact (hset.occupied p).trans (hc.occupied p)
  | @folded g hc hu hone =>
    obtain ⟨_, hf⟩ := awardFold_spec hu.balanced hone
    have hsize : g.awardFold.tableSize = g.tableSize := by rw [hf.frame]
    have hbutton : g.awardFold.button = g.button := by rw [hf.frame]
    have hblinds : g.awardFold.blindValues = g.blindValues := by rw [hf.frame]
    refine ⟨hsize.trans hc.tableSize, hbutton.trans hc.button, hblinds.trans hc.blindValues, ?_, ?_, hok⟩
    · rw [hf.length, hsize]
      exact hu.booked.length
    · intro p
      exact (hf.occupied p).trans (hc.occupied p)

theorem Stage.over_of_terminal (hs : Stage c posted h) (hterminal : h.phase.terminal = true) : h.Over := by
  have hclosed : ∀ phase : MultiwayPhase, phase.acceptsActions = true → phase.terminal = false := by
    intro phase
    cases phase <;> simp [MultiwayPhase.acceptsActions, MultiwayPhase.terminal]
  cases hs with
  | playing _ hp =>
    rw [hclosed _ hp.accepts] at hterminal
    cases hterminal
  | showing _ hsh _ =>
    rw [hclosed _ hsh.contest.accepts] at hterminal
    cases hterminal
  | settled _ _ => exact settle_over _
  | folded _ hu hone => exact awardFold_over hu hone

theorem Over.terminal (ho : h.Over) : h.phase.terminal = true := by
  rcases ho.phase with e | e <;> rw [e] <;> rfl

/-- A hand whose betting the constructor leaves open is in play or over, never at a showdown that waits. -/
theorem HandStarts.unpaced (hs : HandStarts c h) (hunpaced : h.pacedShowdown = false) (hopen : c.opensBetting = true) :
    ∃ posted, h.Unpaced posted := by
  obtain ⟨hdeck, start, paced, hb, rfl⟩ := hs
  obtain ⟨_, _, _, _, _, _, hbuilt⟩ := build_built hb
  obtain ⟨_, _, _, hcases⟩ := hbuilt.cases hdeck
  rcases hcases with ⟨_, hp⟩ | ⟨progress, hsh, _⟩
  · exact ⟨_, Or.inl ⟨hp.paced paced, hunpaced⟩⟩
  · have hnone := hbuilt.open_quiet hdeck ((hbuilt.opens_iff hdeck).mpr hopen)
    rw [hsh.tabled.current] at hnone
    cases hnone

/-- Commands leave a hand dealt without pacing in play, over, or at a showdown that waits for nobody. -/
theorem HandStarts.commanded (hs : HandStarts c h) (hunpaced : h.pacedShowdown = false) (commands : List SeatCommand) :
    (∃ posted, (h.run (commands.map .command)).Unpaced posted) ∨
      ∃ progress, (h.run (commands.map .command)).Showing progress := by
  obtain ⟨hdeck, start, paced, hb, rfl⟩ := hs
  obtain ⟨_, _, _, hp | ⟨progress, hsh, _⟩⟩ := build_cases hdeck hb
  · exact Or.inl ⟨_, Unpaced.run (Or.inl ⟨hp.paced paced, hunpaced⟩) _⟩
  · have hshowing := hsh.paced paced
    refine Or.inr ⟨progress, ?_⟩
    induction commands with
    | nil => exact hshowing
    | cons command commands ih =>
      rw [List.map_cons, run, List.foldl_cons, apply_refused (hshowing.refuses (by simp))]
      exact ih

end kept

end MultiwayHand

namespace Trainer

open MultiwayHand

/-! ## Where a session can be -/

/-- The hand dealt by `c`, as the commands given so far have left it. -/
structure Plays (c : HandConfig) (stack : SeatId → Nat) (start : MultiwayHand) (commands : List SeatCommand)
    (s : Session) : Prop where
  full : c.Full stack
  starts : HandStarts c start
  unpaced : start.pacedShowdown = false
  hand : s.hand = start.run (commands.map .command)
  opening : s.openingHeroStack = stack hero
  unsettled : s.settled = false

/-- The hand is over and counted. -/
structure Between (s : Session) : Prop where
  settled : s.settled = true
  coaching : s.coaching = none
  handOver : s.hand.Over
  pot : ∀ p ∈ s.hand.occupiedSeats, (s.hand.seat p).handContribution = 0
  ok : s.hand.panicked = false

/-- What no call changes: everybody sits, with an opponent behind each seat. -/
structure AtTable (s : Session) : Prop where
  length : s.hand.seats.length = s.hand.tableSize.get
  occupied : ∀ p, occupiedIn s.hand.seats p = decide (p.val < s.hand.tableSize.get)
  button : s.hand.button.val < s.hand.tableSize.get
  blinds : s.hand.blindValues.accepted = true
  ante : s.hand.blindValues.ante = 0
  bots : s.bots.length = s.hand.tableSize.get
  settings : s.settings.validate = .ok ()

/-- `P` holds of every hand dealt. -/
inductive Stands (P : HandConfig → Prop) (s : Session) : Prop
  | plays {c : HandConfig} {stack : SeatId → Nat} {start : MultiwayHand} {commands : List SeatCommand} :
      Plays c stack start commands s → P c → Stands P s
  | between : Between s → Stands P s

section states
variable {c : HandConfig} {stack : SeatId → Nat} {start : MultiwayHand} {commands : List SeatCommand} {s : Session}
  {P : HandConfig → Prop} {p : SeatId}

theorem AtTable.mem_seats (ht : AtTable s) : p ∈ s.hand.occupiedSeats ↔ p.val < s.hand.tableSize.get := by
  rw [mem_occupiedSeats ht.length, ht.occupied, decide_eq_true_eq]

theorem AtTable.seats_eq (ht : AtTable s) : s.hand.occupiedSeats = s.hand.tableSize.seats := by
  unfold occupiedSeats
  refine List.filter_eq_self.mpr fun p hp => ?_
  rw [ht.occupied, decide_eq_true_eq]
  exact s.hand.tableSize.mem_seats.mp hp

theorem hero_lt (size : TableSize) : hero.val < size.get := size.pos

theorem AtTable.heroSits (ht : AtTable s) : occupiedIn s.hand.seats hero = true := by
  rw [ht.occupied, decide_eq_true_eq]
  exact hero_lt _

theorem AtTable.projected (ht : AtTable s) : ∃ outcome, s.projected = some outcome := by
  have hany : s.hand.occupiedSeats.any (· == hero) = true :=
    List.any_eq_true.mpr ⟨hero, ht.mem_seats.mpr (hero_lt _), by simp⟩
  have hseated : s.hand.unseated (.player Trainer.hero) = none := by simp [unseated, hany]
  simp only [Session.projected, projectHand, hseated]
  exact ⟨_, rfl⟩

theorem Plays.stage (hp : Plays c stack start commands s) : Stage c start.currentWager s.hand := by
  rw [hp.hand]
  exact hp.starts.stage.run _

theorem Plays.kept (hp : Plays c stack start commands s) : Kept c s.hand := hp.stage.kept hp.full.backed

theorem Plays.commanded (hp : Plays c stack start commands s) :
    (∃ posted, s.hand.Unpaced posted) ∨ ∃ progress, s.hand.Showing progress := by
  rw [hp.hand]
  exact hp.starts.commanded hp.unpaced commands

/-- A hand on turn has its player observed with two cards. -/
theorem Plays.two (hp : Plays c stack start commands s) (hmem : p ∈ s.hand.occupiedSeats) :
    (s.hand.seat p).holeCards.length = 2 := by
  have hdealt := (hp.starts.dealtFrom_run (commands.map .command)).1
  rw [← hp.hand] at hdealt
  exact hdealt.two p (List.mem_filter.mp hmem).2

/-- The pot is empty once the hand is over. -/
theorem Plays.pot (hp : Plays c stack start commands s) (ho : s.hand.Over) (hmem : p ∈ s.hand.occupiedSeats) :
    (s.hand.seat p).handContribution = 0 := by
  have hawarded := hp.stage.awarded hp.full.backed ho.closed
  have hall := List.sum_eq_zero_iff_forall_eq_nat.mp hawarded.contributions
  exact hall _ (List.mem_map_of_mem hmem)

/-- Another command on the hand. -/
theorem Plays.more {command : SeatCommand} {s' : Session} (hp : Plays c stack start commands s)
    (hhand : s'.hand = (s.hand.applyCommand command).2) (hopening : s'.openingHeroStack = s.openingHeroStack)
    (hsettled : s'.settled = false) : Plays c stack start (commands ++ [command]) s' := by
  refine ⟨hp.full, hp.starts, hp.unpaced, ?_, hopening.trans hp.opening, hsettled⟩
  rw [hhand, hp.hand, List.map_append, run, run, List.foldl_append]
  rfl

theorem Plays.same {s' : Session} (hp : Plays c stack start commands s) (hhand : s'.hand = s.hand)
    (hopening : s'.openingHeroStack = s.openingHeroStack) (hsettled : s'.settled = s.settled) : Plays c stack start commands s' :=
  ⟨hp.full, hp.starts, hp.unpaced, hhand.trans hp.hand, hopening.trans hp.opening, hsettled.trans hp.unsettled⟩

theorem AtTable.same {s' : Session} (ht : AtTable s) (hhand : s'.hand = s.hand) (hbots : s'.bots = s.bots)
    (hsettings : s'.settings = s.settings) : AtTable s' := by
  refine ⟨?_, ?_, ?_, ?_, ?_, ?_, hsettings ▸ ht.settings⟩
  · rw [hhand]; exact ht.length
  · rw [hhand]; exact ht.occupied
  · rw [hhand]; exact ht.button
  · rw [hhand]; exact ht.blinds
  · rw [hhand]; exact ht.ante
  · rw [hhand, hbots]; exact ht.bots

end states

/-! ## What each call does -/

namespace Session

variable (s : Session)

/-- The state an accepted decision leaves. -/
def decided (localFeedback : Decision → Feedback) (decision : Decision) : Session :=
  { s with
    hand := (s.hand.applyCommand ⟨hero, decision.acceptedAction⟩).2
    coaching := some decision
    replayDecisions := s.replayDecisions ++ [⟨decision, localFeedback decision⟩]
    frozenView := s.view }

/-- The hand with an opponent's command in it. -/
def botPlayed (command : SeatCommand) : Session := { s with hand := (s.hand.applyCommand command).2 }

/-- The hand entered into the session's totals. -/
def counted (outcome : TableProjection) : Session :=
  { s with
    sessionProfit := s.sessionProfit + ((s.heroStack : Int) - s.openingHeroStack)
    completedHands := s.completedHands + 1
    replayReady := s.replayReady ++
      [⟨replayVersion, s.sessionId, s.sessionId ++ "-" ++ toString s.handId, s.handId, s.replayDecisions, outcome⟩]
    replayDecisions := []
    settled := true }

/-- What `next_hand` has written before the hand is built. -/
def rebought : Session := { s with cashEvents := s.cashEvents ++ s.rebuys, openingHeroStack := s.heroStack }

def dealt (hand : MultiwayHand) : Session :=
  { s.rebought with hand := hand, handId := s.handId + 1, replayDecisions := [], settled := false }

def unpaused : Session := { s with coaching := none, frozenView := none }

/-- The hero's stack written over, with what is recorded of it. -/
def moved (stack : Nat) (events : List CashEvent) : Session :=
  { s with hand := s.withHeroStack stack, cashEvents := s.cashEvents ++ events }

end Session

section calls
variable {s : Session} {localFeedback : Decision → Feedback} {action : Action} {draws : Draws} {deck : Shuffle} {amount : Nat}

theorem finished_iff : s.finished = true ↔ s.coaching = none ∧ s.hand.phase.terminal = true := by
  simp [Session.finished]

theorem submit_cases (localFeedback : Decision → Feedback) (s : Session) (action : Action) :
    (∃ error, s.submit localFeedback action = (.error error, s)) ∨
    ∃ o, s.coaching = none ∧ s.observation hero = .ok o ∧ s.hand.validateCommand ⟨hero, action⟩ = .ok () ∧
      s.submit localFeedback action = (.ok ⟨1, o, action, Facts.calculate o⟩,
        s.decided localFeedback ⟨1, o, action, Facts.calculate o⟩) := by
  unfold Session.submit
  by_cases hpaused : s.coaching.isSome = true
  · rw [if_pos hpaused]
    exact Or.inl ⟨_, rfl⟩
  rw [if_neg hpaused]
  cases ho : s.observation hero with
  | error text => exact Or.inl ⟨_, rfl⟩
  | ok o =>
    cases hv : s.hand.validateCommand ⟨hero, action⟩ with
    | error e =>
      have happly : s.hand.applyCommand ⟨hero, action⟩ = (.error e, s.hand) := by rw [applyCommand, hv]
      simp only [happly]
      exact Or.inl ⟨_, rfl⟩
    | ok u =>
      have happly : s.hand.applyCommand ⟨hero, action⟩ = (.ok (), s.hand.applyValidatedAction hero action) := by
        rw [applyCommand, hv]
      refine Or.inr ⟨o, by simpa using hpaused, rfl, rfl, ?_⟩
      simp only [happly, Session.decided]

theorem stepBot_cases (s : Session) (draws : Draws) : (∃ r, r ≠ .ok true ∧ s.stepBot draws = (r, s)) ∨
    ∃ p o bot, p ≠ hero ∧ s.coaching = none ∧ s.finished = false ∧ s.hand.toAct = some p ∧ s.observation p = .ok o ∧
      s.hand.validateCommand ⟨p, Opponent.choose bot draws o⟩ = .ok () ∧
      s.stepBot draws = (.ok true, (s.botPlayed ⟨p, bot.choose draws o⟩).settle) := by
  unfold Session.stepBot
  by_cases hidle : (s.coaching.isSome || s.finished) = true
  · rw [if_pos hidle]
    exact Or.inl ⟨_, by simp, rfl⟩
  rw [if_neg hidle]
  simp only [Bool.or_eq_true, not_or, Bool.not_eq_true, Option.isSome_eq_false_iff, Option.isNone_iff_eq_none] at hidle
  cases hto : s.hand.toAct with
  | none => exact Or.inl ⟨_, by simp, rfl⟩
  | some p =>
    dsimp only
    by_cases hp : p = hero
    · rw [if_pos hp]
      exact Or.inl ⟨_, by simp, rfl⟩
    rw [if_neg hp]
    cases ho : s.observation p with
    | error text => exact Or.inl ⟨_, by simp, rfl⟩
    | ok o =>
      cases hbot : s.bots[p.val]? with
      | none => exact Or.inl ⟨_, by simp, rfl⟩
      | some bot =>
        dsimp only
        cases hv : s.hand.validateCommand ⟨p, bot.choose draws o⟩ with
        | error e =>
          have happly : s.hand.applyCommand ⟨p, bot.choose draws o⟩ = (.error e, s.hand) := by rw [applyCommand, hv]
          simp only [happly]
          exact Or.inl ⟨_, by simp, rfl⟩
        | ok u =>
          have happly : s.hand.applyCommand ⟨p, bot.choose draws o⟩ =
              (.ok (), s.hand.applyValidatedAction p (bot.choose draws o)) := by
            rw [applyCommand, hv]
          refine Or.inr ⟨p, o, bot, hp, hidle.1, hidle.2, rfl, ho, hv, ?_⟩
          simp only [happly, Session.botPlayed]

theorem settle_cases (s : Session) : (s.settle = s ∧ (s.finished = true → s.settled = false → s.projected = none)) ∨
    ∃ outcome, s.finished = true ∧ s.settled = false ∧ s.projected = some outcome ∧ s.settle = s.counted outcome := by
  unfold Session.settle
  by_cases hdue : (s.finished && !s.settled) = true
  · rw [if_pos hdue]
    simp only [Bool.and_eq_true, Bool.not_eq_true'] at hdue
    cases hp : s.projected with
    | none => exact Or.inl ⟨rfl, fun _ _ => rfl⟩
    | some outcome => exact Or.inr ⟨outcome, hdue.1, hdue.2, rfl, rfl⟩
  · rw [if_neg hdue]
    refine Or.inl ⟨rfl, fun hf hs => ?_⟩
    rw [hf, hs] at hdue
    exact absurd rfl hdue

theorem topUp_cases (s : Session) : (s.finished = false ∧ ∃ error, s.topUp = (.error error, s)) ∨
    (s.finished = true ∧ ∃ added, added = s.settings.bigBlind * 100 - s.heroStack ∧
      s.topUp = (.ok added, s.moved (s.heroStack + added) (if 0 < added then [⟨s.handId, hero, added, 0⟩] else []))) := by
  unfold Session.topUp
  cases hf : s.finished with
  | false => exact Or.inl ⟨rfl, _, rfl⟩
  | true => exact Or.inr ⟨rfl, _, rfl, rfl⟩

theorem withdraw_cases (s : Session) (amount : Nat) :
    ((s.finished = false ∨ s.heroStack < amount) ∧ ∃ error, s.withdraw amount = (.error error, s)) ∨
    (s.finished = true ∧ amount ≤ s.heroStack ∧
      s.withdraw amount = (.ok (), s.moved (s.heroStack - amount) [⟨s.handId, hero, 0, amount⟩])) := by
  unfold Session.withdraw
  by_cases hrefused : (!s.finished || decide (s.heroStack < amount)) = true
  · rw [if_pos hrefused]
    refine Or.inl ⟨by simpa using hrefused, _, rfl⟩
  · rw [if_neg hrefused]
    simp only [Bool.or_eq_true, Bool.not_eq_true', decide_eq_true_eq, not_or, Bool.not_eq_false, Nat.not_lt] at hrefused
    exact Or.inr ⟨hrefused.1, hrefused.2, rfl⟩

/-- What has to hold for a next hand to be tried at all. -/
def Session.ready (s : Session) : Bool := s.finished && 0 < s.heroStack

theorem nextHand_cases (s : Session) (deck : Shuffle) : (s.ready = false ∧ ∃ error, s.nextHand deck = (.error error, s)) ∨
    (s.ready = true ∧ ((s.nextButton = none ∧ ∃ error, s.nextHand deck = (.error error, s)) ∨
      ∃ button, s.nextButton = some button ∧
        ((∃ error, (s.nextConfig button deck).build = .error error ∧ s.nextHand deck = (.error (.config error), s.rebought)) ∨
          ∃ hand, (s.nextConfig button deck).build = .ok hand ∧ s.nextHand deck = (.ok (), s.dealt hand)))) := by
  unfold Session.nextHand Session.ready
  cases hf : s.finished with
  | false => exact Or.inl ⟨rfl, _, rfl⟩
  | true =>
    simp only [Bool.not_true, Bool.false_eq_true, if_false, Bool.true_and]
    by_cases hzero : s.heroStack = 0
    · rw [if_pos hzero]
      exact Or.inl ⟨by simp [hzero], _, rfl⟩
    rw [if_neg hzero]
    refine Or.inr ⟨by simp; omega, ?_⟩
    cases hb : s.nextButton with
    | none => exact Or.inl ⟨rfl, _, rfl⟩
    | some button =>
      refine Or.inr ⟨button, rfl, ?_⟩
      dsimp only
      cases hbuild : (s.nextConfig button deck).build with
      | error error => exact Or.inl ⟨error, rfl, rfl⟩
      | ok hand => exact Or.inr ⟨hand, rfl, rfl⟩

end calls

/-! ## Each call keeps it -/

/-- Between calls a hand that is over has been counted. -/
structure Rests (P : HandConfig → Prop) (s : Session) : Prop where
  table : AtTable s
  stands : Stands P s
  counted : s.finished = true → s.settled = true

section keeps
variable {c : HandConfig} {stack : SeatId → Nat} {start : MultiwayHand} {commands : List SeatCommand} {s s' : Session}
  {P : HandConfig → Prop} {p : SeatId} {command : SeatCommand}

theorem Over.refused {h : MultiwayHand} (ho : h.Over) : h.validateCommand command ≠ .ok () := by
  intro hv
  have hrefused := @Over.refuses _ (.command command) ho
  rw [HandOp.apply, applyCommand, hv] at hrefused
  cases hrefused

/-- The table of a hand in play is the one its configuration seats. -/
theorem Plays.table (hp : Plays c stack start commands s) (hbots : s.bots.length = s.hand.tableSize.get)
    (hsettings : s.settings.validate = .ok ()) : AtTable s := by
  have hk := hp.kept
  obtain ⟨hdeck, _, _, hb, _⟩ := hp.starts
  obtain ⟨_, _, _, _, _, _, hbuilt⟩ := build_built hb
  have hbutton := hp.starts.button
  rw [hp.full.seated, decide_eq_true_eq] at hbutton
  refine ⟨hk.length, fun p => ?_, ?_, ?_, ?_, hbots, hsettings⟩
  · rw [hk.occupied, hp.full.seated, hk.tableSize]
  · rw [hk.button, hk.tableSize]
    exact hbutton
  · rw [hk.blindValues]
    exact hbuilt.blinds
  · rw [hk.blindValues]
    exact hp.full.ante

/-- Only a hand in play takes a command. -/
theorem Stands.played (hs : Stands P s) (hv : s.hand.validateCommand command = .ok ())
    (hhand : s'.hand = (s.hand.applyCommand command).2) (hopening : s'.openingHeroStack = s.openingHeroStack)
    (hsettled : s'.settled = s.settled) : ∃ c stack start commands, Plays c stack start commands s ∧
      Plays c stack start (commands ++ [command]) s' ∧ P c := by
  cases hs with
  | plays hp hP => exact ⟨_, _, _, _, hp, hp.more hhand hopening (hsettled.trans hp.unsettled), hP⟩
  | between hb => exact absurd hv (Over.refused hb.handOver)

theorem AtTable.played (s' : Session) (ht : AtTable s) (hs : Stands P s) (hv : s.hand.validateCommand command = .ok ())
    (hhand : s'.hand = (s.hand.applyCommand command).2) (hopening : s'.openingHeroStack = s.openingHeroStack)
    (hsettled : s'.settled = s.settled) (hbots : s'.bots = s.bots) (hsettings : s'.settings = s.settings) :
    AtTable s' ∧ Stands P s' := by
  obtain ⟨c, stack, start, commands, hp, hp', hP⟩ := hs.played hv hhand hopening hsettled
  refine ⟨hp'.table ?_ ?_, .plays hp' hP⟩
  · rw [hbots, ht.bots, hp'.kept.tableSize, hp.kept.tableSize]
  · rw [hsettings]
    exact ht.settings

theorem Plays.handOver (hp : Plays c stack start commands s) (hf : s.finished = true) : s.hand.Over :=
  hp.stage.over_of_terminal (finished_iff.mp hf).2

/-- Settling leaves a hand that is over counted, once. -/
theorem settle_rests (ht : AtTable s) (hs : Stands P s) : Rests P s.settle := by
  rcases settle_cases s with ⟨he, hdue⟩ | ⟨outcome, hf, hu, _, he⟩
  · rw [he]
    refine ⟨ht, hs, fun hf => ?_⟩
    by_contra hu
    obtain ⟨outcome, hout⟩ := ht.projected
    rw [hdue hf (Bool.not_eq_true _ ▸ hu)] at hout
    cases hout
  · rw [he]
    cases hs with
    | between hb =>
      rw [hb.settled] at hu
      cases hu
    | @plays c stack start commands hp _ =>
      have ho := hp.handOver hf
      have hb : Between (s.counted outcome) :=
        ⟨rfl, (finished_iff.mp hf).1, ho, fun p hmem => hp.pot ho hmem, hp.kept.ok⟩
      exact ⟨ht.same rfl rfl rfl, .between hb, fun _ => rfl⟩

theorem Rests.between (hr : Rests P s) (hf : s.finished = true) : Between s := by
  cases hr.stands with
  | between hb => exact hb
  | plays hp _ =>
    have hu := hp.unsettled
    rw [hr.counted hf] at hu
    cases hu

/-- Calls that leave the hand and its accounts alone. -/
theorem Stands.same (hs : Stands P s) (hhand : s'.hand = s.hand) (hopening : s'.openingHeroStack = s.openingHeroStack)
    (hsettled : s'.settled = s.settled) (hcoaching : s.coaching = none → s'.coaching = none) : Stands P s' := by
  cases hs with
  | plays hp hP => exact .plays (hp.same hhand hopening hsettled) hP
  | between hb =>
    exact .between ⟨hsettled.trans hb.settled, hcoaching hb.coaching, by rw [hhand]; exact hb.handOver,
      by rw [hhand]; exact hb.pot, by rw [hhand]; exact hb.ok⟩

theorem continueHand_rests (hr : Rests P s) : Rests P s.continueHand :=
  settle_rests (s := s.unpaused) (hr.table.same rfl rfl rfl) (hr.stands.same rfl rfl rfl fun _ => rfl)

theorem submit_rests {localFeedback : Decision → Feedback} {action : Action} (hr : Rests P s) :
    Rests P (s.submit localFeedback action).2 := by
  rcases submit_cases localFeedback s action with ⟨_, he⟩ | ⟨o, _, _, hv, he⟩
  · rw [he]
    exact hr
  · rw [he]
    obtain ⟨ht, hs⟩ := hr.table.played (s.decided localFeedback ⟨1, o, action, Facts.calculate o⟩)
      hr.stands hv rfl rfl rfl rfl rfl
    refine ⟨ht, hs, fun hf => ?_⟩
    have hpaused := (finished_iff.mp hf).1
    cases hpaused

theorem stepBot_rests {draws : Draws} (hr : Rests P s) : Rests P (s.stepBot draws).2 := by
  rcases stepBot_cases s draws with ⟨_, _, he⟩ | ⟨p, o, bot, _, _, _, _, _, hv, he⟩
  · rw [he]
    exact hr
  · rw [he]
    obtain ⟨ht, hs⟩ := hr.table.played (s.botPlayed _) hr.stands hv rfl rfl rfl rfl rfl
    exact settle_rests ht hs

theorem Between.finished (hb : Between s) : s.finished = true := finished_iff.mpr ⟨hb.coaching, hb.handOver.terminal⟩

theorem seat_moved_hero {n : Nat} {events : List CashEvent} (ht : AtTable s) :
    (s.moved n events).hand.seat hero = { s.hand.seat hero with stack := n } :=
  seat_updateSeat_self ht.heroSits

theorem seat_moved_ne {n : Nat} {events : List CashEvent} (hp : p ≠ hero) : (s.moved n events).hand.seat p = s.hand.seat p :=
  seat_updateSeat_ne hp

/-- Chips of the hero that come or go between hands leave the rest of the table alone. -/
theorem moved_rests {n : Nat} {events : List CashEvent} (hr : Rests P s) (hf : s.finished = true) :
    Rests P (s.moved n events) := by
  have hb := hr.between hf
  have htable := updateSeat_table s.hand hero fun state => { state with stack := n }
  have hsize : (s.moved n events).hand.tableSize = s.hand.tableSize := rfl
  have hocc : ∀ p, occupiedIn (s.moved n events).hand.seats p = occupiedIn s.hand.seats p := htable.occupied
  have hat : AtTable (s.moved n events) :=
    ⟨htable.length.trans hr.table.length, fun p => (hocc p).trans (hr.table.occupied p), hr.table.button, hr.table.blinds,
      hr.table.ante, hr.table.bots, hr.table.settings⟩
  have hbetween : Between (s.moved n events) := by
    refine ⟨hb.settled, hb.coaching, ⟨hb.handOver.phase, hb.handOver.toAct, hb.handOver.progress⟩, fun p hp => ?_, ?_⟩
    · have hmem := hr.table.mem_seats.mpr (hat.mem_seats.mp hp)
      have hpot := hb.pot p hmem
      by_cases hhero : p = hero
      · subst hhero
        rw [seat_moved_hero hr.table]
        exact hpot
      · rw [seat_moved_ne hhero]
        exact hpot
    · have hpanic := panicked_updateSeat (f := fun state => { state with stack := n }) hr.table.heroSits
      exact hpanic.trans hb.ok
  exact ⟨hat, .between hbetween, fun _ => hb.settled⟩

theorem rebuy_hero : s.rebuy hero = 0 := by simp [Session.rebuy]

/-- The next hand is dealt to the whole table. -/
theorem nextConfig_full (ht : AtTable s) (button : SeatId) (deck : Shuffle) :
    (s.nextConfig button deck).Full fun p => (s.hand.seat p).stack + s.rebuy p where
  seatStacks := by
    show (s.hand.occupiedSeats.map fun seat => (seat, (s.hand.seat seat).stack + s.rebuy seat)) = _
    rw [ht.seats_eq]
    rfl
  forcedPosts := rfl
  ante := ht.ante

theorem dealt_plays {button : SeatId} {deck : Shuffle} {hand : MultiwayHand} (ht : AtTable s)
    (hbuild : (s.nextConfig button deck).build = .ok hand) :
    Plays (s.nextConfig button deck) (fun p => (s.hand.seat p).stack + s.rebuy p) hand [] (s.dealt hand) := by
  have hunpaced : hand.pacedShowdown = false := (build_cases deck.property hbuild).2.2.1
  refine ⟨nextConfig_full ht button deck, ⟨deck.property, hand, false, hbuild, ?_⟩, hunpaced, rfl, ?_, rfl⟩
  · rw [← hunpaced]
  · show s.heroStack = s.heroStack + s.rebuy hero
    rw [rebuy_hero, Nat.add_zero]

theorem nextHand_rests {deck : Shuffle} (hr : Rests P s)
    (hdeal : ∀ button, s.ready = true → s.nextButton = some button → P (s.nextConfig button deck)) :
    Rests P (s.nextHand deck).2 := by
  rcases nextHand_cases s deck with ⟨_, _, he⟩ | ⟨hready, ⟨_, _, he⟩ | ⟨button, hbutton, ⟨_, _, he⟩ | ⟨hand, hbuild, he⟩⟩⟩
  · rw [he]
    exact hr
  · rw [he]
    exact hr
  · rw [he]
    have hf : s.finished = true := by
      simp only [Session.ready, Bool.and_eq_true] at hready
      exact hready.1
    have hb := hr.between hf
    exact ⟨hr.table.same rfl rfl rfl, .between ⟨hb.settled, hb.coaching, hb.handOver, hb.pot, hb.ok⟩, fun _ => hb.settled⟩
  · rw [he]
    have hp := dealt_plays hr.table hbuild
    refine ⟨hp.table ?_ hr.table.settings, .plays hp (hdeal button hready hbutton), fun hf => ?_⟩
    · show s.bots.length = hand.tableSize.get
      have hsize : hand.tableSize = s.hand.tableSize := hp.kept.tableSize
      rw [hsize]
      exact hr.table.bots
    · -- a hand is not dealt over
      have hover := hp.handOver hf
      have hstart : HandStarts (s.nextConfig button deck) hand := hp.starts
      obtain ⟨_, _, _, hplaying | ⟨_, hshowing, _⟩⟩ := build_cases deck.property hbuild
      · have hopen := hover.closed
        rw [show (s.dealt hand).hand = hand from rfl, hplaying.accepts] at hopen
        cases hopen
      · have hopen := hover.closed
        rw [show (s.dealt hand).hand = hand from rfl, hshowing.contest.accepts] at hopen
        cases hopen

theorem saveSettings_rests {settings : Settings} (hr : Rests P s) (hvalid : settings.validate = .ok ()) :
    Rests P (s.saveSettings settings) := by
  have hkept : Rests P { s with settings := settings } := by
    refine ⟨?_, hr.stands.same rfl rfl rfl id, hr.counted⟩
    obtain ⟨h1, h2, h3, h4, h5, h6, _⟩ := hr.table
    exact ⟨h1, h2, h3, h4, h5, h6, hvalid⟩
  unfold Session.saveSettings
  dsimp only
  split
  · exact continueHand_rests hkept
  · exact hkept

/-- Reviews only touch the records of decisions. -/
theorem reviewed_rests {decisions : List ReplayDecision} {ready : List CompletedHand} (hr : Rests P s) :
    Rests P { s with replayDecisions := decisions, replayReady := ready } :=
  ⟨hr.table.same rfl rfl rfl, hr.stands.same rfl rfl rfl id, hr.counted⟩

end keeps

/-! ## Runs -/

/-- A call on the session. -/
inductive SessionOp where
  | submit (action : Action)
  | continueHand
  | stepBot (draws : Draws)
  | topUp
  | withdraw (amount : Nat)
  | nextHand (deck : Shuffle)
  | saveSettings (settings : Settings)
  | solverFeedback (feedback : Feedback)
  | reviewFeedback (feedback : Feedback)

section runs
variable (localFeedback : Decision → Feedback)

/-- The session a call leaves; settings are validated before they are saved. -/
def SessionOp.apply (op : SessionOp) (s : Session) : Session :=
  match op with
  | submit action => (s.submit localFeedback action).2
  | continueHand => s.continueHand
  | stepBot draws => (s.stepBot draws).2
  | topUp => s.topUp.2
  | withdraw amount => (s.withdraw amount).2
  | nextHand deck => (s.nextHand deck).2
  | saveSettings settings =>
    match settings.validate with
    | .ok () => s.saveSettings settings
    | .error _ => s
  | solverFeedback feedback => (s.recordSolverFeedback feedback).2
  | reviewFeedback feedback => (s.recordReviewFeedback feedback).2

def Session.run (s : Session) (ops : List SessionOp) : Session := ops.foldl (fun s op => op.apply localFeedback s) s

/-- `Q` holds of the state and the deck whenever the run asks for a next hand. -/
def Session.AtDeals (Q : Session → Shuffle → Prop) (s : Session) (ops : List SessionOp) : Prop :=
  ∀ before deck after, ops = before ++ .nextHand deck :: after → Q (s.run localFeedback before) deck

end runs

section runs
variable {localFeedback : Decision → Feedback} {P : HandConfig → Prop} {Q : Session → Shuffle → Prop} {s : Session}
  {op : SessionOp} {ops : List SessionOp} {feedback : Feedback}

theorem Session.run_cons : s.run localFeedback (op :: ops) = (op.apply localFeedback s).run localFeedback ops := rfl

theorem Session.run_append (before after : List SessionOp) :
    s.run localFeedback (before ++ after) = (s.run localFeedback before).run localFeedback after := by
  unfold Session.run
  exact List.foldl_append

theorem Session.AtDeals.head {deck : Shuffle} (h : s.AtDeals localFeedback Q (.nextHand deck :: ops)) : Q s deck :=
    h [] deck ops rfl

theorem Session.AtDeals.tail (h : s.AtDeals localFeedback Q (op :: ops)) :
    (op.apply localFeedback s).AtDeals localFeedback Q ops := by
  intro before deck after he
  exact h (op :: before) deck after (by rw [he, List.cons_append])

theorem Session.AtDeals.nil : s.AtDeals localFeedback Q [] := by
  intro before deck after he
  have hlen := congrArg List.length he
  simp at hlen

theorem Session.AtDeals.cons (hhead : ∀ deck, op = .nextHand deck → Q s deck)
    (htail : (op.apply localFeedback s).AtDeals localFeedback Q ops) : s.AtDeals localFeedback Q (op :: ops) := by
  intro before deck after he
  cases before with
  | nil => exact hhead deck (List.cons.inj he).1
  | cons first rest =>
    obtain ⟨rfl, hrest⟩ := List.cons.inj he
    exact htail rest deck after hrest

theorem recordSolverFeedback_eq (s : Session) (feedback : Feedback) :
    ∃ decisions, (s.recordSolverFeedback feedback).2 = { s with replayDecisions := decisions } := by
  unfold Session.recordSolverFeedback
  split
  · exact ⟨_, rfl⟩
  split
  · exact ⟨_, rfl⟩
  split
  · exact ⟨_, rfl⟩
  split <;> exact ⟨_, rfl⟩

theorem recordReviewFeedback_eq (s : Session) (feedback : Feedback) : ∃ decisions ready,
    (s.recordReviewFeedback feedback).2 = { s with replayDecisions := decisions, replayReady := ready } := by
  unfold Session.recordReviewFeedback
  dsimp only
  split <;> exact ⟨_, _, rfl⟩

theorem Rests.step (hr : Rests P s) (hdeal : ∀ deck button, op = .nextHand deck → s.ready = true →
    s.nextButton = some button → P (s.nextConfig button deck)) : Rests P (op.apply localFeedback s) := by
  cases op with
  | submit action => exact submit_rests hr
  | continueHand => exact continueHand_rests hr
  | stepBot draws => exact stepBot_rests hr
  | topUp =>
    rcases topUp_cases s with ⟨_, _, he⟩ | ⟨hf, _, _, he⟩
    · rw [SessionOp.apply, he]
      exact hr
    · rw [SessionOp.apply, he]
      exact moved_rests hr hf
  | withdraw amount =>
    rcases withdraw_cases s amount with ⟨_, _, he⟩ | ⟨hf, _, he⟩
    · rw [SessionOp.apply, he]
      exact hr
    · rw [SessionOp.apply, he]
      exact moved_rests hr hf
  | nextHand deck => exact nextHand_rests hr fun button => hdeal deck button rfl
  | saveSettings settings =>
    rw [SessionOp.apply]
    split
    · rename_i hvalid
      exact saveSettings_rests hr hvalid
    · exact hr
  | solverFeedback feedback =>
    obtain ⟨decisions, he⟩ := recordSolverFeedback_eq s feedback
    rw [SessionOp.apply, he]
    exact reviewed_rests hr
  | reviewFeedback feedback =>
    obtain ⟨decisions, ready, he⟩ := recordReviewFeedback_eq s feedback
    rw [SessionOp.apply, he]
    exact reviewed_rests hr

theorem Rests.run (hr : Rests P s) (hdeals : s.AtDeals localFeedback (fun s deck => ∀ button, s.ready = true →
    s.nextButton = some button → P (s.nextConfig button deck)) ops) : Rests P (s.run localFeedback ops) := by
  induction ops generalizing s with
  | nil => exact hr
  | cons op ops ih =>
    refine ih (hr.step fun deck button he => ?_) hdeals.tail
    subst he
    exact hdeals.head button

end runs

/-! ## A new session -/

section opening
variable {settings : Settings} {deck : Shuffle} {id : String} {s : Session} {table : TableSize} {P : HandConfig → Prop}

theorem Settings.blinds_of_valid (hvalid : settings.validate = .ok ()) :
    2 ≤ settings.seats ∧ settings.seats ≤ 9 ∧ 0 < settings.smallBlind ∧ settings.smallBlind < settings.bigBlind ∧
      settings.bigBlind ≤ 10000 := by
  unfold Settings.validate at hvalid
  split at hvalid
  · cases hvalid
  · rename_i hrange
    simp only [Bool.or_eq_true, Bool.not_eq_true', Bool.and_eq_false_iff, decide_eq_true_eq, decide_eq_false_iff_not] at hrange
    omega

/-- Everybody starts the first hand with a hundred big blinds. -/
theorem opening_full (settings : Settings) (table : TableSize) (deck : Shuffle) :
    (Session.opening settings table deck).Full fun _ => settings.bigBlind * 100 := ⟨rfl, rfl, rfl⟩

/-- A session that has just been made. -/
structure Opened (settings : Settings) (deck : Shuffle) (table : TableSize) (s : Session) : Prop where
  valid : settings.validate = .ok ()
  size : table.get = settings.seats
  plays : Plays (Session.opening settings table deck) (fun _ => settings.bigBlind * 100) s.hand [] s
  bots : s.bots.length = table.get
  settings : s.settings = settings
  coaching : s.coaching = none
  frozenView : s.frozenView = none
  handId : s.handId = 1
  cashEvents : s.cashEvents = []
  sessionProfit : s.sessionProfit = 0
  completedHands : s.completedHands = 0
  replayDecisions : s.replayDecisions = []
  replayReady : s.replayReady = []

theorem new_opened (hnew : Session.new settings deck id = .ok s) : ∃ table, Opened settings deck table s := by
  unfold Session.new at hnew
  cases hvalid : settings.validate with
  | error text =>
    rw [hvalid] at hnew
    cases hnew
  | ok u =>
    cases u
    rw [hvalid] at hnew
    dsimp only at hnew
    cases htable : TableSize.new settings.seats with
    | none =>
      rw [htable] at hnew
      cases hnew
    | some table =>
      rw [htable] at hnew
      dsimp only at hnew
      split at hnew
      · cases hnew
      cases hbuild : (Session.opening settings table deck).build with
      | error e =>
        rw [hbuild] at hnew
        cases hnew
      | ok hand =>
        rw [hbuild] at hnew
        cases hnew
        have hunpaced : hand.pacedShowdown = false := (build_cases deck.property hbuild).2.2.1
        have hsize : table.get = settings.seats := by
          unfold TableSize.new at htable
          split at htable
          · cases htable
            rfl
          · cases htable
        have hstarts : HandStarts (Session.opening settings table deck) hand :=
          ⟨deck.property, hand, false, hbuild, by rw [← hunpaced]⟩
        exact ⟨table, hvalid, hsize, ⟨opening_full settings table deck, hstarts, hunpaced, rfl, rfl, rfl⟩,
          by simp [TableSize.length_seats], rfl, rfl, rfl, rfl, rfl, rfl, rfl, rfl, rfl⟩

theorem Opened.rests (ho : Opened settings deck table s) (hP : P (Session.opening settings table deck)) : Rests P s := by
  have hsize : s.hand.tableSize = table := ho.plays.kept.tableSize
  refine ⟨ho.plays.table (by rw [hsize, ho.bots]) (by rw [ho.settings, ho.valid]), .plays ho.plays hP, fun hf => ?_⟩
  have hclosed := (ho.plays.handOver hf).closed
  obtain ⟨hdeck, start, _, hb, he⟩ := ho.plays.starts
  rw [he] at hclosed
  obtain ⟨_, _, _, hplaying | ⟨_, hshowing, _⟩⟩ := build_cases hdeck hb
  · rw [show ({ start with pacedShowdown := _ } : MultiwayHand).phase = start.phase from rfl, hplaying.accepts] at hclosed
    cases hclosed
  · rw [show ({ start with pacedShowdown := _ } : MultiwayHand).phase = start.phase from rfl, hshowing.contest.accepts] at hclosed
    cases hclosed

/-- A hundred big blinds a seat leave the first hand's betting open. -/
theorem Opened.opensBetting (ho : Opened settings deck table s) : (Session.opening settings table deck).opensBetting = true := by
  obtain ⟨_, _, hsmall, hbig, _⟩ := Settings.blinds_of_valid ho.valid
  obtain ⟨hdeck, start, _, hb, _⟩ := ho.plays.starts
  obtain ⟨_, _, _, _, _, _, hbuilt⟩ := build_built hb
  refine hbuilt.full_opens (opening_full settings table deck) hdeck (fun p _ => by omega) fun _ p _ => ?_
  show settings.smallBlind < settings.bigBlind * 100
  omega

end opening

end Trainer

end OpenFelt
