/-
  OpenFelt.Trainer.HandsGoOn — no hand of a session stalls.

  Proved (`hands_go_on`): as long as nobody is dealt into a table of two with no more than
  the small blind, the hero can always act, an opponent always advances the hand or the
  session pauses for feedback; each hand comes to its end whatever is called, and a hand
  that is over is counted with its pot paid out.

  The condition is needed: the posts of such a deal close the betting, the constructor
  leaves the showdown waiting, and nothing in a session advances it (`blinds_can_stall`).
-/

import OpenFelt.Trainer.Observations
import OpenFelt.Trainer.SessionRuns

namespace OpenFelt

open Betting

namespace Trainer

open MultiwayHand

/-! ## Going on -/

namespace Session

variable (localFeedback : Decision → Feedback) (s : Session)

/-- Somebody can move the hand on: the hero with an action of its choice, or an opponent whatever it draws. -/
inductive Moves : Prop
  | hero {action : Action} {decision : Decision} : s.hand.toAct = some hero →
      (s.submit localFeedback action).1 = .ok decision → Moves
  | bot {p : SeatId} : s.hand.toAct = some p → p ≠ Trainer.hero →
      (∀ draws, (s.stepBot draws).1 = .ok true ∧ (s.stepBot draws).2.hand.movesLeft < s.hand.movesLeft) → Moves

/-- A table of more than two, or two players with more than the small blind to play the next hand with. -/
def coversBlinds : Bool :=
  s.hand.tableSize.get ≠ 2 ||
    s.hand.occupiedSeats.all fun p => s.hand.blindValues.smallBlind < (s.hand.seat p).stack + s.rebuy p

end Session

/-- The call puts an action into the hand. -/
def SessionOp.advances (localFeedback : Decision → Feedback) (s : Session) : SessionOp → Bool
  | .submit action => (s.submit localFeedback action).1.isOk
  | .stepBot draws => (s.stepBot draws).1 = .ok true
  | _ => false

/-- The call does not ask for another hand. -/
def SessionOp.withinHand : SessionOp → Bool
  | .nextHand _ => false
  | _ => true

/-- How many of the calls put an action into the hand. -/
def Session.advances (localFeedback : Decision → Feedback) : Session → List SessionOp → Nat
  | _, [] => 0
  | s, op :: ops => (op.advances localFeedback s).toNat + (op.apply localFeedback s).advances localFeedback ops

/-- A session that does not stall. -/
structure GoesOn (localFeedback : Decision → Feedback) (s : Session) : Prop where
  moves : s.finished = false → s.coaching = none → s.Moves localFeedback
  /-- A hand that is over is counted and has nothing left in the pot. -/
  settles : s.finished = true → s.settled = true ∧ ∀ p ∈ s.hand.occupiedSeats, (s.hand.seat p).handContribution = 0
  /-- However it is called, the hand takes only so many actions. -/
  bounded : ∀ ops, (∀ op ∈ ops, SessionOp.withinHand op = true) → s.advances localFeedback ops ≤ s.hand.movesLeft
  reaches : ∃ ops, (∀ op ∈ ops, SessionOp.withinHand op = true) ∧ (s.run localFeedback ops).finished = true

/-- If the constructor accepts the hand, its betting opens. -/
def Opens (c : HandConfig) : Prop := ∀ h, c.build = .ok h → c.opensBetting = true

section turns
variable {localFeedback : Decision → Feedback} {c : HandConfig} {stack : SeatId → Nat} {start : MultiwayHand}
  {commands : List SeatCommand} {s : Session} {P : HandConfig → Prop} {p : SeatId} {posted : Nat} {action : Action}

/-- The seat to act is observed, and the menu it sees is the hand's. -/
theorem Plays.turn (hp : Plays c stack start commands s) (hplay : s.hand.Playing posted) (hto : s.hand.toAct = some p) :
    p ∈ s.hand.occupiedSeats ∧ ∃ o, s.observation p = .ok o ∧ s.hand.validateCommand ⟨p, o.checkCall⟩ = .ok () ∧
      ∀ bot draws, s.hand.validateCommand ⟨p, Opponent.choose bot draws o⟩ = .ok () := by
  obtain ⟨legal, ha⟩ := hplay.acting hto
  obtain ⟨_, o, _, _, _, _, ho, hobserved⟩ := ha.turn.observed ⟨s.handId⟩ ha.mem ha.offered (hp.two ha.mem)
  have hvalid := ha.turn.validate_iff ha.offered ha.menu ha.stack
  have hsees : s.hand.Sees p o := observation_sees ho ha.turn.accepts
  refine ⟨ha.mem, o, ho, (hvalid _).mpr (checkCall_legal hobserved.legal), fun bot draws => (hvalid _).mpr ?_⟩
  exact choose_legal bot draws hobserved.legal hsees.two ha.menu ha.offered ha.stack

theorem settle_hand : s.settle.hand = s.hand := by
  rcases settle_cases s with ⟨he, _⟩ | ⟨_, _, _, _, he⟩
  · rw [he]
  · rw [he]
    rfl

/-- An action accepted of a hand in play brings it nearer its end. -/
theorem Stands.movesLeft_lt {command : SeatCommand} (hs : Stands P s) (hv : s.hand.validateCommand command = .ok ()) :
    (s.hand.applyCommand command).2.movesLeft < s.hand.movesLeft := by
  cases hs with
  | between hb => exact absurd hv (Over.refused hb.handOver)
  | plays hp _ =>
    rcases hp.commanded with ⟨posted, hu⟩ | ⟨progress, hsh⟩
    · rcases hu with ⟨hplay, hunpaced⟩ | ho
      · exact hplay.movesLeft_lt hunpaced hv
      · exact absurd hv (Over.refused ho)
    · have haccepted : ((HandOp.command command).apply s.hand).1 = false := hsh.refuses (by simp)
      rw [HandOp.apply, applyCommand, hv] at haccepted
      cases haccepted

theorem submit_advances (localFeedback : Decision → Feedback) (action : Action) (hr : Rests P s) :
    (SessionOp.advances localFeedback s (.submit action)).toNat + (s.submit localFeedback action).2.hand.movesLeft ≤
      s.hand.movesLeft := by
  rcases submit_cases localFeedback s action with ⟨_, he⟩ | ⟨o, _, _, hv, he⟩
  · rw [SessionOp.advances, he]
    exact (Nat.zero_add _).le
  · rw [SessionOp.advances, he]
    have hlt := hr.stands.movesLeft_lt hv
    show 1 + (s.hand.applyCommand ⟨hero, action⟩).2.movesLeft ≤ _
    omega

theorem stepBot_advances {draws : Draws} (hr : Rests P s) :
    (SessionOp.advances localFeedback s (.stepBot draws)).toNat + (s.stepBot draws).2.hand.movesLeft ≤ s.hand.movesLeft := by
  rcases stepBot_cases s draws with ⟨r, hidle, he⟩ | ⟨p, o, bot, _, _, _, _, _, hv, he⟩
  · rw [SessionOp.advances, he]
    simp [hidle]
  · rw [SessionOp.advances, he]
    have hlt := hr.stands.movesLeft_lt hv
    show 1 + (s.botPlayed _).settle.hand.movesLeft ≤ _
    rw [settle_hand]
    show 1 + (s.hand.applyCommand _).2.movesLeft ≤ _
    omega

/-- Between hands there is nothing left to do on the hand. -/
theorem moved_advances {n : Nat} {events : List CashEvent} (hr : Rests P s) (hf : s.finished = true) :
    (s.moved n events).hand.movesLeft ≤ s.hand.movesLeft := by
  have hclosed : (s.moved n events).hand.phase.acceptsActions = false := (hr.between hf).handOver.closed
  rw [movesLeft_closed hclosed]
  exact Nat.zero_le _

theorem saveSettings_hand {settings : Settings} : (s.saveSettings settings).hand = s.hand := by
  unfold Session.saveSettings
  dsimp only
  split
  · exact settle_hand
  · rfl

/-- No call but the next hand's adds to what is left of the hand, and an action takes from it. -/
theorem step_advances {op : SessionOp} (localFeedback : Decision → Feedback) (hr : Rests P s) (hin : op.withinHand = true) :
    (op.advances localFeedback s).toNat + (op.apply localFeedback s).hand.movesLeft ≤ s.hand.movesLeft := by
  have hquiet : ∀ s' : Session, s'.hand = s.hand → (false).toNat + s'.hand.movesLeft ≤ s.hand.movesLeft := by
    intro s' he
    rw [he]
    exact (Nat.zero_add _).le
  cases op with
  | submit action => exact submit_advances localFeedback action hr
  | stepBot draws => exact stepBot_advances hr
  | continueHand => exact hquiet _ settle_hand
  | topUp =>
    rcases topUp_cases s with ⟨_, _, he⟩ | ⟨hf, _, _, he⟩
    · exact hquiet _ (by rw [SessionOp.apply, he])
    · rw [SessionOp.apply, he]
      exact (Nat.zero_add _).le.trans (moved_advances hr hf)
  | withdraw amount =>
    rcases withdraw_cases s amount with ⟨_, _, he⟩ | ⟨hf, _, he⟩
    · exact hquiet _ (by rw [SessionOp.apply, he])
    · rw [SessionOp.apply, he]
      exact (Nat.zero_add _).le.trans (moved_advances hr hf)
  | nextHand deck => cases hin
  | saveSettings settings =>
    refine hquiet _ ?_
    rw [SessionOp.apply]
    split
    · exact saveSettings_hand
    · rfl
  | solverFeedback feedback =>
    obtain ⟨decisions, he⟩ := recordSolverFeedback_eq s feedback
    exact hquiet _ (by rw [SessionOp.apply, he])
  | reviewFeedback feedback =>
    obtain ⟨decisions, ready, he⟩ := recordReviewFeedback_eq s feedback
    exact hquiet _ (by rw [SessionOp.apply, he])

theorem Rests.stepWithin {op : SessionOp} (localFeedback : Decision → Feedback) (hr : Rests P s) (hin : op.withinHand = true) :
    Rests P (op.apply localFeedback s) := by
  refine hr.step fun deck button he => ?_
  rw [he] at hin
  cases hin

theorem Rests.bounded {ops : List SessionOp} (hr : Rests P s) (hin : ∀ op ∈ ops, SessionOp.withinHand op = true) :
    s.advances localFeedback ops ≤ s.hand.movesLeft := by
  induction ops generalizing s with
  | nil => exact Nat.zero_le _
  | cons op ops ih =>
    have hop := hin op List.mem_cons_self
    have hfirst := step_advances localFeedback hr hop
    have hrest := ih (hr.stepWithin localFeedback hop) fun op' hop' => hin op' (List.mem_cons_of_mem _ hop')
    rw [Session.advances]
    omega

/-! ## Somebody can act -/

/-- Whoever's turn it is can act: the hand is in play, since its betting opened. -/
theorem Rests.moves (localFeedback : Decision → Feedback) (hr : Rests Opens s) (hf : s.finished = false)
    (hc : s.coaching = none) : s.Moves localFeedback := by
  cases hr.stands with
  | between hb =>
    rw [hb.finished] at hf
    cases hf
  | @plays c stack start commands hp hopens =>
    obtain ⟨_, built, _, hb, _⟩ := hp.starts
    obtain ⟨posted, hu⟩ := hp.starts.unpaced hp.unpaced (hopens built hb)
    have hnow := hu.run (commands.map .command)
    rw [← hp.hand] at hnow
    rcases hnow with ⟨hplay, _⟩ | ho
    · obtain ⟨p, hto, _⟩ := hplay.toAct
      obtain ⟨hmem, o, ho, hcheck, hchoose⟩ := hp.turn hplay hto
      by_cases hp' : p = hero
      · subst hp'
        rcases submit_cases localFeedback s o.checkCall with ⟨e, he⟩ | ⟨o', _, _, _, he⟩
        · rw [Session.submit, hc, ho, applyCommand, hcheck] at he
          cases he
        · exact .hero hto (congrArg Prod.fst he)
      · have hbot : ∃ bot, s.bots[p.val]? = some bot := by
          have hlt : p.val < s.bots.length := by
            rw [hr.table.bots]
            exact hr.table.mem_seats.mp hmem
          exact ⟨_, List.getElem?_eq_getElem hlt⟩
        obtain ⟨bot, hbot⟩ := hbot
        refine .bot hto hp' fun draws => ?_
        have hdone : s.stepBot draws = (.ok true, (s.botPlayed ⟨p, bot.choose draws o⟩).settle) := by
          have happly : s.hand.applyCommand ⟨p, bot.choose draws o⟩ =
              (.ok (), s.hand.applyValidatedAction p (bot.choose draws o)) := by
            rw [applyCommand, hchoose]
          simp only [Session.stepBot, hc, hf, hto, hp', ho, hbot, happly, Option.isSome_none, Bool.or_self, Bool.false_eq_true,
            if_false, Session.botPlayed]
        rw [hdone]
        refine ⟨rfl, ?_⟩
        show (s.botPlayed _).settle.hand.movesLeft < _
        rw [settle_hand]
        exact hr.stands.movesLeft_lt (hchoose bot draws)
    · have hterminal : s.finished = true := finished_iff.mpr ⟨hc, ho.terminal⟩
      rw [hf] at hterminal
      cases hterminal

/-- A pause can be ended, and the hand stays where it is. -/
theorem Rests.unpauses (localFeedback : Decision → Feedback) (hr : Rests P s) :
    ∃ first, (∀ op ∈ first, SessionOp.withinHand op = true) ∧
    Rests P (s.run localFeedback first) ∧ (s.run localFeedback first).hand = s.hand ∧
    (s.run localFeedback first).coaching = none := by
  cases hc : s.coaching with
  | none => exact ⟨[], by simp, hr, rfl, hc⟩
  | some decision =>
    refine ⟨[.continueHand], by simp [SessionOp.withinHand], continueHand_rests hr, settle_hand, ?_⟩
    show s.continueHand.coaching = none
    rcases settle_cases (s := s.unpaused) with ⟨he, _⟩ | ⟨_, _, _, _, he⟩
    · exact congrArg Session.coaching he
    · exact congrArg Session.coaching he

/-- In a hand that is not over some call puts an action in. -/
theorem Rests.advances (localFeedback : Decision → Feedback) (hr : Rests Opens s) (hf : s.finished = false)
    (hc : s.coaching = none) :
    ∃ op : SessionOp, op.withinHand = true ∧ (op.apply localFeedback s).hand.movesLeft < s.hand.movesLeft := by
  cases hr.moves localFeedback hf hc with
  | @hero action decision _ hok =>
    have hstep := submit_advances localFeedback action hr
    rw [SessionOp.advances, hok] at hstep
    refine ⟨.submit action, rfl, ?_⟩
    show (s.submit localFeedback action).2.hand.movesLeft < _
    have hone : (Except.ok decision : Except SessionError Decision).isOk.toNat = 1 := rfl
    omega
  | bot _ _ hbot => exact ⟨.stepBot ⟨false, false, false⟩, rfl, (hbot _).2⟩

/-- Acting whenever one can brings the hand to its end; the induction is on the actions left. -/
theorem Rests.reaches (hr : Rests Opens s) :
    ∃ ops, (∀ op ∈ ops, SessionOp.withinHand op = true) ∧ (s.run localFeedback ops).finished = true := by
  induction hn : s.hand.movesLeft using Nat.strong_induction_on generalizing s with
  | _ n ih =>
    obtain ⟨first, hfirst, hr', hhand, hc⟩ := hr.unpauses localFeedback
    cases hf : (s.run localFeedback first).finished with
    | true => exact ⟨first, hfirst, hf⟩
    | false =>
      obtain ⟨op, hin, hlt⟩ := hr'.advances localFeedback hf hc
      rw [hhand, hn] at hlt
      obtain ⟨rest, hrest, hend⟩ := ih _ hlt (hr'.stepWithin localFeedback hin) rfl
      refine ⟨first ++ op :: rest, fun op' hop' => ?_, by rw [Session.run_append, Session.run_cons]; exact hend⟩
      rcases List.mem_append.mp hop' with hop' | hop'
      · exact hfirst op' hop'
      · rcases List.mem_cons.mp hop' with rfl | hop'
        · exact hin
        · exact hrest op' hop'

theorem Rests.goesOn (hr : Rests Opens s) : GoesOn localFeedback s where
  moves := hr.moves localFeedback
  settles hf := ⟨hr.counted hf, (hr.between hf).pot⟩
  bounded _ hin := hr.bounded hin
  reaches := hr.reaches

end turns

/-! ## Deals that open -/

section claim
variable {localFeedback : Decision → Feedback} {settings : Settings} {deck : Shuffle} {id : String} {s : Session}

theorem AtTable.opens (ht : AtTable s) (hcovers : s.coversBlinds = true) (button : SeatId) (deck : Shuffle) :
    Opens (s.nextConfig button deck) := by
  intro h hb
  obtain ⟨_, _, _, _, _, _, hbuilt⟩ := build_built hb
  have hfull := nextConfig_full ht button deck
  have hpositive : ∀ p ∈ s.hand.tableSize.seats, 0 < (s.hand.seat p).stack + s.rebuy p := by
    intro p hp
    refine (hbuilt.dealtIn deck.property).1.positive (p, _) ?_
    rw [hfull.seatStacks]
    exact List.mem_map_of_mem hp
  refine hbuilt.full_opens hfull deck.property hpositive fun htwo p hp => ?_
  have htwo : s.hand.tableSize.get = 2 := htwo
  simp only [Session.coversBlinds, htwo, ne_eq, not_true_eq_false, decide_false, Bool.false_or, List.all_eq_true,
    decide_eq_true_eq] at hcovers
  exact hcovers p (ht.mem_seats.mpr (s.hand.tableSize.mem_seats.mp hp))

/-- Whenever a next hand is dealt to a table of two, both players have more than the small blind. -/
def Session.AlwaysCovers (localFeedback : Decision → Feedback) (s : Session) (ops : List SessionOp) : Prop :=
  s.AtDeals localFeedback (fun s _ => s.ready = true → s.coversBlinds = true) ops

/-- Runs keep to hands that open. -/
theorem Rests.run_opens {ops : List SessionOp} (hr : Rests Opens s) (hcovers : s.AlwaysCovers localFeedback ops) :
    Rests Opens (s.run localFeedback ops) := by
  induction ops generalizing s with
  | nil => exact hr
  | cons op ops ih =>
    refine ih (hr.step fun deck button he hready _ => ?_) hcovers.tail
    subst he
    exact hr.table.opens (hcovers.head hready) button deck

/-- A session in which no table of two is dealt a hand that its small blind can put
    somebody all-in with never stalls. -/
theorem hands_go_on (hnew : Session.new settings deck id = .ok s) (ops : List SessionOp)
    (hcovers : s.AlwaysCovers localFeedback ops) : GoesOn localFeedback (s.run localFeedback ops) := by
  obtain ⟨table, ho⟩ := new_opened hnew
  have hr : Rests Opens s := ho.rests fun _ _ => ho.opensBetting
  exact (hr.run_opens hcovers).goesOn

end claim

/-! ## Two sessions of two -/

/-- The defaults, for a table of two. -/
def headsUp : Settings where
  seats := 2
  smallBlind := 1
  bigBlind := 2
  opponents := ⟨.fundamentals, .balanced, .practiced, some (11 / 20), some (3 / 100), some (1 / 20)⟩
  solverFeedback := false
  practicePace := .learn
  cloud := ⟨"gpt-5.4-nano", 20, 600, 30, none, none, none, none⟩

/-- The deck as it comes. -/
def newDeck : Shuffle := ⟨.new, Deck.new_shuffled⟩

def uncertain (decision : Decision) : Feedback :=
  ⟨1, decision.observation.handId, decision.observation.revision, "uncertain", "", "", [], "heuristic", none⟩

/-- The hero folds, takes all but `left` chips off the table and goes on. -/
def foldAndWithdraw (left : Nat) : List SessionOp :=
  [.submit .fold, .continueHand, .withdraw (199 - left), .nextHand newDeck]

theorem headsUp_opens : ∃ s, Session.new headsUp newDeck "s" = .ok s := by
  have hopens : (Session.new headsUp newDeck "s").isOk = true := by decide +kernel
  cases hnew : Session.new headsUp newDeck "s" with
  | ok s => exact ⟨s, rfl⟩
  | error e =>
    rw [hnew] at hopens
    cases hopens

/-- With forty chips left the second hand goes on. -/
theorem hands_go_on_heads_up : ∃ s, Session.new headsUp newDeck "s" = .ok s ∧
    GoesOn uncertain (s.run uncertain (foldAndWithdraw 40)) := by
  have hcovered : (Session.new headsUp newDeck "s").toOption.map (fun s =>
      (s.run uncertain ((foldAndWithdraw 40).take 3)).coversBlinds) = some true := by decide +kernel
  obtain ⟨s, hnew⟩ := headsUp_opens
  rw [hnew] at hcovered
  have hat : (s.run uncertain ((foldAndWithdraw 40).take 3)).coversBlinds = true := Option.some.inj hcovered
  refine ⟨s, hnew, hands_go_on hnew _ ?_⟩
  refine .cons (fun _ he => nomatch he) (.cons (fun _ he => nomatch he) (.cons (fun _ he => nomatch he) (.cons ?_ .nil)))
  intro deck _ _
  exact hat

/-- With one chip left the blinds end the betting, and nobody can act. -/
theorem blinds_can_stall : ∃ s, Session.new headsUp newDeck "s" = .ok s ∧
    ¬ GoesOn uncertain (s.run uncertain (foldAndWithdraw 1)) := by
  have hrun : (Session.new headsUp newDeck "s").toOption.map (fun s =>
      let s := s.run uncertain (foldAndWithdraw 1)
      (s.finished, s.coaching.isNone, s.hand.toAct)) = some (false, true, none) := by decide +kernel
  obtain ⟨s, hnew⟩ := headsUp_opens
  rw [hnew] at hrun
  simp only [Except.toOption, Option.map_some, Option.some.injEq, Prod.mk.injEq, Option.isNone_iff_eq_none] at hrun
  obtain ⟨hf, hc, hto⟩ := hrun
  refine ⟨s, hnew, fun hgoes => ?_⟩
  cases hgoes.moves hf hc with
  | hero hturn _ =>
    rw [hto] at hturn
    cases hturn
  | bot hturn _ _ =>
    rw [hto] at hturn
    cases hturn

end Trainer

end OpenFelt
