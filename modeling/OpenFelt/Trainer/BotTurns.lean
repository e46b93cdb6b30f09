/-
  OpenFelt.Trainer.BotTurns — an opponent's turn (`src/trainer/policy.rs`, `choose`;
  `src/trainer/mod.rs`, `step_bot`).

  The opponents of a session keep the settings it was opened with, and the table its
  blinds (`Seated`). Proved (`bots_choose_well`): in every run of every session, whatever an
  opponent to act draws, the hand accepts its choice, and no arithmetic on the way to it
  leaves its range.
-/

import Mathlib.Algebra.Order.Ring.Rat
import Mathlib.Tactic.NormNum
import OpenFelt.Trainer.HandsGoOn
import OpenFelt.Trainer.Observations

namespace OpenFelt.Trainer

open MultiwayHand

/-! ## The arithmetic of a choice -/

def Difficulty.qualityMistake : Difficulty → Rat
  | beginner => 1 / 5
  | practiced => 0

def Style.bluff : Style → Rat
  | tight => 1 / 2
  | balanced => 1
  | loose => 9 / 5

/-- What `gen_bool` is asked with, which stops the program outside of `0..1`. -/
def PolicySettings.chances (s : PolicySettings) : List Rate :=
  [s.mistakeRate.map fun rate => min (rate + s.difficulty.qualityMistake) 1,
    s.bluffRate.map fun rate => min (rate * s.style.bluff) 1,
    s.aggression]

namespace Observation

/-- The seats dealt in, in order, as `table_position` counts them. -/
def activeSeats (o : Observation) : List SeatId := (o.seats.filter (·.participation ≠ .notDealt)).map (·.seat)

/-- The ranks whose windows `has_flush_or_open_ended_draw` subtracts over. -/
def drawRanks (o : Observation) : List Nat :=
  let ranks := (Rank.all.map Rank.value).filter fun value => (o.holeCards ++ o.board).any (·.rank.value == value)
  if ranks.contains 14 then 1 :: ranks else ranks

end Observation

/-- No figure of `choose` leaves its type. -/
structure PolicySettings.InRange (s : PolicySettings) (o : Observation) : Prop where
  price : o.bigBlindChips * s.style.price s.profile.priceLimit ≤ u32Max
  /-- The actor's place among the seats dealt in, which is taken from the button's plus their number. -/
  place : (o.activeSeats.findIdx? (· == o.actor)).getD 0 < o.activeSeats.length
  windows : ∀ i low top : Nat, o.drawRanks[i]? = some low → o.drawRanks[i + 3]? = some top → low ≤ top
  suits : ∀ suit, suitCount (o.holeCards ++ o.board) suit ≤ 255
  chances : ∀ chance ∈ s.chances, ∃ rate : Rat, chance = some rate ∧ 0 ≤ rate ∧ rate ≤ 1

section arithmetic
variable {settings : Settings} {o : Observation} {h : MultiwayHand} {p : SeatId}

theorem Settings.rates_of_valid (hvalid : settings.validate = .ok ()) :
    ∀ rate ∈ [settings.opponents.aggression, settings.opponents.bluffRate, settings.opponents.mistakeRate],
      ∃ r : Rat, rate = some r ∧ 0 ≤ r ∧ r ≤ 1 := by
  unfold Settings.validate at hvalid
  split at hvalid
  · cases hvalid
  split at hvalid
  · cases hvalid
  rename_i hrates
  intro rate hrate
  have hany := List.any_eq_false.mp (Bool.eq_false_iff.mpr hrates) rate hrate
  cases rate with
  | none => simp at hany
  | some r =>
    refine ⟨r, rfl, ?_⟩
    simpa using hany

theorem Settings.chances_of_valid (hvalid : settings.validate = .ok ()) :
    ∀ chance ∈ settings.opponents.chances, ∃ rate : Rat, chance = some rate ∧ 0 ≤ rate ∧ rate ≤ 1 := by
  have hrates := Settings.rates_of_valid hvalid
  obtain ⟨aggression, haggression, hrange⟩ := hrates _ List.mem_cons_self
  obtain ⟨bluff, hbluff, hbluff0, _⟩ := hrates _ (List.mem_cons_of_mem _ List.mem_cons_self)
  obtain ⟨mistake, hmistake, hmistake0, _⟩ := hrates _ (List.mem_cons_of_mem _ (List.mem_cons_of_mem _ List.mem_cons_self))
  have hquality : 0 ≤ settings.opponents.difficulty.qualityMistake := by
    cases settings.opponents.difficulty <;> norm_num [Difficulty.qualityMistake]
  have hstyle : 0 ≤ settings.opponents.style.bluff := by
    cases settings.opponents.style <;> norm_num [Style.bluff]
  have hcapped : ∀ rate : Rat, 0 ≤ rate → 0 ≤ min rate 1 ∧ min rate 1 ≤ 1 := by
    intro rate hrate
    exact ⟨le_min hrate zero_le_one, min_le_right _ _⟩
  intro chance hchance
  unfold PolicySettings.chances at hchance
  rw [hmistake, hbluff] at hchance
  simp only [List.mem_cons, List.not_mem_nil, or_false] at hchance
  rcases hchance with rfl | rfl | rfl
  · exact ⟨_, rfl, hcapped _ (add_nonneg hmistake0 hquality)⟩
  · exact ⟨_, rfl, hcapped _ (mul_nonneg hbluff0 hstyle)⟩
  · exact ⟨aggression, haggression, hrange⟩

theorem price_le (style : Style) (profile : Profile) : style.price profile.priceLimit ≤ 12 := by
  cases style <;> cases profile <;> decide

/-- The ranks held are in order, an ace also below them. -/
theorem drawRanks_sorted (o : Observation) : o.drawRanks.Pairwise (· ≤ ·) := by
  have hall : (Rank.all.map Rank.value).Pairwise (· ≤ ·) := by decide
  have hlow : ∀ value ∈ Rank.all.map Rank.value, 1 ≤ value := by decide
  unfold Observation.drawRanks
  dsimp only
  split
  · refine List.pairwise_cons.mpr ⟨?_, hall.filter _⟩
    intro value hvalue
    exact hlow value (List.mem_filter.mp hvalue).1
  · exact hall.filter _

theorem inRange_of_sees (hvalid : settings.validate = .ok ()) (hs : h.Sees p o) (hblind : h.blindValues.bigBlind ≤ 10000)
    (hlive : (h.seat p).participation = .live) (hboard : h.board.length ≤ 5) : settings.opponents.InRange o := by
  refine ⟨?_, ?_, ?_, ?_, Settings.chances_of_valid hvalid⟩
  · have hprice := price_le settings.opponents.style settings.opponents.profile
    rw [hs.bigBlindChips]
    calc h.blindValues.bigBlind * settings.opponents.style.price settings.opponents.profile.priceLimit
        ≤ 10000 * 12 := Nat.mul_le_mul hblind hprice
      _ ≤ u32Max := by decide
  · have hmem : p ∈ o.activeSeats := by
      unfold Observation.activeSeats
      rw [hs.seats]
      refine List.mem_map.mpr ⟨h.publicSeat p, List.mem_filter.mpr ⟨List.mem_map_of_mem hs.mem, ?_⟩, rfl⟩
      have hdealt : (h.publicSeat p).participation = .live := hlive
      rw [hdealt]
      decide
    rw [hs.actor]
    have hfound : o.activeSeats.findIdx? (· == p) = some (o.activeSeats.findIdx (· == p)) :=
      List.findIdx?_eq_some_of_exists ⟨p, hmem, by simp⟩
    rw [hfound, Option.getD_some]
    exact List.findIdx_lt_length_of_exists ⟨p, hmem, by simp⟩
  · intro i low top hlow htop
    obtain ⟨hi, rfl⟩ := List.getElem?_eq_some_iff.mp hlow
    obtain ⟨hj, rfl⟩ := List.getElem?_eq_some_iff.mp htop
    exact List.pairwise_iff_getElem.mp (drawRanks_sorted o) i (i + 3) hi hj (by omega)
  · intro suit
    have hcount : suitCount (o.holeCards ++ o.board) suit ≤ (o.holeCards ++ o.board).length := List.countP_le_length
    have hlen : (o.holeCards ++ o.board).length ≤ 7 := by
      rw [List.length_append, hs.two, hs.board]
      omega
    omega

end arithmetic

/-! ## Opponents and blinds stay -/

/-- The blinds a session's settings give its table. -/
def Settings.blinds (settings : Settings) : BlindValues := ⟨settings.smallBlind, settings.bigBlind, 0⟩

/-- The session's table and its opponents are those it was opened with. -/
structure Seated (settings : Settings) (s : Session) : Prop where
  rests : Rests (fun c => c.blindValues = settings.blinds) s
  blinds : s.hand.blindValues = settings.blinds
  bots : s.bots = (s.hand.tableSize.seats.map fun _ => ⟨settings.opponents⟩)

section seated
variable {localFeedback : Decision → Feedback} {settings : Settings} {s s' : Session} {deck : Shuffle} {id : String}
  {command : SeatCommand} {op : SessionOp} {p : SeatId}

theorem settle_bots : s.settle.bots = s.bots := by
  rcases settle_cases s with ⟨he, _⟩ | ⟨_, _, _, _, he⟩
  · rw [he]
  · rw [he]
    rfl

/-- A command leaves blinds and seats as they were. -/
theorem Seated.played (hs : Seated settings s) (hv : s.hand.validateCommand command = .ok ()) :
    (s.hand.applyCommand command).2.blindValues = settings.blinds ∧
      (s.hand.applyCommand command).2.tableSize = s.hand.tableSize := by
  obtain ⟨c, stack, start, commands, hp, hp', hP⟩ := hs.rests.stands.played hv
    (show (s.botPlayed command).hand = _ from rfl) rfl rfl
  have hkept := hp'.kept
  exact ⟨hkept.blindValues.trans hP, hkept.tableSize.trans hp.kept.tableSize.symm⟩

theorem Seated.same (hs : Seated settings s) (hr : Rests (fun c => c.blindValues = settings.blinds) s') (hhand : s'.hand = s.hand)
    (hbots : s'.bots = s.bots) : Seated settings s' := by
  refine ⟨hr, ?_, ?_⟩
  · rw [hhand]
    exact hs.blinds
  · rw [hhand, hbots]
    exact hs.bots

theorem Seated.rests_step (hs : Seated settings s) (localFeedback : Decision → Feedback) (op : SessionOp) :
    Rests (fun c => c.blindValues = settings.blinds) (op.apply localFeedback s) :=
  hs.rests.step fun _ _ _ _ _ => hs.blinds

theorem Seated.step (hs : Seated settings s) (localFeedback : Decision → Feedback) (op : SessionOp) :
    Seated settings (op.apply localFeedback s) := by
  have hr := hs.rests_step localFeedback op
  cases op with
  | submit action =>
    rcases submit_cases localFeedback s action with ⟨_, he⟩ | ⟨o, _, _, hv, he⟩
    · exact hs.same hr (by rw [SessionOp.apply, he]) (by rw [SessionOp.apply, he])
    · rw [SessionOp.apply, he] at hr ⊢
      obtain ⟨hblinds, hsize⟩ := hs.played hv
      refine ⟨hr, hblinds, ?_⟩
      show s.bots = ((s.hand.applyCommand ⟨hero, action⟩).2.tableSize.seats.map fun _ => _)
      rw [hsize]
      exact hs.bots
  | stepBot draws =>
    rcases stepBot_cases s draws with ⟨_, _, he⟩ | ⟨p, o, bot, _, _, _, _, _, hv, he⟩
    · exact hs.same hr (by rw [SessionOp.apply, he]) (by rw [SessionOp.apply, he])
    · rw [SessionOp.apply, he] at hr ⊢
      obtain ⟨hblinds, hsize⟩ := hs.played hv
      refine ⟨hr, ?_, ?_⟩
      · rw [settle_hand]
        exact hblinds
      · rw [settle_hand, settle_bots]
        show s.bots = ((s.hand.applyCommand _).2.tableSize.seats.map fun _ => _)
        rw [hsize]
        exact hs.bots
  | continueHand => exact hs.same hr settle_hand settle_bots
  | topUp =>
    rcases topUp_cases s with ⟨_, _, he⟩ | ⟨_, _, _, he⟩
    · exact hs.same hr (by rw [SessionOp.apply, he]) (by rw [SessionOp.apply, he])
    · rw [SessionOp.apply, he] at hr ⊢
      exact ⟨hr, hs.blinds, hs.bots⟩
  | withdraw amount =>
    rcases withdraw_cases s amount with ⟨_, _, he⟩ | ⟨_, _, he⟩
    · exact hs.same hr (by rw [SessionOp.apply, he]) (by rw [SessionOp.apply, he])
    · rw [SessionOp.apply, he] at hr ⊢
      exact ⟨hr, hs.blinds, hs.bots⟩
  | nextHand deck =>
    rcases nextHand_cases s deck with ⟨_, _, he⟩ | ⟨_, ⟨_, _, he⟩ | ⟨button, _, ⟨_, _, he⟩ | ⟨hand, hbuild, he⟩⟩⟩
    · exact hs.same hr (by rw [SessionOp.apply, he]) (by rw [SessionOp.apply, he])
    · exact hs.same hr (by rw [SessionOp.apply, he]) (by rw [SessionOp.apply, he])
    · exact hs.same hr (by rw [SessionOp.apply, he]; rfl) (by rw [SessionOp.apply, he]; rfl)
    · rw [SessionOp.apply, he] at hr ⊢
      have hkept := (dealt_plays hs.rests.table hbuild).kept
      refine ⟨hr, hkept.blindValues.trans hs.blinds, ?_⟩
      have hsize : (s.dealt hand).hand.tableSize = s.hand.tableSize := hkept.tableSize
      rw [hsize]
      exact hs.bots
  | saveSettings new =>
    rw [SessionOp.apply] at hr ⊢
    split at hr
    · refine hs.same hr saveSettings_hand ?_
      unfold Session.saveSettings
      dsimp only
      split
      · exact settle_bots
      · rfl
    · exact hs
  | solverFeedback feedback =>
    obtain ⟨decisions, he⟩ := recordSolverFeedback_eq s feedback
    exact hs.same hr (by rw [SessionOp.apply, he]) (by rw [SessionOp.apply, he])
  | reviewFeedback feedback =>
    obtain ⟨decisions, ready, he⟩ := recordReviewFeedback_eq s feedback
    exact hs.same hr (by rw [SessionOp.apply, he]) (by rw [SessionOp.apply, he])

theorem Seated.run (hs : Seated settings s) (ops : List SessionOp) : Seated settings (s.run localFeedback ops) := by
  induction ops generalizing s with
  | nil => exact hs
  | cons op ops ih => exact ih (hs.step localFeedback op)

theorem new_seated (hnew : Session.new settings deck id = .ok s) : settings.validate = .ok () ∧ Seated settings s := by
  obtain ⟨table, ho⟩ := new_opened hnew
  have hkept := ho.plays.kept
  refine ⟨ho.valid, ho.rests rfl, hkept.blindValues, ?_⟩
  have hsize : s.hand.tableSize = table := hkept.tableSize
  have hbots : ∃ size : TableSize, s.bots = size.seats.map fun _ => ⟨settings.opponents⟩ := by
    unfold Session.new at hnew
    repeat' split at hnew
    all_goals first | cases hnew; exact ⟨_, rfl⟩ | cases hnew
  obtain ⟨size, hbots⟩ := hbots
  have hlen := ho.bots
  rw [hbots, List.length_map, TableSize.length_seats] at hlen
  rw [hbots, hsize]
  simp only [List.map_const', TableSize.length_seats, hlen]

end seated

/-! ## An opponent's turn -/

/-- An opponent to act is observed, and whatever it draws it chooses an action the hand takes. -/
structure ChoosesWell (s : Session) (p : SeatId) : Prop where
  turn : ∃ o bot, s.observation p = .ok o ∧ s.bots[p.val]? = some bot ∧ bot.settings.InRange o ∧ ∀ draws,
    s.hand.validateCommand ⟨p, bot.choose draws o⟩ = .ok () ∧ Offered o.legal s.hand.currentWager (bot.choose draws o)
  steps : s.coaching = none → ∀ draws, (s.stepBot draws).1 = .ok true

section turns
variable {localFeedback : Decision → Feedback} {settings : Settings} {s : Session} {deck : Shuffle} {id : String} {p : SeatId}

theorem Seated.choosesWell (hs : Seated settings s) (hvalid : settings.validate = .ok ()) (hto : s.hand.toAct = some p)
    (hbot : p ≠ hero) : ChoosesWell s p := by
  cases hs.rests.stands with
  | between hb =>
    have hnone := hb.handOver.toAct
    rw [hto] at hnone
    cases hnone
  | @plays c stack start commands hp _ =>
    have hstage := hp.stage
    obtain ⟨_, hplay⟩ := hstage.playing_of_toAct hto
    obtain ⟨legal, ha⟩ := hplay.acting hto
    obtain ⟨_, o, ho, _, hchoose⟩ := hp.turn hplay hto
    have hsees : s.hand.Sees p o := observation_sees ho ha.turn.accepts
    have hlt : p.val < s.hand.tableSize.get := hs.rests.table.mem_seats.mp ha.mem
    have hat : s.bots[p.val]? = some ⟨settings.opponents⟩ := by
      rw [hs.bots, List.getElem?_map, List.getElem?_eq_getElem (by rw [TableSize.length_seats]; exact hlt)]
      rfl
    have hblind : s.hand.blindValues.bigBlind ≤ 10000 := by
      rw [hs.blinds]
      exact (Settings.blinds_of_valid hvalid).2.2.2.2
    have hboard : s.hand.board.length ≤ 5 := by
      have hstreet := (hp.starts.dealtFrom_run (commands.map .command)).2
      rw [← hp.hand] at hstreet
      rw [hstreet ha.turn.accepts]
      cases s.hand.phase <;> decide
    refine ⟨⟨o, ⟨settings.opponents⟩, ho, hat, inRange_of_sees hvalid hsees hblind (status_live.mp ha.live) hboard, ?_⟩, ?_⟩
    · intro draws
      have hv := hchoose ⟨settings.opponents⟩ draws
      refine ⟨hv, ?_⟩
      rw [ha.menu_eq hsees]
      exact ha.offered_of_valid hv
    · intro hc draws
      have hopen : s.finished = false := by
        have hgoes := open_of_accepts ha.turn.accepts
        simp [Session.finished, hgoes]
      have happly : s.hand.applyCommand ⟨p, Opponent.choose ⟨settings.opponents⟩ draws o⟩ =
          (.ok (), s.hand.applyValidatedAction p (Opponent.choose ⟨settings.opponents⟩ draws o)) := by
        rw [applyCommand, hchoose]
      simp only [Session.stepBot, hc, hopen, hto, hbot, ho, hat, happly, Option.isSome_none, Bool.or_self, Bool.false_eq_true,
        if_false]

/-- In every run of a session an opponent to act chooses what the hand accepts, whatever it draws. -/
theorem bots_choose_well (hnew : Session.new settings deck id = .ok s) (ops : List SessionOp)
    (hto : (s.run localFeedback ops).hand.toAct = some p) (hbot : p ≠ hero) : ChoosesWell (s.run localFeedback ops) p := by
  obtain ⟨hvalid, hseated⟩ := new_seated hnew
  exact (hseated.run ops).choosesWell hvalid hto hbot

/-- The hero of two calls, and the other seat is to act. -/
theorem bots_choose_well_heads_up : ∃ s, Session.new headsUp newDeck "s" = .ok s ∧
    (s.run uncertain [.submit (.call 1), .continueHand]).hand.toAct = some 1 ∧
      ChoosesWell (s.run uncertain [.submit (.call 1), .continueHand]) 1 := by
  have hturn : (Session.new headsUp newDeck "s").toOption.map (fun s =>
      (s.run uncertain [.submit (.call 1), .continueHand]).hand.toAct) = some (some 1) := by decide +kernel
  obtain ⟨s, hnew⟩ := headsUp_opens
  rw [hnew] at hturn
  have hto := Option.some.inj hturn
  exact ⟨s, hnew, hto, bots_choose_well hnew _ hto (by decide)⟩

end turns

end OpenFelt.Trainer
