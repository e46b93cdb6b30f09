/-
  OpenFelt.Offline.Aggressors — who bet last on a street (`last_aggressor`,
  `last_raise_size` of `src/game/state.rs`).

  `Marked` holds in every reachable state of a street (`run_marked`): a street nobody has
  bet on holds the blinds at most, and where somebody has, the seat to act has a bet to
  call. An answer to a bet that leaves the bets even ends the street.
-/

import OpenFelt.Offline.Streets

namespace OpenFelt

namespace GameState

variable {g called g' : GameState} {p : HeadsUpSeat} {action : Action} {amount : Nat}

/-- A street nobody has bet on holds the blinds at most; on another the seat to act has a bet to call,
    that was raised by no more than it is. -/
structure Marked (g : GameState) : Prop where
  quiet : g.lastAggressor = none → g.maxBet ≤ (if g.phase = .preflop then bigBlind else 0) ∧
    (g.phase = .preflop → g.lastRaiseSize = bigBlind)
  raised : g.lastAggressor ≠ none → 0 < g.amountToCall g.toAct ∧ g.lastRaiseSize ≤ g.maxBet

/-! ## A new street -/

/-- The next street has no bets. -/
theorem advancePhase_marked (hb : g.phase.betting = true) (hnext : g.advancePhase.phase.betting = true) :
    Marked g.advancePhase := by
  obtain ⟨-, heq⟩ | ⟨cards, phase, heq, -, hstreet, -⟩ := advancePhase_cases hb
  · rw [heq] at hnext
    cases hnext
  · have hopened := openStreet_opened g.collectBets cards phase
    rw [heq]
    have hbets : (g.collectBets.openStreet cards phase).maxBet = 0 := by
      rw [maxBet, streetBet, streetBet, seat, seat, hopened.seats]
      rfl
    have hphase : (g.collectBets.openStreet cards phase).phase ≠ .preflop := by
      rw [hopened.phase]
      exact hstreet
    refine ⟨fun _ => ⟨?_, fun hpre => absurd hpre hphase⟩, fun hsome => absurd hopened.aggressor hsome⟩
    rw [hbets]
    exact Nat.zero_le _

/-! ## An action -/

/-- What an action leaves: nothing bet and the highest bet as it was, or a bet that the other seat has to call if the
    round goes on. -/
structure Marks (p : HeadsUpSeat) (g called : GameState) : Prop where
  same : called.lastAggressor = none → g.lastAggressor = none ∧ called.maxBet = g.maxBet ∧ called.lastRaiseSize = g.lastRaiseSize
  answers : called.lastAggressor ≠ none → called.isBettingRoundComplete = false →
    called.streetBet p.other < called.maxBet ∧ called.lastRaiseSize ≤ called.maxBet

/-- A raise to more than the highest bet. -/
theorem raised_marks (hw : Wagered p g called) (hbet : called.streetBet p = amount) (hmore : g.maxBet < amount) :
    Marks p g (called.raised p amount g.maxBet) := by
  have hmax := maxBet_eq g p
  have hnew : called.maxBet = amount := by
    rw [maxBet_eq called p, hbet, hw.streetBet_other]
    omega
  refine ⟨fun hnone => (by cases hnone), fun _ _ => ?_⟩
  show called.streetBet p.other < called.maxBet ∧ amount - g.maxBet ≤ called.maxBet
  rw [hnew, hw.streetBet_other]
  omega

/-- Even bets after a bet end the round. -/
theorem complete_of_even (hpos : ∀ p, 0 < g.stack p) (heven : g.streetBet p = g.streetBet p.other)
    (hsome : g.lastAggressor ≠ none) :
    g.isBettingRoundComplete = true := by
  have hfirst : g.stack .first ≠ 0 := by have := hpos .first; omega
  have hsecond : g.stack .second ≠ 0 := by have := hpos .second; omega
  have heq : g.streetBet .first = g.streetBet .second := by
    cases p
    · exact heven
    · exact heven.symm
  simp [isBettingRoundComplete, hfirst, hsecond, heq, hsome]

/-- A seat that has matched the other's bet has ended the round of a bet. -/
theorem matched_complete (hpos : 0 < called.stack p) (heven : called.streetBet p = called.streetBet p.other)
    (hsome : called.lastAggressor ≠ none) : called.isBettingRoundComplete = true := by
  by_contra hopen
  obtain hboth | ⟨q, hzero, -, hlt⟩ := open_of_incomplete (Bool.not_eq_true _ ▸ hopen)
  · exact hopen (complete_of_even hboth heven hsome)
  · obtain rfl | rfl := p.eq_or_other q
    · omega
    · rw [HeadsUpSeat.other_other] at hlt
      omega

/-- So has a seat that put its last chips against a bet that covers them. -/
theorem covered_complete (hzero : called.stack p = 0) (hle : called.streetBet p ≤ called.streetBet p.other) :
    called.isBettingRoundComplete = true := by
  by_contra hopen
  obtain hboth | ⟨q, -, hpos, hlt⟩ := open_of_incomplete (Bool.not_eq_true _ ▸ hopen)
  · have := hboth p
    omega
  · obtain rfl | rfl := p.eq_or_other q
    · omega
    · rw [HeadsUpSeat.other_other] at hpos
      omega

theorem call_marks (hr : g.InRange) (hcall : 0 < g.amountToCall p) (hlt : g.amountToCall p < g.stack p) :
    Marks p g (g.addChips p (g.amountToCall p)) := by
  have hmax := maxBet_eq g p
  unfold amountToCall at hcall hlt ⊢
  have hw := addChips_wagered hr hlt (by omega)
  have hseat := addChips_seat hr (Nat.le_of_lt hlt)
  have hbet : (g.addChips p (g.maxBet - g.streetBet p)).streetBet p = g.maxBet := by
    rw [streetBet, hseat]
    dsimp only
    omega
  have hother := hw.streetBet_other
  have hstack : 0 < (g.addChips p (g.maxBet - g.streetBet p)).stack p := by
    rw [stack, hseat]
    dsimp only
    omega
  refine ⟨fun hnone => ⟨hnone, ?_, rfl⟩, fun hsome hopen => ?_⟩
  · rw [maxBet_eq _ p, hbet, hother]
    omega
  · rw [matched_complete hstack (by omega) hsome] at hopen
    cases hopen

theorem allIn_marks (hr : g.InRange) (hpos : 0 < g.stack p) (hamount : amount = g.streetBet p + g.stack p) :
    Marks p g (g.wager p (.allIn amount)) := by
  have hmax := maxBet_eq g p
  have hw := allIn_wagered hr hamount
  have hseat := allIn_seat hr hamount
  have hbet := congrArg SeatState.streetBet hseat
  have hstack := congrArg SeatState.stack hseat
  have hother := hw.streetBet_other
  simp only [wager]
  split
  · rename_i hmore
    exact raised_marks hw hbet hmore
  · rename_i hmore
    refine ⟨fun hnone => ⟨hnone, ?_, rfl⟩, fun hsome hopen => ?_⟩
    · rw [maxBet_eq _ p, hother, streetBet, hbet]
      dsimp only
      omega
    · rw [covered_complete hstack (by rw [hother, streetBet, hbet]; dsimp only; omega)] at hopen
      cases hopen

/-- A bet or a raise is to more than the highest bet. -/
theorem bet_marks (hr : g.InRange) (hmore : g.maxBet < amount) (hlt : amount < g.streetBet p + g.stack p) :
    Marks p g ((g.wagerTo p amount).raised p amount g.maxBet) := by
  have hle := streetBet_le_maxBet g p
  have hpaid : amount - g.streetBet p ≤ g.stack p := by omega
  have hseat := addChips_seat hr hpaid
  refine raised_marks (wagerTo_wagered hr (by omega) hlt) ?_ hmore
  rw [wagerTo_eq (by omega), streetBet, hseat]
  dsimp only
  omega

theorem wager_marks (hm : Marked g) (hturn : g.toAct = p) (hr : g.InRange) (hpos : 0 < g.stack p)
    (hv : g.validateAction p action = .ok ()) (hfold : action ≠ .fold) : Marks p g (g.wager p action) := by
  have hrange := hr p
  have hmax := maxBet_eq g p
  have htotal : saturatingAdd (g.streetBet p) (g.stack p) = g.streetBet p + g.stack p := by unfold saturatingAdd; omega
  have hraise : ∀ {amount}, saturatingAdd g.maxBet (max g.lastRaiseSize bigBlind) ≤ amount →
      amount ≤ g.streetBet p + g.stack p - 1 → g.maxBet < amount := by
    intro amount hlow hhigh
    unfold saturatingAdd bigBlind at hlow
    omega
  cases action with
  | fold => exact absurd rfl hfold
  | check =>
    have hcall : g.amountToCall p = 0 := by
      by_contra h
      simp [validateAction, h] at hv
    refine ⟨fun hnone => ⟨hnone, rfl, rfl⟩, fun hsome _ => ?_⟩
    have hraised := (hm.raised hsome).1
    rw [hturn] at hraised
    omega
  | call amount =>
    simp only [validateAction] at hv
    split at hv
    · cases hv
    · rename_i hcan
      split at hv
      · rename_i heq
        subst heq
        exact call_marks hr (by omega) (by omega)
      · cases hv
  | bet amount =>
    simp only [validateAction, htotal] at hv
    split at hv
    · cases hv
    · by_cases hzero : g.maxBet = 0
      · rw [if_pos hzero] at hv
        split at hv
        · rename_i hin
          refine bet_marks hr ?_ (by omega)
          unfold bigBlind at hin
          omega
        · cases hv
      · rw [if_neg hzero] at hv
        split at hv
        · rename_i hin
          exact bet_marks hr (hraise hin.1 hin.2) (by omega)
        · cases hv
  | raise amount =>
    simp only [validateAction, htotal] at hv
    split at hv
    · cases hv
    · split at hv
      · rename_i hin
        exact bet_marks hr (hraise hin.1 hin.2) (by omega)
      · cases hv
  | allIn amount =>
    simp only [validateAction, htotal] at hv
    split at hv
    · rename_i hin
      exact allIn_marks hr hpos hin.1
    · cases hv

theorem Marked.note (hm : Marked g) : Marked (g.note p action) := ⟨hm.quiet, hm.raised⟩

/-- An accepted action leaves a street marked. -/
theorem act_marked (hu : g.Underway) (hm : Marked g) (hb : g.phase.betting = true) (hturn : (g.seat g.toAct).eligibleToAct = true)
    (hv : g.validateAction g.toAct action = .ok ()) (hnext : (g.applyValidatedAction g.toAct action).phase.betting = true) :
    Marked (g.applyValidatedAction g.toAct action) := by
  have hself := eligibleToAct_iff.mp hturn
  simp only [applyValidatedAction] at hnext ⊢
  by_cases hfold : action = .fold
  · rw [if_pos hfold] at hnext
    cases hnext
  · rw [if_neg hfold] at hnext ⊢
    have hnoted : (g.note g.toAct action).InRange := hu.range
    have hm' : Marked (g.note g.toAct action) := hm.note
    have hw : Wagered g.toAct (g.note g.toAct action) ((g.note g.toAct action).wager g.toAct action) :=
      wagered hnoted hself.1 hv hfold
    have hmarks : Marks g.toAct (g.note g.toAct action) ((g.note g.toAct action).wager g.toAct action) :=
      wager_marks hm' rfl hnoted hself.1 hv hfold
    have honly : OnlyChips (g.note g.toAct action) ((g.note g.toAct action).wager g.toAct action) := wager_only action
    generalize (g.note g.toAct action).wager g.toAct action = called at hw hmarks honly hnext ⊢
    have hstreet : called.phase.betting = true := by rw [honly.phase]; exact hb
    have hconclude := hw.conclude hself.2 (hu.betting.live_other hturn)
    cases hcomplete : called.isBettingRoundComplete with
    | true =>
      have heq : called.conclude g.toAct = called.advancePhase := if_pos hcomplete
      rw [heq] at hnext ⊢
      exact advancePhase_marked hstreet hnext
    | false =>
      obtain ⟨-, heq⟩ | ⟨heq, -⟩ := hconclude
      · rw [heq] at hnext ⊢
        exact advancePhase_marked hstreet hnext
      · rw [heq]
        refine ⟨?_, ?_⟩
        · intro hnone
          obtain ⟨hquiet, hbets, hraise⟩ := hmarks.same hnone
          obtain ⟨hle, hpre⟩ := hm'.quiet hquiet
          have hphase : ({ called with toAct := g.toAct.other } : GameState).phase = (g.note g.toAct action).phase := honly.phase
          refine ⟨?_, ?_⟩
          · show called.maxBet ≤ _
            rw [hbets, hphase]
            exact hle
          · intro h
            rw [hphase] at h
            exact hraise.trans (hpre h)
        · intro hsome
          obtain ⟨hlt, hraise⟩ := hmarks.answers hsome hcomplete
          exact ⟨Nat.sub_pos_of_lt hlt, hraise⟩

/-! ## A new hand -/

theorem postBlind_quiet (g : GameState) (p : HeadsUpSeat) (blind : Nat) :
    (g.postBlind p blind).lastAggressor = g.lastAggressor ∧ (g.postBlind p blind).lastRaiseSize = g.lastRaiseSize := by
  simp only [postBlind]
  split <;> exact ⟨rfl, rfl⟩

theorem dealSeat_quiet (g : GameState) (p : HeadsUpSeat) :
    (g.dealSeat p).lastAggressor = g.lastAggressor ∧ (g.dealSeat p).lastRaiseSize = g.lastRaiseSize := by
  simp only [dealSeat]
  split <;> exact ⟨rfl, rfl⟩

theorem NewHand.marked {deck : Deck} (h : NewHand g deck (g.startNewHand deck))
    (helig : ∀ p, (g.seat p).eligibleForNextHand = true) :
    Marked (g.startNewHand deck) := by
  obtain ⟨small, hsmall⟩ := h.small
  obtain ⟨big, hbig⟩ := h.big
  have hnone : (g.startNewHand deck).lastAggressor = none ∧ (g.startNewHand deck).lastRaiseSize = bigBlind := by
    rw [startNewHand_eq helig]
    simp only [postBlinds, dealHands, postBlind_quiet, dealSeat_quiet]
    exact ⟨rfl, rfl⟩
  have hmax : (g.startNewHand deck).maxBet ≤ bigBlind := by
    rw [maxBet_eq _ g.button, streetBet, streetBet, hsmall, hbig]
    simp only [blindPosted]
    unfold smallBlind bigBlind
    omega
  refine ⟨fun _ => ⟨?_, fun _ => hnone.2⟩, fun hsome => absurd hnone.1 hsome⟩
  rw [if_pos h.phase]
  exact hmax

/-! ## Runs -/

/-- A street being bet on is marked. -/
def AllMarked (g : GameState) : Prop := g.phase.betting = true → Marked g

theorem step_marked {op : GameOp} (ha : AtTable g) (hm : AllMarked g) (h : g.step op = some g') : AllMarked g' := by
  intro hnext
  cases op with
  | startNewHand deck =>
    simp only [GameState.step] at h
    split at h
    · rename_i hboth
      have hpos (p : HeadsUpSeat) : 0 < g.stack p := by
        cases p
        · exact hboth.1
        · exact hboth.2
      cases h
      have helig := eligible_of_active ha.active hpos
      exact (startNewHand_spec helig ha.chips deck).marked helig
    · cases h
  | command command =>
    cases h
    obtain ⟨_, _, heq⟩ | ⟨hok, heq⟩ := g.applyCommand_cases command
    · rw [heq] at hnext ⊢
      exact hm hnext
    · obtain ⟨hb, -, hturn, hv⟩ := validateCommand_ok hok
      rw [heq] at hnext ⊢
      exact act_marked (ha.underway hb) (hm hb) hb hturn hv hnext
  | runout =>
    simp only [GameState.step] at h
    split at h
    · rename_i hout
      cases h
      exact advancePhase_marked hout.1 hnext
    · cases h

/-- Every state of a street that a game reaches is marked. -/
theorem run_marked {ops : List GameOp} (ha : AtTable g) (hm : AllMarked g) (h : g.run ops = some g') : AllMarked g' := by
  induction ops generalizing g with
  | nil =>
    cases h
    exact hm
  | cons op ops ih =>
    obtain ⟨next, hstep, hrest⟩ := Option.bind_eq_some_iff.mp h
    exact ih (ha.step hstep) (step_marked ha hm hstep) hrest

theorem new_marked {s : Nat} (hstack : wrap32 (s * bigBlind) ≠ 0) (deck : Deck) : AllMarked (new s deck) := by
  intro _
  have helig := eligible_of_active (unplayed_active s) (unplayed_pos hstack)
  exact (startNewHand_spec helig (unplayed_le s) deck).marked helig

end GameState

end OpenFelt
