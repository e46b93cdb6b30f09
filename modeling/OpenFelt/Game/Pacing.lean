/-
  OpenFelt.Game.Pacing — a paced showdown ends as the immediate one does.

  Only `begin_showdown` reads `paced_showdown`, to stop before its draining loop; every
  other operation commutes with `enable_paced_showdown`. A paced hand is therefore the
  unpaced one, or waits in the showdown that the unpaced one has already drained
  (`Paces`), and driving it brings it there.
  Proved: `run_paced`.
-/

import OpenFelt.Game.Runs
import OpenFelt.Lib.Drive

namespace OpenFelt

open Drive

namespace MultiwayHand

section pacing
variable {h : MultiwayHand} {p : SeatId} {posted : Nat}

/-! ## What does not read the flag -/

theorem foldl_paced {α : Type} {s : MultiwayHand → α → MultiwayHand}
    (hs : ∀ h x, s h.enablePacedShowdown x = (s h x).enablePacedShowdown) (l : List α) (h : MultiwayHand) :
    l.foldl s h.enablePacedShowdown = (l.foldl s h).enablePacedShowdown := by
  induction l generalizing h with
  | nil => rfl
  | cons x l ih => rw [List.foldl_cons, List.foldl_cons, hs, ih]

theorem updateOccupied_paced (f : MultiwaySeatState → MultiwaySeatState) :
    h.enablePacedShowdown.updateOccupied f = (h.updateOccupied f).enablePacedShowdown :=
  foldl_paced (fun _ _ => rfl) _ h

theorem clearContributions_paced : h.enablePacedShowdown.clearContributions = h.clearContributions.enablePacedShowdown :=
  updateOccupied_paced _

theorem awardFold_paced : h.enablePacedShowdown.awardFold = h.awardFold.enablePacedShowdown := by
  cases hw : h.occupiedSeats.find? fun p => (h.seat p).eligibleForPot with
  | none => rw [awardFold_none hw, awardFold_none (h := h.enablePacedShowdown) hw]; rfl
  | some winner =>
    rw [awardFold_some hw, awardFold_some (h := h.enablePacedShowdown) hw]
    have hclear := @clearContributions_paced { MultiwayHand.credit { MultiwayHand.check { h with showdownProgress := none }
      (fitsU32 (h.sumSeats (·.handContribution))) with settledContributions := h.contributionSnapshot } winner
      (h.sumSeats (·.handContribution)) with
        awards := [⟨0, h.sumSeats (·.handContribution), [winner], [winner], [⟨winner, h.sumSeats (·.handContribution)⟩]⟩] }
    exact congrArg (fun k : MultiwayHand => ({ k with toAct := none, phase := .handComplete } : MultiwayHand)) hclear

theorem moveChips_paced (p : SeatId) (action : Action) :
    h.enablePacedShowdown.moveChips p action = (h.moveChips p action).enablePacedShowdown := by
  cases action with
  | fold | check | call _ | bet _ | raise _ => rfl
  | allIn target =>
    simp only [moveChips]
    rw [show h.enablePacedShowdown.currentWager = h.currentWager from rfl]
    split <;> rfl

theorem markResponse_paced (p : SeatId) : h.enablePacedShowdown.markResponse p = (h.markResponse p).enablePacedShowdown := by
  unfold markResponse
  rw [show h.enablePacedShowdown.seat p = h.seat p from rfl]
  split <;> rfl

theorem recordAction_paced (p : SeatId) (action : Action) :
    h.enablePacedShowdown.recordAction p action = (h.recordAction p action).enablePacedShowdown := by
  simp only [recordAction, moveChips_paced, markResponse_paced]
  rfl

theorem dealStreet_paced : h.enablePacedShowdown.dealStreet = h.dealStreet.enablePacedShowdown := by
  have hclear : h.enablePacedShowdown.clearStreet = h.clearStreet.enablePacedShowdown := by
    simp only [clearStreet, updateOccupied_paced]
    rfl
  simp only [dealStreet, hclear]
  rfl

theorem tableCards_paced (h : MultiwayHand) (p : SeatId) :
    h.enablePacedShowdown.tableCards p = (h.tableCards p).enablePacedShowdown := by
  unfold tableCards
  rw [show h.enablePacedShowdown.revealedHands = h.revealedHands from rfl]
  split <;> rfl

theorem evaluateShowdownOnce_paced : h.enablePacedShowdown.evaluateShowdownOnce = h.evaluateShowdownOnce.enablePacedShowdown := by
  unfold evaluateShowdownOnce
  rw [show h.enablePacedShowdown.showdownEvaluations = h.showdownEvaluations from rfl]
  split <;> rfl

theorem openShowdown_paced (allIn : Bool) :
    h.enablePacedShowdown.openShowdown allIn = (h.openShowdown allIn).enablePacedShowdown := by
  cases allIn with
  | true =>
    have hfold := foldl_paced tableCards_paced h.showOrder { h with toAct := none }
    simp only [openShowdown, if_true]
    exact congrArg (fun k : MultiwayHand => ({ k with showdownProgress := some ⟨true, h.showOrder, h.showOrder.length, []⟩ } :
      MultiwayHand)) hfold
  | false =>
    have heval := @evaluateShowdownOnce_paced { h with toAct := none }
    simp only [openShowdown, Bool.false_eq_true, if_false]
    rw [show ({ h.enablePacedShowdown with toAct := none } : MultiwayHand) =
      ({ h with toAct := none } : MultiwayHand).enablePacedShowdown from rfl, heval]
    generalize evaluateShowdownOnce { h with toAct := none } = k
    rw [show k.enablePacedShowdown.showOrder = k.showOrder from rfl]
    cases k.showOrder with
    | nil => rfl
    | cons first rest => simp only [tableCards_paced]; rfl

/-! ## Settlement -/

theorem returnUnmatched_paced : h.enablePacedShowdown.returnUnmatched = h.returnUnmatched.enablePacedShowdown :=
  @foldl_paced ReturnedExcess (fun h returned => h.credit returned.seat returned.amount) (fun _ _ => rfl)
    (buildPots h.contributionSnapshot).returned
    { MultiwayHand.check { h with settledContributions := h.contributionSnapshot }
      (layersInRange h.contributionSnapshot 0 (potLevels h.contributionSnapshot)) with
        pots := (buildPots h.contributionSnapshot).pots
        returnedExcess := (buildPots h.contributionSnapshot).returned }

theorem revealSynchronously_paced :
    h.enablePacedShowdown.revealSynchronously = h.revealSynchronously.enablePacedShowdown := by
  refine @foldl_paced SeatId (fun k p => if h.anyAllIn || k.alwaysShow.contains p || !k.beatenByTabledHands p then
    k.tableCards p else { k with muckedHands := k.muckedHands ++ [p] }) (fun k p => ?_) h.showOrder h
  rw [show k.enablePacedShowdown.alwaysShow = k.alwaysShow from rfl,
    show k.enablePacedShowdown.beatenByTabledHands p = k.beatenByTabledHands p from rfl]
  split
  · exact tableCards_paced k p
  · rfl

theorem publishHands_paced : h.enablePacedShowdown.publishHands = h.publishHands.enablePacedShowdown := by
  simp only [publishHands]
  rw [show h.enablePacedShowdown.revealedHands = h.revealedHands from rfl, revealSynchronously_paced]
  split <;> rfl

theorem awardPot_paced (h : MultiwayHand) (pot : Pot) (i : Nat) :
    h.enablePacedShowdown.awardPot pot i = (h.awardPot pot i).enablePacedShowdown := by
  simp only [awardPot]
  rw [show h.enablePacedShowdown.bestOf pot = h.bestOf pot from rfl]
  cases h.bestOf pot with
  | none => rfl
  | some best =>
    exact congrArg (fun k : MultiwayHand => ({ k with awards := k.awards ++ [h.potAward pot i best] } : MultiwayHand))
      (@foldl_paced SeatPayout (fun h payout => h.credit payout.seat payout.amount) (fun _ _ => rfl)
        (h.potAward pot i best).payouts (h.check ((h.potAward pot i best).payouts.all fun payout => fitsU32 payout.amount)))

theorem closeShowdown_paced : h.enablePacedShowdown.closeShowdown = h.closeShowdown.enablePacedShowdown := by
  simp only [closeShowdown, clearContributions_paced]
  rfl

theorem resolveShowdown_paced : h.enablePacedShowdown.resolveShowdown = h.resolveShowdown.enablePacedShowdown := by
  simp only [resolveShowdown, payPots, returnUnmatched_paced, evaluateShowdownOnce_paced, publishHands_paced]
  rw [← closeShowdown_paced]
  exact congrArg closeShowdown (foldl_paced (fun k x => awardPot_paced k x.1 x.2) _ _)

/-! ## The showdown -/

/-- The cursor moved past the next seat. -/
def pastNext (h : MultiwayHand) : MultiwayHand :=
  { h with showdownProgress := h.showdownProgress.map fun (p : ShowdownProgress) => { p with cursor := p.cursor + 1 } }

theorem revealFrom_cons (p : SeatId) (rest : List SeatId) (h : MultiwayHand) : revealFrom (p :: rest) h =
    if h.pastNext.alwaysShow.contains p || !h.pastNext.beatenByTabledHands p then (true, h.pastNext.tableCards p)
    else revealFrom rest { h.pastNext with
      muckedHands := h.pastNext.muckedHands ++ [p]
      showdownProgress := h.pastNext.showdownProgress.map fun (pr : ShowdownProgress) =>
        { pr with mucked := h.pastNext.muckedHands ++ [p] } } := rfl

theorem revealFrom_paced (order : List SeatId) (h : MultiwayHand) :
    revealFrom order h.enablePacedShowdown = ((revealFrom order h).1, (revealFrom order h).2.enablePacedShowdown) := by
  induction order generalizing h with
  | nil => rfl
  | cons p order ih =>
    rw [revealFrom_cons, revealFrom_cons, show h.enablePacedShowdown.pastNext = h.pastNext.enablePacedShowdown from rfl]
    generalize h.pastNext = k
    rw [show k.enablePacedShowdown.alwaysShow = k.alwaysShow from rfl,
      show k.enablePacedShowdown.beatenByTabledHands p = k.beatenByTabledHands p from rfl]
    split
    · rw [tableCards_paced]
    · exact ih { k with
        muckedHands := k.muckedHands ++ [p]
        showdownProgress := k.showdownProgress.map fun (pr : ShowdownProgress) => { pr with mucked := k.muckedHands ++ [p] } }

theorem advanceShowdown_paced (h : MultiwayHand) :
    h.enablePacedShowdown.advanceShowdown = (h.advanceShowdown.1, h.advanceShowdown.2.enablePacedShowdown) := by
  simp only [advanceShowdown]
  rw [show h.enablePacedShowdown.showdownProgress = h.showdownProgress from rfl]
  cases h.showdownProgress with
  | none => rfl
  | some progress =>
    dsimp only
    rw [show h.enablePacedShowdown.potEligibleCount = h.potEligibleCount from rfl,
      show h.enablePacedShowdown.board = h.board from rfl, revealFrom_paced, awardFold_paced]
    split
    · rfl
    split
    · rfl
    · generalize revealFrom (progress.order.drop progress.cursor) h = r
      obtain ⟨moved, k⟩ := r
      cases moved with
      | true => rfl
      | false => exact congrArg (Prod.mk true) (@resolveShowdown_paced { k with showdownProgress := none })

theorem drainShowdown_succ (fuel : Nat) (h : MultiwayHand) : drainShowdown (fuel + 1) h =
    bif h.advanceShowdown.1 then drainShowdown fuel h.advanceShowdown.2 else h.advanceShowdown.2 := by
  rw [drainShowdown]
  generalize h.advanceShowdown = r
  obtain ⟨moved, k⟩ := r
  cases moved <;> rfl

theorem drainShowdown_paced (fuel : Nat) (h : MultiwayHand) :
    drainShowdown fuel h.enablePacedShowdown = (drainShowdown fuel h).enablePacedShowdown := by
  induction fuel generalizing h with
  | zero => rfl
  | succ fuel ih =>
    rw [drainShowdown_succ, drainShowdown_succ, advanceShowdown_paced]
    cases h.advanceShowdown.1 with
    | true => exact ih _
    | false => rfl

/-! ## A paced hand beside the unpaced one -/

/-- The paced hand where the unpaced one is `h`: `h` with the flag set, or waiting in a
    showdown that `h` has drained. -/
inductive Paces (posted : Nat) (h : MultiwayHand) : MultiwayHand → Prop
  | playing : h.Playing posted → h.pacedShowdown = false → Paces posted h h.enablePacedShowdown
  | settled : h.Over → Paces posted h h.enablePacedShowdown
  | waits {k : MultiwayHand} {progress : ShowdownProgress} : h.Over → k.Showing progress →
      drainShowdown k.showdownFuel k = h.enablePacedShowdown → Paces posted h k

theorem Over.paced (ho : h.Over) : h.enablePacedShowdown.Over := ⟨ho.phase, ho.toAct, ho.progress⟩

/-- The betting ends in a showdown: the unpaced hand settles, the paced one waits. -/
theorem UnderWay.paces (hu : h.UnderWay posted) (hup : h.enablePacedShowdown.UnderWay posted)
    (hunpaced : h.pacedShowdown = false) (hcount : 2 ≤ h.potEligibleCount)
    (hend : h.phase = .river ∨ (h.bettingLocked = true ∧ h.anyAllIn = true)) :
    Paces posted (h.beginShowdown h.anyAllIn) (h.enablePacedShowdown.beginShowdown h.anyAllIn) := by
  have hne : ¬ h.potEligibleCount = 1 := by omega
  obtain ⟨progress, hs, hopens⟩ : ∃ progress, Showing (h.enablePacedShowdown.openShowdown h.anyAllIn) progress ∧
      h.enablePacedShowdown.beginShowdown h.anyAllIn = h.enablePacedShowdown.openShowdown h.anyAllIn := by
    rcases hup.begins hcount hend with ⟨_, hbegins⟩ | ⟨hno, _⟩
    · exact hbegins
    · cases hno
  have hover : (h.beginShowdown h.anyAllIn).Over := by
    rcases hu.begins hcount hend with ⟨hyes, _⟩ | ⟨_, g, _, _, _, hsettles⟩
    · rw [hunpaced] at hyes; cases hyes
    · rw [hsettles]; exact settle_over g
  have hdrains : h.beginShowdown h.anyAllIn =
      drainShowdown (h.openShowdown h.anyAllIn).showdownFuel (h.openShowdown h.anyAllIn) := by
    obtain ⟨_, _, _, hframe⟩ := hu.opens hcount hend
    have hflag : (h.openShowdown h.anyAllIn).pacedShowdown = false := by rw [hframe]; exact hunpaced
    rw [beginShowdown, if_neg hne]
    simp only [hflag, Bool.false_eq_true, if_false]
  rw [hopens]
  refine .waits hover hs ?_
  rw [openShowdown_paced, hdrains]
  exact drainShowdown_paced _ _

theorem Playing.paces (hp : h.Playing posted) (hunpaced : h.pacedShowdown = false) {op : HandOp} (hop : op ≠ .advance) :
    Paces posted (op.apply h).2 (op.apply h.enablePacedShowdown).2 := by
  cases op with
  | advance => exact absurd rfl hop
  | alwaysShow p v =>
    simp only [HandOp.apply, setAlwaysShow]
    rw [show h.enablePacedShowdown.occupiedSeats = h.occupiedSeats from rfl,
      show h.enablePacedShowdown.phase = h.phase from rfl,
      show h.enablePacedShowdown.showdownProgress = h.showdownProgress from rfl]
    split
    · exact .playing hp hunpaced
    split
    · exact .playing hp hunpaced
    · exact .playing (hp.always _) hunpaced
  | command command =>
    simp only [HandOp.apply, applyCommand]
    rw [show h.enablePacedShowdown.validateCommand command = h.validateCommand command from rfl]
    cases hv : h.validateCommand command with
    | error e => exact .playing hp hunpaced
    | ok u =>
      obtain ⟨_, g, _, hacted, hu, hg, _, _⟩ := hp.command_cases hv
      obtain ⟨_, gp, _, _, hup, hgp, _, _⟩ := @Playing.command_cases _ _ command (hp.paced true) hv
      obtain rfl : gp = g.enablePacedShowdown := by rw [hgp, hg]; exact recordAction_paced _ _
      have hflag : g.pacedShowdown = false := by rw [hacted.frame]; exact hunpaced
      have hpos := hacted.eligible_pos hp.booked.length hp.contested
      have hocc : occupiedIn g.seats command.seat = true := by
        rw [hacted.occupied]; exact occupied_of_canAct (validateCommand_ok hv).1.canAct
      dsimp only
      simp only [applyValidatedAction, recordAction_paced, ← hg]
      rw [show g.enablePacedShowdown.potEligibleCount = g.potEligibleCount from rfl,
        show g.enablePacedShowdown.bettingRoundComplete = g.bettingRoundComplete from rfl]
      by_cases hone : g.potEligibleCount = 1
      · rw [if_pos hone, if_pos hone, awardFold_paced]
        exact .settled (awardFold_over hu hone)
      have hcount : 2 ≤ g.potEligibleCount := by omega
      rw [if_neg hone, if_neg hone]
      by_cases hdone : g.bettingRoundComplete = true
      · rw [if_pos hdone, if_pos hdone, advanceStreet_eq hu hcount, advanceStreet_eq hup hcount]
        rw [show g.enablePacedShowdown.phase = g.phase from rfl,
          show g.enablePacedShowdown.bettingLocked = g.bettingLocked from rfl,
          show g.enablePacedShowdown.anyAllIn = g.anyAllIn from rfl]
        by_cases hend : g.phase = .river ∨ (g.bettingLocked = true ∧ g.anyAllIn = true)
        · rw [if_pos hend, if_pos hend]
          exact hu.paces hup hflag hcount hend
        · have hriver : g.phase ≠ .river := fun e => hend (Or.inl e)
          rw [if_neg hend, if_neg hend, dealStreet_paced]
          refine .playing (hu.dealt hriver hcount (two_actors hu hcount fun e => hend (Or.inr e))) ?_
          rw [(dealStreet_frame hu hriver).1, clearStreet, (updateOccupied_table g _).frame]
          exact hflag
      · have hopen : g.bettingRoundComplete = false := by simpa using hdone
        obtain ⟨q, hq⟩ := Option.isSome_iff_exists.mp
          (nextNeedingAfter_isSome hu.booked.length (lt_of_occupied hu.booked.length hocc) hopen)
        have hneeds := (nextNeedingAfter_spec hu.booked.length (lt_of_occupied hu.booked.length hocc) hq).1
        rw [if_neg hdone, if_neg hdone,
          show g.enablePacedShowdown.nextNeedingAfter command.seat = g.nextNeedingAfter command.seat from rfl, hq]
        simp only [Option.isSome_some, check_true]
        exact .playing (hu.asked hcount hopen hneeds) hflag

theorem Paces.step {k : MultiwayHand} (hs : Paces posted h k) {op : HandOp} (hop : op ≠ .advance) :
    Paces posted (op.apply h).2 (op.apply k).2 := by
  cases hs with
  | playing hp hunpaced => exact hp.paces hunpaced hop
  | settled ho => rw [apply_refused ho.refuses, apply_refused ho.paced.refuses]; exact .settled ho
  | waits ho hs hdrain => rw [apply_refused ho.refuses, apply_refused (hs.refuses hop)]; exact .waits ho hs hdrain

theorem Paces.run {k : MultiwayHand} (hs : Paces posted h k) (ops : List HandOp) (hops : HandOp.advance ∉ ops) :
    Paces posted (h.run ops) (k.run ops) := by
  induction ops generalizing h k with
  | nil => exact hs
  | cons op ops ih =>
    simp only [List.mem_cons, not_or] at hops
    exact ih (hs.step (Ne.symm hops.1)) hops.2

/-! ## Driving the paced hand -/

theorem Showing.rests {progress : ShowdownProgress} (hs : h.Showing progress) :
    ∃ n ≤ h.stepsLeft, Rests advanceShowdown n h (drainShowdown h.showdownFuel h) := by
  have hstep : ∀ k : MultiwayHand, (k.showdownProgress = none ∨ ∃ progress, k.Showing progress) →
      k.advanceShowdown = (false, k) ∨ (k.advanceShowdown.1 = true ∧
        (k.advanceShowdown.2.showdownProgress = none ∨ ∃ progress, k.advanceShowdown.2.Showing progress) ∧
        k.advanceShowdown.2.stepsLeft < k.stepsLeft) := fun k hk => by
    rcases hk with hnone | ⟨progress, hs⟩
    · exact Or.inl (advanceShowdown_none hnone)
    · right
      rcases hs.advance_cases with ⟨k', progress', he, hs', _, _, hlt⟩ | ⟨g, _, _, _, _, he⟩
      · rw [he]; exact ⟨rfl, Or.inr ⟨progress', hs'⟩, hlt⟩
      · obtain ⟨hnone, _, _⟩ := settle_ends g
        rw [he]
        refine ⟨rfl, Or.inl hnone, ?_⟩
        rw [hs.stepsLeft_eq, stepsLeft, hnone]
        exact Nat.succ_pos _
  obtain ⟨n, hn, t, _, ht⟩ := rests_of_measure hstep (Or.inr ⟨progress, hs⟩)
  rw [ht.loop drainShowdown (fun _ => rfl) drainShowdown_succ (hn.trans (stepsLeft_le_fuel h))]
  exact ⟨n, hn, ht⟩

/-- A showdown takes the deals still missing, the seats in the hand and one step more. -/
theorem Showing.stepsLeft_le {progress : ShowdownProgress} (hs : h.Showing progress) :
    h.stepsLeft ≤ h.boardSteps + h.potEligibleCount + 1 := by
  have horder : progress.order.length = h.potEligibleCount := by
    rw [hs.contest.ordered]; exact h.showOrder_perm.length_eq
  rw [hs.stepsLeft_eq, horder]
  omega

theorem Paces.rests {k : MultiwayHand} (hs : Paces posted h k) :
    ∃ n ≤ k.boardSteps + k.potEligibleCount + 1, Rests advanceShowdown n k h.enablePacedShowdown := by
  cases hs with
  | playing hp _ => exact ⟨0, Nat.zero_le _, .zero (advanceShowdown_none hp.quiet.progress)⟩
  | settled ho => exact ⟨0, Nat.zero_le _, .zero (advanceShowdown_none ho.paced.progress)⟩
  | waits _ hs hdrain =>
    obtain ⟨n, hn, ht⟩ := hs.rests
    rw [hdrain] at ht
    exact ⟨n, hn.trans hs.stepsLeft_le, ht⟩

/-- A hand whose betting is open, played with pacing and then advanced until nothing
    moves, is the hand played without pacing; the advances that move it are at most the
    deals missing, the seats in the hand and one more. -/
theorem run_paced {c : HandConfig} (hdeck : c.deck.Shuffled) (hb : c.build = .ok h) (hopen : h.toAct.isSome = true)
    (ops : List HandOp) (hops : HandOp.advance ∉ ops) :
    ∃ n ≤ (h.enablePacedShowdown.run ops).boardSteps + (h.enablePacedShowdown.run ops).potEligibleCount + 1,
      Rests advanceShowdown n (h.enablePacedShowdown.run ops) (h.run ops).enablePacedShowdown := by
  obtain ⟨_, _, hunpaced, hp | ⟨progress, hs, _⟩⟩ := build_cases hdeck hb
  · exact (Paces.run (.playing hp hunpaced) ops hops).rests
  · rw [hs.contest.waiting] at hopen; cases hopen

theorem run_paced_three : ∃ h n, threeHanded.build = .ok h ∧ (h.run threeHandedToShowdown).phase = .showdown ∧
    Rests advanceShowdown n (h.enablePacedShowdown.run threeHandedToShowdown)
      (h.run threeHandedToShowdown).enablePacedShowdown := by
  have hrun : (threeHanded.build.toOption.map fun h =>
      (h.toAct.isSome, (h.run threeHandedToShowdown).phase)) = some (true, .showdown) := by decide +kernel
  cases hb : threeHanded.build with
  | error e => rw [hb] at hrun; cases hrun
  | ok h =>
    rw [hb] at hrun
    obtain ⟨hopen, hphase⟩ := Prod.mk.inj (Option.some.inj hrun)
    obtain ⟨n, _, hrests⟩ := run_paced ⟨.refl _, rfl⟩ hb hopen threeHandedToShowdown (by decide)
    exact ⟨h, n, rfl, hphase, hrests⟩

end pacing

end MultiwayHand

end OpenFelt
