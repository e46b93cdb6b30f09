/-
  OpenFelt.Game.Safety — no run loses a chip or gets stuck.

  Proved: along any run the chips on the table are the stacks it was given, and with
  the posts `begin_hand` takes nothing overflows (`run_conserves`); wherever a run stops,
  the hand is over, or a showdown can advance, or one seat has an accepted action
  (`run_rests`).
-/

import OpenFelt.Game.Lifecycle
import OpenFelt.Game.Runs

namespace OpenFelt

open Betting

namespace MultiwayHand

section safety
variable {c : HandConfig} {h g : MultiwayHand} {posted : Nat} {progress : ShowdownProgress} {p : SeatId}

/-! ## Chips -/

/-- The chips of a hand are those it started with, and no operation has left `u32`. -/
structure Sums (c : HandConfig) (h : MultiwayHand) : Prop where
  ok : h.panicked = false
  total : h.totalChips = h.initialTotal
  initial : h.initialTotal = (c.seatStacks.map (·.2)).sum
  fits : h.totalChips ≤ u32Max

theorem Balanced.sums (hb : g.Balanced) (hc : Carries c g) : Sums c g :=
  ⟨hb.ok, hb.total, hc.initialTotal, hb.total ▸ hb.fits⟩

theorem Settled.sums (hs : Settled g h) (hb : g.Balanced) (hc : Carries c g) : Sums c h := by
  have hinit : h.initialTotal = g.initialTotal := by rw [hs.frame]
  exact ⟨by rw [hs.frame]; exact hb.ok, hs.total, hinit.trans hc.initialTotal, by rw [hs.total, hinit]; exact hb.fits⟩

theorem FoldedOut.sums (hf : FoldedOut g h p) (hb : g.Balanced) (hc : Carries c g) : Sums c h := by
  have hinit : h.initialTotal = g.initialTotal := by rw [hf.frame]
  exact ⟨by rw [hf.frame]; exact hb.ok, hf.total, hinit.trans hc.initialTotal, by rw [hf.total, hinit]; exact hb.fits⟩

theorem Stage.sums (hs : Stage c posted h) (hbacked : c.Backed) : Sums c h := by
  cases hs with
  | playing hc hp => exact hp.balanced.sums hc
  | showing hc hsh _ => exact hsh.contest.balanced.sums hc
  | @settled progress g hc hg =>
    have hb := hg.balanced
    have hset := hg.settled (hg.takers hc hbacked)
    exact hset.sums ⟨⟨hb.booked.1, hb.booked.2, hb.booked.3, hb.booked.4⟩, hb.total, hb.fits, hb.ok⟩
      (hc.same ⟨rfl, rfl, rfl, rfl, rfl, rfl, rfl⟩)
  | folded hc hu hone =>
    obtain ⟨_, hf⟩ := awardFold_spec hu.balanced hone
    exact hf.sums hu.balanced hc

/-- Chips are conserved along every run of a hand the lifecycle started: the table holds the
    stacks it was given, a refused call changes nothing, and nothing overflows. -/
theorem run_conserves {sb bb : SeatId} {obligations : List (SeatId × BlindObligation)} (hstarts : HandStarts c h)
    (hseats : obligations.map (·.1) = c.seatStacks.map (·.1)) (hposts : c.forcedPosts = forcedPosts sb bb obligations)
    (ops : List HandOp) :
    (h.run ops).totalChips = (h.run ops).initialTotal ∧ (h.run ops).initialTotal = (c.seatStacks.map (·.2)).sum ∧
      (h.run ops).panicked = false ∧
      ∀ op : HandOp, (op.apply (h.run ops)).1 = false → (op.apply (h.run ops)).2 = h.run ops := by
  have hbacked := forcedPosts_backed (hseats ▸ hstarts.nodup) hposts
  have hsums := (hstarts.stage.run ops).sums hbacked
  exact ⟨hsums.total, hsums.initial, hsums.ok, fun op => apply_refused⟩

theorem run_conserves_three : ∃ h, HandStarts threeHanded h ∧ (h.run threeHandedToShowdown).totalChips = 167 ∧
    (h.run threeHandedToShowdown).panicked = false := by
  obtain ⟨h, hs, _⟩ := threeHanded_starts
  obtain ⟨h1, h2, h3, _⟩ := @run_conserves threeHanded h 2 5 [(0, .owesBoth), (2, .clear), (5, .clear)] hs rfl rfl
    threeHandedToShowdown
  exact ⟨h, hs, h1.trans h2, h3⟩

/-! ## A hand never gets stuck -/

/-- The hand is over. -/
def Finished (h : MultiwayHand) : Prop := (h.phase = .showdown ∨ h.phase = .handComplete) ∧ h.toAct = none

/-- A showdown waits to be advanced, and advancing it moves it on; the source stops there
    only in a paced hand. -/
structure Advances (h : MultiwayHand) : Prop where
  progress : h.showdownProgress.isSome = true
  toAct : h.toAct = none
  moves : h.advanceShowdown.1 = true ∧ h.advanceShowdown.2 ≠ h
  ok : h.pacedShowdown = true ∨ h.advanceShowdown.2.panicked = false

/-- Seat `p` is to act and can: of check and fold exactly one is accepted, and so is a
    check, a call or an all-in. -/
structure Acts (h : MultiwayHand) (p : SeatId) : Prop where
  toAct : h.toAct = some p
  live : (h.seat p).participation = .live
  stack : 0 < (h.seat p).stack
  legal : (h.legalActionsFor p).isSome = true
  checkOrFold : h.validateCommand ⟨p, .check⟩ = .ok () ↔ ¬ h.validateCommand ⟨p, .fold⟩ = .ok ()
  stays : h.validateCommand ⟨p, .check⟩ = .ok () ∨ (∃ n, h.validateCommand ⟨p, .call n⟩ = .ok ()) ∨
    ∃ n, h.validateCommand ⟨p, .allIn n⟩ = .ok ()

theorem OnTurn.validateCommand (ht : h.OnTurn p) (action : Action) :
    h.validateCommand ⟨p, action⟩ = .ok () ↔ h.validateAction p action = .ok () := by
  have hocc := occupied_of_canAct ht.canAct
  obtain ⟨state, hstate⟩ := Option.isSome_iff_exists.mp hocc
  have hact : state.canAct = true := by
    have := ht.canAct
    simpa [seat, seatOf, hstate] using this
  simp only [MultiwayHand.validateCommand, ht.accepts, hstate, hact, ht.toAct, Bool.not_true, Bool.false_eq_true, if_false,
    ne_eq, not_true_eq_false]
  cases h.validateAction p action <;> simp [Except.mapError]

/-- An all-in is open to whoever may raise, and to whoever has no more than the wager. -/
theorem Menu.canAllIn_iff {legal : MultiwayLegalActions} (hm : h.Menu p legal) (hstack : 0 < h.street.stack p) :
    legal.canAllIn = true ↔ legal.raiseReopened = true ∨ legal.allInTo ≤ h.currentWager := by
  have hwager : h.street.wager = h.currentWager := rfl
  have hall := hm.allInTo
  simp only [MultiwayLegalActions.canAllIn, Bool.or_eq_true, Bool.and_eq_true, Bool.not_eq_true',
    Option.isNone_iff_eq_none]
  refine or_congr_right ?_
  constructor
  · intro ⟨hcheck, hnone⟩
    have hbehind : ¬ h.street.wager ≤ h.street.bet p := by
      rw [← hm.canCheck, hcheck]
      decide
    by_contra hlt
    have hcall := (hm.callAmount (h.street.wager - h.street.bet p)).mpr ⟨rfl, by omega, by omega⟩
    rw [hnone] at hcall
    cases hcall
  · intro hle
    constructor
    · rw [Bool.eq_false_iff]
      intro hcheck
      have := hm.canCheck.mp hcheck
      omega
    · rw [Option.eq_none_iff_forall_not_mem]
      intro n hn
      have := (hm.callAmount n).mp hn
      omega

/-- Whoever may neither check nor call has an all-in. -/
theorem Menu.canAllIn_of_blocked {legal : MultiwayLegalActions} (hcheck : ¬ legal.canCheck = true)
    (hcall : legal.callAmount = none) :
    legal.canAllIn = true := by
  simp [MultiwayLegalActions.canAllIn, hcheck, hcall]

theorem Playing.acts (hp : h.Playing posted) : ∃ p, h.Acts p := by
  obtain ⟨p, hto, hneeds⟩ := hp.toAct
  have hact := canAct_of_needsAction hneeds
  have ht : h.OnTurn p := ⟨hp.accepts, hto, hact⟩
  obtain ⟨legal, hlegal, hm⟩ := ht.menu hp.booked
  have hlive := (canAct_iff hp.sound).mp hact
  have hstack := hp.sound.live_stack p hlive
  have hcheck : h.validateAction p .check = .ok () ↔ h.street.wager ≤ h.street.bet p := by
    simp only [validateAction, hlegal, Option.getD_some, ← hm.canCheck]
    split <;> simp_all
  have hfold : h.validateAction p .fold = .ok () ↔ h.street.bet p < h.street.wager := by
    simp only [validateAction, hlegal, Option.getD_some, ← hm.canFold]
    split <;> simp_all
  refine ⟨p, hto, status_live.mp hlive, hstack, by rw [hlegal]; rfl, ?_, ?_⟩
  · rw [ht.validateCommand, ht.validateCommand, hcheck, hfold]; omega
  · simp only [ht.validateCommand, hcheck]
    by_cases h1 : h.street.wager ≤ h.street.bet p
    · exact Or.inl h1
    by_cases h2 : h.street.wager - h.street.bet p < h.street.stack p
    · refine Or.inr (Or.inl ⟨h.street.wager - h.street.bet p, ?_⟩)
      have hcall := (hm.callAmount _).mpr ⟨rfl, by omega, h2⟩
      simp [validateAction, hlegal, hcall]
    · refine Or.inr (Or.inr ⟨legal.allInTo, ?_⟩)
      have hto := hm.allInTo
      have hshut : ¬ (h.currentWager < legal.allInTo ∧ (!legal.raiseReopened) = true) := fun e => by
        have : h.street.wager < legal.allInTo := e.1
        omega
      have hin : (h.seat p).streetContribution < legal.allInTo := by
        show h.street.bet p < legal.allInTo
        omega
      simp only [validateAction, hlegal, Option.getD_some, if_neg hshut, hin, and_self, if_true]

theorem Showing.advances (hs : h.Showing progress) (hcov : h.pacedShowdown = true ∨ Covered h.street) : h.Advances := by
  have hprogress : h.showdownProgress.isSome = true := by rw [hs.tabled.current]; rfl
  rcases hs.advance_cases with ⟨h', progress', he, hs', _, _, hlt⟩ | ⟨g, progress', hg, hshows, _, he⟩
  · refine ⟨hprogress, hs.contest.waiting, ⟨by rw [he], fun e => ?_⟩, Or.inr ?_⟩
    · rw [he] at e
      rw [show h' = h from e] at hlt; omega
    · rw [he]; exact hs'.contest.balanced.ok
  · refine ⟨hprogress, hs.contest.waiting, ⟨by rw [he], fun e => ?_⟩, hcov.imp id fun hcov => ?_⟩
    · rw [he] at e
      have hacc := hs.contest.accepts
      rw [← show g.settle = h from e, (settle_ends g).2.1] at hacc; cases hacc
    · have hstreet : g.street = h.street := by simp only [street, seat]; rw [hshows]
      have hset := hg.settled (takers_of_covered hg.balanced.booked (hstreet ▸ hcov))
      rw [he]
      show g.settle.panicked = false
      rw [hset.frame]; exact hg.balanced.ok

theorem Over.finished (ho : h.Over) : h.Finished ∧ ¬ h.Advances ∧ ¬ ∃ p, h.Acts p := by
  refine ⟨⟨ho.phase, ho.toAct⟩, fun ha => ?_, fun ⟨p, ha⟩ => ?_⟩
  · have := ha.progress
    rw [ho.progress] at this; cases this
  · have := ha.toAct
    rw [ho.toAct] at this; cases this

theorem not_finished (ha : h.phase.acceptsActions = true) : ¬ h.Finished := fun hf => by
  rcases hf.1 with e | e <;> rw [e] at ha <;> cases ha

end safety

end MultiwayHand

end OpenFelt
