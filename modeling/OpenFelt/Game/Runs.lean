/-
  OpenFelt.Game.Runs — a hand from its configuration to its end.

  `Stage` says what any run leaves: a hand in play, a showdown under way, a showdown
  settled or a hand won by folds, each with the books its configuration set up
  (`Carries`). One call keeps it (`Stage.step`), so a run does (`Stage.run`).
-/

import OpenFelt.Game.Opening

namespace OpenFelt

open Betting

/-- A call on the hand. -/
inductive HandOp where
  | command (command : SeatCommand)
  | advance
  | alwaysShow (seat : SeatId) (value : Bool)
  deriving DecidableEq, Repr

/-- Whether the call took effect, and the hand it leaves. -/
def HandOp.apply : HandOp → MultiwayHand → Bool × MultiwayHand
  | command c, h => ((h.applyCommand c).1.isOk, (h.applyCommand c).2)
  | advance, h => h.advanceShowdown
  | alwaysShow seat value, h => ((h.setAlwaysShow seat value).1.isOk, (h.setAlwaysShow seat value).2)

namespace MultiwayHand

/-- The hand a sequence of calls leaves. -/
def run (h : MultiwayHand) (ops : List HandOp) : MultiwayHand := ops.foldl (fun h op => (op.apply h).2) h

/-- A hand as it is put into play: paced by an authority, or run to its end at once. -/
def HandStarts (c : HandConfig) (h : MultiwayHand) : Prop :=
  c.deck.Shuffled ∧ ∃ start paced, c.build = .ok start ∧ h = { start with pacedShowdown := paced }

section ops
variable {h : MultiwayHand} {op : HandOp}

/-- A refused call changes nothing. -/
theorem apply_refused (hr : (op.apply h).1 = false) : (op.apply h).2 = h := by
  cases op with
  | command c =>
    simp only [HandOp.apply, applyCommand] at hr ⊢
    cases hv : h.validateCommand c with
    | error e => rfl
    | ok u => rw [hv] at hr; cases hr
  | advance =>
    simp only [HandOp.apply, advanceShowdown] at hr ⊢
    split
    · rfl
    · rename_i progress hp
      rw [hp] at hr
      dsimp only at hr
      split at hr
      · cases hr
      split at hr
      · cases hr
      split at hr <;> cases hr
  | alwaysShow p v =>
    simp only [HandOp.apply, setAlwaysShow] at hr ⊢
    split
    · rfl
    split
    · rfl
    · rename_i h1 h2
      rw [if_neg h1, if_neg h2] at hr; cases hr

end ops

/-! ## The books along a run -/

section carries
variable {c : HandConfig} {h g : MultiwayHand} {posted : Nat} {p : SeatId} {action : Action} {o : Outcome}

theorem Carries.acted (hc : Carries c h) (hu : h.UnderWay posted) (hlive : h.street.status p = .live)
    (ha : Allowed h.street p o) (hacted : Acted h p action o g) : Carries c g := by
  have hf := hacted.frame
  refine ⟨by rw [hf]; exact hc.tableSize, by rw [hf]; exact hc.button, by rw [hf]; exact hc.blindValues,
    by rw [hf]; exact hc.initialTotal, fun q => (hacted.occupied q).trans (hc.occupied q),
    fun q => (hacted.held hu.booked hu.sound ha q).trans (hc.held q), fun hb => ?_⟩
  obtain ⟨base, hl, hcov⟩ := hc.covered hb
  rw [hacted.street]
  exact ⟨base, hl.act hlive ha, hcov.act hl hu.sound hlive ha⟩

/-- The next street is level once everybody left has matched the last one. -/
theorem Carries.dealt (hc : Carries c h) (hu : h.UnderWay posted) (hriver : h.phase ≠ .river)
    (hdone : h.bettingRoundComplete = true) : Carries c h.dealStreet := by
  have hlen := hu.booked.length
  have hf := (dealStreet_frame hu hriver).1
  have ht := updateOccupied_table h fun state => { state with streetContribution := 0, lastActionWager := none }
  have hclear : h.clearStreet.tableSize = h.tableSize ∧ h.clearStreet.button = h.button ∧
      h.clearStreet.blindValues = h.blindValues ∧ h.clearStreet.initialTotal = h.initialTotal := by
    refine ⟨?_, ?_, ?_, ?_⟩ <;> rw [clearStreet, ht.frame]
  obtain ⟨h1, h2, h3, h4⟩ := hclear
  obtain ⟨_, hocc, _⟩ := dealStreet_table hu hriver
  refine ⟨by rw [hf]; exact h1.trans hc.tableSize, by rw [hf]; exact h2.trans hc.button,
    by rw [hf]; exact h3.trans hc.blindValues, by rw [hf]; exact h4.trans hc.initialTotal,
    fun q => (hocc q).trans (hc.occupied q), fun q => ?_, fun hb => ?_⟩
  · rw [seat_dealStreet hu hriver]; exact hc.held q
  · obtain ⟨base, hl, hcov⟩ := hc.covered hb
    rw [dealStreet_street hu hriver]
    refine ⟨_, next_level hl hu.sound fun q hq => ?_, next_covered hcov _⟩
    have hact : q ∈ h.actors := (mem_actors hlen).mpr ((canAct_iff hu.sound).mpr hq)
    rcases (bettingRoundComplete_iff hlen).mp hdone with hnil | ⟨r, hr, hw⟩ | hall
    · rw [hnil] at hact; cases hact
    · rw [hr] at hact
      rw [List.mem_singleton.mp hact]; exact hw
    · exact (hall q hact).2

theorem Carries.shows {g' : MultiwayHand} (hc : Carries c g) (hs : Shows g g') : Carries c g' := by
  refine hc.same ⟨?_, ?_, ?_, ?_, ?_, ?_, ?_⟩ <;> rw [hs]

theorem Carries.opens (hc : Carries c h) (hu : h.UnderWay posted) (hcount : 2 ≤ h.potEligibleCount)
    (hend : h.phase = .river ∨ (h.bettingLocked = true ∧ h.anyAllIn = true)) : Carries c (h.openShowdown h.anyAllIn) := by
  obtain ⟨_, _, _, hf⟩ := hu.opens hcount hend
  refine hc.same ⟨?_, ?_, ?_, ?_, ?_, ?_, ?_⟩ <;> rw [hf]

end carries

/-! ## Where a run can be -/

/-- `posted` is the wager the blinds and posts left. -/
inductive Stage (c : HandConfig) (posted : Nat) : MultiwayHand → Prop
  | playing {h : MultiwayHand} : Carries c h → h.Playing posted → Stage c posted h
  | showing {progress : ShowdownProgress} {h : MultiwayHand} : Carries c h → h.Showing progress →
      (h.pacedShowdown = true ∨ Covered h.street) → Stage c posted h
  | settled {progress : ShowdownProgress} {g : MultiwayHand} : Carries c g → g.Shown progress → Stage c posted g.settle
  | folded {g : MultiwayHand} : Carries c g → g.UnderWay posted → g.potEligibleCount = 1 → Stage c posted g.awardFold

/-- Nothing is left to do. -/
structure Over (h : MultiwayHand) : Prop where
  phase : h.phase = .showdown ∨ h.phase = .handComplete
  toAct : h.toAct = none
  progress : h.showdownProgress = none

section stages
variable {c : HandConfig} {h g : MultiwayHand} {posted : Nat} {progress : ShowdownProgress} {op : HandOp}

theorem settle_over (g : MultiwayHand) : g.settle.Over := by
  obtain ⟨h1, h2, h3⟩ := settle_ends g
  exact ⟨Or.inl h2, h3, h1⟩

theorem Shown.balanced (hs : g.Shown progress) : g.Balanced := hs.contest.balanced

theorem UnderWay.balanced (hu : g.UnderWay posted) : g.Balanced := ⟨hu.booked, hu.total, hu.fits, hu.ok⟩

theorem awardFold_over (hu : g.UnderWay posted) (hone : g.potEligibleCount = 1) : g.awardFold.Over := by
  obtain ⟨_, hf⟩ := awardFold_spec hu.balanced hone
  refine ⟨Or.inr ?_, ?_, ?_⟩ <;> rw [hf.frame]

/-- Calls on a hand that is over are refused. -/
theorem Over.refuses (ho : h.Over) : (op.apply h).1 = false := by
  have hphase : h.phase.acceptsActions = false := by rcases ho.phase with e | e <;> rw [e] <;> rfl
  cases op with
  | command c => simp [HandOp.apply, applyCommand, validateCommand, hphase, Except.isOk, Except.toBool]
  | advance => simp [HandOp.apply, advanceShowdown, ho.progress]
  | alwaysShow p v =>
    simp only [HandOp.apply, setAlwaysShow, hphase]
    split <;> rfl

/-- So are commands and preferences once the showdown has begun. -/
theorem Showing.refuses (hs : h.Showing progress) (hop : op ≠ .advance) : (op.apply h).1 = false := by
  cases op with
  | advance => exact absurd rfl hop
  | command c =>
    have hnone : ∃ e, h.validateCommand c = .error e := by
      simp only [validateCommand, hs.contest.waiting]
      split
      · exact ⟨_, rfl⟩
      split
      · exact ⟨_, rfl⟩
      split
      · exact ⟨_, rfl⟩
      · exact ⟨_, rfl⟩
    obtain ⟨e, he⟩ := hnone
    simp only [HandOp.apply, applyCommand, he]; rfl
  | alwaysShow p v =>
    simp only [HandOp.apply, setAlwaysShow, hs.tabled.current, Option.isSome_some, Bool.or_true, if_true]
    split <;> rfl

/-- Only a hand in play accepts commands. -/
theorem Stage.playing_of_accepted {command : SeatCommand} (hs : Stage c posted h) (hv : h.validateCommand command = .ok ()) :
    Carries c h ∧ h.Playing posted := by
  have haccepted : (HandOp.apply (.command command) h).1 = true := by
    simp [HandOp.apply, applyCommand, hv, Except.isOk, Except.toBool]
  cases hs with
  | playing hc hp => exact ⟨hc, hp⟩
  | showing _ hsh _ => rw [hsh.refuses (by simp)] at haccepted; cases haccepted
  | settled _ _ => rw [(settle_over _).refuses] at haccepted; cases haccepted
  | folded _ hu hone => rw [(awardFold_over hu hone).refuses] at haccepted; cases haccepted

/-- Only a hand in play waits for a seat. -/
theorem Stage.playing_of_toAct {p : SeatId} (hs : Stage c posted h) (hto : h.toAct = some p) :
    Carries c h ∧ h.Playing posted := by
  cases hs with
  | playing hc hp => exact ⟨hc, hp⟩
  | showing _ hsh _ => rw [hsh.contest.waiting] at hto; cases hto
  | settled _ _ => rw [(settle_over _).toAct] at hto; cases hto
  | folded _ hu hone => rw [(awardFold_over hu hone).toAct] at hto; cases hto

theorem Playing.always (hp : h.Playing posted) (always : List SeatId) : Playing posted { h with alwaysShow := always } :=
  ⟨⟨⟨hp.booked.1, hp.booked.2, hp.booked.3, hp.booked.4⟩, hp.total, hp.fits, hp.blind, hp.accepts, hp.board, hp.deck,
    ⟨hp.quiet.1, hp.quiet.2, hp.quiet.3, hp.quiet.4, hp.quiet.5⟩, hp.ok, hp.past, hp.play⟩, hp.contested, hp.isOpen, hp.toAct⟩

theorem Stage.shows (hc : Carries c h) (hu : h.UnderWay posted) (hcount : 2 ≤ h.potEligibleCount)
    (hend : h.phase = .river ∨ (h.bettingLocked = true ∧ h.anyAllIn = true)) : Stage c posted (h.beginShowdown h.anyAllIn) := by
  have hopens := hc.opens hu hcount hend
  rcases hu.begins hcount hend with ⟨hpaced, progress, hs, he⟩ | ⟨_, g, progress, hg, hshows, he⟩
  · obtain ⟨_, _, _, hf⟩ := hu.opens hcount hend
    rw [he]; exact .showing hopens hs (Or.inl (by rw [hf]; exact hpaced))
  · rw [he]; exact .settled (hopens.shows hshows) hg

/-- One call on a hand in play. -/
theorem Playing.step (hp : h.Playing posted) (hc : Carries c h) : Stage c posted (op.apply h).2 := by
  cases op with
  | advance =>
    rw [show HandOp.advance.apply h = (false, h) from advanceShowdown_none hp.quiet.progress]
    exact .playing hc hp
  | alwaysShow p v =>
    simp only [HandOp.apply, setAlwaysShow]
    split
    · exact .playing hc hp
    split
    · exact .playing hc hp
    · exact .playing (hc.same ⟨rfl, rfl, rfl, rfl, rfl, rfl, rfl⟩) (hp.always _)
  | command command =>
    simp only [HandOp.apply, applyCommand]
    cases hv : h.validateCommand command with
    | error e => exact .playing hc hp
    | ok u =>
      obtain ⟨o, g, ha, hacted, hu, _, hasked, hproceeds⟩ := hp.command_cases hv
      have hcg := hc.acted hp.toUnderWay hasked.1 ha hacted
      show Stage c posted (h.applyValidatedAction command.seat command.action)
      generalize h.applyValidatedAction command.seat command.action = k at hproceeds
      cases hproceeds with
      | foldedOut hone => exact .folded hcg hu hone
      | asks q hcount hopen hq =>
        have hocc : occupiedIn g.seats command.seat = true := by
          rw [hacted.occupied]; exact occupied_of_status (by rw [hasked.1]; simp)
        have hneeds := (nextNeedingAfter_spec hu.booked.length (lt_of_occupied hu.booked.length hocc) hq).1
        exact .playing (hcg.same ⟨rfl, rfl, rfl, rfl, rfl, rfl, rfl⟩) (hu.asked hcount hopen hneeds)
      | deals hcount hdone hriver hact => exact .playing (hcg.dealt hu hriver hdone) (hu.dealt hriver hcount hact)
      | shows hcount _ hend => exact .shows hcg hu hcount hend

theorem Stage.step (hs : Stage c posted h) (op : HandOp) : Stage c posted (op.apply h).2 := by
  cases hs with
  | playing hc hp => exact hp.step hc
  | showing hc hsh hcov =>
    by_cases hop : op = .advance
    · subst hop
      rcases hsh.advance_cases with ⟨h', progress', he, hs', hshows, _, _⟩ | ⟨g, progress', hg, hshows, _, he⟩
      · have hstreet : h'.street = h.street := by simp only [street, seat]; rw [hshows]
        have hpaced : h'.pacedShowdown = h.pacedShowdown := by rw [hshows]
        rw [show HandOp.advance.apply h = _ from he]
        exact .showing (hc.shows hshows) hs' (by rw [hstreet, hpaced]; exact hcov)
      · rw [show HandOp.advance.apply h = _ from he]; exact .settled (hc.shows hshows) hg
    · rw [apply_refused (hsh.refuses hop)]; exact .showing hc hsh hcov
  | settled hc hg => rw [apply_refused (settle_over _).refuses]; exact .settled hc hg
  | folded hc hu hone => rw [apply_refused (awardFold_over hu hone).refuses]; exact .folded hc hu hone

theorem Stage.run (hs : Stage c posted h) (ops : List HandOp) : Stage c posted (h.run ops) := by
  induction ops generalizing h with
  | nil => exact hs
  | cons op ops ih => exact ih (hs.step op)

theorem HandStarts.stage (hs : HandStarts c h) : Stage c h.currentWager h := by
  obtain ⟨hdeck, start, paced, hb, rfl⟩ := hs
  obtain ⟨hc, _, _, hp | ⟨progress, hsh, hcov⟩⟩ := build_cases hdeck hb
  · exact .playing (hc.same ⟨rfl, rfl, rfl, rfl, rfl, rfl, rfl⟩) (hp.paced paced)
  · exact .showing (hc.same ⟨rfl, rfl, rfl, rfl, rfl, rfl, rfl⟩) (hsh.paced paced) (Or.inr hcov)

theorem HandStarts.nodup (hs : HandStarts c h) : (c.seatStacks.map (·.1)).Nodup := by
  obtain ⟨hdeck, start, _, hb, _⟩ := hs
  obtain ⟨_, _, _, _, _, _, hbuilt⟩ := build_built hb
  exact (hbuilt.dealtIn hdeck).1.nodup

theorem HandStarts.history (hs : HandStarts c h) : h.actionHistory = [] := by
  obtain ⟨hdeck, start, _, hb, rfl⟩ := hs
  exact (build_cases hdeck hb).2.1

theorem HandStarts.button (hs : HandStarts c h) : (c.seatStacks.lookup c.button).isSome = true := by
  obtain ⟨hdeck, start, _, hb, _⟩ := hs
  obtain ⟨_, _, _, _, _, _, hbuilt⟩ := build_built hb
  have hd := (hbuilt.dealtIn hdeck).1
  rw [← hd.occupied]; exact hd.button

/-- The settlement of a showdown whose pots all have takers. -/
theorem Shown.settled (hs : g.Shown progress) (ht : g.Takers) : Settled { g with showdownProgress := none } g.settle := by
  have hb := hs.balanced
  have he : g.showdownEvaluations = [] ∨ g.showdownEvaluations = g.evaluated := by
    rw [hs.contest.evaluations]
    split
    · exact Or.inl rfl
    · exact Or.inr rfl
  exact resolveShowdown_settled (g := { g with showdownProgress := none })
    ⟨⟨hb.booked.1, hb.booked.2, hb.booked.3, hb.booked.4⟩, hb.total, hb.fits, hb.ok⟩ ht he hs.tabled.shown hs.contest.awards

/-- Nobody's chips go unmatched when the dead posts are small. -/
theorem Shown.takers (hs : g.Shown progress) (hc : Carries c g) (hbacked : c.Backed) : g.Takers := by
  obtain ⟨_, _, hcov⟩ := hc.covered hbacked
  exact takers_of_covered hs.balanced.booked hcov

/-- A settled hand that the source reached had a taker for every pot. -/
theorem Shown.takers_of_ok (hs : g.Shown progress) (hok : g.settle.panicked = false) : g.Takers := by
  have hb := hs.balanced
  have he : g.showdownEvaluations = [] ∨ g.showdownEvaluations = g.evaluated := by
    rw [hs.contest.evaluations]
    split
    · exact Or.inl rfl
    · exact Or.inr rfl
  exact MultiwayHand.takers_of_ok (g := { g with showdownProgress := none })
    ⟨⟨hb.booked.1, hb.booked.2, hb.booked.3, hb.booked.4⟩, hb.total, hb.fits, hb.ok⟩ he hs.tabled.shown hok

end stages

end MultiwayHand

/-! ## A hand to run -/

/-- Three seats, one of them posting both missed blinds. -/
def threeHanded : HandConfig where
  tableSize := ⟨6, by decide, by decide⟩
  button := 0
  seatStacks := [(0, 100), (2, 60), (5, 7)]
  forcedPosts := [⟨0, 1, false⟩, ⟨0, 2, true⟩]
  blindValues := ⟨1, 2, 1⟩
  deck := .new

/-- The last seat's short all-in, a side pot, and checks to the end. -/
def threeHandedToShowdown : List HandOp :=
  [.command ⟨0, .raise 10⟩, .command ⟨2, .call 9⟩, .command ⟨5, .allIn 6⟩, .command ⟨2, .check⟩, .command ⟨0, .bet 20⟩,
    .command ⟨2, .call 20⟩, .command ⟨2, .check⟩, .command ⟨0, .check⟩, .command ⟨2, .check⟩, .command ⟨0, .check⟩]

theorem threeHanded_starts :
    ∃ h, MultiwayHand.HandStarts threeHanded h ∧ (h.run threeHandedToShowdown).phase = .showdown := by
  have hrun : (threeHanded.build.toOption.map fun h =>
      (MultiwayHand.run { h with pacedShowdown := false } threeHandedToShowdown).phase) = some .showdown := by decide +kernel
  cases h : threeHanded.build with
  | error e => rw [h] at hrun; cases hrun
  | ok start =>
    rw [h] at hrun
    exact ⟨_, ⟨⟨.refl _, rfl⟩, start, false, h, rfl⟩, Option.some.inj hrun⟩

end OpenFelt
