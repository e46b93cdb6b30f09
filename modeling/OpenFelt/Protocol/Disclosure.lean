/-
  OpenFelt.Protocol.Disclosure — which cards a showdown makes public (policy P-006).

  Proved (`run_discloses`): wherever a run settles a showdown, the paid seats have tabled
  their cards, every unfolded seat has tabled or mucked, each muck is justified by hands
  tabled before it, and an all-in opens every hand; a hand won by folds opens none; and
  along the way no audience sees cards that are not its own and not tabled.
-/

import OpenFelt.Game.Payouts
import OpenFelt.Game.Safety
import OpenFelt.Protocol.Projection

namespace OpenFelt

open Betting

namespace MultiwayHand

/-- The seats whose cards are public. -/
def revealed (h : MultiwayHand) : List SeatId := h.revealedHands.map (·.seat)

/-- Dealt in and not folded. -/
def Unfolded (h : MultiwayHand) (p : SeatId) : Prop :=
  occupiedIn h.seats p = true ∧ (h.seat p).participation ≠ .folded

/-- In each pot `m` plays for, a hand tabled before its turn is strictly better. -/
def BeatenBefore (h : MultiwayHand) (m : SeatId) : Prop :=
  (∃ pot ∈ h.pots, m ∈ pot.eligible) ∧ ∀ pot ∈ h.pots, m ∈ pot.eligible →
    ∃ shown ∈ h.showOrder.takeWhile (· ≠ m), shown ∈ h.revealed ∧ shown ∈ pot.eligible ∧
      compareHands (h.shownHand shown) (h.shownHand m) = .gt

structure Disclosed (h : MultiwayHand) : Prop where
  paid : ∀ award ∈ h.awards, ∀ payout ∈ award.payouts, payout.seat ∈ h.revealed
  disjoint : ∀ p ∈ h.revealed, p ∉ h.muckedHands
  unfolded : ∀ p, (p ∈ h.revealed ∨ p ∈ h.muckedHands) ↔ h.Unfolded p
  mucked : ∀ m ∈ h.muckedHands, h.alwaysShow.contains m = false ∧ (∀ p, (h.seat p).participation ≠ .allIn) ∧ h.BeatenBefore m
  allIn : (∃ p, (h.seat p).participation = .allIn) → ∀ p, h.Unfolded p → p ∈ h.revealed

section disclosure
variable {c : HandConfig} {h g : MultiwayHand} {posted : Nat} {progress : ShowdownProgress} {p : SeatId}

theorem unfolded_iff (hb : h.Booked) : h.Unfolded p ↔ h.street.InHand p := by
  constructor
  · rintro ⟨hocc, hne⟩
    have hdealt := hb.dealt p hocc
    cases hs : h.street.status p with
    | live => exact Or.inl hs
    | allIn => exact Or.inr hs
    | folded => exact absurd (status_folded.mp hs) hne
    | absent => exact absurd hs hdealt
  · intro hin
    refine ⟨occupied_of_status fun e => ?_, fun e => ?_⟩
    · rcases hin with h' | h' <;> rw [e] at h' <;> cases h'
    · rcases hin with h' | h' <;> rw [status_folded.mpr e] at h' <;> cases h'

theorem anyAllIn_iff : h.anyAllIn = true ↔ ∃ p ∈ h.occupiedSeats, (h.seat p).participation = .allIn := by
  simp only [anyAllIn, List.any_eq_true, beq_iff_eq]

/-! ## While hands are tabled -/

/-- What has been tabled or mucked is in the hand, and not both. -/
theorem Showing.public (hs : h.Showing progress) : (h.revealed ++ h.muckedHands).Nodup ∧
    ∀ q, q ∈ h.revealed ∨ q ∈ h.muckedHands → h.Unfolded q := by
  refine ⟨hs.tabled.split.nodup_iff.mpr (hs.contest.nodup.sublist (List.take_sublist _ _)), fun q hq => ?_⟩
  refine (unfolded_iff hs.contest.balanced.booked).mpr ((hs.contest.mem q).mp ?_)
  exact List.mem_of_mem_take (hs.tabled.mem_split hq)

theorem Shown.public (hs : g.Shown progress) : g.Unfolded p ↔ p ∈ g.revealed ∨ p ∈ g.muckedHands := by
  refine ⟨fun hu => ?_, hs.toShowing.public.2 p⟩
  have hm := (hs.contest.mem p).mpr ((unfolded_iff hs.contest.balanced.booked).mp hu)
  have := hs.tabled.split.mem_iff (a := p)
  rw [hs.done, List.take_length, List.mem_append] at this
  exact this.mpr hm

/-! ## The settlement keeps the record -/

theorem Settled.participation (hs : Settled g h) (p : SeatId) : (h.seat p).participation = (g.seat p).participation := by
  by_cases hocc : occupiedIn g.seats p = true
  · rw [hs.seat p hocc]
  · have hg : occupiedIn g.seats p = false := by simpa using hocc
    have hh : occupiedIn h.seats p = false := (hs.occupied p).trans hg
    simp only [seatOf_vacant hg, seatOf_vacant hh]

theorem Settled.unfolded (hs : Settled g h) : h.Unfolded p ↔ g.Unfolded p := by
  unfold Unfolded
  rw [hs.occupied, hs.participation]

theorem Settled.showOrder (hs : Settled g h) : h.showOrder = g.showOrder := by
  have hsize : h.tableSize = g.tableSize := by rw [hs.frame]
  have hbutton : h.button = g.button := by rw [hs.frame]
  have hhistory : h.actionHistory = g.actionHistory := by rw [hs.frame]
  have hseats : (h.occupiedSeats.filter fun p => (h.seat p).eligibleForPot) =
      g.occupiedSeats.filter fun p => (g.seat p).eligibleForPot := by
    simp only [occupiedSeats, hsize, List.filter_filter]
    refine List.filter_congr fun q _ => ?_
    rw [hs.occupied, MultiwaySeatState.eligibleForPot, MultiwaySeatState.eligibleForPot, hs.participation]
  simp only [MultiwayHand.showOrder, awardOrder, hsize, hbutton, hhistory, hseats]

/-- A seat in the hand is valued at the cards it holds. -/
theorem strictlyBetter_iff (hlen : g.seats.length = g.tableSize.get) (he : g.showdownEvaluations = g.evaluated) {p q : SeatId}
    (hp : (g.seat p).eligibleForPot = true) (hq : (g.seat q).eligibleForPot = true) :
    g.strictlyBetter p q = true ↔ compareHands (g.shownHand p) (g.shownHand q) = .gt := by
  simp only [strictlyBetter, evaluationOf, he, evaluated_lookup g hlen, hp, hq, if_true, Option.getD_some, shownHand,
    beq_iff_eq]

theorem Settled.shownHand (hs : Settled g h) (hocc : occupiedIn g.seats p = true) : h.shownHand p = g.shownHand p := by
  have hboard : h.board = g.board := by rw [hs.frame]
  simp only [MultiwayHand.shownHand, hboard]
  rw [hs.seat p hocc]

/-- A seat is mucked for hands tabled before its turn. -/
theorem Shown.mucked (hs : g.Shown progress) (hset : Settled { g with showdownProgress := none } h) {m : SeatId}
    (hm : m ∈ h.muckedHands) :
    h.alwaysShow.contains m = false ∧ (∀ p, (h.seat p).participation ≠ .allIn) ∧ h.BeatenBefore m := by
  have hb := hs.contest.balanced.booked
  have hmg : m ∈ g.muckedHands := by
    have hf : h.muckedHands = g.muckedHands := by rw [hset.frame]
    rw [← hf]; exact hm
  have hpots : h.pots = (buildPots g.contributionSnapshot).pots := congrArg (·.pots) hset.frame
  have hshow : h.alwaysShow = g.alwaysShow := by rw [hset.frame]
  have hrev : h.revealed = g.revealed := hset.revealed
  obtain ⟨hoff, hcontends, hbeaten⟩ := hs.tabled.justified m hmg
  -- a muck means nobody was all-in, so the evaluations were made at the start
  have hnone : progress.allIn = false := by
    cases ha : progress.allIn with
    | false => rfl
    | true => rw [(hs.tabled.allIn ha).2] at hmg; cases hmg
  have hno : ¬ ∃ p ∈ g.occupiedSeats, (g.seat p).participation = .allIn := by
    rw [← anyAllIn_iff, ← hs.contest.flag, hnone]; simp
  have he : g.showdownEvaluations = g.evaluated := by rw [hs.contest.evaluations, hnone]; rfl
  refine ⟨by rw [hshow]; exact hoff, fun p hp => ?_, ?_, fun pot hpot hmp => ?_⟩
  · rw [hset.participation] at hp
    have hocc : occupiedIn g.seats p = true := occupied_of_eligible (by
      rw [MultiwaySeatState.eligibleForPot, show (g.seat p).participation = .allIn from hp]; rfl)
    exact hno ⟨p, (mem_occupiedSeats hb.length).mpr hocc, hp⟩
  · obtain ⟨pot, hpot, hmp⟩ := hcontends
    exact ⟨pot, hpots ▸ hpot, hmp⟩
  · rw [hpots] at hpot
    obtain ⟨shown, horder, hshown, hel, hbetter⟩ := hbeaten pot hpot hmp
    obtain ⟨_, _, _, hiff⟩ := mem_pot_eligible hb hpot
    have hin : ∀ {q}, q ∈ pot.eligible → (g.seat q).eligibleForPot = true := fun hq => ((hiff _).mp hq).1
    have hgt := (strictlyBetter_iff hb.length he (hin hel) (hin hmp)).mp hbetter
    refine ⟨shown, ?_, by rw [hrev]; exact hshown, hel, ?_⟩
    · rw [hset.showOrder, show MultiwayHand.showOrder { g with showdownProgress := none } = g.showOrder from rfl,
        ← hs.contest.ordered]
      exact horder
    · rw [hset.shownHand (occupied_of_eligible (hin hel)), hset.shownHand (occupied_of_eligible (hin hmp))]
      exact hgt

theorem Shown.disclosed (hs : g.Shown progress) (hset : Settled { g with showdownProgress := none } h)
    (hexact : SettledExactly { g with showdownProgress := none } h) : Disclosed h := by
  have hb := hs.contest.balanced.booked
  have hrev : h.revealed = g.revealed := hset.revealed
  have hmuck : h.muckedHands = g.muckedHands := by rw [hset.frame]
  have hpots : h.pots = (buildPots g.contributionSnapshot).pots := congrArg (·.pots) hset.frame
  have hunfolded : ∀ p, (p ∈ h.revealed ∨ p ∈ h.muckedHands) ↔ h.Unfolded p := fun p => by
    rw [hrev, hmuck, hset.unfolded]; exact hs.public.symm
  have hnodup := hs.toShowing.public.1
  have hmucked := fun m (hm : m ∈ h.muckedHands) => hs.mucked hset hm
  have hdisjoint : ∀ p ∈ h.revealed, p ∉ h.muckedHands := fun p hp hm => by
    rw [hrev] at hp; rw [hmuck] at hm
    exact (List.nodup_append.mp hnodup).2.2 p hp p hm rfl
  refine ⟨fun award ha payout hpay => ?_, hdisjoint, hunfolded, hmucked, fun ⟨q, hq⟩ p hp => ?_⟩
  · -- no hand of the pot beats a paid one, so a paid seat was not mucked
    obtain ⟨hel, hmax⟩ := ((hexact.awards award ha).paid payout.seat).mp (List.mem_map_of_mem hpay)
    have hpot : (⟨award.amount, award.eligible⟩ : Pot) ∈ h.pots := by
      rw [hpots]
      have := List.mem_map_of_mem (f := fun award : PotAward => (⟨award.amount, award.eligible⟩ : Pot)) ha
      rw [hexact.pots] at this; exact this
    obtain ⟨_, _, _, hiff⟩ := mem_pot_eligible hb (hpots ▸ hpot)
    have hin : g.street.InHand payout.seat := inHand_iff.mpr ((hiff _).mp hel).1
    have hu : h.Unfolded payout.seat := hset.unfolded.mpr ((unfolded_iff hb).mpr hin)
    rcases (hunfolded payout.seat).mpr hu with hr | hm
    · exact hr
    · obtain ⟨shown, _, _, hel', hgt⟩ := (hmucked payout.seat hm).2.2.2 _ hpot hel
      have := hmax shown hel'
      rw [hgt] at this; cases this
  · rcases (hunfolded p).mpr hp with hr | hm
    · exact hr
    · exact absurd hq ((hmucked p hm).2.1 q)

/-! ## Along a run -/

/-- The settlement of a run that the source reached. -/
theorem Shown.settlement (hs : g.Shown progress) (hc : Carries c g) (hstarts : (c.seatStacks.lookup c.button).isSome = true)
    (hok : g.settle.panicked = false) : Settled { g with showdownProgress := none } g.settle ∧ Disclosed g.settle := by
  have hbooked := hs.balanced.booked
  have hset := hs.settled (hs.takers_of_ok hok)
  refine ⟨hset, hs.disclosed hset (hset.exactly ⟨hbooked.1, hbooked.2, hbooked.3, hbooked.4⟩ ?_)⟩
  show occupiedIn g.seats g.button = true
  rw [hc.occupied, hc.button]; exact hstarts

/-- Public cards are of seats neither folded nor mucked. -/
def Guarded (h : MultiwayHand) : Prop := ∀ p ∈ h.revealed, h.Unfolded p ∧ p ∉ h.muckedHands

theorem Disclosed.guarded (hd : Disclosed h) : h.Guarded := fun p hp =>
  ⟨(hd.unfolded p).mp (Or.inl hp), hd.disjoint p hp⟩

theorem FoldedOut.revealed (hf : FoldedOut g h p) (hu : g.UnderWay posted) : h.revealedHands = [] := by
  rw [hf.frame]; exact hu.quiet.revealed

theorem Stage.guarded (hs : Stage c posted h) (hbutton : (c.seatStacks.lookup c.button).isSome = true)
    (hok : h.panicked = false) : h.Guarded := by
  cases hs with
  | playing hc hp =>
    intro p hp'
    rw [MultiwayHand.revealed, hp.quiet.revealed] at hp'; cases hp'
  | showing hc hsh _ =>
    obtain ⟨hnodup, hunfolded⟩ := hsh.public
    exact fun p hp => ⟨hunfolded p (Or.inl hp), fun hm => (List.nodup_append.mp hnodup).2.2 p hp p hm rfl⟩
  | settled hc hg => exact (hg.settlement hc hbutton hok).2.guarded
  | folded hc hu hone =>
    obtain ⟨_, hf⟩ := awardFold_spec hu.balanced hone
    intro p hp
    rw [MultiwayHand.revealed, hf.revealed hu] at hp; cases hp

/-- Disclosure along any run that the source does not stop: a settled showdown is disclosed by
    the rules, a hand won by folds reveals nothing, and a view holds another seat's cards only
    when they are tabled, the seat having neither folded nor mucked. -/
theorem run_discloses (hstarts : HandStarts c h) (ops : List HandOp) (hok : (h.run ops).panicked = false) :
    ((h.run ops).phase = .showdown → Disclosed (h.run ops)) ∧
      ((h.run ops).phase = .handComplete → (h.run ops).revealedHands = []) ∧
      ∀ (handId : HandId) (audience : ProjectionAudience) (view : TableProjection) (entry : ProjectedSeat) (cards : List Card),
        (h.run ops).projectHand handId audience = .ok view → entry ∈ view.seats → entry.holeCards = some cards →
          audience ≠ .player entry.seat →
          entry.seat ∈ (h.run ops).revealed ∧ (h.run ops).Unfolded entry.seat ∧ entry.seat ∉ (h.run ops).muckedHands := by
  have hbutton := hstarts.button
  have hstage := hstarts.stage.run ops
  generalize h.run ops = k at hstage hok
  refine ⟨fun hphase => ?_, fun hphase => ?_, fun handId audience view entry cards hv he hcards hother => ?_⟩
  · cases hstage with
    | playing _ hp => exact absurd hphase fun e => by have := hp.accepts; rw [e] at this; cases this
    | showing _ hsh => exact absurd hphase fun e => by have := hsh.contest.accepts; rw [e] at this; cases this
    | settled hc hg => exact (hg.settlement hc hbutton hok).2
    | folded _ hu hone =>
      obtain ⟨_, hf⟩ := awardFold_spec hu.balanced hone
      rw [hf.frame] at hphase; cases hphase
  · cases hstage with
    | playing _ hp => exact absurd hphase fun e => by have := hp.accepts; rw [e] at this; cases this
    | showing _ hsh => exact absurd hphase fun e => by have := hsh.contest.accepts; rw [e] at this; cases this
    | settled hc hg => rw [(settle_ends _).2.1] at hphase; cases hphase
    | folded _ hu hone =>
      obtain ⟨_, hf⟩ := awardFold_spec hu.balanced hone
      exact hf.revealed hu
  · have hpublic := ((projectHand_holeCards hv he hcards).1).resolve_left hother
    exact ⟨hpublic, hstage.guarded hbutton hok entry.seat hpublic⟩

theorem run_discloses_three : ∃ h, HandStarts threeHanded h ∧ Disclosed (h.run threeHandedToShowdown) := by
  obtain ⟨h, hs, hphase⟩ := threeHanded_starts
  have hbacked : threeHanded.Backed := @forcedPosts_backed threeHanded 2 5 [(0, .owesBoth), (2, .clear), (5, .clear)]
    (by decide) rfl
  exact ⟨h, hs, (run_discloses hs threeHandedToShowdown ((hs.stage.run _).sums hbacked).ok).1 hphase⟩

end disclosure

end MultiwayHand

end OpenFelt
