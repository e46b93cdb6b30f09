/-
  OpenFelt.Game.Shares — what tied winners of one side pot get (`src/game/multiway.rs`,
  `resolve_showdown`, `build_pots`; `docs/rules/POLICY_CATALOGUE.md`, P-005).

  `build_pots` cuts a pot at every contribution level, a folded player's too, and each
  pot is split by itself. So pots with the same eligible seats each have an odd chip of
  their own, and all of them go to the first winners. Proved: of the pots one set of
  seats contests, the first winner gets just as many chips more than the last as there
  are pots that do not split evenly (`run_shares`).
-/

import OpenFelt.Game.Payouts

namespace OpenFelt

namespace MultiwayHand

/-- The settled pots that the seats `eligible` contest. -/
def potGroup (h : MultiwayHand) (eligible : List SeatId) : List PotAward := h.awards.filter (·.eligible == eligible)

/-- What a seat receives from those pots. -/
def fromGroup (h : MultiwayHand) (eligible : List SeatId) (p : SeatId) : Nat :=
  ((h.potGroup eligible).map fun award => Ledger.credited award.entries p).sum

/-- A seat that wins those pots. -/
def WinsGroup (h : MultiwayHand) (eligible : List SeatId) (p : SeatId) : Prop := ∃ award ∈ h.potGroup eligible, p ∈ award.winners

/-- The pots among them whose amount leaves an odd chip. -/
def oddPots (h : MultiwayHand) (eligible : List SeatId) : Nat :=
  ((h.potGroup eligible).map fun award => if award.amount % award.winners.length = 0 then 0 else 1).sum

/-- No two winners of those pots are more than a chip apart. -/
def EvenShares (h : MultiwayHand) (eligible : List SeatId) : Prop :=
  ∀ p q, h.WinsGroup eligible p → h.WinsGroup eligible q → h.fromGroup eligible p ≤ h.fromGroup eligible q + 1

section shares
variable {c : HandConfig} {h g : MultiwayHand} {award : PotAward} {winners eligible : List SeatId} {amount i : Nat}

theorem credited_potPayouts (hn : winners.Nodup) (hi : i < winners.length) :
    Ledger.credited ((potPayouts amount winners).map fun payout => (payout.seat, payout.amount)) winners[i] =
      Ledger.share amount winners.length i := by
  have hseats : (((potPayouts amount winners).map fun payout => (payout.seat, payout.amount)).map (·.1)).Nodup := by
    rw [List.map_map]
    exact potPayouts_seats.symm ▸ hn
  have hmem : (winners[i], Ledger.share amount winners.length i) ∈
      (potPayouts amount winners).map fun payout => (payout.seat, payout.amount) := by
    rw [potPayouts, List.map_map]
    exact List.mem_map.mpr ⟨(winners[i], i), List.mem_zipIdx_iff_getElem?.mpr (List.getElem?_eq_getElem hi), rfl⟩
  exact Ledger.credited_of_mem hseats hmem

/-- A settled award splits its pot among the best of its eligible seats, whoever they are. -/
structure Splits (h : MultiwayHand) (award : PotAward) : Prop where
  winners : ∃ best, Vec.maxBy compareHands (award.eligible.filterMap h.evaluationOf) = some best ∧
    award.winners = h.winnersOf ⟨award.amount, award.eligible⟩ best
  payouts : award.payouts = potPayouts award.amount award.winners
  nodup : award.winners.Nodup
  nonempty : award.winners ≠ []

theorem Settled.splits (hs : Settled g h) (ha : award ∈ h.awards) : Splits h award := by
  have hawards : h.awards = h.awardsOf h.pots.zipIdx := by conv_lhs => rw [hs.frame]
  rw [hawards] at ha
  obtain ⟨⟨pot, i⟩, hx, hxa⟩ := List.mem_filterMap.mp ha
  have hpot : pot ∈ (buildPots g.contributionSnapshot).pots := by
    have hmem : pot ∈ h.pots := (List.mem_zipIdx' hx).2 ▸ List.getElem_mem _
    rw [hs.frame] at hmem
    exact hmem
  have hseats : (g.contributionSnapshot.map (·.seat)).Nodup := by rw [snapshot_seats]; exact nodup_occupiedSeats g
  obtain ⟨best, hbest, rfl⟩ := Option.map_eq_some_iff.mp hxa
  refine ⟨⟨best, hbest, rfl⟩, rfl, ?_, winnersOf_ne_nil hbest⟩
  exact (List.perm_insertionSort _ _).nodup_iff.mpr ((pots_nodup hseats hpot).filter _)

/-- The pots of one set of seats have the same winners. -/
theorem Splits.same {other : PotAward} (ha : Splits h award) (hb : Splits h other) (he : award.eligible = other.eligible) :
    award.winners = other.winners := by
  obtain ⟨best, hbest, hw⟩ := ha.winners
  obtain ⟨best', hbest', hw'⟩ := hb.winners
  rw [he, hbest'] at hbest
  obtain rfl := Option.some.inj hbest
  rw [hw, hw', he]
  rfl

/-- The shares of the winners of a group, in their order. -/
theorem fromGroup_eq (hs : ∀ award ∈ h.potGroup eligible, award.winners = winners ∧ Splits h award) (hi : i < winners.length) :
    h.fromGroup eligible winners[i] =
      (((h.potGroup eligible).map (·.amount)).map fun n => Ledger.share n winners.length i).sum := by
  rw [fromGroup, List.map_map]
  refine congrArg List.sum (List.map_congr_left fun award ha => ?_)
  obtain ⟨rfl, hsplits⟩ := hs award ha
  rw [PotAward.entries, hsplits.payouts]
  exact credited_potPayouts hsplits.nodup hi

theorem oddPots_eq (hs : ∀ award ∈ h.potGroup eligible, award.winners = winners ∧ Splits h award) :
    h.oddPots eligible = Ledger.uneven winners.length ((h.potGroup eligible).map (·.amount)) := by
  rw [oddPots, Ledger.uneven, List.map_map]
  refine congrArg List.sum (List.map_congr_left fun award ha => ?_)
  obtain ⟨rfl, _⟩ := hs award ha
  rfl

/-- The winners of a group differ by its odd chips: no two by more, and two by exactly that. -/
theorem Settled.shares (hs : Settled g h) (eligible : List SeatId) :
    (∀ p q, h.WinsGroup eligible p → h.WinsGroup eligible q →
      h.fromGroup eligible p ≤ h.fromGroup eligible q + h.oddPots eligible) ∧
      (h.EvenShares eligible ↔ h.oddPots eligible ≤ 1) := by
  by_cases hgroup : h.potGroup eligible = []
  · have hnobody : ∀ p, ¬ h.WinsGroup eligible p := fun p ⟨award, ha, _⟩ => by
      rw [hgroup] at ha; cases ha
    refine ⟨fun p _ hp => absurd hp (hnobody p), fun _ => ?_, fun _ p _ hp => absurd hp (hnobody p)⟩
    simp [oddPots, hgroup]
  obtain ⟨one, hone⟩ := List.exists_mem_of_ne_nil _ hgroup
  have hsplits : ∀ award ∈ h.potGroup eligible, award.eligible = eligible ∧ Splits h award := fun award ha => by
    obtain ⟨hmem, he⟩ := List.mem_filter.mp ha
    exact ⟨beq_iff_eq.mp he, hs.splits hmem⟩
  have hall : ∀ award ∈ h.potGroup eligible, award.winners = one.winners ∧ Splits h award := fun award ha =>
    ⟨(hsplits award ha).2.same (hsplits one hone).2 ((hsplits award ha).1.trans (hsplits one hone).1.symm), (hsplits award ha).2⟩
  have hwins : ∀ p, h.WinsGroup eligible p ↔ p ∈ one.winners := fun p =>
    ⟨fun ⟨award, ha, hp⟩ => (hall award ha).1 ▸ hp, fun hp => ⟨one, hone, hp⟩⟩
  have hclose : ∀ p q, h.WinsGroup eligible p → h.WinsGroup eligible q →
      h.fromGroup eligible p ≤ h.fromGroup eligible q + h.oddPots eligible := fun p q hp hq => by
    obtain ⟨i, hi, rfl⟩ := List.mem_iff_getElem.mp ((hwins p).mp hp)
    obtain ⟨j, hj, rfl⟩ := List.mem_iff_getElem.mp ((hwins q).mp hq)
    rw [fromGroup_eq hall hi, fromGroup_eq hall hj, oddPots_eq hall]
    exact Ledger.shares_near _ i j _
  refine ⟨hclose, fun heven => ?_, fun hodd p q hp hq => Nat.le_trans (hclose p q hp hq) (Nat.add_le_add_left hodd _)⟩
  -- the first winner and the last are the furthest apart
  have hpos : 0 < one.winners.length := List.length_pos_iff.mpr (hsplits one hone).2.nonempty
  have hlast : one.winners.length - 1 < one.winners.length := Nat.sub_lt hpos Nat.one_pos
  have hle := heven one.winners[0] one.winners[one.winners.length - 1] ((hwins _).mpr (List.getElem_mem hpos))
    ((hwins _).mpr (List.getElem_mem hlast))
  rw [fromGroup_eq hall hpos, fromGroup_eq hall hlast, Ledger.shares_spread hpos] at hle
  rw [oddPots_eq hall]
  omega

/-- At every settled showdown, the winners of the pots one set of seats contests get amounts that
    differ by at most the number of those pots with an odd chip, and by at most one chip exactly
    when no more than one pot has one. -/
theorem run_shares (hstarts : HandStarts c h) (ops : List HandOp) (hphase : (h.run ops).phase = .showdown)
    (hok : (h.run ops).panicked = false) (eligible : List SeatId) :
    (∀ p q, (h.run ops).WinsGroup eligible p → (h.run ops).WinsGroup eligible q →
        (h.run ops).fromGroup eligible p ≤ (h.run ops).fromGroup eligible q + (h.run ops).oddPots eligible) ∧
      ((h.run ops).EvenShares eligible ↔ (h.run ops).oddPots eligible ≤ 1) := by
  have hstage := hstarts.stage.run ops
  generalize h.run ops = k at hstage hphase hok
  cases hstage with
  | playing _ hp => exact absurd hphase fun e => by have := hp.accepts; rw [e] at this; cases this
  | showing _ hsh => exact absurd hphase fun e => by have := hsh.contest.accepts; rw [e] at this; cases this
  | folded _ hu hone =>
    obtain ⟨_, hf⟩ := awardFold_spec hu.balanced hone
    rw [hf.frame] at hphase; cases hphase
  | settled _ hg => exact (hg.settled (hg.takers_of_ok hok)).shares eligible

/-! ## Blinds folded below three tied hands -/

/-- Five seats, and a deck that brings a royal flush on the board. -/
def boardRoyal : HandConfig where
  tableSize := ⟨5, by decide, by decide⟩
  button := 0
  seatStacks := [(0, 100), (1, 100), (2, 100), (3, 100), (4, 100)]
  forcedPosts := []
  blindValues := .default
  deck := ⟨Deck.new.cards.rotate 50, 0⟩

/-- Both blinds fold to a raise that is called twice, then everybody checks. -/
def blindsFold : List HandOp :=
  [.command ⟨3, .raise 4⟩, .command ⟨4, .call 4⟩, .command ⟨0, .call 4⟩, .command ⟨1, .fold⟩, .command ⟨2, .fold⟩,
    .command ⟨3, .check⟩, .command ⟨4, .check⟩, .command ⟨0, .check⟩, .command ⟨3, .check⟩, .command ⟨4, .check⟩,
    .command ⟨0, .check⟩, .command ⟨3, .check⟩, .command ⟨4, .check⟩, .command ⟨0, .check⟩]

theorem blindsFold_ends : ∃ h, HandStarts boardRoyal h ∧ (h.run blindsFold).phase = .showdown ∧
    (h.run blindsFold).panicked = false ∧ (h.run blindsFold).awards =
      [⟨0, 5, [0, 3, 4], [3, 4, 0], [⟨3, 2⟩, ⟨4, 2⟩, ⟨0, 1⟩]⟩, ⟨1, 4, [0, 3, 4], [3, 4, 0], [⟨3, 2⟩, ⟨4, 1⟩, ⟨0, 1⟩]⟩,
        ⟨2, 6, [0, 3, 4], [3, 4, 0], [⟨3, 2⟩, ⟨4, 2⟩, ⟨0, 2⟩]⟩] := by
  have hrun : (boardRoyal.build.toOption.map fun h =>
      let k := MultiwayHand.run { h with pacedShowdown := false } blindsFold
      (k.phase, k.panicked, k.awards)) = some (.showdown, false,
        [⟨0, 5, [0, 3, 4], [3, 4, 0], [⟨3, 2⟩, ⟨4, 2⟩, ⟨0, 1⟩]⟩, ⟨1, 4, [0, 3, 4], [3, 4, 0], [⟨3, 2⟩, ⟨4, 1⟩, ⟨0, 1⟩]⟩,
          ⟨2, 6, [0, 3, 4], [3, 4, 0], [⟨3, 2⟩, ⟨4, 2⟩, ⟨0, 2⟩]⟩]) := by decide +kernel
  cases h : boardRoyal.build with
  | error e => rw [h] at hrun; cases hrun
  | ok start =>
    rw [h] at hrun
    have hall := Option.some.inj hrun
    simp only [Prod.mk.injEq] at hall
    exact ⟨_, ⟨⟨List.rotate_perm _ _, rfl⟩, start, false, h, rfl⟩, hall⟩

theorem run_shares_five : ∃ h, HandStarts boardRoyal h ∧
    ((h.run blindsFold).EvenShares [0, 3, 4] ↔ (h.run blindsFold).oddPots [0, 3, 4] ≤ 1) := by
  obtain ⟨h, hs, hphase, hok, _⟩ := blindsFold_ends
  exact ⟨h, hs, (run_shares hs blindsFold hphase hok [0, 3, 4]).2⟩

/-- The first of three tied winners gets six chips, the last four. -/
theorem odd_chips_add_up : ∃ h, HandStarts boardRoyal h ∧ (h.run blindsFold).phase = .showdown ∧
    (h.run blindsFold).panicked = false ∧ ¬ (h.run blindsFold).EvenShares [0, 3, 4] := by
  obtain ⟨h, hs, hphase, hok, hawards⟩ := blindsFold_ends
  refine ⟨h, hs, hphase, hok, fun heven => ?_⟩
  have hle := heven 3 0
  simp only [WinsGroup, fromGroup, potGroup, hawards] at hle
  exact absurd (hle (by decide) (by decide)) (by decide)

end shares

end MultiwayHand

end OpenFelt
