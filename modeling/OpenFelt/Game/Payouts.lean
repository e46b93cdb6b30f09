/-
  OpenFelt.Game.Payouts — every pot is shared exactly.

  An award is exact (`Exact`) when it pays its pot out, to the best hands among the
  eligible and to nobody else, in equal shares, the odd chips going one each to the
  first winners clockwise of the button. Proved: the awards of any settled showdown are
  the exact awards of its pots, and a stack grows by what they and the returned chips
  come to (`run_settles`).
-/

import OpenFelt.Game.Lifecycle
import OpenFelt.Game.Runs

namespace OpenFelt

open Betting

namespace MultiwayHand

/-- The value of a seat's cards with the board. -/
def shownHand (h : MultiwayHand) (p : SeatId) : HandEvaluation := evaluateHand (h.seat p).holeCards h.board

structure Exact (h : MultiwayHand) (award : PotAward) : Prop where
  sum : (award.payouts.map (·.amount)).sum = award.amount
  paid : ∀ p, p ∈ award.payouts.map (·.seat) ↔
    p ∈ award.eligible ∧ ∀ q ∈ award.eligible, (compareHands (h.shownHand q) (h.shownHand p)).isLE = true
  clockwise : (award.payouts.map (·.seat)).Pairwise fun p q =>
    clockwiseAwardKey h.tableSize h.button p < clockwiseAwardKey h.tableSize h.button q
  share : ∀ i payout, award.payouts[i]? = some payout →
    payout.amount = award.amount / award.payouts.length + if i < award.amount % award.payouts.length then 1 else 0

section exact
variable {h g : MultiwayHand} {pot : Pot} {best : HandEvaluation} {p : SeatId} {i : Nat}

/-- The winners are those no eligible hand beats. -/
theorem mem_winnersOf_iff (hbest : h.bestOf pot = some best)
    (hvalue : ∀ q ∈ pot.eligible, h.evaluationOf q = some (h.shownHand q)) : p ∈ h.winnersOf pot best ↔
      p ∈ pot.eligible ∧ ∀ q ∈ pot.eligible, (compareHands (h.shownHand q) (h.shownHand p)).isLE = true := by
  rw [mem_winnersOf]
  refine and_congr_right fun hp => ?_
  rw [hvalue p hp]
  have hle : ∀ q ∈ pot.eligible, (compareHands (h.shownHand q) best).isLE = true := fun q hq => le_best hbest hq (hvalue q hq)
  constructor
  · rintro ⟨hand, he, heq⟩ q hq
    obtain rfl := Option.some.inj he
    have hback : compareHands best (h.shownHand p) = .eq := Std.OrientedCmp.eq_symm heq
    exact Std.TransCmp.isLE_trans (hle q hq) (by rw [hback]; rfl)
  · intro hmax
    obtain ⟨q, hq, he⟩ := best_mem hbest
    rw [hvalue q hq] at he
    refine ⟨_, rfl, Std.OrientedCmp.isLE_antisymm (hle p hp) ?_⟩
    rw [← Option.some.inj he]; exact hmax q hq

theorem winnersOf_clockwise (hb : h.button.val < h.tableSize.get) (hlt : ∀ q ∈ pot.eligible, q.val < h.tableSize.get)
    (hn : pot.eligible.Nodup) : (h.winnersOf pot best).Pairwise fun p q =>
      clockwiseAwardKey h.tableSize h.button p < clockwiseAwardKey h.tableSize h.button q := by
  have : Std.Total fun a b : SeatId => clockwiseAwardKey h.tableSize h.button a ≤ clockwiseAwardKey h.tableSize h.button b :=
    ⟨fun a b => Nat.le_total _ _⟩
  have : IsTrans SeatId fun a b => clockwiseAwardKey h.tableSize h.button a ≤ clockwiseAwardKey h.tableSize h.button b :=
    ⟨fun a b c => Nat.le_trans⟩
  have hsorted : (h.winnersOf pot best).Pairwise fun a b =>
      clockwiseAwardKey h.tableSize h.button a ≤ clockwiseAwardKey h.tableSize h.button b := List.pairwise_insertionSort _ _
  have hnodup : (h.winnersOf pot best).Nodup := (List.perm_insertionSort _ _).nodup_iff.mpr (hn.filter _)
  refine List.Pairwise.imp_of_mem ?_ (hsorted.and hnodup)
  intro a b ha hb' hboth
  obtain ⟨hle, hne⟩ := hboth
  refine Nat.lt_of_le_of_ne hle fun e => hne ?_
  exact clockwiseAwardKey_inj hb (hlt a (mem_winnersOf.mp ha).1) (hlt b (mem_winnersOf.mp hb').1) e

/-- The award of a pot, valued as the hands are shown, is exact. -/
theorem potAward_exact (hbest : h.bestOf pot = some best) (hb : h.button.val < h.tableSize.get)
    (hvalue : ∀ q ∈ pot.eligible, h.evaluationOf q = some (h.shownHand q))
    (hlt : ∀ q ∈ pot.eligible, q.val < h.tableSize.get) (hn : pot.eligible.Nodup) : h.Exact (h.potAward pot i best) := by
  refine ⟨potPayouts_sum (winnersOf_ne_nil hbest), fun p => ?_, ?_, fun j payout hj => ?_⟩
  · rw [show (h.potAward pot i best).payouts.map (·.seat) = h.winnersOf pot best from potPayouts_seats]
    exact mem_winnersOf_iff hbest hvalue
  · rw [show (h.potAward pot i best).payouts.map (·.seat) = h.winnersOf pot best from potPayouts_seats]
    exact winnersOf_clockwise hb hlt hn
  · have hlen : (h.potAward pot i best).payouts.length = (h.winnersOf pot best).length := by
      simp [potAward, potPayouts]
    simp only [potAward, potPayouts, List.getElem?_map, Option.map_eq_some_iff, List.getElem?_zipIdx] at hj
    obtain ⟨_, ⟨w, _, rfl⟩, rfl⟩ := hj
    rw [hlen]
    simp only [potAward, Nat.zero_add]
    rfl

/-- The books of a settled hand: exact awards, one for each pot, and stacks that grow by them. -/
structure SettledExactly (g h : MultiwayHand) : Prop where
  awards : ∀ award ∈ h.awards, h.Exact award
  pots : h.awards.map (fun award => (⟨award.amount, award.eligible⟩ : Pot)) = (buildPots g.contributionSnapshot).pots
  stack : ∀ p, occupiedIn g.seats p = true → (h.seat p).stack = (g.seat p).stack +
    Ledger.credited (h.returnedExcess.map (·.entry)) p + (h.awards.map fun award => Ledger.credited award.entries p).sum

theorem credited_flatMap (awards : List PotAward) (p : SeatId) :
    Ledger.credited (awards.flatMap (·.entries)) p = (awards.map fun award => Ledger.credited award.entries p).sum := by
  induction awards with
  | nil => rfl
  | cons award awards ih => rw [List.flatMap_cons, Ledger.credited_append, ih, List.map_cons, List.sum_cons]

theorem Settled.exactly (hs : Settled g h) (hb : g.Booked) (hbutton : occupiedIn g.seats g.button = true) :
    SettledExactly g h := by
  have hf := hs.frame
  have hsize : h.tableSize = g.tableSize := by rw [hf]
  have hbtn : h.button = g.button := by rw [hf]
  have hpots : h.pots = (buildPots g.contributionSnapshot).pots := by rw [hf]
  have hawards : h.awards = h.awardsOf h.pots.zipIdx := by conv_lhs => rw [hf]
  -- an eligible seat is in the hand, so it is valued at the cards it shows
  have heligible : ∀ pot ∈ h.pots, ∀ q ∈ pot.eligible, occupiedIn g.seats q = true ∧ h.evaluationOf q = some (h.shownHand q) := by
    intro pot hpot q hq
    rw [hpots] at hpot
    obtain ⟨_, _, _, hel⟩ := mem_pot_eligible hb hpot
    have hin := ((hel q).mp hq).1
    have hocc := occupied_of_eligible hin
    refine ⟨hocc, ?_⟩
    have hboard : h.board = g.board := by rw [hf]
    have hcards : (h.seat q).holeCards = (g.seat q).holeCards := by rw [hs.seat q hocc]
    have heval : h.showdownEvaluations = g.evaluated := by rw [hf]
    rw [evaluationOf, heval, evaluated_lookup g hb.length, if_pos hin, shownHand, hcards, hboard]
  have hval : ∀ x ∈ h.pots.zipIdx, ∃ best, h.bestOf x.1 = some best ∧ h.Exact (h.potAward x.1 x.2 best) := by
    rintro ⟨pot, i⟩ hx
    have hpot : pot ∈ h.pots := (List.mem_zipIdx' hx).2 ▸ List.getElem_mem _
    obtain ⟨best, hbest⟩ := Option.isSome_iff_exists.mp (hs.best pot hpot)
    refine ⟨best, hbest, potAward_exact hbest ?_ (fun q hq => (heligible pot hpot q hq).2) (fun q hq => ?_) ?_⟩
    · rw [hsize, hbtn]; exact lt_of_occupied hb.length hbutton
    · rw [hsize]; exact lt_of_occupied hb.length (heligible pot hpot q hq).1
    · rw [hpots] at hpot
      refine pots_nodup ?_ hpot
      rw [snapshot_seats]; exact nodup_occupiedSeats g
  refine ⟨fun award ha => ?_, ?_, fun p hp => ?_⟩
  · rw [hawards] at ha
    obtain ⟨x, hx, hxa⟩ := List.mem_filterMap.mp ha
    obtain ⟨best, hbest, hexact⟩ := hval x hx
    rw [hbest, Option.map_some, Option.some.injEq] at hxa
    rw [← hxa]; exact hexact
  · rw [hawards, ← hpots, awardsOf, List.map_filterMap]
    have hone : ∀ x ∈ h.pots.zipIdx, ((h.bestOf x.1).map (h.potAward x.1 x.2)).map
        (fun award => (⟨award.amount, award.eligible⟩ : Pot)) = some x.1 := fun x hx => by
      obtain ⟨best, hbest, _⟩ := hval x hx
      rw [hbest]; rfl
    rw [List.filterMap_congr hone]
    simp [List.filterMap_eq_map']
  · rw [hs.seat p hp, settledEntries, Ledger.credited_append, credited_flatMap, Nat.add_assoc]

/-- Settlement is exact at the end of any run of a hand the lifecycle started: each pot goes
    out in full to its best eligible hands, odd chips clockwise of the button, and nothing
    else moves a stack. -/
theorem run_settles {c : HandConfig} {sb bb : SeatId} {obligations : List (SeatId × BlindObligation)} (hstarts : HandStarts c h)
    (hseats : obligations.map (·.1) = c.seatStacks.map (·.1)) (hposts : c.forcedPosts = forcedPosts sb bb obligations)
    (ops : List HandOp) (hphase : (h.run ops).phase = .showdown) :
    ∃ g, h.run ops = g.resolveShowdown ∧ Carries c g ∧ SettledExactly g (h.run ops) := by
  have hbacked := forcedPosts_backed (hseats ▸ hstarts.nodup) hposts
  have hbutton := hstarts.button
  have hstage := hstarts.stage.run ops
  generalize h.run ops = k at hstage hphase
  cases hstage with
  | playing _ hp => exact absurd hphase fun e => by have := hp.accepts; rw [e] at this; cases this
  | showing _ hsh => exact absurd hphase fun e => by have := hsh.contest.accepts; rw [e] at this; cases this
  | folded _ hu hone =>
    obtain ⟨_, hf⟩ := awardFold_spec hu.balanced hone
    rw [hf.frame] at hphase; cases hphase
  | @settled _ g hc hg =>
    have hbooked := hg.balanced.booked
    refine ⟨{ g with showdownProgress := none }, rfl, hc.same ⟨rfl, rfl, rfl, rfl, rfl, rfl, rfl⟩, ?_⟩
    refine (hg.settled (hg.takers hc hbacked)).exactly ⟨hbooked.1, hbooked.2, hbooked.3, hbooked.4⟩ ?_
    show occupiedIn g.seats g.button = true
    rw [hc.occupied, hc.button]; exact hbutton

theorem run_settles_three : ∃ h g, HandStarts threeHanded h ∧ h.run threeHandedToShowdown = g.resolveShowdown ∧
    SettledExactly g (h.run threeHandedToShowdown) := by
  obtain ⟨h, hs, hphase⟩ := threeHanded_starts
  obtain ⟨g, hg, _, hexact⟩ := @run_settles h threeHanded 2 5 [(0, .owesBoth), (2, .clear), (5, .clear)] hs rfl rfl
    threeHandedToShowdown hphase
  exact ⟨h, g, hs, hg, hexact⟩

end exact

end MultiwayHand

end OpenFelt
