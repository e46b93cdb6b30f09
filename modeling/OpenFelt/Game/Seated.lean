/-
  OpenFelt.Game.Seated — whoever is dealt in stays dealt in.

  Settlements write the chips of seats that are taken, also a settlement that stops on a
  pot without a taker, so every state of a run has the seats of its configuration
  (`Stage.seated`).
-/

import OpenFelt.Game.Runs

namespace OpenFelt

namespace MultiwayHand

structure SameSeats (h h' : MultiwayHand) : Prop where
  size : h'.tableSize = h.tableSize
  length : h'.seats.length = h.seats.length
  occupied : ∀ p, occupiedIn h'.seats p = occupiedIn h.seats p

section seats
variable {c : HandConfig} {h h' h'' : MultiwayHand} {posted : Nat} {p : SeatId}

theorem SameSeats.trans (a : SameSeats h h') (b : SameSeats h' h'') : SameSeats h h'' :=
  ⟨b.1.trans a.1, b.2.trans a.2, fun p => (b.3 p).trans (a.3 p)⟩

theorem SameTable.same (t : SameTable h h') : SameSeats h h' := ⟨t.tableSize, t.length, t.occupied⟩

theorem SameSeats.foldl {α : Type} {s : MultiwayHand → α → MultiwayHand} (hs : ∀ h x, SameSeats h (s h x)) (l : List α)
    (h : MultiwayHand) : SameSeats h (l.foldl s h) := by
  induction l generalizing h with
  | nil => exact ⟨rfl, rfl, fun _ => rfl⟩
  | cons x l ih => exact (hs h x).trans (ih _)

theorem returnUnmatched_seats (h : MultiwayHand) : SameSeats h h.returnUnmatched := by
  have hcredit : ∀ (h : MultiwayHand) (r : ReturnedExcess), SameSeats h (h.credit r.seat r.amount) :=
    fun h r => (credit_table h r.seat r.amount).same
  have hloop := SameSeats.foldl hcredit (buildPots h.contributionSnapshot).returned
  refine SameSeats.trans ?_ (hloop _)
  exact ⟨rfl, rfl, fun _ => rfl⟩

theorem tableCards_seats (h : MultiwayHand) (p : SeatId) : SameSeats h (h.tableCards p) := by
  unfold tableCards
  split <;> exact ⟨rfl, rfl, fun _ => rfl⟩

theorem publishHands_seats (h : MultiwayHand) : SameSeats h h.publishHands := by
  have hreveal : ∀ (allIn : Bool) (h : MultiwayHand) (p : SeatId), SameSeats h
      (if allIn || h.alwaysShow.contains p || !h.beatenByTabledHands p then h.tableCards p
      else { h with muckedHands := h.muckedHands ++ [p] }) := by
    intro allIn h p
    split
    · exact tableCards_seats h p
    · exact ⟨rfl, rfl, fun _ => rfl⟩
  unfold publishHands
  refine @SameSeats.trans _ (if h.revealedHands.isEmpty then h.revealSynchronously else h) _ ?_ ⟨rfl, rfl, fun _ => rfl⟩
  split
  · exact SameSeats.foldl (hreveal h.anyAllIn) h.showOrder h
  · exact ⟨rfl, rfl, fun _ => rfl⟩

theorem awardPot_seats (h : MultiwayHand) (pot : Pot) (i : Nat) : SameSeats h (h.awardPot pot i) := by
  unfold awardPot
  split
  · exact (check_table h _).same
  · have hcredit : ∀ (h : MultiwayHand) (x : SeatPayout), SameSeats h (h.credit x.seat x.amount) :=
      fun h x => (credit_table h x.seat x.amount).same
    have hloop := SameSeats.foldl hcredit
    exact ((check_table h _).same.trans (hloop _ _)).trans ⟨rfl, rfl, fun _ => rfl⟩

theorem settle_seats (h : MultiwayHand) : SameSeats h h.settle := by
  have hevaluate : ∀ h : MultiwayHand, SameSeats h h.evaluateShowdownOnce := by
    intro h
    unfold evaluateShowdownOnce
    split <;> exact ⟨rfl, rfl, fun _ => rfl⟩
  have hpot : ∀ (h : MultiwayHand) (x : Pot × Nat), SameSeats h (h.awardPot x.1 x.2) := fun h x => awardPot_seats h x.1 x.2
  have hpay : ∀ h : MultiwayHand, SameSeats h h.payPots := fun h => SameSeats.foldl hpot _ h
  have hclose : ∀ h : MultiwayHand, SameSeats h h.closeShowdown := by
    intro h
    have hclear : SameSeats h { h.clearContributions with toAct := none, phase := .showdown } :=
      (updateOccupied_table h _).same.trans ⟨rfl, rfl, fun _ => rfl⟩
    exact hclear.trans (check_table _ _).same
  have hfirst : SameSeats h { h with showdownProgress := none } := ⟨rfl, rfl, fun _ => rfl⟩
  exact hfirst.trans (((((returnUnmatched_seats _).trans (hevaluate _)).trans (publishHands_seats _)).trans (hpay _)).trans
    (hclose _))

/-- Every state of a run seats its configuration's players. -/
theorem Stage.seated (hs : Stage c posted h) :
    (∀ p, p ∈ h.occupiedSeats ↔ (c.seatStacks.lookup p).isSome = true) ∧ h.tableSize = c.tableSize := by
  suffices hall : h.seats.length = h.tableSize.get ∧ (∀ p, occupiedIn h.seats p = (c.seatStacks.lookup p).isSome) ∧
      h.tableSize = c.tableSize by
    obtain ⟨hlen, hocc, hsize⟩ := hall
    exact ⟨fun p => by rw [mem_occupiedSeats hlen, hocc], hsize⟩
  cases hs with
  | playing hc hp => exact ⟨hp.booked.length, hc.occupied, hc.tableSize⟩
  | showing hc hsh _ => exact ⟨hsh.contest.balanced.booked.length, hc.occupied, hc.tableSize⟩
  | @settled progress g hc hg =>
    have hsame := settle_seats g
    exact ⟨by rw [hsame.length, hsame.size]; exact hg.balanced.booked.length, fun p => (hsame.occupied p).trans (hc.occupied p),
      hsame.size.trans hc.tableSize⟩
  | @folded g hc hu hone =>
    obtain ⟨_, hf⟩ := awardFold_spec hu.balanced hone
    have hsize : g.awardFold.tableSize = g.tableSize := by rw [hf.frame]
    exact ⟨by rw [hf.length, hsize]; exact hu.booked.length, fun p => (hf.occupied p).trans (hc.occupied p),
      hsize.trans hc.tableSize⟩

end seats

end MultiwayHand

end OpenFelt
