/-
  OpenFelt.Game.Contestable — no settlement lacks a winner (`src/game/multiway.rs`,
  `build_pots`, `resolve_showdown`, `award_fold`).

  A folded seat may leave antes and dead posts behind that nobody still in has put in.
  Proved: whatever a table begins and however it is played, while two seats are in, one
  of them has put in as much as every folded seat (`Covered.top`), so each pot has a
  taker and the source never stops (`run_contestable`).
-/

import OpenFelt.Game.DeadPosts
import OpenFelt.Game.Safety

namespace OpenFelt

open Betting

namespace MultiwayHand

/-- The seats dealt in that have not folded. -/
def unfolded (h : MultiwayHand) : List SeatId := h.occupiedSeats.filter fun p => (h.seat p).participation != .folded

/-- Some seat that has not folded has put in as much as every seat that has. -/
def Topped (h : MultiwayHand) : Prop := ∃ p ∈ h.unfolded, ∀ q ∈ h.occupiedSeats, (h.seat q).participation = .folded →
  (h.seat q).handContribution ≤ (h.seat p).handContribution

structure Contestable (h : MultiwayHand) : Prop where
  topped : 2 ≤ h.unfolded.length → h.Topped
  /-- The pots a showdown would cut now. -/
  takers : 2 ≤ h.unfolded.length → ∀ pot ∈ (buildPots h.contributionSnapshot).pots, pot.eligible ≠ []
  /-- The pots a showdown has cut. -/
  pots : h.phase = .showdown → h.pots = (buildPots h.settledContributions).pots ∧ ∀ pot ∈ h.pots, pot.eligible ≠ []
  ok : h.panicked = false

section contestable
variable {c : HandConfig} {h g k : MultiwayHand} {posted : Nat}

/-- Whoever was dealt in and has not folded can win a pot. -/
theorem mem_unfolded (hb : g.Booked) {p : SeatId} : p ∈ g.unfolded ↔ g.street.InHand p := by
  simp only [unfolded, List.mem_filter, mem_occupiedSeats hb.length, inHand_iff, MultiwaySeatState.eligibleForPot]
  constructor
  · rintro ⟨hocc, hin⟩
    have hdealt := hb.dealt p hocc
    simp only [street] at hdealt
    cases hpart : (g.seat p).participation <;> simp_all [HandParticipation.status]
  · intro hin
    refine ⟨occupied_of_eligible hin, ?_⟩
    cases hpart : (g.seat p).participation <;> simp_all

theorem topped_of_covered (hb : g.Booked) (hc : Covered g.street) (hsome : g.unfolded ≠ []) : g.Topped := by
  obtain ⟨e, he⟩ := List.exists_mem_of_ne_nil _ hsome
  obtain ⟨top, hin, hmax⟩ := hc.top ⟨e, (mem_unfolded hb).mp he⟩
  refine ⟨top, (mem_unfolded hb).mpr hin, fun q _ hq => ?_⟩
  have hle := hmax q (status_folded.mpr hq)
  have hq := hb.street_le q
  have htop := hb.street_le top
  simp only [Street.total, street] at hle
  omega

/-- Cards are still to come or chips to be paid. -/
theorem Carries.contestable (hc : Carries c g) (hbacked : c.Backed) (hb : g.Balanced) (haccepts : g.phase.acceptsActions = true) :
    g.Contestable := by
  obtain ⟨_, _, hcovered⟩ := hc.covered hbacked
  refine ⟨fun hcount => topped_of_covered hb.booked hcovered fun hnil => ?_, fun _ pot hpot => ?_, fun hphase => ?_, hb.ok⟩
  · rw [hnil] at hcount
    exact absurd hcount (by decide)
  · obtain ⟨p, hp⟩ := takers_of_covered hb.booked hcovered pot hpot
    exact List.ne_nil_of_mem hp
  · rw [hphase] at haccepts; cases haccepts

/-- Nobody has anything in once the hand is paid out. -/
theorem contestable_of_cleared (hlen : k.seats.length = k.tableSize.get)
    (hzero : ∀ p, occupiedIn k.seats p = true → (k.seat p).handContribution = 0)
    (hpots : k.phase = .showdown → k.pots = (buildPots k.settledContributions).pots ∧ ∀ pot ∈ k.pots, pot.eligible ≠ [])
    (hok : k.panicked = false) : k.Contestable := by
  refine ⟨fun hcount => ?_, fun _ pot hpot => ?_, hpots, hok⟩
  · obtain ⟨p, hp⟩ := List.exists_mem_of_length_pos (Nat.lt_of_lt_of_le Nat.zero_lt_two hcount)
    refine ⟨p, hp, fun q hq _ => ?_⟩
    rw [hzero q ((mem_occupiedSeats hlen).mp hq)]
    exact Nat.zero_le _
  · obtain ⟨_, level, hpos, hlevel, _⟩ := mem_pots hpot
    obtain ⟨entry, he, rfl⟩ := List.mem_map.mp hlevel
    obtain ⟨hocc, hamount, _⟩ := (mem_snapshot hlen).mp he
    rw [hamount, hzero entry.seat hocc] at hpos
    exact absurd hpos (Nat.lt_irrefl 0)

theorem Stage.contestable (hs : Stage c posted k) (hbacked : c.Backed) : k.Contestable := by
  have hok := (hs.sums hbacked).ok
  cases hs with
  | playing hc hp => exact hc.contestable hbacked hp.balanced hp.accepts
  | showing hc hsh _ => exact hc.contestable hbacked hsh.contest.balanced hsh.contest.accepts
  | @settled _ g hc hg =>
    have htakers := hg.takers hc hbacked
    have hset := hg.settled htakers
    have hlen := hg.balanced.booked.length
    have hpots : g.settle.pots = (buildPots g.contributionSnapshot).pots := by rw [hset.frame]; rfl
    have hcut : g.settle.settledContributions = g.contributionSnapshot := by rw [hset.frame]; rfl
    have hsize : g.settle.tableSize = g.tableSize := by rw [hset.frame]
    refine contestable_of_cleared (by rw [hset.length, hsize]; exact hlen) (fun p hp => ?_) (fun _ => ?_) hok
    · rw [hset.occupied] at hp
      rw [hset.seat p hp]
    · refine ⟨hpots.trans (by rw [hcut]), fun pot hpot => ?_⟩
      obtain ⟨p, hp⟩ := htakers pot (hpots ▸ hpot)
      exact List.ne_nil_of_mem hp
  | @folded g _ hu hone =>
    obtain ⟨_, hf⟩ := awardFold_spec hu.balanced hone
    have hsize : g.awardFold.tableSize = g.tableSize := by rw [hf.frame]
    refine contestable_of_cleared (by rw [hf.length, hsize]; exact hu.booked.length) (fun p hp => ?_) (fun hphase => ?_) hok
    · rw [hf.occupied] at hp
      rw [hf.seat p hp]
    · rw [hf.frame] at hphase; cases hphase

/-- In every run of every hand a table begins, at whatever blinds: while two seats have not
    folded one of them tops the folded seats, every pot has a taker, and the source never stops. -/
theorem run_contestable {t : TableLifecycle} {start : HandStart} {size : TableSize} {blinds : BlindValues} {deck : Deck}
    (hbegin : t.beginHand.1 = .ok start) (hstarts : HandStarts (start.intoHand size blinds deck) h) (ops : List HandOp) :
    (h.run ops).Contestable :=
  (hstarts.stage.run ops).contestable (beginHand_backed hbegin size blinds deck)

/-- The player with the dead small blind folds it. -/
theorem run_contestable_three : ∃ h, HandStarts (missedSmallStart.intoHand ⟨3, by decide, by decide⟩ .default .new) h ∧
    (h.run [.command ⟨1, .fold⟩]).Contestable := by
  obtain ⟨h, hs, _⟩ := calledDown_ends
  exact ⟨h, hs, run_contestable missedSmall_begins hs [.command ⟨1, .fold⟩]⟩

end contestable

end MultiwayHand

end OpenFelt
