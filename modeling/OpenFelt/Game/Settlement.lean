/-
  OpenFelt.Game.Settlement — what `resolve_showdown` and `award_fold` leave.

  `PaidOut` is the shape of every payment loop: the named entries are credited, nothing
  else moves. `resolveShowdown_settled` puts the loops together: unmatched chips go
  back, each pot is shared among the best of its eligible seats, the books are cleared
  and the table holds what it held (`Settled`).
-/

import OpenFelt.Game.HandStreet
import OpenFelt.Game.Pots

namespace OpenFelt

open Betting

/-! ## Payouts of one pot -/

def PotAward.entries (award : PotAward) : List (SeatId × Nat) := award.payouts.map fun payout => (payout.seat, payout.amount)

def ReturnedExcess.entry (returned : ReturnedExcess) : SeatId × Nat := (returned.seat, returned.amount)

namespace MultiwayHand

section payouts
variable {amount : Nat} {winners : List SeatId}

theorem potPayouts_seats : (potPayouts amount winners).map (·.seat) = winners := by
  rw [potPayouts, List.map_map]
  exact List.zipIdx_map_fst 0 winners

theorem potPayouts_amounts :
    (potPayouts amount winners).map (·.amount) = (List.range winners.length).map (Ledger.share amount winners.length) := by
  rw [potPayouts, List.map_map, List.range_eq_range', ← List.zipIdx_map_snd 0 winners, List.map_map]
  rfl

/-- The payouts of a pot add up to it. -/
theorem potPayouts_sum (hw : winners ≠ []) : ((potPayouts amount winners).map (·.amount)).sum = amount := by
  rw [potPayouts_amounts, Ledger.sum_shares (List.length_pos_iff.mpr hw)]

theorem mem_potPayouts {payout : SeatPayout} (h : payout ∈ potPayouts amount winners) : payout.seat ∈ winners := by
  have hm : payout.seat ∈ (potPayouts amount winners).map (·.seat) := List.mem_map_of_mem h
  rwa [potPayouts_seats] at hm

end payouts

/-! ## Payment loops -/

/-- `h'` is `h` with `entries` paid out and `awards` written down. -/
structure PaidOut (h h' : MultiwayHand) (entries : List (SeatId × Nat)) (awards : List PotAward) : Prop where
  frame : h' = { h with seats := h'.seats, panicked := h'.panicked, awards := h.awards ++ awards }
  length : h'.seats.length = h.seats.length
  occupied : ∀ p, occupiedIn h'.seats p = occupiedIn h.seats p
  seat : ∀ p, occupiedIn h.seats p = true →
    h'.seat p = { h.seat p with stack := (h.seat p).stack + Ledger.credited entries p }
  ok : (∀ e ∈ entries, occupiedIn h.seats e.1 = true) →
    (∀ p, occupiedIn h.seats p = true → (h.seat p).stack + Ledger.credited entries p ≤ u32Max) → h'.panicked = h.panicked

section paid
variable {h h' h'' : MultiwayHand} {a b : List (SeatId × Nat)} {x y : List PotAward}

theorem PaidOut.trans (one : PaidOut h h' a x) (two : PaidOut h' h'' b y) : PaidOut h h'' (a ++ b) (x ++ y) := by
  refine ⟨?_, two.length.trans one.length, fun p => (two.occupied p).trans (one.occupied p), fun p hp => ?_, fun hs hf => ?_⟩
  · rw [two.frame, one.frame, List.append_assoc]
  · rw [two.seat p (by rw [one.occupied, hp]), one.seat p hp]
    simp [Nat.add_assoc]
  · rw [two.ok, one.ok]
    · exact fun e he => hs e (List.mem_append_left _ he)
    · intro p hp
      have := hf p hp
      rw [Ledger.credited_append] at this; omega
    · exact fun e he => by rw [one.occupied]; exact hs e (List.mem_append_right _ he)
    · intro p hp
      rw [one.occupied] at hp
      have := hf p hp
      rw [one.seat p hp]
      rw [Ledger.credited_append] at this
      show (h.seat p).stack + Ledger.credited a p + Ledger.credited b p ≤ u32Max
      omega

theorem creditAll_paid (h : MultiwayHand) (entries : List (SeatId × Nat)) : PaidOut h (h.creditAll entries) entries [] := by
  have ht := creditAll_table h entries
  refine ⟨?_, ht.length, ht.occupied, fun p hp => seat_creditAll hp entries, fun hs hf => panicked_creditAll hs hf⟩
  rw [ht.frame, List.append_nil]

theorem foldl_returned (h : MultiwayHand) (returned : List ReturnedExcess) :
    returned.foldl (fun h r => h.credit r.seat r.amount) h = h.creditAll (returned.map (·.entry)) := by
  rw [creditAll, List.foldl_map]; rfl

theorem foldl_payouts (h : MultiwayHand) (payouts : List SeatPayout) :
    payouts.foldl (fun h p => h.credit p.seat p.amount) h = h.creditAll (payouts.map fun p => (p.seat, p.amount)) := by
  rw [creditAll, List.foldl_map]

/-! ## The award loop -/

/-- The awards of `pots`, as the evaluations of `h` decide them. -/
def awardsOf (h : MultiwayHand) (pots : List (Pot × Nat)) : List PotAward :=
  pots.filterMap fun x => (h.bestOf x.1).map (h.potAward x.1 x.2)

theorem awardPot_paid {pot : Pot} {i : Nat} {best : HandEvaluation} (hbest : h.bestOf pot = some best) :
    PaidOut h (h.awardPot pot i) (h.potAward pot i best).entries [h.potAward pot i best] := by
  generalize hg : h.check ((h.potAward pot i best).payouts.all fun payout => fitsU32 payout.amount) = g
  have hpaid := creditAll_paid g (h.potAward pot i best).entries
  have hawards : (g.creditAll (h.potAward pot i best).entries).awards = h.awards := by
    rw [(creditAll_table g _).frame, ← hg]; rfl
  have heq : h.awardPot pot i = { g.creditAll (h.potAward pot i best).entries with
      awards := h.awards ++ [h.potAward pot i best] } := by
    simp only [awardPot, hbest, foldl_payouts, hg]
    rw [← hawards]; rfl
  rw [heq]
  refine ⟨?_, by subst hg; exact hpaid.length, by subst hg; exact hpaid.occupied, by subst hg; exact hpaid.seat, fun hs hf => ?_⟩
  · rw [hpaid.frame, ← hg]; rfl
  · have hall : ((h.potAward pot i best).payouts.all fun payout => fitsU32 payout.amount) = true := by
      refine List.all_eq_true.mpr fun payout hp => ?_
      have he : (payout.seat, payout.amount) ∈ (h.potAward pot i best).entries := List.mem_map_of_mem hp
      have h1 := hf payout.seat (hs _ he)
      have h2 := Ledger.le_credited he
      simp only [fitsU32, decide_eq_true_eq]
      simp only at h2; omega
    rw [hall, check_true] at hg
    subst hg
    exact hpaid.ok hs hf

/-- Awards depend on the evaluations and on where the button is, not on the chips. -/
theorem awardsOf_congr (he : h'.showdownEvaluations = h.showdownEvaluations) (ht : h'.tableSize = h.tableSize)
    (hb : h'.button = h.button) : (∀ pot, h'.bestOf pot = h.bestOf pot) ∧ ∀ pots, h'.awardsOf pots = h.awardsOf pots := by
  have heval : h'.evaluationOf = h.evaluationOf := funext fun p => by simp only [evaluationOf, he]
  have hbest : ∀ pot, h'.bestOf pot = h.bestOf pot := fun pot => by
    simp only [bestOf, heval]
  have haward : ∀ pot i b, h'.potAward pot i b = h.potAward pot i b := fun pot i b => by
    simp only [potAward, winnersOf, awardOrder, heval, ht, hb]
  refine ⟨hbest, fun pots => List.filterMap_congr fun x _ => ?_⟩
  rw [hbest]
  exact congrArg (Option.map · (h.bestOf x.1)) (funext fun b => haward x.1 x.2 b)

/-- Every pot with an evaluated eligible seat: the loop pays all of them out. -/
theorem foldl_awardPot {pots : List (Pot × Nat)} (hbest : ∀ x ∈ pots, (h.bestOf x.1).isSome = true) :
    PaidOut h (pots.foldl (fun h x => h.awardPot x.1 x.2) h) ((h.awardsOf pots).flatMap (·.entries)) (h.awardsOf pots) := by
  induction pots generalizing h with
  | nil => exact creditAll_paid h []
  | cons x pots ih =>
    obtain ⟨best, hx⟩ := Option.isSome_iff_exists.mp (hbest x List.mem_cons_self)
    have hone := awardPot_paid (i := x.2) hx
    obtain ⟨hbestOf, hsame⟩ := @awardsOf_congr h (h.awardPot x.1 x.2) (by rw [hone.frame]) (by rw [hone.frame])
      (by rw [hone.frame])
    have hrest := ih (h := h.awardPot x.1 x.2) fun y hy => by
      rw [hbestOf]; exact hbest y (List.mem_cons_of_mem _ hy)
    rw [hsame] at hrest
    have hcons : h.awardsOf (x :: pots) = h.potAward x.1 x.2 best :: h.awardsOf pots := by
      simp [awardsOf, hx]
    rw [hcons, List.foldl_cons, List.flatMap_cons]
    exact hone.trans hrest

end paid

/-! ## Who wins a pot -/

section winners
variable {h : MultiwayHand} {pot : Pot} {best : HandEvaluation} {p : SeatId}

theorem mem_winnersOf : p ∈ h.winnersOf pot best ↔
    p ∈ pot.eligible ∧ ∃ hand, h.evaluationOf p = some hand ∧ compareHands hand best = .eq := by
  simp only [winnersOf, awardOrder, List.mem_insertionSort, List.mem_filter]
  refine and_congr_right fun _ => ?_
  cases h.evaluationOf p with
  | none => simp
  | some hand => simp

theorem best_mem (hbest : h.bestOf pot = some best) : ∃ p ∈ pot.eligible, h.evaluationOf p = some best :=
  List.mem_filterMap.mp (Vec.maxBy_spec hbest).1

theorem le_best (hbest : h.bestOf pot = some best) {hand : HandEvaluation} (hp : p ∈ pot.eligible)
    (he : h.evaluationOf p = some hand) : (compareHands hand best).isLE = true :=
  (Vec.maxBy_spec hbest).2 hand (List.mem_filterMap.mpr ⟨p, hp, he⟩)

theorem winnersOf_ne_nil (hbest : h.bestOf pot = some best) : h.winnersOf pot best ≠ [] := by
  obtain ⟨p, hp, he⟩ := best_mem hbest
  exact List.ne_nil_of_mem (mem_winnersOf.mpr ⟨hp, best, he, Std.ReflCmp.compare_self⟩)

theorem bestOf_isSome {hand : HandEvaluation} (hp : p ∈ pot.eligible) (he : h.evaluationOf p = some hand) :
    (h.bestOf pot).isSome = true :=
  Vec.maxBy_isSome (List.ne_nil_of_mem (List.mem_filterMap.mpr ⟨p, hp, he⟩))

/-- An award pays its pot out. -/
theorem potAward_sum (hbest : h.bestOf pot = some best) (i : Nat) :
    ((h.potAward pot i best).entries.map (·.2)).sum = pot.amount := by
  simp only [PotAward.entries, potAward, List.map_map]
  exact potPayouts_sum (winnersOf_ne_nil hbest)

theorem awardsOf_sum {pots : List (Pot × Nat)} (hbest : ∀ x ∈ pots, (h.bestOf x.1).isSome = true) :
    (((h.awardsOf pots).flatMap (·.entries)).map (·.2)).sum = (pots.map (·.1.amount)).sum := by
  induction pots with
  | nil => rfl
  | cons x pots ih =>
    obtain ⟨best, hx⟩ := Option.isSome_iff_exists.mp (hbest x List.mem_cons_self)
    have hcons : h.awardsOf (x :: pots) = h.potAward x.1 x.2 best :: h.awardsOf pots := by simp [awardsOf, hx]
    rw [hcons, List.flatMap_cons, List.map_append, List.sum_append, potAward_sum hx,
      ih fun y hy => hbest y (List.mem_cons_of_mem _ hy), List.map_cons, List.sum_cons]

/-- Awards go to eligible seats. -/
theorem awardsOf_payees {pots : List (Pot × Nat)} {e : SeatId × Nat} (he : e ∈ (h.awardsOf pots).flatMap (·.entries)) :
    ∃ x ∈ pots, e.1 ∈ x.1.eligible := by
  obtain ⟨award, ha, hea⟩ := List.mem_flatMap.mp he
  obtain ⟨x, hx, hxa⟩ := List.mem_filterMap.mp ha
  obtain ⟨best, _, rfl⟩ := Option.map_eq_some_iff.mp hxa
  obtain ⟨payout, hp, rfl⟩ := List.mem_map.mp hea
  exact ⟨x, hx, (mem_winnersOf.mp (mem_potPayouts hp)).1⟩

end winners

/-! ## Evaluations -/

/-- The evaluations of the seats in the hand. -/
def evaluated (h : MultiwayHand) : List (SeatId × HandEvaluation) :=
  (h.occupiedSeats.filter fun p => (h.seat p).eligibleForPot).map fun p => (p, evaluateHand (h.seat p).holeCards h.board)

theorem lookup_evaluated {α β : Type} [DecidableEq α] (l : List α) (f : α → β) (p : α) :
    (l.map fun q => (q, f q)).lookup p = if p ∈ l then some (f p) else none := by
  induction l with
  | nil => rfl
  | cons q l ih =>
    rw [List.map_cons, List.lookup_cons, ih]
    by_cases e : p = q
    · subst e; simp
    · have hne : (p == q) = false := by simpa using e
      simp [hne, e]

theorem evaluated_lookup (h : MultiwayHand) (hlen : h.seats.length = h.tableSize.get) (p : SeatId) : h.evaluated.lookup p =
    if (h.seat p).eligibleForPot = true then some (evaluateHand (h.seat p).holeCards h.board) else none := by
  have hm : p ∈ (h.occupiedSeats.filter fun p => (h.seat p).eligibleForPot) ↔ (h.seat p).eligibleForPot = true := by
    rw [List.mem_filter, mem_occupiedSeats hlen, and_iff_right_iff_imp]
    exact occupied_of_eligible
  rw [evaluated, lookup_evaluated _ (fun p => evaluateHand (h.seat p).holeCards h.board) p]
  simp only [hm]

theorem evaluateShowdownOnce_eq {h : MultiwayHand} (he : h.showdownEvaluations = [] ∨ h.showdownEvaluations = h.evaluated) :
    h.evaluateShowdownOnce = { h with showdownEvaluations := h.evaluated } := by
  unfold evaluateShowdownOnce
  rcases he with he | he
  · rw [he]; rfl
  · split
    · rfl
    · rw [← he]

/-! ## The settlement of a showdown -/

/-- Books that hold what the hand started with, within `u32`. -/
structure Balanced (h : MultiwayHand) : Prop where
  booked : h.Booked
  total : h.totalChips = h.initialTotal
  fits : h.initialTotal ≤ u32Max
  ok : h.panicked = false

/-- Every pot that would be cut now has an eligible seat. -/
def Takers (h : MultiwayHand) : Prop := ∀ pot ∈ (buildPots h.contributionSnapshot).pots, ∃ p, p ∈ pot.eligible

/-- Each entry of the books in pots and returns, by payee. -/
def settledEntries (h : MultiwayHand) : List (SeatId × Nat) := h.returnedExcess.map (·.entry) ++ h.awards.flatMap (·.entries)

/-- `h` is `g` settled: `g`'s contributions in pots, every pot awarded, everything paid. -/
structure Settled (g h : MultiwayHand) : Prop where
  frame : h = { g with
    seats := h.seats
    settledContributions := g.contributionSnapshot
    pots := (buildPots g.contributionSnapshot).pots
    returnedExcess := (buildPots g.contributionSnapshot).returned
    awards := h.awardsOf h.pots.zipIdx
    revealedHands := h.revealedHands
    showdownEvaluations := g.evaluated
    toAct := none
    phase := .showdown }
  length : h.seats.length = g.seats.length
  occupied : ∀ p, occupiedIn h.seats p = occupiedIn g.seats p
  revealed : h.revealedHands.map (·.seat) = g.revealedHands.map (·.seat)
  best : ∀ pot ∈ h.pots, (h.bestOf pot).isSome = true
  seat : ∀ p, occupiedIn g.seats p = true → h.seat p = { g.seat p with
    stack := (g.seat p).stack + Ledger.credited h.settledEntries p
    streetContribution := 0
    handContribution := 0
    lastActionWager := none }
  total : h.totalChips = h.initialTotal

section settle
variable {g : MultiwayHand}

theorem mem_snapshot (hlen : g.seats.length = g.tableSize.get) {entry : Contribution} : entry ∈ g.contributionSnapshot ↔
    occupiedIn g.seats entry.seat = true ∧ entry.amount = (g.seat entry.seat).handContribution ∧
      entry.eligible = (g.seat entry.seat).eligibleForPot := by
  simp only [contributionSnapshot, List.mem_map, mem_occupiedSeats hlen]
  constructor
  · rintro ⟨p, hp, rfl⟩; exact ⟨hp, rfl, rfl⟩
  · rintro ⟨hp, ha, he⟩
    exact ⟨entry.seat, hp, by cases entry; simp_all⟩

theorem snapshot_seats : g.contributionSnapshot.map (·.seat) = g.occupiedSeats := by
  simp [contributionSnapshot, Function.comp_def]

theorem snapshot_amounts : (amounts g.contributionSnapshot).sum = g.sumSeats (·.handContribution) := by
  simp [amounts, contributionSnapshot, sumSeats, Function.comp_def]

/-- A pot's eligible seats: those in the hand that reach its level. -/
theorem mem_pot_eligible (hb : g.Booked) {pot : Pot} (hp : pot ∈ (buildPots g.contributionSnapshot).pots) :
    ∃ level, 0 < level ∧ (∃ p, occupiedIn g.seats p = true ∧ (g.seat p).handContribution = level) ∧
      ∀ p, p ∈ pot.eligible ↔ (g.seat p).eligibleForPot = true ∧ level ≤ (g.seat p).handContribution := by
  obtain ⟨_, level, hpos, hm, hel⟩ := mem_pots hp
  refine ⟨level, hpos, ?_, fun p => ?_⟩
  · obtain ⟨entry, he, rfl⟩ := List.mem_map.mp hm
    obtain ⟨h1, h2, _⟩ := (mem_snapshot hb.length).mp he
    exact ⟨entry.seat, h1, h2.symm⟩
  · rw [hel]
    constructor
    · rintro ⟨entry, he, rfl, hel, hle⟩
      obtain ⟨_, h2, h3⟩ := (mem_snapshot hb.length).mp he
      exact ⟨by rw [← h3]; exact hel, by rw [← h2]; exact hle⟩
    · rintro ⟨hel, hle⟩
      exact ⟨⟨p, (g.seat p).handContribution, (g.seat p).eligibleForPot⟩,
        (mem_snapshot hb.length).mpr ⟨occupied_of_eligible hel, rfl, rfl⟩, rfl, hel, hle⟩

/-- Folded chips being matched, every pot has a taker. -/
theorem takers_of_covered (hb : g.Booked) (hc : Covered g.street) : g.Takers := by
  intro pot hp
  obtain ⟨level, hpos, ⟨p, hocc, hlevel⟩, hel⟩ := mem_pot_eligible hb hp
  have htotal : ∀ q, g.street.total q = (g.seat q).handContribution := fun q => by
    have := hb.street_le q
    simp only [Street.total, street]; omega
  cases hpart : (g.seat p).participation with
  | live => exact ⟨p, (hel p).mpr ⟨by simp [MultiwaySeatState.eligibleForPot, hpart], by omega⟩⟩
  | allIn => exact ⟨p, (hel p).mpr ⟨by simp [MultiwaySeatState.eligibleForPot, hpart], by omega⟩⟩
  | folded =>
    obtain ⟨q, hq, hle⟩ := hc p (status_folded.mpr hpart)
    rw [htotal, htotal, hlevel] at hle
    exact ⟨q, (hel q).mpr ⟨inHand_iff.mp hq, hle⟩⟩
  | notDealt => exact absurd (by simp [street, hpart, HandParticipation.status]) (hb.dealt p hocc)

/-! ### The settlement, part by part -/

theorem returned_seated (hb : g.Booked) {e : SeatId × Nat} (he : e ∈ (buildPots g.contributionSnapshot).returned.map (·.entry)) :
    occupiedIn g.seats e.1 = true := by
  obtain ⟨r, hr, rfl⟩ := List.mem_map.mp he
  obtain ⟨entry, hentry, hs⟩ := mem_returned hr
  rw [ReturnedExcess.entry, ← hs]
  exact ((mem_snapshot hb.length).mp hentry).1

/-- Entries that come to no more than was contributed leave every seat within `u32`. -/
theorem credited_fits (hp : g.Balanced) {entries : List (SeatId × Nat)} (hseat : ∀ e ∈ entries, occupiedIn g.seats e.1 = true)
    (hsum : (entries.map (·.2)).sum ≤ g.sumSeats (·.handContribution)) (p : SeatId) (hocc : occupiedIn g.seats p = true) :
    (g.seat p).stack + Ledger.credited entries p ≤ u32Max := by
  have hm := (mem_occupiedSeats hp.booked.length).mpr hocc
  have h1 : (g.seat p).stack + Ledger.credited entries p ≤
      (g.occupiedSeats.map fun q => (g.seat q).stack + Ledger.credited entries q).sum :=
    List.le_sum_of_mem (List.mem_map_of_mem hm)
  have h2 : (g.occupiedSeats.map (Ledger.credited entries)).sum = (entries.map (·.2)).sum :=
    Ledger.sum_credited (nodup_occupiedSeats g) fun e he => (mem_occupiedSeats hp.booked.length).mpr (hseat e he)
  have h3 : (g.occupiedSeats.map fun q => (g.seat q).stack + Ledger.credited entries q).sum ≤ g.totalChips := by
    rw [List.sum_map_add, h2]
    exact Nat.add_le_add_left hsum _
  have := hp.fits
  rw [hp.total] at h3
  omega

theorem returned_le (g : MultiwayHand) :
    (((buildPots g.contributionSnapshot).returned.map (·.entry)).map (·.2)).sum ≤ g.sumSeats (·.handContribution) := by
  rw [← snapshot_amounts, ← buildPots_sum, PotBuild.total, List.map_map]
  exact Nat.le_add_left ..

/-- The books when the pots are about to be paid: unmatched chips back, hands valued. -/
structure Opened (g h : MultiwayHand) : Prop where
  frame : h = { g with
    seats := h.seats
    settledContributions := g.contributionSnapshot
    pots := (buildPots g.contributionSnapshot).pots
    returnedExcess := (buildPots g.contributionSnapshot).returned
    revealedHands := h.revealedHands
    showdownEvaluations := g.evaluated }
  length : h.seats.length = g.seats.length
  occupied : ∀ p, occupiedIn h.seats p = occupiedIn g.seats p
  revealed : h.revealedHands.map (·.seat) = g.revealedHands.map (·.seat)
  seat : ∀ p, occupiedIn g.seats p = true → h.seat p = { g.seat p with
    stack := (g.seat p).stack + Ledger.credited ((buildPots g.contributionSnapshot).returned.map (·.entry)) p }

theorem returnUnmatched_paid (hp : g.Balanced) : PaidOut { g with
      settledContributions := g.contributionSnapshot
      pots := (buildPots g.contributionSnapshot).pots
      returnedExcess := (buildPots g.contributionSnapshot).returned }
    g.returnUnmatched ((buildPots g.contributionSnapshot).returned.map (·.entry)) [] := by
  have hrange : layersInRange g.contributionSnapshot 0 (potLevels g.contributionSnapshot) = true := by
    refine layersInRange_of_fits ?_
    have h1 : g.sumSeats (·.handContribution) ≤ g.totalChips := Nat.le_add_left ..
    have h2 := hp.fits
    rw [snapshot_amounts]
    rw [hp.total] at h1; omega
  simp only [returnUnmatched, hrange, check_true, foldl_returned]
  exact creditAll_paid _ _

/-- The evaluations do not depend on the chips. -/
theorem evaluated_congr {h : MultiwayHand} (hb : g.Booked) (hsize : h.tableSize = g.tableSize) (hboard : h.board = g.board)
    (hocc : ∀ p, occupiedIn h.seats p = occupiedIn g.seats p)
    (hseat : ∀ p, occupiedIn g.seats p = true → (h.seat p).holeCards = (g.seat p).holeCards ∧
      (h.seat p).eligibleForPot = (g.seat p).eligibleForPot) : h.evaluated = g.evaluated := by
  have hfil : h.occupiedSeats.filter (fun p => (h.seat p).eligibleForPot) =
      g.occupiedSeats.filter (fun p => (g.seat p).eligibleForPot) := by
    have hsame : h.occupiedSeats = g.occupiedSeats := by
      simp only [occupiedSeats, hsize]
      exact List.filter_congr fun p _ => hocc p
    rw [hsame]
    exact List.filter_congr fun p hm => (hseat p ((mem_occupiedSeats hb.length).mp hm)).2
  simp only [evaluated, hfil, hboard]
  refine List.map_congr_left fun p hm => ?_
  rw [(hseat p ((mem_occupiedSeats hb.length).mp (List.mem_filter.mp hm).1)).1]

theorem opened (hp : g.Balanced) (he : g.showdownEvaluations = [] ∨ g.showdownEvaluations = g.evaluated)
    (hrev : g.revealedHands ≠ []) : Opened g g.returnUnmatched.evaluateShowdownOnce.publishHands := by
  have hpaid := returnUnmatched_paid hp
  generalize g.returnUnmatched = h at hpaid
  have hok : h.panicked = false := by
    rw [hpaid.ok (fun e => returned_seated hp.booked)
      (credited_fits hp (fun e => returned_seated hp.booked) (returned_le g))]
    exact hp.ok
  have heval : h.evaluated = g.evaluated :=
    evaluated_congr hp.booked (by rw [hpaid.frame]) (by rw [hpaid.frame]) hpaid.occupied fun p hocc => by
      rw [hpaid.seat p hocc]; exact ⟨rfl, rfl⟩
  have he' : h.showdownEvaluations = [] ∨ h.showdownEvaluations = h.evaluated := by
    rw [heval, show h.showdownEvaluations = g.showdownEvaluations by rw [hpaid.frame]]; exact he
  have hrevealed : h.revealedHands = g.revealedHands := by rw [hpaid.frame]
  have hpub : h.evaluateShowdownOnce.publishHands =
      ({ h with showdownEvaluations := g.evaluated } : MultiwayHand).describeRevealed := by
    rw [evaluateShowdownOnce_eq he', heval, publishHands, if_neg]
    simpa [hrevealed, List.isEmpty_iff] using hrev
  rw [hpub]
  refine ⟨?_, hpaid.length, hpaid.occupied, ?_, hpaid.seat⟩
  · simp only [describeRevealed]
    rw [hpaid.frame, hok, hp.ok, List.append_nil]
  · simp only [describeRevealed, List.map_map, hrevealed]
    refine List.map_congr_left fun shown _ => ?_
    simp only [Function.comp]
    split <;> rfl

/-- A pot with a taker has a best hand once the books are opened. -/
theorem Opened.best {h : MultiwayHand} (ho : Opened g h) (hp : g.Balanced) (ht : g.Takers) {pot : Pot}
    (hpot : pot ∈ (buildPots g.contributionSnapshot).pots) : (h.bestOf pot).isSome = true := by
  obtain ⟨p, hpe⟩ := ht pot hpot
  obtain ⟨_, _, _, hel⟩ := mem_pot_eligible hp.booked hpot
  have hlook := evaluated_lookup g hp.booked.length p
  rw [if_pos ((hel p).mp hpe).1] at hlook
  have heval : h.evaluationOf p = some (evaluateHand (g.seat p).holeCards g.board) := by
    rw [evaluationOf, ho.frame]; exact hlook
  exact bestOf_isSome hpe heval

theorem Opened.pots {h : MultiwayHand} (ho : Opened g h) : h.pots.zipIdx.map (·.1) = (buildPots g.contributionSnapshot).pots := by
  rw [show h.pots = (buildPots g.contributionSnapshot).pots by rw [ho.frame]]
  exact List.zipIdx_map_fst 0 _

/-- What the settlement owes in all: to seats of the table, as much as was contributed. -/
theorem Opened.owed {h : MultiwayHand} (ho : Opened g h) (hp : g.Balanced) (ht : g.Takers) :
    let entries := (buildPots g.contributionSnapshot).returned.map (·.entry) ++ (h.awardsOf h.pots.zipIdx).flatMap (·.entries)
    (∀ e ∈ entries, occupiedIn g.seats e.1 = true) ∧ (entries.map (·.2)).sum = g.sumSeats (·.handContribution) := by
  intro entries
  have hbest : ∀ x ∈ h.pots.zipIdx, (h.bestOf x.1).isSome = true := fun x hx =>
    ho.best hp ht (ho.pots ▸ List.mem_map_of_mem hx)
  refine ⟨fun e he => ?_, ?_⟩
  · rcases List.mem_append.mp he with he | he
    · exact returned_seated hp.booked he
    · obtain ⟨x, hx, hxe⟩ := awardsOf_payees he
      obtain ⟨_, _, _, hel⟩ := mem_pot_eligible hp.booked (ho.pots ▸ List.mem_map_of_mem hx)
      exact occupied_of_eligible ((hel e.1).mp hxe).1
  · have hsum := buildPots_sum g.contributionSnapshot
    rw [snapshot_amounts, PotBuild.total, ← ho.pots, List.map_map] at hsum
    simp only [entries, List.map_append, List.sum_append, awardsOf_sum hbest, List.map_map]
    rw [← hsum, Nat.add_comm]
    rfl

/-- Settling balanced books whose pots have takers pays every chip out. -/
theorem resolveShowdown_settled (hp : g.Balanced) (ht : g.Takers)
    (he : g.showdownEvaluations = [] ∨ g.showdownEvaluations = g.evaluated)
    (hrev : g.revealedHands ≠ []) (hawards : g.awards = []) : Settled g g.resolveShowdown := by
  have ho := opened hp he hrev
  unfold resolveShowdown
  generalize g.returnUnmatched.evaluateShowdownOnce.publishHands = h at ho
  have hbest : ∀ x ∈ h.pots.zipIdx, (h.bestOf x.1).isSome = true := fun x hx =>
    ho.best hp ht (ho.pots ▸ List.mem_map_of_mem hx)
  have hpay : PaidOut h h.payPots _ _ := foldl_awardPot hbest
  obtain ⟨hpayees, hsum⟩ := ho.owed hp ht
  have hfits := credited_fits hp hpayees (Nat.le_of_eq hsum)
  generalize hents : (h.awardsOf h.pots.zipIdx).flatMap (·.entries) = entries at hpay hpayees hsum hfits
  generalize hk : h.payPots = k at hpay
  have hocc : ∀ p, occupiedIn k.seats p = occupiedIn g.seats p := fun p => (hpay.occupied p).trans (ho.occupied p)
  have hseat : ∀ p, occupiedIn g.seats p = true → k.seat p = { g.seat p with
      stack := (g.seat p).stack +
        Ledger.credited ((buildPots g.contributionSnapshot).returned.map (·.entry) ++ entries) p } := fun p hp' => by
    rw [hpay.seat p (by rw [ho.occupied]; exact hp'), ho.seat p hp']
    simp only [Ledger.credited_append, Nat.add_assoc]
  have hok : k.panicked = false := by
    rw [hpay.ok (fun e he => ?_) fun p hp' => ?_]
    · rw [ho.frame]; exact hp.ok
    · rw [ho.occupied]; exact hpayees e (List.mem_append_right _ he)
    · rw [ho.occupied] at hp'
      have := hfits p hp'
      rw [Ledger.credited_append] at this
      rw [ho.seat p hp']
      show (g.seat p).stack + Ledger.credited _ p + Ledger.credited entries p ≤ u32Max
      omega
  have hlen : k.seats.length = k.tableSize.get := by
    rw [hpay.length, ho.length, hp.booked.length, hpay.frame, ho.frame]
  -- the books are cleared
  have hclear : SameTable k k.clearContributions := updateOccupied_table k _
  have hcleared : ∀ p, occupiedIn g.seats p = true → k.clearContributions.seat p =
      { k.seat p with streetContribution := 0, handContribution := 0, lastActionWager := none } :=
    fun p hp' => seat_updateOccupied hlen (by rw [hocc]; exact hp')
  have hokc : k.clearContributions.panicked = false := (panicked_updateOccupied hlen).trans hok
  have hsize : k.clearContributions.tableSize = g.tableSize := by rw [hclear.frame, hpay.frame, ho.frame]
  have hseats : k.clearContributions.occupiedSeats = g.occupiedSeats := by
    simp only [occupiedSeats, hsize]
    exact List.filter_congr fun p _ => (hclear.occupied p).trans (hocc p)
  have htotal : k.clearContributions.totalChips = g.initialTotal := by
    rw [← hp.total, totalChips, totalChips, sumSeats, sumSeats, hseats]
    have hm : ∀ p ∈ g.occupiedSeats, occupiedIn g.seats p = true := fun p hm => (mem_occupiedSeats hp.booked.length).mp hm
    have hzero : (g.occupiedSeats.map fun p => (k.clearContributions.seat p).handContribution).sum = 0 := by
      refine List.sum_eq_zero_iff_forall_eq_nat.mpr fun x hx => ?_
      obtain ⟨p, hp', rfl⟩ := List.mem_map.mp hx
      rw [hcleared p (hm p hp')]
    have hstacks : (g.occupiedSeats.map fun p => (k.clearContributions.seat p).stack) = g.occupiedSeats.map fun p =>
        (g.seat p).stack + Ledger.credited ((buildPots g.contributionSnapshot).returned.map (·.entry) ++ entries) p :=
      List.map_congr_left fun p hp' => by rw [hcleared p (hm p hp'), hseat p (hm p hp')]
    rw [hzero, hstacks, List.sum_map_add, Ledger.sum_credited (nodup_occupiedSeats g)
      (fun e he => (mem_occupiedSeats hp.booked.length).mpr (hpayees e he)), hsum]
    rfl
  have hinit : k.clearContributions.initialTotal = g.initialTotal := by rw [hclear.frame, hpay.frame, ho.frame]
  have hclose : k.closeShowdown = { k.clearContributions with toAct := none, phase := .showdown } := by
    have hcheck : (fitsU32 k.clearContributions.totalChips && decide (k.clearContributions.totalChips =
        k.clearContributions.initialTotal)) = true := by
      rw [htotal, hinit, Bool.and_eq_true, decide_eq_true_eq]
      exact ⟨decide_eq_true hp.fits, rfl⟩
    simp only [closeShowdown]
    exact (congrArg (check _) hcheck).trans (check_true _)
  have hframe : k.closeShowdown = { g with
      seats := k.closeShowdown.seats
      settledContributions := g.contributionSnapshot
      pots := (buildPots g.contributionSnapshot).pots
      returnedExcess := (buildPots g.contributionSnapshot).returned
      awards := h.awardsOf h.pots.zipIdx
      revealedHands := h.revealedHands
      showdownEvaluations := g.evaluated
      toAct := none
      phase := .showdown } := by
    rw [hclose, hclear.frame, hokc, hpay.frame, ho.frame, hp.ok, hawards, List.nil_append]
  have hpots : k.closeShowdown.pots = h.pots := by rw [hframe, ho.frame]
  obtain ⟨hbestOf, hawardsOf⟩ := @awardsOf_congr h k.closeShowdown (by rw [hframe, ho.frame])
    (by rw [hframe, ho.frame]) (by rw [hframe, ho.frame])
  have hrev' : k.closeShowdown.revealedHands = h.revealedHands := by rw [hframe]
  have hentries : k.closeShowdown.settledEntries =
      (buildPots g.contributionSnapshot).returned.map (·.entry) ++ entries := by
    rw [settledEntries, ← hents, hframe]
  refine ⟨?_, ?_, fun p => ?_, by rw [hrev']; exact ho.revealed, fun pot hpot => ?_, fun p hp' => ?_, ?_⟩
  · rw [hawardsOf, hpots, hrev']; exact hframe
  · rw [hclose]; exact hclear.length.trans (hpay.length.trans ho.length)
  · rw [hclose]; exact (hclear.occupied p).trans (hocc p)
  · rw [hbestOf]
    exact ho.best hp ht (by rw [hframe] at hpot; exact hpot)
  · rw [hentries, hclose]
    exact (hcleared p hp').trans (by rw [hseat p hp'])
  · rw [hclose]; exact htotal.trans hinit.symm

/-! ## What a settlement leaves alone -/

/-- The progress, the history and the raise in force are as they were; a stop stays, and so
    does what has been tabled. -/
structure Keeps (g h : MultiwayHand) : Prop where
  progress : h.showdownProgress = g.showdownProgress
  history : h.actionHistory = g.actionHistory
  raise : h.lastFullRaiseSize = g.lastFullRaiseSize
  stop : g.panicked = true → h.panicked = true
  shown : g.revealedHands ≠ [] → h.revealedHands ≠ []

section keeps
variable {h k : MultiwayHand}

theorem Keeps.trans (a : Keeps g h) (b : Keeps h k) : Keeps g k :=
  ⟨b.1.trans a.1, b.2.trans a.2, b.3.trans a.3, fun e => b.4 (a.4 e), fun e => b.5 (a.5 e)⟩

theorem Keeps.refl (g : MultiwayHand) : Keeps g g := ⟨rfl, rfl, rfl, id, id⟩

theorem Keeps.foldl {α : Type} {s : MultiwayHand → α → MultiwayHand} (hs : ∀ h x, Keeps h (s h x)) (l : List α)
    (h : MultiwayHand) : Keeps h (l.foldl s h) := by
  induction l generalizing h with
  | nil => exact .refl h
  | cons x l ih => exact (hs h x).trans (ih _)

theorem check_keeps (h : MultiwayHand) (ok : Bool) : Keeps h (h.check ok) := ⟨rfl, rfl, rfl, fun e => by simp [check, e], id⟩

theorem updateSeat_keeps (h : MultiwayHand) (p : SeatId) (f : MultiwaySeatState → MultiwaySeatState) :
    Keeps h (h.updateSeat p f) := ⟨rfl, rfl, rfl, fun e => by simp [updateSeat, e], id⟩

theorem updateOccupied_keeps (h : MultiwayHand) (f : MultiwaySeatState → MultiwaySeatState) : Keeps h (h.updateOccupied f) :=
  Keeps.foldl (fun h p => updateSeat_keeps h p f) _ h

theorem credit_keeps (h : MultiwayHand) (p : SeatId) (n : Nat) : Keeps h (h.credit p n) :=
  (check_keeps h _).trans (updateSeat_keeps _ p _)

theorem returnUnmatched_keeps (g : MultiwayHand) : Keeps g g.returnUnmatched := by
  have hcredit : ∀ (h : MultiwayHand) (r : ReturnedExcess), Keeps h (h.credit r.seat r.amount) :=
    fun h r => credit_keeps h r.seat r.amount
  have hloop := Keeps.foldl hcredit (buildPots g.contributionSnapshot).returned
  refine Keeps.trans ?_ (hloop _)
  exact ⟨rfl, rfl, rfl, fun e => by simp [check, e], id⟩

theorem evaluateShowdownOnce_keeps (h : MultiwayHand) : Keeps h h.evaluateShowdownOnce := by
  unfold evaluateShowdownOnce
  split
  · exact ⟨rfl, rfl, rfl, id, id⟩
  · exact .refl h

theorem tableCards_keeps (h : MultiwayHand) (p : SeatId) : Keeps h (h.tableCards p) := by
  unfold tableCards
  split
  · exact .refl h
  · exact ⟨rfl, rfl, rfl, id, fun _ => by simp⟩

theorem publishHands_keeps (h : MultiwayHand) : Keeps h h.publishHands := by
  have hreveal : ∀ (allIn : Bool) (h : MultiwayHand) (p : SeatId), Keeps h
      (if allIn || h.alwaysShow.contains p || !h.beatenByTabledHands p then h.tableCards p
      else { h with muckedHands := h.muckedHands ++ [p] }) := fun allIn h p => by
    split
    · exact tableCards_keeps h p
    · exact ⟨rfl, rfl, rfl, id, id⟩
  unfold publishHands
  refine Keeps.trans (h := if h.revealedHands.isEmpty then h.revealSynchronously else h) ?_
    ⟨rfl, rfl, rfl, id, fun e => by simpa [describeRevealed] using e⟩
  split
  · exact Keeps.foldl (hreveal h.anyAllIn) h.showOrder h
  · exact .refl h

theorem awardPot_keeps (h : MultiwayHand) (pot : Pot) (i : Nat) : Keeps h (h.awardPot pot i) := by
  unfold awardPot
  split
  · exact check_keeps h _
  · have hcredit : ∀ (h : MultiwayHand) (x : SeatPayout), Keeps h (h.credit x.seat x.amount) :=
      fun h x => credit_keeps h x.seat x.amount
    have hloop := Keeps.foldl hcredit
    exact ((check_keeps h _).trans (hloop _ _)).trans ⟨rfl, rfl, rfl, id, id⟩

theorem payPots_keeps (h : MultiwayHand) : Keeps h h.payPots := by
  have hstep : ∀ (h : MultiwayHand) (x : Pot × Nat), Keeps h (h.awardPot x.1 x.2) := fun h x => awardPot_keeps h x.1 x.2
  exact Keeps.foldl hstep _ h

theorem closeShowdown_keeps (h : MultiwayHand) : Keeps h h.closeShowdown := by
  have hclear : Keeps h { h.clearContributions with toAct := none, phase := .showdown } :=
    (updateOccupied_keeps h _).trans ⟨rfl, rfl, rfl, id, id⟩
  exact hclear.trans (check_keeps _ _)

/-- Whatever it finds, a settlement ends the hand. -/
theorem resolveShowdown_ends (g : MultiwayHand) :
    Keeps g g.resolveShowdown ∧ g.resolveShowdown.phase = .showdown ∧ g.resolveShowdown.toAct = none :=
  ⟨((((returnUnmatched_keeps g).trans (evaluateShowdownOnce_keeps _)).trans (publishHands_keeps _)).trans
    (payPots_keeps _)).trans (closeShowdown_keeps _), rfl, rfl⟩

/-- A pot nobody can take stops the settlement. -/
theorem takers_of_ok (hp : g.Balanced) (he : g.showdownEvaluations = [] ∨ g.showdownEvaluations = g.evaluated)
    (hrev : g.revealedHands ≠ []) (hok : g.resolveShowdown.panicked = false) : g.Takers := by
  have ho := opened hp he hrev
  unfold resolveShowdown at hok
  generalize g.returnUnmatched.evaluateShowdownOnce.publishHands = h at ho hok
  intro pot hpot
  by_contra hnone
  have hloop : h.payPots.panicked = false := by
    by_contra hp'
    rw [(closeShowdown_keeps _).stop (by simpa using hp')] at hok
    cases hok
  -- the loop meets the pot with no evaluation among its eligible seats
  have hempty : pot.eligible = [] := List.eq_nil_iff_forall_not_mem.mpr fun p hp' => hnone ⟨p, hp'⟩
  have hstep : ∀ (h : MultiwayHand) (x : Pot × Nat), Keeps h (h.awardPot x.1 x.2) := fun h x => awardPot_keeps h x.1 x.2
  obtain ⟨x, hx, rfl⟩ : ∃ x ∈ h.pots.zipIdx, x.1 = pot := by
    rw [← ho.pots] at hpot
    exact List.mem_map.mp hpot
  obtain ⟨before, after, hsplit⟩ := List.append_of_mem hx
  rw [payPots, hsplit, List.foldl_append, List.foldl_cons] at hloop
  have hstop : ((before.foldl (fun h x => h.awardPot x.1 x.2) h).awardPot x.1 x.2).panicked = true := by
    simp [awardPot, bestOf, hempty, Vec.maxBy, check]
  rw [(Keeps.foldl hstep after _).stop hstop] at hloop
  cases hloop

end keeps

/-! ## The last seat in -/

/-- What the last seat in the hand wins. -/
theorem awardFold_some {h : MultiwayHand} {winner : SeatId}
    (hw : h.occupiedSeats.find? (fun p => (h.seat p).eligibleForPot) = some winner) :
    h.awardFold = { clearContributions { MultiwayHand.credit { MultiwayHand.check { h with showdownProgress := none }
        (fitsU32 (h.sumSeats (·.handContribution))) with settledContributions := h.contributionSnapshot } winner
        (h.sumSeats (·.handContribution)) with
          awards := [⟨0, h.sumSeats (·.handContribution), [winner], [winner], [⟨winner, h.sumSeats (·.handContribution)⟩]⟩] }
      with toAct := none, phase := .handComplete } := by
  simp only [awardFold]
  rw [show (MultiwayHand.occupiedSeats { h with showdownProgress := none }).find? _ = _ from hw]
  rfl

theorem awardFold_none {h : MultiwayHand} (hw : h.occupiedSeats.find? (fun p => (h.seat p).eligibleForPot) = none) :
    h.awardFold = MultiwayHand.check { h with showdownProgress := none } false := by
  simp only [awardFold]
  rw [show (MultiwayHand.occupiedSeats { h with showdownProgress := none }).find? _ = _ from hw]

/-- `h` is `g` after everybody but `winner` folded: `winner` has it all. -/
structure FoldedOut (g h : MultiwayHand) (winner : SeatId) : Prop where
  frame : h = { g with
    seats := h.seats
    showdownProgress := none
    settledContributions := g.contributionSnapshot
    awards := [⟨0, g.sumSeats (·.handContribution), [winner], [winner], [⟨winner, g.sumSeats (·.handContribution)⟩]⟩]
    toAct := none
    phase := .handComplete }
  length : h.seats.length = g.seats.length
  occupied : ∀ p, occupiedIn h.seats p = occupiedIn g.seats p
  eligible : (g.seat winner).eligibleForPot = true
  seat : ∀ p, occupiedIn g.seats p = true → h.seat p = { g.seat p with
    stack := (g.seat p).stack + if winner = p then g.sumSeats (·.handContribution) else 0
    streetContribution := 0
    handContribution := 0
    lastActionWager := none }
  total : h.totalChips = h.initialTotal

theorem awardFold_spec (hp : g.Balanced) (hone : g.potEligibleCount = 1) : ∃ winner, FoldedOut g g.awardFold winner := by
  have hb := hp.booked
  obtain ⟨winner, hfind⟩ : ∃ w, g.occupiedSeats.find? (fun p => (g.seat p).eligibleForPot) = some w := by
    refine Option.isSome_iff_exists.mp (List.find?_isSome.mpr ?_)
    obtain ⟨p, hp'⟩ := List.exists_mem_of_length_pos (show 0 < (g.occupiedSeats.filter _).length by
      rw [show (g.occupiedSeats.filter fun p => (g.seat p).eligibleForPot).length = 1 from hone]; exact Nat.one_pos)
    exact ⟨p, (List.mem_filter.mp hp').1, (List.mem_filter.mp hp').2⟩
  have hwin : (g.seat winner).eligibleForPot = true := by simpa using List.find?_some hfind
  generalize hamount : g.sumSeats (·.handContribution) = amount
  -- the pot and the winner's stack are within the table's total
  have hle : (g.seat winner).stack + amount ≤ u32Max := by
    have h1 : (g.seat winner).stack ≤ g.sumSeats (·.stack) :=
      le_sumSeats (·.stack) ((mem_occupiedSeats hb.length).mpr (occupied_of_eligible hwin))
    have h2 : g.sumSeats (·.stack) + amount = g.initialTotal := by rw [← hamount]; exact hp.total
    have := hp.fits
    omega
  have hfits : fitsU32 amount = true := decide_eq_true (by omega)
  have hpaid := creditAll_paid { g with showdownProgress := none, settledContributions := g.contributionSnapshot }
      [(winner, amount)]
  have hocc : occupiedIn g.seats winner = true := occupied_of_eligible hwin
  have hok := hpaid.ok (fun e he => by rw [List.mem_singleton.mp he]; exact hocc) fun p hp' => by
    rw [Ledger.credited_cons, Ledger.credited_nil]
    by_cases e : winner = p
    · subst e; rw [if_pos rfl]; exact hle
    · rw [if_neg e]
      have h1 := hb.fits p
      show (g.seat p).stack + (0 + 0) ≤ u32Max
      omega
  generalize hk : creditAll { g with showdownProgress := none, settledContributions := g.contributionSnapshot }
    [(winner, amount)] = k at hpaid hok
  have hfold : g.awardFold = { ({ k with awards := [⟨0, amount, [winner], [winner], [⟨winner, amount⟩]⟩] } :
      MultiwayHand).clearContributions with toAct := none, phase := .handComplete } := by
    rw [awardFold_some hfind, hamount, hfits, check_true, ← hk]
    rfl
  refine ⟨winner, ?_⟩
  generalize hc : ({ k with awards := [⟨0, amount, [winner], [winner], [⟨winner, amount⟩]⟩] } : MultiwayHand) = c at hfold
  have hckeep : c.seats = k.seats ∧ c.tableSize = g.tableSize ∧ c.panicked = false := by
    rw [← hc]; exact ⟨rfl, by rw [hpaid.frame], hok.trans hp.ok⟩
  have hlen : c.seats.length = c.tableSize.get := by
    rw [hckeep.1, hckeep.2.1, hpaid.length]; exact hb.length
  have hclear : SameTable c c.clearContributions := updateOccupied_table c _
  have hpan : c.clearContributions.panicked = false := (panicked_updateOccupied hlen).trans hckeep.2.2
  have hoccc : ∀ p, occupiedIn c.seats p = occupiedIn g.seats p := fun p => by rw [hckeep.1]; exact hpaid.occupied p
  have hseat : ∀ p, occupiedIn g.seats p = true → c.clearContributions.seat p = { g.seat p with
      stack := (g.seat p).stack + if winner = p then amount else 0
      streetContribution := 0
      handContribution := 0
      lastActionWager := none } := fun p hp' => by
    have h1 : c.clearContributions.seat p = _ := seat_updateOccupied hlen (by rw [hoccc]; exact hp')
    have h2 : c.seat p = k.seat p := by simp only [seat, hckeep.1]
    rw [h1, h2, hpaid.seat p hp', Ledger.credited_cons, Ledger.credited_nil]
    rfl
  have hseats : c.clearContributions.occupiedSeats = g.occupiedSeats := by
    simp only [occupiedSeats, show c.clearContributions.tableSize = g.tableSize by rw [hclear.frame]; exact hckeep.2.1]
    exact List.filter_congr fun p _ => (hclear.occupied p).trans (hoccc p)
  have htotal : c.clearContributions.totalChips = g.initialTotal := by
    rw [← hp.total, totalChips, totalChips, sumSeats, sumSeats, hseats, hamount]
    have hm : ∀ p ∈ g.occupiedSeats, occupiedIn g.seats p = true := fun p hm => (mem_occupiedSeats hb.length).mp hm
    have hzero : (g.occupiedSeats.map fun p => (c.clearContributions.seat p).handContribution).sum = 0 := by
      refine List.sum_eq_zero_iff_forall_eq_nat.mpr fun x hx => ?_
      obtain ⟨p, hp', rfl⟩ := List.mem_map.mp hx
      rw [hseat p (hm p hp')]
    have hup := Ledger.sum_update (nodup_occupiedSeats g) ((mem_occupiedSeats hb.length).mpr hocc)
      (f := fun p => (g.seat p).stack) (g := fun p => (c.clearContributions.seat p).stack) fun q hq hne => by
        rw [hseat q (hm q hq), if_neg (Ne.symm hne)]; rfl
    simp only [hseat winner hocc, if_true] at hup
    rw [hzero]
    show (g.occupiedSeats.map fun p => (c.clearContributions.seat p).stack).sum + 0 =
      (g.occupiedSeats.map fun p => (g.seat p).stack).sum + amount
    omega
  have hcframe : c.clearContributions = { g with
      seats := c.clearContributions.seats
      showdownProgress := none
      settledContributions := g.contributionSnapshot
      awards := [⟨0, amount, [winner], [winner], [⟨winner, amount⟩]⟩] } := by
    rw [hclear.frame, hpan, ← hc, hpaid.frame, hp.ok]
  rw [hfold]
  refine ⟨?_, ?_, fun p => (hclear.occupied p).trans (hoccc p), hwin, by rw [hamount]; exact hseat, ?_⟩
  · rw [hcframe, hamount]
  · show c.clearContributions.seats.length = g.seats.length
    rw [hclear.length, hckeep.1, hpaid.length]
  · show c.clearContributions.totalChips = c.clearContributions.initialTotal
    rw [htotal, hcframe]

end settle

end MultiwayHand

end OpenFelt
