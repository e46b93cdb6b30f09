/-
  OpenFelt.Game.RelabelledPlay — a hand played at two sets of seats.

  Every operation of a hand takes relabelled hands to relabelled hands: settlement, the
  showdown's reveals, the streets, the actions, and so every call a player or the table makes
  and every run of calls. The odd chips, the show order and the next to act go clockwise and so
  survive the renaming; the fold winner and the first to act by number are sole candidates.
-/

import OpenFelt.Game.Relabelled

namespace OpenFelt

variable {π : Equiv.Perm SeatId}

namespace Relabelled

open MultiwayHand

variable {h h' : MultiwayHand} {p : SeatId} {pot pot' : Pot}

/-! ### Fields written -/

theorem setSettled (hr : Relabelled π h h') {l l' : List Contribution} (hl : SameEntries π l l') :
    Relabelled π { h with settledContributions := l } { h' with settledContributions := l' } :=
  { hr with settledContributions := hl }

theorem setAwards (hr : Relabelled π h h') {l l' : List PotAward} (hl : List.Forall₂ (SameAward π) l l') :
    Relabelled π { h with awards := l } { h' with awards := l' } := { hr with awards := hl }

theorem setProgress (hr : Relabelled π h h') (progress : Option ShowdownProgress) :
    Relabelled π { h with showdownProgress := progress } { h' with showdownProgress := progress.map (·.relabel π) } :=
  { hr with showdownProgress := rfl }

theorem setPhase (hr : Relabelled π h h') (phase : MultiwayPhase) :
    Relabelled π { h with phase := phase } { h' with phase := phase } := { hr with phase := rfl }

theorem setToAct (hr : Relabelled π h h') (toAct : Option SeatId) :
    Relabelled π { h with toAct := toAct } { h' with toAct := toAct.map π } := { hr with toAct := rfl }

theorem setOver (hr : Relabelled π h h') (phase : MultiwayPhase) :
    Relabelled π { h with toAct := none, phase := phase } { h' with toAct := none, phase := phase } :=
  { hr with toAct := rfl, phase := rfl }

/-! ### Settlement -/

/-- The one seat left in the hand is the same seat. -/
theorem awardFold (hr : Relabelled π h h') (hone : h.potEligibleCount = 1) : Relabelled π h.awardFold h'.awardFold := by
  have hlist := hr.filter_occupied (·.eligibleForPot)
  obtain ⟨winner, hw⟩ := List.length_eq_one_iff.mp hone
  rw [hw] at hlist
  have hw' : h'.occupiedSeats.filter (fun p => (h'.seat p).eligibleForPot) = [π winner] := List.perm_singleton.mp hlist
  have hfind : h.occupiedSeats.find? (fun p => (h.seat p).eligibleForPot) = some winner := by
    rw [← List.head?_filter, hw]; rfl
  have hfind' : h'.occupiedSeats.find? (fun p => (h'.seat p).eligibleForPot) = some (π winner) := by
    rw [← List.head?_filter, hw']; rfl
  unfold MultiwayHand.awardFold
  dsimp only
  rw [show (MultiwayHand.occupiedSeats { h with showdownProgress := none }).find? _ = _ from hfind,
    show (MultiwayHand.occupiedSeats { h' with showdownProgress := none }).find? _ = _ from hfind']
  dsimp only
  have hstill := hr.setProgress none
  rw [Option.map_none] at hstill
  rw [hstill.sumSeats (·.handContribution)]
  have hchecked := hstill.check (fitsU32 (MultiwayHand.sumSeats { h with showdownProgress := none } (·.handContribution)))
  have hpaid := (hchecked.setSettled hchecked.contributionSnapshot).credit winner
    (MultiwayHand.sumSeats { h with showdownProgress := none } (·.handContribution))
  have hsole : ∀ amount, SameAward π ⟨0, amount, [winner], [winner], [⟨winner, amount⟩]⟩
      ⟨0, amount, [π winner], [π winner], [⟨π winner, amount⟩]⟩ := fun amount => ⟨rfl, rfl, .refl _, rfl, rfl⟩
  exact ((hpaid.setAwards (.cons (hsole _) .nil)).clearContributions).setOver _

theorem evaluateShowdownOnce (hr : Relabelled π h h') : Relabelled π h.evaluateShowdownOnce h'.evaluateShowdownOnce := by
  unfold MultiwayHand.evaluateShowdownOnce
  rw [hr.evaluated]
  split
  · have hlist := hr.filter_occupied (·.eligibleForPot)
    have hempty := hlist.length_eq
    rw [List.length_map] at hempty
    have hlookup : ∀ p, ((h'.occupiedSeats.filter fun q => (h'.seat q).eligibleForPot).map fun q =>
        (q, evaluateHand (h'.seat q).holeCards h'.board)).lookup (π p) =
        ((h.occupiedSeats.filter fun q => (h.seat q).eligibleForPot).map fun q =>
          (q, evaluateHand (h.seat q).holeCards h.board)).lookup p := by
      intro p
      have hmem := hlist.mem_iff (a := π p)
      rw [List.mem_map_of_injective π.injective] at hmem
      rw [lookup_evaluated _ (fun q => evaluateHand (h'.seat q).holeCards h'.board),
        lookup_evaluated _ (fun q => evaluateHand (h.seat q).holeCards h.board), hr.board]
      by_cases hp : p ∈ h.occupiedSeats.filter fun q => (h.seat q).eligibleForPot
      · rw [if_pos hp, if_pos (hmem.mpr hp), hr.seat]
      · rw [if_neg hp, if_neg fun hp' => hp (hmem.mp hp')]
    refine { hr with evaluated := ?_, evaluationOf := hlookup }
    rw [Bool.eq_iff_iff, List.isEmpty_iff, List.isEmpty_iff, List.map_eq_nil_iff, List.map_eq_nil_iff,
      ← List.length_eq_zero_iff, ← List.length_eq_zero_iff, hempty]
  · exact hr

theorem awardOrder (hr : Relabelled π h h') {l l' : List SeatId} (hl : ∀ p ∈ l, occupiedIn h.seats p = true)
    (hperm : l'.Perm (l.map π)) : h'.awardOrder l' = (h.awardOrder l).map π := by
  unfold MultiwayHand.awardOrder
  rw [hr.button]
  exact hr.ring.sorted hr.ring.held hl hperm

theorem idxOf_map {l : List SeatId} (p : SeatId) : (l.map π).idxOf? (π p) = l.idxOf? p := by
  induction l with
  | nil => rfl
  | cons a l ih =>
    rw [List.map_cons, List.idxOf?_cons, List.idxOf?_cons, ih]
    by_cases e : a = p
    · rw [e, beq_self_eq_true, beq_self_eq_true]
    · rw [beq_false_of_ne e, beq_false_of_ne fun e' => e (π.injective e')]

theorem showOrder (hr : Relabelled π h h') : h'.showOrder = h.showOrder.map π := by
  have horder : h'.awardOrder (h'.occupiedSeats.filter fun p => (h'.seat p).eligibleForPot) =
      (h.awardOrder (h.occupiedSeats.filter fun p => (h.seat p).eligibleForPot)).map π :=
    hr.awardOrder (fun p hp => hr.mem_occupiedSeats.mp (List.mem_filter.mp hp).1) (hr.filter_occupied (·.eligibleForPot))
  unfold MultiwayHand.showOrder
  dsimp only
  rw [horder, hr.actionHistory, ← List.map_reverse, List.find?_map, Option.map_map]
  have hsame : ∀ raises : MultiwayActionRecord → Bool, (∀ r : MultiwayActionRecord, raises (r.relabel π) = raises r) →
      raises ∘ (fun r => MultiwayActionRecord.relabel π r) = raises := fun raises hs => funext hs
  rw [hsame _ fun r => rfl]
  generalize h.actionHistory.reverse.find? _ = found
  cases found with
  | none => rfl
  | some record =>
    simp only [Option.map_some, Option.bind_some, Function.comp_apply, MultiwayActionRecord.relabel, idxOf_map]
    cases (h.awardOrder (h.occupiedSeats.filter fun p => (h.seat p).eligibleForPot)).idxOf? record.seat with
    | none => rfl
    | some index => rw [List.map_append, List.map_drop, List.map_take]

theorem tabledAs (hr : Relabelled π h h') (p : SeatId) : h'.tabledAs (π p) = h.tabledAs p := by
  rw [MultiwayHand.tabledAs, MultiwayHand.tabledAs, hr.evaluationOf]

theorem revealed_any (hr : Relabelled π h h') {g g' : RevealedHand → Bool}
    (hsame : ∀ shown : RevealedHand, g' (shown.relabel π) = g shown) :
    h'.revealedHands.any g' = h.revealedHands.any g := by
  rw [hr.revealedHands, List.any_map]
  exact congrArg _ (funext hsame)

theorem tableCards (hr : Relabelled π h h') (p : SeatId) : Relabelled π (h.tableCards p) (h'.tableCards (π p)) := by
  unfold MultiwayHand.tableCards
  have hshown : h'.revealedHands.any (·.seat == π p) = h.revealedHands.any (·.seat == p) :=
    hr.revealed_any fun shown => by
      rw [Bool.eq_iff_iff, beq_iff_eq, beq_iff_eq]
      exact π.injective.eq_iff
  rw [hshown, hr.tabledAs]
  split
  · exact hr
  · refine { hr with revealedHands := ?_ }
    dsimp only
    rw [hr.revealedHands, List.map_append]
    rfl

theorem strictlyBetter (hr : Relabelled π h h') (shown p : SeatId) :
    h'.strictlyBetter (π shown) (π p) = h.strictlyBetter shown p := by
  rw [MultiwayHand.strictlyBetter, MultiwayHand.strictlyBetter, hr.evaluationOf, hr.evaluationOf]

theorem samePot_contains (hp : SamePot π pot pot') (p : SeatId) : pot'.eligible.contains (π p) = pot.eligible.contains p := by
  rw [Bool.eq_iff_iff, List.contains_iff_mem, List.contains_iff_mem, hp.eligible.mem_iff, List.mem_map_of_injective π.injective]


/-- Hands already tabled justify the same mucks. -/
theorem beatenByTabledHands (hr : Relabelled π h h') (p : SeatId) : h'.beatenByTabledHands (π p) = h.beatenByTabledHands p := by
  have hpots := (SameEntries.buildPots hr.contributionSnapshot).1
  unfold MultiwayHand.beatenByTabledHands
  dsimp only
  generalize (buildPots h.contributionSnapshot).pots = pots at hpots
  generalize (buildPots h'.contributionSnapshot).pots = pots' at hpots
  have hin : ∀ {pot pot'}, SamePot π pot pot' → pot'.eligible.contains (π p) = pot.eligible.contains p :=
    fun hp => samePot_contains hp p
  have hbeats : ∀ {pot pot'}, SamePot π pot pot' →
      (h'.revealedHands.any fun shown => pot'.eligible.contains shown.seat && h'.strictlyBetter shown.seat (π p)) =
        h.revealedHands.any fun shown => pot.eligible.contains shown.seat && h.strictlyBetter shown.seat p :=
    fun hp => hr.revealed_any fun shown => by
      rw [show (shown.relabel π).seat = π shown.seat from rfl, samePot_contains hp, hr.strictlyBetter]
  have hboth : (pots'.filter fun pot => pot.eligible.contains (π p)).isEmpty =
      (pots.filter fun pot => pot.eligible.contains p).isEmpty ∧
      ((pots'.filter fun pot => pot.eligible.contains (π p)).all fun pot =>
        h'.revealedHands.any fun shown => pot.eligible.contains shown.seat && h'.strictlyBetter shown.seat (π p)) =
      (pots.filter fun pot => pot.eligible.contains p).all fun pot =>
        h.revealedHands.any fun shown => pot.eligible.contains shown.seat && h.strictlyBetter shown.seat p := by
    induction hpots with
    | nil => exact ⟨rfl, rfl⟩
    | @cons pot pot' pots pots' hp _ ih =>
      rw [List.filter_cons, List.filter_cons, hin hp]
      split
      · exact ⟨rfl, by rw [List.all_cons, List.all_cons, hbeats hp, ih.2]⟩
      · exact ih
  rw [hboth.1, hboth.2]

theorem alwaysShow_contains (hr : Relabelled π h h') (p : SeatId) : h'.alwaysShow.contains (π p) = h.alwaysShow.contains p := by
  rw [Bool.eq_iff_iff, List.contains_iff_mem, List.contains_iff_mem, hr.alwaysShow, List.mem_map_of_injective π.injective]

theorem muck (hr : Relabelled π h h') (p : SeatId) :
    Relabelled π { h with muckedHands := h.muckedHands ++ [p] } { h' with muckedHands := h'.muckedHands ++ [π p] } := by
  refine { hr with muckedHands := ?_ }
  dsimp only
  rw [hr.muckedHands, List.map_append]
  rfl

theorem revealSynchronously (hr : Relabelled π h h') : Relabelled π h.revealSynchronously h'.revealSynchronously := by
  unfold MultiwayHand.revealSynchronously
  dsimp only
  rw [hr.showOrder, hr.anyAllIn]
  refine foldl (fun k k' p hk => ?_) hr h.showOrder
  rw [hk.alwaysShow_contains, hk.beatenByTabledHands]
  split
  · exact hk.tableCards p
  · exact hk.muck p

theorem describeRevealed (hr : Relabelled π h h') : Relabelled π h.describeRevealed h'.describeRevealed := by
  refine { hr with revealedHands := ?_ }
  unfold MultiwayHand.describeRevealed
  dsimp only
  rw [hr.revealedHands, List.map_map, List.map_map]
  refine List.map_congr_left fun shown _ => ?_
  simp only [Function.comp_apply]
  rw [show (shown.relabel π).seat = π shown.seat from rfl, hr.evaluationOf]
  split <;> rfl

theorem publishHands (hr : Relabelled π h h') : Relabelled π h.publishHands h'.publishHands := by
  have hnone : h'.revealedHands.isEmpty = h.revealedHands.isEmpty := by rw [hr.revealedHands, List.isEmpty_map]
  unfold MultiwayHand.publishHands
  rw [hnone]
  split
  · exact hr.revealSynchronously.describeRevealed
  · exact hr.describeRevealed

/-! ### Awards -/

theorem evaluations (hr : Relabelled π h h') (hp : SamePot π pot pot') :
    (pot'.eligible.filterMap h'.evaluationOf).Perm (pot.eligible.filterMap h.evaluationOf) := by
  have hall := hp.eligible.filterMap h'.evaluationOf
  rw [List.filterMap_map] at hall
  rwa [show h'.evaluationOf ∘ π = h.evaluationOf from funext hr.evaluationOf] at hall

/-- The best hands of a pot compare alike, whichever of equals is found. -/
theorem bestOf (hr : Relabelled π h h') (hp : SamePot π pot pot') : (h.bestOf pot = none ∧ h'.bestOf pot' = none) ∨
    ∃ best best', h.bestOf pot = some best ∧ h'.bestOf pot' = some best' ∧ compareHands best best' = .eq := by
  have hall := hr.evaluations hp
  unfold MultiwayHand.bestOf
  cases hbest : Vec.maxBy compareHands (pot.eligible.filterMap h.evaluationOf) with
  | none =>
    have hnil : pot.eligible.filterMap h.evaluationOf = [] := by
      by_contra hne
      have hsome : (Vec.maxBy compareHands (pot.eligible.filterMap h.evaluationOf)).isSome := Vec.maxBy_isSome hne
      rw [hbest] at hsome
      cases hsome
    rw [hnil] at hall
    exact Or.inl ⟨rfl, by rw [List.perm_nil.mp hall]; rfl⟩
  | some best =>
    obtain ⟨hmem, hle⟩ := Vec.maxBy_spec hbest
    cases hbest' : Vec.maxBy compareHands (pot'.eligible.filterMap h'.evaluationOf) with
    | none =>
      have hsome : (Vec.maxBy compareHands (pot'.eligible.filterMap h'.evaluationOf)).isSome :=
        Vec.maxBy_isSome (List.ne_nil_of_mem (hall.mem_iff.mpr hmem))
      rw [hbest'] at hsome
      cases hsome
    | some best' =>
      obtain ⟨hmem', hle'⟩ := Vec.maxBy_spec hbest'
      have hup := hle' best (hall.mem_iff.mpr hmem)
      have hdown := hle best' (hall.mem_iff.mp hmem')
      refine Or.inr ⟨best, best', rfl, rfl, ?_⟩
      rw [show compareHands best' best = (compareHands best best').swap from Std.OrientedCmp.eq_swap] at hdown
      cases hc : compareHands best best' with
      | eq => rfl
      | lt => rw [hc] at hdown; cases hdown
      | gt => rw [hc] at hup; cases hup

theorem winnersOf (hr : Relabelled π h h') (hp : SamePot π pot pot') (hseated : ∀ p ∈ pot.eligible, occupiedIn h.seats p = true)
    {best best' : HandEvaluation} (hbest : compareHands best best' = .eq) :
    h'.winnersOf pot' best' = (h.winnersOf pot best).map π := by
  have hsame : ∀ hand, compareHands hand best' = compareHands hand best := fun hand => (Std.TransCmp.congr_right hbest).symm
  refine hr.awardOrder (fun p hpf => hseated p (List.mem_filter.mp hpf).1) ?_
  refine (hp.eligible.filter _).trans ?_
  rw [List.filter_map]
  refine .of_eq (congrArg _ (List.filter_congr fun p _ => ?_))
  rw [Function.comp_apply, hr.evaluationOf]
  cases h.evaluationOf p with
  | none => rfl
  | some hand => exact congrArg (· == Ordering.eq) (hsame hand)

theorem potPayouts_map (amount : Nat) (winners : List SeatId) :
    potPayouts amount (winners.map π) = (potPayouts amount winners).map (·.relabel π) := by
  unfold MultiwayHand.potPayouts
  rw [List.zipIdx_map, List.map_map, List.map_map, List.length_map]
  rfl

theorem payAll (hr : Relabelled π h h') (payouts : List SeatPayout) :
    Relabelled π (payouts.foldl (fun h payout => h.credit payout.seat payout.amount) h)
      ((payouts.map (·.relabel π)).foldl (fun h payout => h.credit payout.seat payout.amount) h') :=
  foldl (fun _ _ payout hk => hk.credit payout.seat payout.amount) hr payouts

theorem addAward (hr : Relabelled π h h') {award award' : PotAward} (ha : SameAward π award award') :
    Relabelled π { h with awards := h.awards ++ [award] } { h' with awards := h'.awards ++ [award'] } :=
  hr.setAwards (List.rel_append hr.awards (.cons ha .nil))

theorem awardPot (hr : Relabelled π h h') (hp : SamePot π pot pot') (hseated : ∀ p ∈ pot.eligible, occupiedIn h.seats p = true)
    (i : Nat) : Relabelled π (h.awardPot pot i) (h'.awardPot pot' i) := by
  unfold MultiwayHand.awardPot
  rcases hr.bestOf hp with ⟨hnone, hnone'⟩ | ⟨best, best', hsome, hsome', hbest⟩
  · rw [hnone, hnone']
    exact hr.check _
  · rw [hsome, hsome']
    have hwinners := hr.winnersOf hp hseated hbest
    have haward : SameAward π (h.potAward pot i best) (h'.potAward pot' i best') := by
      refine ⟨rfl, hp.amount, hp.eligible, hwinners, ?_⟩
      simp only [MultiwayHand.potAward]
      rw [hwinners, hp.amount, potPayouts_map]
    dsimp only
    have hfits : ((h'.potAward pot' i best').payouts.all fun payout => fitsU32 payout.amount) =
        (h.potAward pot i best).payouts.all fun payout => fitsU32 payout.amount := by
      rw [haward.payouts, List.all_map]
      rfl
    rw [hfits, haward.payouts]
    exact ((hr.check _).payAll (h.potAward pot i best).payouts).addAward haward


theorem payFrom {pots pots' : List Pot} (hr : Relabelled π h h') (hpots : List.Forall₂ (SamePot π) pots pots')
    (hseated : ∀ pot ∈ pots, ∀ p ∈ pot.eligible, occupiedIn h.seats p = true) (i : Nat) :
    Relabelled π ((pots.zipIdx i).foldl (fun h x => h.awardPot x.1 x.2) h)
      ((pots'.zipIdx i).foldl (fun h x => h.awardPot x.1 x.2) h') := by
  induction hpots generalizing h h' i with
  | nil => exact hr
  | @cons pot pot' pots pots' hp _ ih =>
    rw [List.zipIdx_cons, List.zipIdx_cons, List.foldl_cons, List.foldl_cons]
    refine ih (hr.awardPot hp (hseated pot List.mem_cons_self) i) (fun q hq p hp => ?_) (i + 1)
    rw [(awardPot_seats h pot i).occupied]
    exact hseated q (List.mem_cons_of_mem _ hq) p hp

theorem payPots (hr : Relabelled π h h') : Relabelled π h.payPots h'.payPots := hr.payFrom hr.pots hr.potsSeated 0

theorem payReturned (hr : Relabelled π h h') (returned : List ReturnedExcess) :
    Relabelled π (returned.foldl (fun h returned => h.credit returned.seat returned.amount) h)
      ((returned.map (·.relabel π)).foldl (fun h returned => h.credit returned.seat returned.amount) h') :=
  foldl (fun _ _ returned hk => hk.credit returned.seat returned.amount) hr returned

theorem setBuild (hr : Relabelled π h h') {build build' : PotBuild} (hpots : List.Forall₂ (SamePot π) build.pots build'.pots)
    (hreturned : build'.returned = build.returned.map (·.relabel π))
    (hseated : ∀ pot ∈ build.pots, ∀ p ∈ pot.eligible, occupiedIn h.seats p = true) :
    Relabelled π { h with pots := build.pots, returnedExcess := build.returned }
      { h' with pots := build'.pots, returnedExcess := build'.returned } :=
  { hr with pots := hpots, returnedExcess := hreturned, potsSeated := hseated }

theorem returnUnmatched (hr : Relabelled π h h') : Relabelled π h.returnUnmatched h'.returnUnmatched := by
  have hentries : SameEntries π h.contributionSnapshot h'.contributionSnapshot := hr.contributionSnapshot
  obtain ⟨hpots, hreturned⟩ := hentries.buildPots
  have hseated : ∀ pot ∈ (buildPots h.contributionSnapshot).pots, ∀ p ∈ pot.eligible, occupiedIn h.seats p = true := by
    intro pot hpot p hp
    obtain ⟨_, _, _, _, heligible⟩ := mem_pots hpot
    obtain ⟨entry, hentry, rfl, _⟩ := (heligible p).mp hp
    obtain ⟨q, hq, rfl⟩ := List.mem_map.mp hentry
    exact hr.mem_occupiedSeats.mp hq
  unfold MultiwayHand.returnUnmatched
  dsimp only
  rw [hentries.potLevels, hentries.layersInRange, hreturned]
  have hchecked := (hr.setSettled hentries).check (layersInRange h.contributionSnapshot 0 (potLevels h.contributionSnapshot))
  rw [← hreturned]
  have hbuilt := hchecked.setBuild hpots hreturned hseated
  rw [hreturned] at hbuilt ⊢
  exact hbuilt.payReturned _

theorem checkTotal (hr : Relabelled π h h') : Relabelled π (h.check (fitsU32 h.totalChips && h.totalChips = h.initialTotal))
    (h'.check (fitsU32 h'.totalChips && h'.totalChips = h'.initialTotal)) := by
  rw [hr.totalChips, hr.initialTotal]
  exact hr.check _

theorem closeShowdown (hr : Relabelled π h h') : Relabelled π h.closeShowdown h'.closeShowdown :=
  (hr.clearContributions.setOver .showdown).checkTotal

theorem resolveShowdown (hr : Relabelled π h h') : Relabelled π h.resolveShowdown h'.resolveShowdown :=
  hr.returnUnmatched.evaluateShowdownOnce.publishHands.payPots.closeShowdown

/-! ### Showdown -/

theorem dealBoard (hr : Relabelled π h h') (count : Nat) : Relabelled π (h.dealBoard count) (h'.dealBoard count) := by
  unfold MultiwayHand.dealBoard
  rw [hr.deck, hr.board]
  exact { hr with board := rfl, deck := rfl }

theorem moveProgress (hr : Relabelled π h h') {f f' : ShowdownProgress → ShowdownProgress}
    (hf : ∀ progress : ShowdownProgress, f' (progress.relabel π) = (f progress).relabel π) :
    Relabelled π { h with showdownProgress := h.showdownProgress.map f }
      { h' with showdownProgress := h'.showdownProgress.map f' } := by
  refine { hr with showdownProgress := ?_ }
  dsimp only
  rw [hr.showdownProgress, Option.map_map, Option.map_map]
  exact congrArg (h.showdownProgress.map ·) (funext hf)

theorem revealFrom (hr : Relabelled π h h') (order : List SeatId) :
    (revealFrom (order.map π) h').1 = (revealFrom order h).1 ∧
      Relabelled π (revealFrom order h).2 (revealFrom (order.map π) h').2 := by
  induction order generalizing h h' with
  | nil => exact ⟨rfl, hr⟩
  | cons p rest ih =>
    let further (progress : ShowdownProgress) : ShowdownProgress := { progress with cursor := progress.cursor + 1 }
    have hnext : Relabelled π { h with showdownProgress := h.showdownProgress.map further }
        { h' with showdownProgress := h'.showdownProgress.map further } := hr.moveProgress fun _ => rfl
    rw [List.map_cons, MultiwayHand.revealFrom, MultiwayHand.revealFrom]
    dsimp only
    rw [show List.contains h'.alwaysShow (π p) = h.alwaysShow.contains p from hr.alwaysShow_contains p, hnext.beatenByTabledHands]
    split
    · exact ⟨rfl, hnext.tableCards p⟩
    · have hmucked := hnext.muck p
      refine ih (hmucked.moveProgress fun progress => ?_)
      simp only [ShowdownProgress.relabel]
      rw [hr.muckedHands, List.map_append]
      rfl

theorem advanceShowdown (hr : Relabelled π h h') :
    h'.advanceShowdown.1 = h.advanceShowdown.1 ∧ Relabelled π h.advanceShowdown.2 h'.advanceShowdown.2 := by
  unfold MultiwayHand.advanceShowdown
  rw [hr.showdownProgress]
  cases h.showdownProgress with
  | none => exact ⟨rfl, hr⟩
  | some progress =>
    rw [Option.map_some]
    dsimp only
    rw [hr.potEligibleCount]
    by_cases hone : h.potEligibleCount = 1
    · rw [if_pos hone, if_pos hone]
      exact ⟨rfl, hr.awardFold hone⟩
    rw [if_neg hone, if_neg hone, show (progress.relabel π).allIn = progress.allIn from rfl, hr.board]
    split
    · have hcards : h'.runoutCards = h.runoutCards := by rw [MultiwayHand.runoutCards, MultiwayHand.runoutCards, hr.board]
      have hdealt := hr.dealBoard h.runoutCards
      have hphase : (h'.dealBoard h.runoutCards).runoutPhase = (h.dealBoard h.runoutCards).runoutPhase := by
        rw [MultiwayHand.runoutPhase, MultiwayHand.runoutPhase, hdealt.board]
      rw [hcards, hphase]
      exact ⟨rfl, hdealt.setPhase _⟩
    · obtain ⟨hmoved, hrevealed⟩ := hr.revealFrom (progress.order.drop progress.cursor)
      have horder : (progress.relabel π).order.drop (progress.relabel π).cursor =
          (progress.order.drop progress.cursor).map π := by
        rw [List.map_drop]; rfl
      rw [horder]
      rcases hfrom : MultiwayHand.revealFrom (progress.order.drop progress.cursor) h with ⟨moved, g⟩
      rcases hfrom' : MultiwayHand.revealFrom ((progress.order.drop progress.cursor).map π) h' with ⟨moved', g'⟩
      rw [hfrom, hfrom'] at hmoved hrevealed
      obtain rfl : moved' = moved := hmoved
      cases moved' with
      | true => exact ⟨rfl, hrevealed⟩
      | false => exact ⟨rfl, (hrevealed.setProgress none).resolveShowdown⟩

theorem showdownFuel (hr : Relabelled π h h') : h'.showdownFuel = h.showdownFuel := by
  unfold MultiwayHand.showdownFuel
  rw [hr.showdownProgress, hr.board]
  cases h.showdownProgress with
  | none => rfl
  | some progress =>
    rw [Option.map_some]
    dsimp only
    rw [show (progress.relabel π).order.length = progress.order.length from List.length_map _]
    rfl

theorem drainShowdown (hr : Relabelled π h h') (fuel : Nat) : Relabelled π (drainShowdown fuel h) (drainShowdown fuel h') := by
  induction fuel generalizing h h' with
  | zero => exact hr
  | succ fuel ih =>
    obtain ⟨hmoved, hnext⟩ := hr.advanceShowdown
    rw [MultiwayHand.drainShowdown, MultiwayHand.drainShowdown]
    rcases hadvance : h.advanceShowdown with ⟨moved, g⟩
    rcases hadvance' : h'.advanceShowdown with ⟨moved', g'⟩
    rw [hadvance, hadvance'] at hmoved hnext
    obtain rfl : moved' = moved := hmoved
    cases moved' with
    | true => exact ih hnext
    | false => exact hnext

theorem openShowdown (hr : Relabelled π h h') (allIn : Bool) : Relabelled π (h.openShowdown allIn) (h'.openShowdown allIn) := by
  have hclosed := hr.setToAct none
  rw [Option.map_none] at hclosed
  unfold MultiwayHand.openShowdown
  dsimp only
  cases allIn with
  | true =>
    simp only [if_true]
    rw [hclosed.showOrder]
    have htabled := foldl (fun _ _ p hk => hk.tableCards p) hclosed (MultiwayHand.showOrder { h with toAct := none })
    rw [List.length_map]
    exact htabled.setProgress (some ⟨true, _, _, []⟩)
  | false =>
    have hevaluated := hclosed.evaluateShowdownOnce
    simp only [Bool.false_eq_true, if_false]
    rw [hevaluated.showOrder]
    cases (MultiwayHand.evaluateShowdownOnce { h with toAct := none }).showOrder with
    | nil => exact hevaluated.setProgress (some ⟨false, [], 0, []⟩)
    | cons first rest => exact (hevaluated.tableCards first).setProgress (some ⟨false, first :: rest, 1, []⟩)

theorem beginShowdown (hr : Relabelled π h h') (allIn : Bool) :
    Relabelled π (h.beginShowdown allIn) (h'.beginShowdown allIn) := by
  unfold MultiwayHand.beginShowdown
  rw [hr.potEligibleCount]
  by_cases hone : h.potEligibleCount = 1
  · rw [if_pos hone, if_pos hone]
    exact hr.awardFold hone
  rw [if_neg hone, if_neg hone]
  have hopened := hr.openShowdown allIn
  dsimp only
  rw [hopened.pacedShowdown, hopened.showdownFuel]
  split
  · exact hopened
  · exact hopened.drainShowdown _


/-! ### Streets -/

theorem clearStreet (hr : Relabelled π h h') : Relabelled π h.clearStreet h'.clearStreet := by
  have hcleared := hr.updateOccupied fun state => { state with streetContribution := 0, lastActionWager := none }
  unfold MultiwayHand.clearStreet
  rw [hr.blindValues]
  exact { hcleared with currentWager := rfl, lastFullRaiseSize := rfl, toAct := rfl }

theorem firstPostflop_occupied (hr : Relabelled π h h') (hp : h.firstPostflop = some p) : occupiedIn h.seats p = true := by
  unfold MultiwayHand.firstPostflop at hp
  cases hlive : h.nextLiveAfter h.button with
  | some q =>
    rw [hlive, Option.some_or] at hp
    obtain rfl := Option.some.inj hp
    have hfound := List.find?_some hlive
    exact (Bool.and_eq_true _ _ ▸ hfound).1
  | none =>
    rw [hlive, Option.none_or] at hp
    exact hr.mem_occupiedSeats.mp (List.mem_of_find?_eq_some hp)

theorem openStreet (hr : Relabelled π h h') : Relabelled π h.openStreet h'.openStreet := by
  have hfirst : h'.firstPostflop.bind h'.firstNeedingFrom = (h.firstPostflop.bind h.firstNeedingFrom).map π := by
    rw [hr.firstPostflop]
    cases hp : h.firstPostflop with
    | none => rfl
    | some p => exact hr.firstNeedingFrom (hr.firstPostflop_occupied hp)
  unfold MultiwayHand.openStreet
  rw [hfirst]
  exact hr.setToAct _

theorem advanceStreetFrom (hr : Relabelled π h h') (fuel : Nat) :
    Relabelled π (advanceStreetFrom fuel h) (advanceStreetFrom fuel h') := by
  induction fuel generalizing h h' with
  | zero => exact hr
  | succ fuel ih =>
    have hsettle : ∀ {k k' : MultiwayHand}, Relabelled π k k' →
        Relabelled π
          (if k.openStreet.bettingRoundComplete = true then MultiwayHand.advanceStreetFrom fuel k.openStreet
            else k.openStreet)
          (if k'.openStreet.bettingRoundComplete = true then MultiwayHand.advanceStreetFrom fuel k'.openStreet
            else k'.openStreet) := by
      intro k k' hk
      rw [hk.openStreet.bettingRoundComplete]
      split
      · exact ih hk.openStreet
      · exact hk.openStreet
    rw [MultiwayHand.advanceStreetFrom, MultiwayHand.advanceStreetFrom, hr.potEligibleCount]
    by_cases hone : h.potEligibleCount = 1
    · rw [if_pos hone, if_pos hone]
      exact hr.awardFold hone
    rw [if_neg hone, if_neg hone]
    dsimp only
    rw [hr.phase, hr.bettingLocked, hr.anyAllIn]
    split
    · exact hr.beginShowdown _
    · have hcleared := hr.clearStreet
      rw [hcleared.phase]
      split
      · exact hsettle ((hcleared.dealBoard 3).setPhase .flop)
      · exact hsettle ((hcleared.dealBoard 1).setPhase .turn)
      · exact hsettle ((hcleared.dealBoard 1).setPhase .river)
      · exact hcleared.resolveShowdown
      · exact hcleared

theorem advanceStreet (hr : Relabelled π h h') : Relabelled π h.advanceStreet h'.advanceStreet := by
  unfold MultiwayHand.advanceStreet
  rw [hr.phase]
  exact hr.advanceStreetFrom _

theorem advanceAutomaticallyIfNeeded (hr : Relabelled π h h') :
    Relabelled π h.advanceAutomaticallyIfNeeded h'.advanceAutomaticallyIfNeeded := by
  unfold MultiwayHand.advanceAutomaticallyIfNeeded
  rw [hr.phase, hr.bettingRoundComplete]
  split
  · exact hr.advanceStreet
  · exact hr

/-! ### Actions -/

theorem setWager (hr : Relabelled π h h') (wager raise : Nat) :
    Relabelled π { h with currentWager := wager, lastFullRaiseSize := raise }
      { h' with currentWager := wager, lastFullRaiseSize := raise } :=
  { hr with currentWager := rfl, lastFullRaiseSize := rfl }

theorem setRaise (hr : Relabelled π h h') (oldWager target increase : Nat) :
    Relabelled π
      { h with
        currentWager := target
        lastFullRaiseSize :=
          if (if oldWager = 0 then h.blindValues.bigBlind ≤ target else h.lastFullRaiseSize ≤ increase) then increase
          else h.lastFullRaiseSize }
      { h' with
        currentWager := target
        lastFullRaiseSize :=
          if (if oldWager = 0 then h'.blindValues.bigBlind ≤ target else h'.lastFullRaiseSize ≤ increase) then increase
          else h'.lastFullRaiseSize } := by
  refine { hr with currentWager := rfl, lastFullRaiseSize := ?_ }
  simp only [hr.blindValues, hr.lastFullRaiseSize]

theorem moveChips (hr : Relabelled π h h') (p : SeatId) (action : Action) :
    Relabelled π (h.moveChips p action) (h'.moveChips (π p) action) := by
  unfold MultiwayHand.moveChips
  dsimp only
  cases action with
  | fold => exact hr.updateSeat p _
  | check => exact hr
  | call amount =>
    dsimp only
    rw [hr.seat]
    exact (hr.check _).commitTo p _
  | bet target | raise target =>
    dsimp only
    rw [hr.currentWager]
    exact (hr.commitTo p target).setWager _ _
  | allIn target =>
    have hcommitted := hr.commitTo p target
    dsimp only
    rw [hr.currentWager]
    split
    · exact (hcommitted.setRaise _ target _).updateSeat p _
    · exact hcommitted.updateSeat p _

theorem markResponse (hr : Relabelled π h h') (p : SeatId) : Relabelled π (h.markResponse p) (h'.markResponse (π p)) := by
  unfold MultiwayHand.markResponse
  rw [hr.seat, hr.currentWager]
  split
  · exact hr.updateSeat p _
  · exact hr

theorem addRecord (hr : Relabelled π h h') (phase : MultiwayPhase) (p : SeatId) (action : Action) :
    Relabelled π { h with actionHistory := h.actionHistory ++ [⟨h.actionHistory.length + 1, phase, p, action, h.currentWager⟩] }
      { h' with actionHistory := h'.actionHistory ++ [⟨h'.actionHistory.length + 1, phase, π p, action, h'.currentWager⟩] } := by
  refine { hr with actionHistory := ?_ }
  dsimp only
  rw [hr.actionHistory, hr.currentWager, List.map_append, List.length_map]
  rfl

theorem recordAction (hr : Relabelled π h h') (p : SeatId) (action : Action) :
    Relabelled π (h.recordAction p action) (h'.recordAction (π p) action) := by
  unfold MultiwayHand.recordAction
  dsimp only
  rw [hr.phase]
  exact ((hr.moveChips p action).markResponse p).addRecord _ p action

theorem moveChips_seats (h : MultiwayHand) (p : SeatId) (action : Action) : SameSeats h (h.moveChips p action) := by
  have hframe : ∀ k : MultiwayHand, ∀ wager raise, SameSeats k { k with currentWager := wager, lastFullRaiseSize := raise } :=
    fun _ _ _ => ⟨rfl, rfl, fun _ => rfl⟩
  unfold MultiwayHand.moveChips
  cases action with
  | fold => exact (updateSeat_table h p _).same
  | check => exact ⟨rfl, rfl, fun _ => rfl⟩
  | call amount => exact (check_table h _).same.trans (commitChips_table _ p _).same
  | bet target | raise target => exact (commitChips_table h p _).same.trans (hframe _ _ _)
  | allIn target =>
    have hcommitted : SameSeats h (h.commitTo p target) := (commitChips_table h p _).same
    refine hcommitted.trans ?_
    dsimp only
    split
    · exact (hframe _ _ _).trans (updateSeat_table _ p _).same
    · exact (updateSeat_table _ p _).same

theorem recordAction_seats (h : MultiwayHand) (p : SeatId) (action : Action) : SameSeats h (h.recordAction p action) :=
  ((moveChips_seats h p action).trans (markResponse_table _ p).same).trans ⟨rfl, rfl, fun _ => rfl⟩

theorem applyValidatedAction (hr : Relabelled π h h') (hocc : occupiedIn h.seats p = true) (action : Action) :
    Relabelled π (h.applyValidatedAction p action) (h'.applyValidatedAction (π p) action) := by
  have hacted := hr.recordAction p action
  have hstill : occupiedIn (h.recordAction p action).seats p = true := by
    rw [(recordAction_seats h p action).occupied]
    exact hocc
  unfold MultiwayHand.applyValidatedAction
  dsimp only
  rw [hacted.potEligibleCount, hacted.bettingRoundComplete, hacted.nextNeedingAfter hstill, Option.isSome_map]
  by_cases hone : (h.recordAction p action).potEligibleCount = 1
  · rw [if_pos hone, if_pos hone]
    exact hacted.awardFold hone
  rw [if_neg hone, if_neg hone]
  split
  · exact hacted.advanceStreet
  · exact (hacted.setToAct _).check _

theorem applyCommand (hr : Relabelled π h h') (command : SeatCommand) :
    (h'.applyCommand (command.relabel π)).1 = (h.applyCommand command).1.mapError (·.relabel π) ∧
      Relabelled π (h.applyCommand command).2 (h'.applyCommand (command.relabel π)).2 := by
  unfold MultiwayHand.applyCommand
  rw [hr.validateCommand]
  cases hv : h.validateCommand command with
  | error e => exact ⟨rfl, hr⟩
  | ok u =>
    have hocc := occupied_of_canAct (validateCommand_ok hv).1.canAct
    exact ⟨rfl, hr.applyValidatedAction hocc command.action⟩

theorem setAlwaysShow (hr : Relabelled π h h') (p : SeatId) (value : Bool) :
    (h'.setAlwaysShow (π p) value).1 = (h.setAlwaysShow p value).1.mapError (·.relabel π) ∧
      Relabelled π (h.setAlwaysShow p value).2 (h'.setAlwaysShow (π p) value).2 := by
  have hany : (h'.occupiedSeats.any (· == π p)) = h.occupiedSeats.any (· == p) :=
    hr.any_seat fun q => by rw [Bool.eq_iff_iff, beq_iff_eq, beq_iff_eq, π.injective.eq_iff]
  have hshowing : h'.showdownProgress.isSome = h.showdownProgress.isSome := by rw [hr.showdownProgress, Option.isSome_map]
  unfold MultiwayHand.setAlwaysShow
  rw [hany, hr.phase, hshowing]
  split
  · exact ⟨rfl, hr⟩
  split
  · exact ⟨rfl, hr⟩
  · refine ⟨rfl, { hr with phase := rfl, alwaysShow := ?_ }⟩
    dsimp only
    rw [hr.alwaysShow]
    cases value with
    | true =>
      simp only [if_true]
      by_cases hmem : p ∈ h.alwaysShow
      · rw [List.insert_of_mem hmem, List.insert_of_mem (List.mem_map_of_mem hmem)]
      · rw [List.insert_of_not_mem hmem, List.insert_of_not_mem fun hp => hmem ((List.mem_map_of_injective π.injective).mp hp)]
        rfl
    | false =>
      simp only [Bool.false_eq_true, if_false]
      rw [List.filter_map]
      refine congrArg _ (List.filter_congr fun q _ => ?_)
      rw [Function.comp_apply, Bool.eq_iff_iff, bne_iff_ne, bne_iff_ne, π.injective.ne_iff]

end Relabelled

def HandOp.relabel (π : Equiv.Perm SeatId) : HandOp → HandOp
  | .command c => .command (c.relabel π)
  | .advance => .advance
  | .alwaysShow seat value => .alwaysShow (π seat) value

namespace Relabelled

open MultiwayHand

variable {h h' : MultiwayHand} {p : SeatId}

theorem mapError_isOk {ε ε' α : Type} (f : ε → ε') (r : Except ε α) : (r.mapError f).isOk = r.isOk := by cases r <;> rfl

/-- Each call is taken or refused alike, and leaves the hands alike. -/
theorem apply (hr : Relabelled π h h') (op : HandOp) :
    ((op.relabel π).apply h').1 = (op.apply h).1 ∧ Relabelled π (op.apply h).2 ((op.relabel π).apply h').2 := by
  cases op with
  | command command =>
    obtain ⟨hanswer, hnext⟩ := hr.applyCommand command
    exact ⟨(congrArg (·.isOk) hanswer).trans (mapError_isOk _ _), hnext⟩
  | advance => exact hr.advanceShowdown
  | alwaysShow p value =>
    obtain ⟨hanswer, hnext⟩ := hr.setAlwaysShow p value
    exact ⟨(congrArg (·.isOk) hanswer).trans (mapError_isOk _ _), hnext⟩

theorem run (hr : Relabelled π h h') (ops : List HandOp) : Relabelled π (h.run ops) (h'.run (ops.map (·.relabel π))) :=
  foldl (fun _ _ op hk => (hk.apply op).2) hr ops

end Relabelled

end OpenFelt
