/-
  OpenFelt.Game.Showing — from the last bet to the settlement.

  `Showing` holds while hands are being tabled: who is in the hand is fixed, the seats
  before the cursor are tabled or mucked, and a muck is justified by hands tabled before
  it. `advance_showdown` moves the board or the cursor and keeps it, until it settles
  (`Showing.advance_cases`); `while self.advance_showdown()` ends (`Showing.drained`).
-/

import OpenFelt.Game.HandPlay
import OpenFelt.Game.Settlement

namespace OpenFelt

open Betting

namespace MultiwayHand

/-! ## A showdown under way -/

/-- `m` is in some pot, and in each such pot a hand tabled before its turn beats it. -/
structure Beaten (h : MultiwayHand) (order : List SeatId) (m : SeatId) : Prop where
  contends : ∃ pot ∈ (buildPots h.contributionSnapshot).pots, m ∈ pot.eligible
  beaten : ∀ pot ∈ (buildPots h.contributionSnapshot).pots, m ∈ pot.eligible →
    ∃ shown ∈ order.takeWhile (· ≠ m), shown ∈ h.revealedHands.map (·.seat) ∧ shown ∈ pot.eligible ∧
      h.strictlyBetter shown m = true

/-- What tabling hands leaves alone: the books, the seats in the hand, the board's room. -/
structure Contest (h : MultiwayHand) (allIn : Bool) (order : List SeatId) : Prop where
  balanced : h.Balanced
  sound : Sound h.blindValues.bigBlind h.street
  accepts : h.phase.acceptsActions = true
  waiting : h.toAct = none
  contested : 2 ≤ h.potEligibleCount
  awards : h.awards = []
  nodup : order.Nodup
  mem : ∀ p, p ∈ order ↔ h.street.InHand p
  ordered : order = h.showOrder
  flag : allIn = h.anyAllIn
  evaluations : h.showdownEvaluations = if allIn then [] else h.evaluated
  deck : h.deck.index + (5 - h.board.length) ≤ h.deck.cards.length
  board : h.board.length = 0 ∨ 3 ≤ h.board.length ∧ h.board.length ≤ 5
  river : allIn = false → h.board.length = 5

/-- What has been tabled and mucked so far. -/
structure Tabled (h : MultiwayHand) (progress : ShowdownProgress) : Prop where
  current : h.showdownProgress = some progress
  cursor : progress.cursor ≤ progress.order.length
  shown : h.revealedHands ≠ []
  mucked : progress.mucked = h.muckedHands
  split : (h.revealedHands.map (·.seat) ++ h.muckedHands).Perm (progress.order.take progress.cursor)
  allIn : progress.allIn = true → progress.cursor = progress.order.length ∧ h.muckedHands = []
  justified : ∀ m ∈ h.muckedHands, h.alwaysShow.contains m = false ∧ h.Beaten progress.order m

structure Showing (h : MultiwayHand) (progress : ShowdownProgress) : Prop where
  contest : h.Contest progress.allIn progress.order
  tabled : h.Tabled progress

/-- Only cards have been dealt, tabled or mucked since `h`. -/
def Shows (h h' : MultiwayHand) : Prop :=
  h' = { h with
    phase := h'.phase
    board := h'.board
    deck := h'.deck
    revealedHands := h'.revealedHands
    muckedHands := h'.muckedHands
    showdownProgress := h'.showdownProgress }

section showing
variable {h h' h'' : MultiwayHand} {progress : ShowdownProgress} {order : List SeatId} {allIn : Bool} {p : SeatId}

theorem Shows.refl (h : MultiwayHand) : Shows h h := rfl

theorem Shows.trans (a : Shows h h') (b : Shows h' h'') : Shows h h'' := by
  unfold Shows at a b ⊢
  rw [b, a]

theorem Contest.table (hc : h.Contest allIn order) (revealed : List RevealedHand) (mucked : List SeatId)
    (progress : Option ShowdownProgress) : Contest { h with
      revealedHands := revealed, muckedHands := mucked, showdownProgress := progress } allIn order :=
  ⟨⟨⟨hc.balanced.booked.1, hc.balanced.booked.2, hc.balanced.booked.3, hc.balanced.booked.4⟩, hc.balanced.total,
    hc.balanced.fits, hc.balanced.ok⟩, hc.sound, hc.accepts, hc.waiting, hc.contested, hc.awards, hc.nodup, hc.mem,
    hc.ordered, hc.flag, hc.evaluations, hc.deck, hc.board, hc.river⟩

/-- The turn of the seat under the cursor: what was handled before it comes before it. -/
theorem take_eq_takeWhile {k : Nat} {rest : List SeatId} (hn : order.Nodup) (hd : order.drop k = p :: rest) :
    order.takeWhile (· ≠ p) = order.take k := by
  have hsplit : order.take k ++ p :: rest = order := by rw [← hd]; exact List.take_append_drop k order
  have hnot : ∀ q ∈ order.take k, decide (q ≠ p) = true := fun q hq => by
    rw [← hsplit] at hn
    simp only [decide_eq_true_eq]
    exact (List.nodup_append.mp hn).2.2 q hq p List.mem_cons_self
  conv_lhs => rw [← hsplit]
  rw [List.takeWhile_append_of_pos hnot, List.takeWhile_cons_of_neg (by simp), List.append_nil]

theorem not_mem_take {k : Nat} {rest : List SeatId} (hn : order.Nodup) (hd : order.drop k = p :: rest) : p ∉ order.take k := by
  have hsplit : order.take k ++ p :: rest = order := by rw [← hd]; exact List.take_append_drop k order
  rw [← hsplit] at hn
  exact fun hm => (List.nodup_append.mp hn).2.2 p hm p List.mem_cons_self rfl

theorem take_succ_eq {k : Nat} {rest : List SeatId} (hd : order.drop k = p :: rest) :
    order.take (k + 1) = order.take k ++ [p] ∧ k < order.length ∧ order.drop (k + 1) = rest := by
  have hlt : k < order.length := by
    by_contra hge
    rw [List.drop_eq_nil_of_le (by omega)] at hd; cases hd
  have hget : order[k] = p := by
    have := List.drop_eq_getElem_cons hlt
    rw [hd] at this; exact (List.cons.inj this).1.symm
  refine ⟨by rw [List.take_succ_eq_append_getElem hlt, hget], hlt, ?_⟩
  rw [← List.tail_drop, hd]; rfl

/-- A muck is for hands already tabled. -/
theorem beaten_of_test (hrev : ∀ q ∈ h.revealedHands.map (·.seat), q ∈ order.takeWhile (· ≠ p))
    (htest : h.beatenByTabledHands p = true) : h.Beaten order p := by
  simp only [beatenByTabledHands, Bool.and_eq_true, Bool.not_eq_true', List.isEmpty_eq_false_iff_exists_mem,
    List.mem_filter, List.contains_iff_mem, List.all_eq_true, List.any_eq_true, and_imp] at htest
  obtain ⟨⟨pot, hpot, hp⟩, hall⟩ := htest
  refine ⟨⟨pot, hpot, hp⟩, fun pot hpot hp => ?_⟩
  obtain ⟨shown, hs, he, hbetter⟩ := hall pot hpot hp
  have hm : shown.seat ∈ h.revealedHands.map (·.seat) := List.mem_map_of_mem hs
  exact ⟨shown.seat, hrev _ hm, hm, he, hbetter⟩

/-- Tabling more hands keeps a muck justified. -/
theorem Beaten.mono {revealed : List RevealedHand} {mucked : List SeatId} {pr : Option ShowdownProgress} (hb : h.Beaten order p)
    (hsub : ∀ shown ∈ h.revealedHands, shown ∈ revealed) :
    Beaten { h with revealedHands := revealed, muckedHands := mucked, showdownProgress := pr } order p := by
  refine ⟨hb.contends, fun pot hpot hp => ?_⟩
  obtain ⟨shown, h1, h2, h3, h4⟩ := hb.beaten pot hpot hp
  obtain ⟨r, hr, rfl⟩ := List.mem_map.mp h2
  exact ⟨r.seat, h1, List.mem_map_of_mem (hsub r hr), h3, h4⟩

/-- Tabling a seat not tabled yet adds it at the end. -/
theorem tableCards_new (hp : p ∉ h.revealedHands.map (·.seat)) :
    h.tableCards p = { h with revealedHands := h.revealedHands ++ [⟨p, h.tabledAs p⟩] } := by
  have hany : h.revealedHands.any (·.seat == p) = false := by
    refine List.any_eq_false.mpr fun shown hs e => hp ?_
    rw [← beq_iff_eq.mp e]; exact List.mem_map_of_mem hs
  rw [tableCards, hany]; rfl

theorem Tabled.mem_split (ht : h.Tabled progress) (hp : p ∈ h.revealedHands.map (·.seat) ∨ p ∈ h.muckedHands) :
    p ∈ progress.order.take progress.cursor :=
  ht.split.mem_iff.mp (List.mem_append.mpr hp)

/-- The seat under the cursor tables its cards. -/
theorem Showing.tables (hs : h.Showing progress) {rest : List SeatId} (hd : progress.order.drop progress.cursor = p :: rest) :
    Showing ({ h with showdownProgress := some { progress with cursor := progress.cursor + 1 } }.tableCards p)
      { progress with cursor := progress.cursor + 1 } := by
  obtain ⟨htake, hlt, _⟩ := take_succ_eq hd
  have hnew : p ∉ h.revealedHands.map (·.seat) := fun hm =>
    not_mem_take hs.contest.nodup hd (hs.tabled.mem_split (Or.inl hm))
  rw [tableCards_new (h := { h with showdownProgress := some { progress with cursor := progress.cursor + 1 } }) hnew]
  refine ⟨hs.contest.table _ _ _, rfl, hlt, by simp, hs.tabled.mucked, ?_, fun ha => ?_, fun m hm => ?_⟩
  · have hperm : ((h.revealedHands.map (·.seat) ++ h.muckedHands) ++ [p]).Perm (progress.order.take (progress.cursor + 1)) := by
      rw [htake]; exact hs.tabled.split.append_right _
    refine List.Perm.trans ?_ hperm
    simp only [List.map_append, List.map_cons, List.map_nil, List.append_assoc]
    exact List.Perm.append_left _ List.perm_append_comm
  · have := (hs.tabled.allIn ha).1
    omega
  · obtain ⟨h1, h2⟩ := hs.tabled.justified m hm
    exact ⟨h1, h2.mono fun shown => List.mem_append_left _⟩

/-- The seat under the cursor mucks. -/
theorem Showing.mucks (hs : h.Showing progress) {rest : List SeatId} (hd : progress.order.drop progress.cursor = p :: rest)
    (hshow : h.alwaysShow.contains p = false) (htest : h.beatenByTabledHands p = true) :
    Showing { h with
        muckedHands := h.muckedHands ++ [p]
        showdownProgress := some { progress with cursor := progress.cursor + 1, mucked := h.muckedHands ++ [p] } }
      { progress with cursor := progress.cursor + 1, mucked := h.muckedHands ++ [p] } := by
  obtain ⟨htake, hlt, _⟩ := take_succ_eq hd
  refine ⟨hs.contest.table _ _ _, rfl, hlt, hs.tabled.shown, rfl, ?_, fun ha => ?_, fun m hm => ?_⟩
  · show (h.revealedHands.map (·.seat) ++ (h.muckedHands ++ [p])).Perm (progress.order.take (progress.cursor + 1))
    rw [htake, ← List.append_assoc]; exact hs.tabled.split.append_right _
  · have := (hs.tabled.allIn ha).1
    omega
  · rcases List.mem_append.mp hm with hm | hm
    · obtain ⟨h1, h2⟩ := hs.tabled.justified m hm
      exact ⟨h1, h2.mono fun shown => id⟩
    · obtain rfl := List.mem_singleton.mp hm
      refine ⟨hshow, Beaten.mono (beaten_of_test (fun q hq => ?_) htest) fun shown => id⟩
      rw [take_eq_takeWhile hs.contest.nodup hd]
      exact hs.tabled.mem_split (Or.inl hq)

/-- The reveal loop tables one more hand, or runs out of seats. -/
theorem revealFrom_cases {rest : List SeatId} (hs : h.Showing progress) (hd : progress.order.drop progress.cursor = rest) :
    ∃ h' progress', h'.Showing progress' ∧ Shows h h' ∧ h'.board = h.board ∧ progress'.order = progress.order ∧
      progress'.allIn = progress.allIn ∧
      ((revealFrom rest h = (true, h') ∧ progress.cursor < progress'.cursor) ∨
        (revealFrom rest h = (false, h') ∧ progress'.cursor = progress'.order.length)) := by
  induction rest generalizing h progress with
  | nil =>
    have hlen : progress.order.length ≤ progress.cursor := List.drop_eq_nil_iff.mp hd
    exact ⟨h, progress, hs, rfl, rfl, rfl, rfl, Or.inr ⟨rfl, Nat.le_antisymm hs.tabled.cursor hlen⟩⟩
  | cons p rest ih =>
    have hcur := hs.tabled.current
    simp only [revealFrom, hcur, Option.map_some]
    by_cases hshow : (h.alwaysShow.contains p || !h.beatenByTabledHands p) = true
    · have htables := hs.tables hd
      refine ⟨_, _, htables, ?_, ?_, rfl, rfl, Or.inl ⟨if_pos hshow, Nat.lt_succ_self _⟩⟩
      · have hnew : p ∉ h.revealedHands.map (·.seat) := fun hm =>
          not_mem_take hs.contest.nodup hd (hs.tabled.mem_split (Or.inl hm))
        rw [tableCards_new (h := { h with showdownProgress := some { progress with cursor := progress.cursor + 1 } }) hnew]; rfl
      · rw [tableCards]; split <;> rfl
    · have hboth : h.alwaysShow.contains p = false ∧ h.beatenByTabledHands p = true := by
        simpa using hshow
      have hmucks := hs.mucks hd hboth.1 hboth.2
      obtain ⟨h', progress', h1, h2, h3, h4, h5, h6⟩ := ih hmucks (take_succ_eq hd).2.2
      refine ⟨h', progress', h1, @Shows.trans h { h with muckedHands := _, showdownProgress := _ } _ rfl h2, h3, h4, h5, ?_⟩
      rcases h6 with ⟨he, hlt⟩ | ⟨he, hfull⟩
      · exact Or.inl ⟨(if_neg hshow).trans he, Nat.lt_of_succ_lt hlt⟩
      · exact Or.inr ⟨(if_neg hshow).trans he, hfull⟩

/-! ## One advance -/

theorem runoutPhase_accepts (h : MultiwayHand) : h.runoutPhase.acceptsActions = true := by
  unfold runoutPhase; split <;> rfl

/-- A runout deals the flop, then a card at a time. -/
theorem Contest.runoutCards (hc : h.Contest allIn order) :
    (h.board.length = 0 ∧ h.runoutCards = 3) ∨ (3 ≤ h.board.length ∧ h.runoutCards = 1) := by
  rcases hc.board with h0 | ⟨h3, _⟩
  · exact Or.inl ⟨h0, by simp [MultiwayHand.runoutCards, List.length_eq_zero_iff.mp h0]⟩
  · have hne : h.board.isEmpty = false := by
      cases hb : h.board with
      | nil => simp [hb] at h3
      | cons => rfl
    exact Or.inr ⟨h3, by simp [MultiwayHand.runoutCards, hne]⟩

/-- A runout deals towards a full board and touches nothing else. -/
theorem Showing.runs_out (hs : h.Showing progress) (ha : progress.allIn = true) (hlt : h.board.length < 5) :
    ∃ h', h.advanceShowdown = (true, h') ∧ h'.Showing progress ∧ Shows h h' ∧ h.board.length < h'.board.length := by
  have hc := hs.contest
  have hne : ¬ h.potEligibleCount = 1 := by have := hc.contested; omega
  have hroom := hc.deck
  have hcount := hc.runoutCards
  have hdeal := Deck.dealN_eq h.deck h.runoutCards (by omega)
  have hup := h.deck.upcoming_length h.runoutCards (by omega)
  have hlen : (h.board ++ h.deck.upcoming h.runoutCards).length = h.board.length + h.runoutCards := by
    rw [List.length_append, hup]
  have hadvance : h.advanceShowdown =
      (true, { h.dealBoard h.runoutCards with phase := (h.dealBoard h.runoutCards).runoutPhase }) := by
    have hguard : (progress.allIn && decide (h.board.length < 5)) = true := by simp [ha, hlt]
    simp only [advanceShowdown, hs.tabled.current, if_neg hne, hguard, if_true]
  have hdealt : h.dealBoard h.runoutCards = { h with
      board := h.board ++ h.deck.upcoming h.runoutCards
      deck := { h.deck with index := h.deck.index + h.runoutCards } } := by simp only [dealBoard, hdeal]
  rw [hdealt] at hadvance
  refine ⟨_, hadvance, ⟨?_, ?_⟩, rfl, by
    show h.board.length < (h.board ++ _).length
    omega⟩
  · refine ⟨⟨⟨hc.balanced.booked.1, hc.balanced.booked.2, hc.balanced.booked.3, hc.balanced.booked.4⟩, hc.balanced.total,
      hc.balanced.fits, hc.balanced.ok⟩, hc.sound, runoutPhase_accepts _, hc.waiting, hc.contested, hc.awards, hc.nodup,
      hc.mem, hc.ordered, hc.flag, ?_, ?_, ?_, fun hf => absurd ha (by simp [hf])⟩
    · have he := hc.evaluations
      rw [ha, if_pos rfl] at he
      rw [ha, if_pos rfl]; exact he
    · show h.deck.index + h.runoutCards + (5 - (h.board ++ _).length) ≤ h.deck.cards.length
      omega
    · show (h.board ++ _).length = 0 ∨ 3 ≤ (h.board ++ _).length ∧ (h.board ++ _).length ≤ 5
      omega
  · have hm : h.muckedHands = [] := (hs.tabled.allIn ha).2
    exact ⟨hs.tabled.current, hs.tabled.cursor, hs.tabled.shown, hs.tabled.mucked, hs.tabled.split, hs.tabled.allIn,
      fun m hmem => absurd hmem (by rw [show MultiwayHand.muckedHands _ = h.muckedHands from rfl, hm]; exact List.not_mem_nil)⟩

/-- Deals until the board is full. -/
def boardSteps (h : MultiwayHand) : Nat := if h.board.length = 0 then 3 else 5 - h.board.length

/-- No showdown takes more advances than this. -/
def stepsLeft (h : MultiwayHand) : Nat :=
  match h.showdownProgress with
  | none => 0
  | some progress => h.boardSteps + (progress.order.length - progress.cursor) + 1

theorem Showing.stepsLeft_eq (hs : h.Showing progress) :
    h.stepsLeft = h.boardSteps + (progress.order.length - progress.cursor) + 1 := by
  simp only [stepsLeft, hs.tabled.current]

theorem stepsLeft_le_fuel (h : MultiwayHand) : h.stepsLeft ≤ h.showdownFuel := by
  unfold stepsLeft showdownFuel boardSteps
  cases h.showdownProgress with
  | none => exact Nat.le_refl _
  | some progress => dsimp only; split <;> omega

/-- Everybody has shown or mucked, and the board is full: what is left is the settlement. -/
structure Shown (h : MultiwayHand) (progress : ShowdownProgress) : Prop extends Showing h progress where
  done : progress.cursor = progress.order.length
  full : h.board.length = 5

/-- The hand a completed showdown is settled into. -/
def settle (h : MultiwayHand) : MultiwayHand := { h with showdownProgress := none }.resolveShowdown

/-- An advance moves the showdown on, or settles it. -/
theorem Showing.advance_cases (hs : h.Showing progress) :
    (∃ h' progress', h.advanceShowdown = (true, h') ∧ h'.Showing progress' ∧ Shows h h' ∧
        progress'.order = progress.order ∧ h'.stepsLeft < h.stepsLeft) ∨
      ∃ g progress', g.Shown progress' ∧ Shows h g ∧ progress'.order = progress.order ∧
        h.advanceShowdown = (true, g.settle) := by
  have hne : ¬ h.potEligibleCount = 1 := by have := hs.contest.contested; omega
  by_cases hrun : progress.allIn = true ∧ h.board.length < 5
  · obtain ⟨h', he, hs', hshows, hlt⟩ := hs.runs_out hrun.1 hrun.2
    refine Or.inl ⟨h', progress, he, hs', hshows, rfl, ?_⟩
    have hboard := hs'.contest.board
    have hroom := hrun.2
    rw [hs.stepsLeft_eq, hs'.stepsLeft_eq, boardSteps, boardSteps, if_neg (show ¬ h'.board.length = 0 by omega)]
    split <;> omega
  · have hguard : (progress.allIn && decide (h.board.length < 5)) = false := by simpa using hrun
    have hfull : h.board.length = 5 := by
      cases ha : progress.allIn with
      | false => exact hs.contest.river ha
      | true =>
        have := hs.contest.board
        rw [ha, Bool.true_and, decide_eq_false_iff_not] at hguard
        omega
    obtain ⟨g, progress', hs', hshows, hboard, horder, _, hcase⟩ := revealFrom_cases hs rfl
    simp only [advanceShowdown, hs.tabled.current, if_neg hne, hguard, Bool.false_eq_true, if_false]
    rcases hcase with ⟨he, hlt⟩ | ⟨he, hdone⟩
    · refine Or.inl ⟨g, progress', by rw [he], hs', hshows, horder, ?_⟩
      have hcursor := hs'.tabled.cursor
      rw [horder] at hcursor
      rw [hs.stepsLeft_eq, hs'.stepsLeft_eq, boardSteps, boardSteps, hboard, horder]
      omega
    · exact Or.inr ⟨g, progress', ⟨hs', hdone, by rw [hboard]; exact hfull⟩, hshows, horder, by rw [he]; rfl⟩

theorem advanceShowdown_none (hp : h.showdownProgress = none) : h.advanceShowdown = (false, h) := by
  simp [advanceShowdown, hp]

theorem settle_ends (h : MultiwayHand) :
    h.settle.showdownProgress = none ∧ h.settle.phase = .showdown ∧ h.settle.toAct = none := by
  obtain ⟨hk, h1, h2⟩ := resolveShowdown_ends { h with showdownProgress := none }
  exact ⟨hk.progress, h1, h2⟩

/-- `while self.advance_showdown() {}` ends with the hand settled. -/
theorem Showing.drained (hs : h.Showing progress) {fuel : Nat} (hf : h.stepsLeft ≤ fuel) :
    ∃ g progress', g.Shown progress' ∧ Shows h g ∧ progress'.order = progress.order ∧ drainShowdown fuel h = g.settle := by
  induction fuel generalizing h progress with
  | zero => rw [hs.stepsLeft_eq] at hf; omega
  | succ fuel ih =>
    rcases hs.advance_cases with ⟨h', progress', he, hs', hshows, horder, hlt⟩ | ⟨g, progress', hg, hshows, horder, he⟩
    · obtain ⟨g, progress'', hg, hshows', horder', hd⟩ := ih hs' (by omega)
      exact ⟨g, progress'', hg, hshows.trans hshows', horder'.trans horder, by simp only [drainShowdown, he, hd]⟩
    · refine ⟨g, progress', hg, hshows, horder, ?_⟩
      simp only [drainShowdown, he]
      cases fuel with
      | zero => rfl
      | succ fuel => simp only [drainShowdown, advanceShowdown_none (settle_ends g).1]

/-! ## The showdown begins -/

/-- The show order is the seats in the hand, each once. -/
theorem showOrder_perm (h : MultiwayHand) :
    h.showOrder.Perm (h.occupiedSeats.filter fun p => (h.seat p).eligibleForPot) := by
  have horder := List.perm_insertionSort
      (fun a b => clockwiseAwardKey h.tableSize h.button a ≤ clockwiseAwardKey h.tableSize h.button b)
    (h.occupiedSeats.filter fun p => (h.seat p).eligibleForPot)
  unfold showOrder
  simp only
  split
  · rename_i index _
    refine List.Perm.trans ?_ horder
    refine List.Perm.trans List.perm_append_comm ?_
    rw [List.take_append_drop]
    exact .refl _
  · exact horder

theorem foldl_tableCards (hn : order.Nodup) (hnew : ∀ p ∈ order, p ∉ h.revealedHands.map (·.seat)) :
    order.foldl tableCards h =
      { h with revealedHands := h.revealedHands ++ order.map fun p => (⟨p, h.tabledAs p⟩ : RevealedHand) } := by
  induction order generalizing h with
  | nil => simp
  | cons p order ih =>
    obtain ⟨hp, hn⟩ := List.nodup_cons.mp hn
    rw [List.foldl_cons, tableCards_new (hnew p List.mem_cons_self), ih hn]
    · simp only [List.map_cons, List.append_assoc, List.cons_append, List.nil_append]
      rfl
    · intro q hq hm
      simp only [List.map_append, List.map_cons, List.map_nil, List.mem_append, List.mem_singleton] at hm
      rcases hm with hm | rfl
      · exact hnew q (List.mem_cons_of_mem _ hq) hm
      · exact hp hq

/-- A street that ends the betting opens the showdown of the seats still in. -/
theorem UnderWay.opens {posted : Nat} (hu : h.UnderWay posted) (hcount : 2 ≤ h.potEligibleCount)
    (hend : h.phase = .river ∨ (h.bettingLocked = true ∧ h.anyAllIn = true)) :
    ∃ progress, Showing (h.openShowdown h.anyAllIn) progress ∧ progress.order = h.showOrder ∧
      h.openShowdown h.anyAllIn = { h with
        toAct := none
        showdownEvaluations := (h.openShowdown h.anyAllIn).showdownEvaluations
        revealedHands := (h.openShowdown h.anyAllIn).revealedHands
        showdownProgress := (h.openShowdown h.anyAllIn).showdownProgress } := by
  have hlen := hu.booked.length
  have hperm := h.showOrder_perm
  have hnodup : h.showOrder.Nodup := hperm.nodup_iff.mpr ((nodup_occupiedSeats h).filter _)
  have hmem : ∀ p, p ∈ h.showOrder ↔ h.street.InHand p := fun p => hperm.mem_iff.trans (mem_eligible hlen)
  have hpos : 2 ≤ h.showOrder.length := by rw [hperm.length_eq]; exact hcount
  have hbooked : h.Booked := hu.booked
  cases hall : h.anyAllIn with
  | true =>
    have hopen : h.openShowdown true = { h with
        toAct := none
        revealedHands := h.revealedHands ++ h.showOrder.map fun p => (⟨p, h.tabledAs p⟩ : RevealedHand)
        showdownProgress := some ⟨true, h.showOrder, h.showOrder.length, []⟩ } := by
      simp only [openShowdown, if_true]
      rw [show MultiwayHand.showOrder { h with toAct := none } = h.showOrder from rfl,
        foldl_tableCards (h := { h with toAct := none }) hnodup (by simp [hu.quiet.revealed])]
      rfl
    rw [hopen, hu.quiet.revealed, List.nil_append]
    refine ⟨⟨true, h.showOrder, h.showOrder.length, []⟩,
      ⟨?_, rfl, Nat.le_refl _, ?_, hu.quiet.mucked.symm, ?_, fun _ => ⟨rfl, hu.quiet.mucked⟩, ?_⟩, rfl, rfl⟩
    · refine ⟨⟨⟨hbooked.1, hbooked.2, hbooked.3, hbooked.4⟩, hu.total, hu.fits, hu.ok⟩, hu.sound, hu.accepts, rfl, hcount,
        hu.quiet.awards, hnodup, hmem, rfl, hall.symm, hu.quiet.evaluations, hu.deck, ?_, fun hf => by cases hf⟩
      have hb : h.board.length = h.phase.boardLength := hu.board
      show h.board.length = 0 ∨ 3 ≤ h.board.length ∧ h.board.length ≤ 5
      rw [hb]; cases h.phase <;> simp [MultiwayPhase.boardLength]
    · intro hnil
      have := List.map_eq_nil_iff.mp hnil
      rw [this] at hpos; simp at hpos
    · rw [List.take_length]
      simp [Function.comp_def, hu.quiet.mucked]
    · intro m hm
      rw [show MultiwayHand.muckedHands _ = h.muckedHands from rfl, hu.quiet.mucked] at hm
      cases hm
  | false =>
    have hriver : h.phase = .river := hend.resolve_right fun e => by rw [hall] at e; cases e.2
    have heval : evaluateShowdownOnce { h with toAct := none } = { h with toAct := none, showdownEvaluations := h.evaluated } :=
      evaluateShowdownOnce_eq (h := { h with toAct := none }) (Or.inl hu.quiet.evaluations)
    rcases horder : h.showOrder with _ | ⟨first, rest⟩
    · rw [horder] at hpos; simp at hpos
    have hopen : h.openShowdown false = { h with
        toAct := none
        showdownEvaluations := h.evaluated
        revealedHands := h.revealedHands ++ [⟨first, tabledAs { h with showdownEvaluations := h.evaluated } first⟩]
        showdownProgress := some ⟨false, h.showOrder, 1, []⟩ } := by
      have hnew := tableCards_new (h := { h with toAct := none, showdownEvaluations := h.evaluated }) (p := first)
        (by simp [hu.quiet.revealed])
      simp only [openShowdown, Bool.false_eq_true, if_false, heval]
      rw [show MultiwayHand.showOrder { h with toAct := none, showdownEvaluations := h.evaluated } = h.showOrder from rfl, horder]
      simp only [hnew]
      rfl
    rw [hopen, hu.quiet.revealed, List.nil_append]
    refine ⟨⟨false, h.showOrder, 1, []⟩, ⟨?_, rfl, by show 1 ≤ h.showOrder.length; omega, by simp, hu.quiet.mucked.symm, ?_,
      fun hf => (by cases hf), ?_⟩, horder.symm ▸ rfl, rfl⟩
    · refine ⟨⟨⟨hbooked.1, hbooked.2, hbooked.3, hbooked.4⟩, hu.total, hu.fits, hu.ok⟩, hu.sound, hu.accepts, rfl, hcount,
        hu.quiet.awards, hnodup, hmem, rfl, hall.symm, rfl, hu.deck, ?_, fun _ => ?_⟩
      · have hb : h.board.length = h.phase.boardLength := hu.board
        show h.board.length = 0 ∨ 3 ≤ h.board.length ∧ h.board.length ≤ 5
        rw [hb, hriver]; simp [MultiwayPhase.boardLength]
      · have hb : h.board.length = h.phase.boardLength := hu.board
        show h.board.length = 5
        rw [hb, hriver]; rfl
    · simp [hu.quiet.mucked, horder]
    · intro m hm
      rw [show MultiwayHand.muckedHands _ = h.muckedHands from rfl, hu.quiet.mucked] at hm
      cases hm

/-- Paced, the showdown waits; otherwise it runs to the settlement. -/
theorem UnderWay.begins {posted : Nat} (hu : h.UnderWay posted) (hcount : 2 ≤ h.potEligibleCount)
    (hend : h.phase = .river ∨ (h.bettingLocked = true ∧ h.anyAllIn = true)) :
    (h.pacedShowdown = true ∧ ∃ progress, Showing (h.openShowdown h.anyAllIn) progress ∧
        h.beginShowdown h.anyAllIn = h.openShowdown h.anyAllIn) ∨
      (h.pacedShowdown = false ∧ ∃ g progress, g.Shown progress ∧ Shows (h.openShowdown h.anyAllIn) g ∧
        h.beginShowdown h.anyAllIn = g.settle) := by
  have hne : ¬ h.potEligibleCount = 1 := by omega
  obtain ⟨progress, hs, _, hframe⟩ := hu.opens hcount hend
  have hpaced : (h.openShowdown h.anyAllIn).pacedShowdown = h.pacedShowdown := by rw [hframe]
  rw [beginShowdown, if_neg hne]
  simp only [hpaced]
  by_cases hp : h.pacedShowdown = true
  · exact Or.inl ⟨hp, progress, hs, if_pos hp⟩
  · obtain ⟨g, progress', hg, hshows, _, hd⟩ := hs.drained (stepsLeft_le_fuel _)
    exact Or.inr ⟨by simpa using hp, g, progress', hg, hshows, (if_neg hp).trans hd⟩

end showing

end MultiwayHand

end OpenFelt
