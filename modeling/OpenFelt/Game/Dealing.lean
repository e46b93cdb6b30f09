/-
  OpenFelt.Game.Dealing — where a hand's cards come from (`src/game/multiway.rs`,
  `src/game/multiway/showdown.rs`).

  Cards leave the deck in three places: the constructor, a new street and a showdown's
  runout. `Draws h h' n` says the board has grown by the next `n` cards of the deck and
  no hole card has changed. Proved: every call on a hand draws, so the cards out are
  always the first of the deck, no card twice (`run_deals`), and the board has as many
  as its street, whether an all-in runs out in one call or in paced steps.
-/

import OpenFelt.Game.HoleCards

namespace OpenFelt

namespace Deck

variable {d : Deck}

@[simp] theorem upcoming_zero (d : Deck) : d.upcoming 0 = [] := rfl

theorem upcoming_add (d : Deck) (n m : Nat) :
    d.upcoming (n + m) = d.upcoming n ++ upcoming { d with index := d.index + n } m := by
  rw [upcoming, List.take_add, List.drop_drop]
  rfl

theorem take_upcoming (d : Deck) (n : Nat) : d.cards.take (d.index + n) = d.cards.take d.index ++ d.upcoming n :=
  List.take_add

theorem new_nodup : new.cards.Nodup := by decide

theorem Shuffled.nodup (hd : d.Shuffled) : d.cards.Nodup := hd.1.nodup_iff.mpr new_nodup

end Deck

namespace MultiwayHand

/-! ## Drawing cards -/

/-- `h'` has the next `n` cards of `h`'s deck on its board; the hole cards are `h`'s. -/
structure Draws (h h' : MultiwayHand) (n : Nat) : Prop where
  tableSize : h'.tableSize = h.tableSize
  occupied : ∀ p, occupiedIn h'.seats p = occupiedIn h.seats p
  hole : ∀ p, (h'.seat p).holeCards = (h.seat p).holeCards
  board : h'.board = h.board ++ h.deck.upcoming n
  deck : h'.deck = { h.deck with index := h.deck.index + n }
  room : h.deck.index ≤ h.deck.cards.length → h.deck.index + n ≤ h.deck.cards.length

/-- Every card that has left the deck: the hole cards by seat, then the board. -/
def cardsOut (h : MultiwayHand) : List Card := (h.occupiedSeats.flatMap fun p => (h.seat p).holeCards) ++ h.board

section draws
variable {h h' h'' g : MultiwayHand} {n m : Nat} {p : SeatId}

theorem Draws.refl (h : MultiwayHand) : Draws h h 0 := ⟨rfl, fun _ => rfl, fun _ => rfl, by simp, rfl, id⟩

theorem Draws.trans (a : Draws h h' n) (b : Draws h' h'' m) : Draws h h'' (n + m) := by
  refine ⟨b.tableSize.trans a.tableSize, fun p => (b.occupied p).trans (a.occupied p), fun p => (b.hole p).trans (a.hole p),
    ?_, ?_, fun hroom => ?_⟩
  · rw [b.board, a.board, a.deck, Deck.upcoming_add, List.append_assoc]
  · rw [b.deck, a.deck, Nat.add_assoc]
  · have h1 := a.room hroom
    have h2 := b.room (by rw [a.deck]; exact h1)
    rw [a.deck] at h2
    rw [← Nat.add_assoc]; exact h2

theorem Draws.keeps {k : MultiwayHand} (a : Draws h h' n) (b : Draws h' k 0) : Draws h k n := a.trans b

theorem Draws.occupiedSeats (hd : Draws h h' n) : h'.occupiedSeats = h.occupiedSeats := by
  simp only [MultiwayHand.occupiedSeats, hd.tableSize]
  exact List.filter_congr fun p _ => hd.occupied p

theorem Draws.foldl {α : Type} {s : MultiwayHand → α → MultiwayHand} (hs : ∀ h x, Draws h (s h x) 0) (l : List α)
    (h : MultiwayHand) : Draws h (l.foldl s h) 0 := by
  induction l generalizing h with
  | nil => exact .refl h
  | cons x l ih => exact (hs h x).keeps (ih _)

/-- Books may change under the cards. -/
theorem SameTable.draws (t : SameTable h h') (hole : ∀ p, (h'.seat p).holeCards = (h.seat p).holeCards) : Draws h h' 0 := by
  refine ⟨t.tableSize, t.occupied, hole, ?_, ?_, id⟩
  · rw [t.frame, Deck.upcoming_zero, List.append_nil]
  · rw [t.frame]
    rfl

theorem updateSeat_draws {f : MultiwaySeatState → MultiwaySeatState} (hf : ∀ st, (f st).holeCards = st.holeCards)
    (h : MultiwayHand) (p : SeatId) : Draws h (h.updateSeat p f) 0 :=
  (updateSeat_table h p f).draws (updateSeat_cards hf h p)

theorem updateOccupied_draws {f : MultiwaySeatState → MultiwaySeatState} (hf : ∀ st, (f st).holeCards = st.holeCards)
    (h : MultiwayHand) : Draws h (h.updateOccupied f) 0 :=
  Draws.foldl (fun h p => updateSeat_draws hf h p) _ h

/-- Nothing but seats, board and deck matters to the cards. -/
theorem Draws.rest (a : Draws h h' n) (hsize : g.tableSize = h'.tableSize) (hseats : g.seats = h'.seats)
    (hboard : g.board = h'.board)
    (hdeck : g.deck = h'.deck) : Draws h g n :=
  ⟨hsize.trans a.tableSize, fun p => by rw [hseats]; exact a.occupied p, fun p => by simp only [seat, hseats]; exact a.hole p,
    hboard.trans a.board, hdeck.trans a.deck, a.room⟩

theorem check_draws (h : MultiwayHand) (ok : Bool) : Draws h (h.check ok) 0 := (Draws.refl h).rest rfl rfl rfl rfl

theorem credit_draws (h : MultiwayHand) (p : SeatId) (n : Nat) : Draws h (h.credit p n) 0 :=
  (check_draws h (fitsU32 ((h.seat p).stack + n))).keeps <|
    updateSeat_draws (f := fun state => { state with stack := state.stack + n })
    (fun _ => rfl) _ p

theorem dealBoard_draws (hroom : h.deck.index + n ≤ h.deck.cards.length) : Draws h (h.dealBoard n) n := by
  have hdeal := Deck.dealN_eq h.deck n hroom
  have hdealt : h.dealBoard n = { h with
      board := h.board ++ h.deck.upcoming n, deck := { h.deck with index := h.deck.index + n } } := by
    simp only [dealBoard, hdeal]
  rw [hdealt]
  exact ⟨rfl, fun _ => rfl, fun _ => rfl, rfl, rfl, fun _ => hroom⟩

/-! ## Settlements draw nothing -/

theorem clearContributions_draws (h : MultiwayHand) : Draws h h.clearContributions 0 := by
  refine updateOccupied_draws ?_ h
  intro st
  rfl

theorem awardFold_draws (h : MultiwayHand) : Draws h h.awardFold 0 := by
  cases hw : h.occupiedSeats.find? fun p => (h.seat p).eligibleForPot with
  | none =>
    rw [awardFold_none hw]
    exact (Draws.refl h).rest rfl rfl rfl rfl
  | some winner =>
    rw [awardFold_some hw]
    have hpaid : ∀ k : MultiwayHand, Draws h k 0 → ∀ n awards, Draws h { k.credit winner n with awards := awards } 0 :=
      fun k hk n awards => (hk.keeps (credit_draws k winner n)).rest rfl rfl rfl rfl
    have hcleared : ∀ k : MultiwayHand, Draws h k 0 →
        Draws h { k.clearContributions with toAct := none, phase := .handComplete } 0 :=
      fun k hk => (hk.keeps (clearContributions_draws k)).rest rfl rfl rfl rfl
    refine hcleared _ (hpaid _ ?_ _ _)
    exact (Draws.refl h).rest rfl rfl rfl rfl

theorem returnUnmatched_draws (h : MultiwayHand) : Draws h h.returnUnmatched 0 := by
  have hcredit : ∀ (k : MultiwayHand) (r : ReturnedExcess), Draws k (k.credit r.seat r.amount) 0 :=
    fun k r => credit_draws k r.seat r.amount
  have hloop := Draws.foldl hcredit (buildPots h.contributionSnapshot).returned
  refine Draws.keeps ?_ (hloop _)
  exact (Draws.refl h).rest rfl rfl rfl rfl

theorem evaluateShowdownOnce_draws (h : MultiwayHand) : Draws h h.evaluateShowdownOnce 0 := by
  unfold evaluateShowdownOnce
  split
  · exact (Draws.refl h).rest rfl rfl rfl rfl
  · exact .refl h

theorem tableCards_draws (h : MultiwayHand) (p : SeatId) : Draws h (h.tableCards p) 0 := by
  unfold tableCards
  split
  · exact .refl h
  · exact (Draws.refl h).rest rfl rfl rfl rfl

theorem publishHands_draws (h : MultiwayHand) : Draws h h.publishHands 0 := by
  have hreveal : ∀ (allIn : Bool) (k : MultiwayHand) (p : SeatId), Draws k
      (if allIn || k.alwaysShow.contains p || !k.beatenByTabledHands p then k.tableCards p
      else { k with muckedHands := k.muckedHands ++ [p] }) 0 := fun allIn k p => by
    split
    · exact tableCards_draws k p
    · exact (Draws.refl k).rest rfl rfl rfl rfl
  have hdescribe : ∀ k : MultiwayHand, Draws k k.describeRevealed 0 := fun k => (Draws.refl k).rest rfl rfl rfl rfl
  unfold publishHands
  refine @Draws.keeps _ (if h.revealedHands.isEmpty then h.revealSynchronously else h) _ _ ?_ (hdescribe _)
  split
  · exact Draws.foldl (hreveal h.anyAllIn) h.showOrder h
  · exact .refl h

theorem awardPot_draws (h : MultiwayHand) (pot : Pot) (i : Nat) : Draws h (h.awardPot pot i) 0 := by
  unfold awardPot
  split
  · exact check_draws h _
  · have hcredit : ∀ (k : MultiwayHand) (x : SeatPayout), Draws k (k.credit x.seat x.amount) 0 :=
      fun k x => credit_draws k x.seat x.amount
    have hloop := Draws.foldl hcredit
    exact ((check_draws h _).keeps (hloop _ _)).rest rfl rfl rfl rfl

theorem payPots_draws (h : MultiwayHand) : Draws h h.payPots 0 := by
  have hstep : ∀ (k : MultiwayHand) (x : Pot × Nat), Draws k (k.awardPot x.1 x.2) 0 := fun k x => awardPot_draws k x.1 x.2
  exact Draws.foldl hstep _ h

theorem closeShowdown_draws (h : MultiwayHand) : Draws h h.closeShowdown 0 := (clearContributions_draws h).rest rfl rfl rfl rfl

theorem resolveShowdown_draws (h : MultiwayHand) : Draws h h.resolveShowdown 0 :=
  ((((returnUnmatched_draws h).keeps (evaluateShowdownOnce_draws _)).keeps (publishHands_draws _)).keeps
    (payPots_draws _)).keeps (closeShowdown_draws _)

theorem settle_draws (h : MultiwayHand) : Draws h h.settle 0 := by
  refine Draws.keeps ?_ (resolveShowdown_draws _)
  exact (Draws.refl h).rest rfl rfl rfl rfl

/-! ## One call -/

/-- The board a phase has while the hand is played or shown. -/
def OnStreet (h : MultiwayHand) : Prop := h.phase.acceptsActions = true → h.board.length = h.phase.boardLength

section steps
variable {c : HandConfig} {posted : Nat} {progress : ShowdownProgress} {k : MultiwayHand} {op : HandOp}

theorem runoutPhase_boardLength (h3 : 3 ≤ h.board.length) (h5 : h.board.length ≤ 5) :
    h.runoutPhase.boardLength = h.board.length := by
  obtain e | e | e : h.board.length = 3 ∨ h.board.length = 4 ∨ h.board.length = 5 := by omega
  all_goals simp [runoutPhase, e, MultiwayPhase.boardLength]

theorem revealFrom_draws (rest : List SeatId) (h : MultiwayHand) :
    Draws h (revealFrom rest h).2 0 ∧ (revealFrom rest h).2.phase = h.phase := by
  induction rest generalizing h with
  | nil => exact ⟨.refl h, rfl⟩
  | cons p rest ih =>
    simp only [revealFrom]
    split
    · have htables := tableCards_draws { h with showdownProgress := h.showdownProgress.map fun progress =>
        { progress with cursor := progress.cursor + 1 } } p
      refine ⟨Draws.keeps ?_ htables, ?_⟩
      · exact (Draws.refl h).rest rfl rfl rfl rfl
      rw [tableCards]
      split <;> rfl
    · obtain ⟨hdraws, hphase⟩ := ih { h with
        showdownProgress := (h.showdownProgress.map fun progress =>
          ({ progress with cursor := progress.cursor + 1 } : ShowdownProgress)).map fun progress =>
            { progress with mucked := h.muckedHands ++ [p] }
        muckedHands := h.muckedHands ++ [p] }
      refine ⟨Draws.keeps ?_ hdraws, hphase⟩
      exact (Draws.refl h).rest rfl rfl rfl rfl

/-- An advance deals what the board is short of, or nothing. -/
theorem Showing.advance_draws (hs : h.Showing progress) (hon : h.OnStreet) :
    (∃ n, Draws h h.advanceShowdown.2 n) ∧ h.advanceShowdown.2.OnStreet := by
  have hne : ¬ h.potEligibleCount = 1 := by have := hs.contest.contested; omega
  simp only [advanceShowdown, hs.tabled.current, if_neg hne]
  split
  · rename_i hguard
    have hshort : h.board.length < 5 := by
      simp only [Bool.and_eq_true, decide_eq_true_eq] at hguard
      exact hguard.2
    have hcount := hs.contest.runoutCards
    have hcards := hs.contest.deck
    have hroom : h.deck.index + h.runoutCards ≤ h.deck.cards.length := by omega
    have hdraws := dealBoard_draws hroom
    have hlen : (h.dealBoard h.runoutCards).board.length = h.board.length + h.runoutCards := by
      rw [hdraws.board, List.length_append, Deck.upcoming_length _ _ hroom]
    refine ⟨⟨_, hdraws.rest rfl rfl rfl rfl⟩, fun _ => ?_⟩
    have hphase := runoutPhase_boardLength (h := h.dealBoard h.runoutCards) (by omega) (by omega)
    exact hphase.symm
  · obtain ⟨hdraws, hphase⟩ := revealFrom_draws (progress.order.drop progress.cursor) h
    generalize revealFrom (progress.order.drop progress.cursor) h = shown at hdraws hphase
    obtain ⟨moved, g⟩ := shown
    cases moved with
    | true =>
      refine ⟨⟨0, hdraws⟩, fun hacc => ?_⟩
      have hsame := hon hs.contest.accepts
      rw [hphase, ← hsame, hdraws.board, Deck.upcoming_zero, List.append_nil]
    | false =>
      exact ⟨⟨0, hdraws.keeps (settle_draws g)⟩, fun hacc => by cases hacc⟩

/-- The whole showdown draws, settlement and all. -/
theorem drainShowdown_draws {fuel : Nat} (hs : (h.Over ∨ ∃ progress, h.Showing progress) ∧ h.OnStreet) :
    ∃ n, Draws h (drainShowdown fuel h) n := by
  induction fuel generalizing h with
  | zero => exact ⟨0, .refl h⟩
  | succ fuel ih =>
    obtain ⟨hover | ⟨progress, hshowing⟩, hon⟩ := hs
    · simp only [drainShowdown, advanceShowdown_none hover.progress]
      exact ⟨0, .refl h⟩
    · obtain ⟨⟨n, hdraws⟩, hon'⟩ := hshowing.advance_draws hon
      have hnext : h.advanceShowdown.1 = true ∧
          (h.advanceShowdown.2.Over ∨ ∃ progress, h.advanceShowdown.2.Showing progress) := by
        rcases hshowing.advance_cases with ⟨h', progress', he, hs', _⟩ | ⟨g, _, _, _, _, he⟩
        · rw [he]; exact ⟨rfl, Or.inr ⟨progress', hs'⟩⟩
        · rw [he]; exact ⟨rfl, Or.inl (settle_over g)⟩
      obtain ⟨m, hrest⟩ := ih ⟨hnext.2, hon'⟩
      simp only [drainShowdown]
      generalize h.advanceShowdown = moved at *
      obtain ⟨_, k⟩ := moved
      obtain rfl := hnext.1
      exact ⟨n + m, hdraws.trans hrest⟩

theorem openShowdown_draws (hu : h.UnderWay posted) (hcount : 2 ≤ h.potEligibleCount)
    (hend : h.phase = .river ∨ (h.bettingLocked = true ∧ h.anyAllIn = true)) :
    Draws h (h.openShowdown h.anyAllIn) 0 ∧ (h.openShowdown h.anyAllIn).OnStreet := by
  obtain ⟨_, _, _, hf⟩ := hu.opens hcount hend
  rw [hf]
  exact ⟨(Draws.refl h).rest rfl rfl rfl rfl, fun _ => hu.board⟩

/-- What follows an action draws too. -/
theorem Proceeds.draws {p : SeatId} (hu : g.UnderWay posted) (hp : Proceeds posted p g k) : (∃ n, Draws g k n) ∧ k.OnStreet := by
  cases hp with
  | foldedOut hone =>
    refine ⟨⟨0, awardFold_draws g⟩, fun hacc => ?_⟩
    obtain ⟨_, hf⟩ := awardFold_spec hu.balanced hone
    rw [hf.frame] at hacc; cases hacc
  | asks q _ _ _ => exact ⟨⟨0, (Draws.refl g).rest rfl rfl rfl rfl⟩, fun _ => hu.board⟩
  | deals hcount _ hriver hact =>
    have hplaying := hu.dealt hriver hcount hact
    refine ⟨⟨g.phase.nextCards, ?_⟩, fun _ => hplaying.board⟩
    obtain ⟨hf, _⟩ := dealStreet_frame hu hriver
    obtain ⟨_, hocc, _⟩ := dealStreet_table hu hriver
    have hframe := (updateOccupied_table g fun state => { state with streetContribution := 0, lastActionWager := none }).frame
    have hcards := MultiwayPhase.nextCards_boardLength hu.accepts hriver
    have hboard := hu.board
    have hroom := hu.deck
    refine ⟨?_, hocc, fun q => by rw [seat_dealStreet hu hriver], by rw [hf], by rw [hf], fun _ => by omega⟩
    rw [hf]
    show g.clearStreet.tableSize = g.tableSize
    rw [clearStreet, hframe]
  | shows hcount _ hend =>
    obtain ⟨hopens, hon⟩ := openShowdown_draws hu hcount hend
    have hne : ¬ g.potEligibleCount = 1 := by omega
    obtain ⟨progress, hs, _, _⟩ := hu.opens hcount hend
    rcases hu.begins hcount hend with ⟨_, _, _, he⟩ | ⟨_, _, _, _, _, he⟩
    · rw [he]; exact ⟨⟨0, hopens⟩, hon⟩
    · refine ⟨?_, fun hacc => by rw [he, (settle_ends _).2.1] at hacc; cases hacc⟩
      obtain ⟨n, hdrained⟩ := @drainShowdown_draws _ (g.openShowdown g.anyAllIn).showdownFuel ⟨Or.inr ⟨progress, hs⟩, hon⟩
      rw [beginShowdown, if_neg hne]
      dsimp only
      split
      · exact ⟨0, hopens⟩
      · exact ⟨0 + n, hopens.trans hdrained⟩

/-- Every call draws the next cards, and keeps the board its phase has. -/
theorem Stage.draws (hs : Stage c posted h) (hon : h.OnStreet) (op : HandOp) :
    (∃ n, Draws h (op.apply h).2 n) ∧ (op.apply h).2.OnStreet := by
  by_cases hr : (op.apply h).1 = false
  · rw [apply_refused hr]; exact ⟨⟨0, .refl h⟩, hon⟩
  cases op with
  | command command =>
    cases hv : h.validateCommand command with
    | error e => simp [HandOp.apply, applyCommand, hv, Except.isOk, Except.toBool] at hr
    | ok u =>
      obtain ⟨_, hp⟩ := hs.playing_of_accepted hv
      obtain ⟨_, g, _, hacted, hu, _, _, hproceeds⟩ := hp.command_cases hv
      obtain ⟨⟨n, hdraws⟩, hon'⟩ := hproceeds.draws hu
      have happly : (HandOp.apply (.command command) h).2 = h.applyValidatedAction command.seat command.action := by
        simp only [HandOp.apply, applyCommand, hv]
      have hacts : Draws h g 0 := by
        refine ⟨by rw [hacted.frame], hacted.occupied, hacted.cards, ?_, ?_, id⟩
        · rw [hacted.frame, Deck.upcoming_zero, List.append_nil]
        · rw [hacted.frame]; rfl
      rw [happly]
      exact ⟨⟨0 + n, hacts.trans hdraws⟩, hon'⟩
  | advance =>
    cases hs with
    | playing _ hp =>
      rw [show HandOp.advance.apply h = (false, h) from advanceShowdown_none hp.quiet.progress] at hr
      exact absurd rfl hr
    | showing _ hsh _ => exact hsh.advance_draws hon
    | settled _ _ => exact absurd (settle_over _).refuses hr
    | folded _ hu hone => exact absurd (awardFold_over hu hone).refuses hr
  | alwaysShow seat value =>
    simp only [HandOp.apply, setAlwaysShow]
    split
    · exact ⟨⟨0, .refl h⟩, hon⟩
    split
    · exact ⟨⟨0, .refl h⟩, hon⟩
    · exact ⟨⟨0, (Draws.refl h).rest rfl rfl rfl rfl⟩, hon⟩

theorem Stage.draws_run (hs : Stage c posted h) (hon : h.OnStreet) (ops : List HandOp) :
    (∃ n, Draws h (h.run ops) n) ∧ (h.run ops).OnStreet := by
  induction ops generalizing h with
  | nil => exact ⟨⟨0, .refl h⟩, hon⟩
  | cons op ops ih =>
    obtain ⟨⟨n, hfirst⟩, hon'⟩ := hs.draws hon op
    obtain ⟨⟨m, hrest⟩, hend⟩ := ih (hs.step op) hon'
    exact ⟨⟨n + m, hfirst.trans hrest⟩, hend⟩

end steps

end draws

/-! ## The cards out -/

/-- Two cards to each seat, and the cards out are the first of the deck. -/
structure DealtFrom (cards : List Card) (h : MultiwayHand) : Prop where
  two : h.TwoCards
  deck : h.deck.cards = cards
  room : h.deck.index ≤ cards.length
  out : h.cardsOut.Perm (cards.take h.deck.index)

section out
variable {c : HandConfig} {h h' table : MultiwayHand} {cards : List Card} {n chips : Nat} {sb bb first : SeatId}
  {seats : List (Option MultiwaySeatState)}

theorem DealtFrom.draws (hd : DealtFrom cards h) (ha : Draws h h' n) : DealtFrom cards h' := by
  have hcards : h'.deck.cards = cards := by rw [ha.deck]; exact hd.deck
  refine ⟨fun p hp => ?_, hcards, ?_, ?_⟩
  · rw [ha.hole]
    exact hd.two p (ha.occupied p ▸ hp)
  · have hroom := ha.room (by rw [hd.deck]; exact hd.room)
    rw [hd.deck] at hroom
    rw [ha.deck]; exact hroom
  · have hholes : (h'.occupiedSeats.flatMap fun p => (h'.seat p).holeCards) =
        h.occupiedSeats.flatMap fun p => (h.seat p).holeCards := by
      rw [ha.occupiedSeats]
      exact congrArg List.flatten (List.map_congr_left fun p _ => ha.hole p)
    rw [cardsOut, hholes, ha.board, ← List.append_assoc, ha.deck]
    rw [← hd.deck, Deck.take_upcoming, hd.deck]
    exact hd.out.append_right _

/-- Another card for one of the members. -/
theorem flatMap_snoc {α β : Type} [DecidableEq α] {l : List α} (hn : l.Nodup) {q : α} (hq : q ∈ l) {f g : α → List β} {x : β}
    (hself : g q = f q ++ [x]) (hrest : ∀ p ∈ l, p ≠ q → g p = f p) : (l.flatMap g).Perm (l.flatMap f ++ [x]) := by
  have hsplit := List.perm_cons_erase hq
  have hsame : (l.erase q).flatMap g = (l.erase q).flatMap f :=
    congrArg List.flatten (List.map_congr_left fun p hp => hrest p (List.mem_of_mem_erase hp) (hn.mem_erase_iff.mp hp).1)
  have hg := hsplit.flatMap_right g
  have hf := hsplit.flatMap_right f
  rw [List.flatMap_cons, hself, hsame] at hg
  rw [List.flatMap_cons] at hf
  refine hg.trans (List.Perm.trans ?_ (hf.symm.append_right [x]))
  rw [List.append_assoc, List.append_assoc]
  exact List.Perm.append_left _ List.perm_append_comm

/-- A round of dealing takes the next cards of the deck. -/
theorem dealHoleCards_out {l : List SeatId} (hlen : h.seats.length = h.tableSize.get)
    (hl : ∀ p ∈ l, occupiedIn h.seats p = true) (hroom : h.deck.index + l.length ≤ h.deck.cards.length) :
    (dealHoleCards l h).cardsOut.Perm (h.cardsOut ++ h.deck.upcoming l.length) := by
  induction l generalizing h with
  | nil => simp [dealHoleCards]
  | cons q l ih =>
    rw [List.length_cons] at hroom
    have hq := hl q List.mem_cons_self
    have hlt : h.deck.index < h.deck.cards.length := by omega
    simp only [dealHoleCards, Deck.deal_of_lt hlt]
    generalize hk : MultiwayHand.updateSeat { h with deck := { h.deck with index := h.deck.index + 1 } } q (fun state =>
      { state with holeCards := state.holeCards ++ [h.deck.cards[h.deck.index]] }) = k
    have htable : SameTable { h with deck := { h.deck with index := h.deck.index + 1 } } k := by
      rw [← hk]; exact updateSeat_table _ _ _
    have hdeck : k.deck = { h.deck with index := h.deck.index + 1 } := by rw [htable.frame]
    have hboard : k.board = h.board := by rw [htable.frame]
    have hocc : k.occupiedSeats = h.occupiedSeats := htable.occupiedSeats
    have hfirst : k.cardsOut.Perm (h.cardsOut ++ [h.deck.cards[h.deck.index]]) := by
      have hholes : (k.occupiedSeats.flatMap fun p => (k.seat p).holeCards).Perm
          ((h.occupiedSeats.flatMap fun p => (h.seat p).holeCards) ++ [h.deck.cards[h.deck.index]]) := by
        rw [hocc]
        refine flatMap_snoc (nodup_occupiedSeats h) ((mem_occupiedSeats hlen).mpr hq) ?_ fun p _ hne => ?_
        · rw [← hk, seat_updateSeat_self (by exact hq)]
        · rw [← hk, seat_updateSeat_ne hne]
      rw [cardsOut, hboard, cardsOut]
      refine (hholes.append_right h.board).trans ?_
      rw [List.append_assoc, List.append_assoc]
      exact List.Perm.append_left _ List.perm_append_comm
    have hone : h.deck.upcoming 1 = [h.deck.cards[h.deck.index]] := by
      rw [Deck.upcoming, List.drop_eq_getElem_cons hlt]
      rfl
    refine (ih ?_ ?_ ?_).trans ?_
    · rw [htable.length, hlen, htable.tableSize]
    · intro p hp
      rw [htable.occupied]
      exact hl p (List.mem_cons_of_mem _ hp)
    · rw [hdeck]
      show h.deck.index + 1 + l.length ≤ h.deck.cards.length
      omega
    · rw [List.length_cons, Nat.add_comm l.length, Deck.upcoming_add, hone, ← List.append_assoc, hdeck]
      exact hfirst.append_right _

/-- The table a configuration posts is dealt from its deck. -/
theorem Built.dealtFrom (hdeck : c.deck.Shuffled) (hb : Built c seats chips sb bb first table h) :
    DealtFrom c.deck.cards table := by
  have hs : Seating c.tableSize c.seatStacks seats chips := placeStacks_seating (seating_empty _) hb.placed
  have hocc : ∀ p ∈ clockwiseOccupied c.tableSize seats c.button, occupiedIn seats p = true := fun p hp =>
    (List.mem_filter.mp hp).2
  have hfew : (clockwiseOccupied c.tableSize seats c.button).length ≤ 9 := by
    refine (List.length_filter_le ..).trans ?_
    simpa [clockwiseFrom] using c.tableSize.le_nine
  have hcards := hdeck.length
  have hindex := hdeck.2
  have hunseen : (seated c.tableSize seats c.button sb bb c.blindValues chips c.deck).cardsOut = [] := by
    refine List.append_eq_nil_iff.mpr ⟨List.flatMap_eq_nil_iff.mpr fun p _ => ?_, rfl⟩
    show (seatOf seats p).holeCards = []
    rw [seatOf, hs.seat]
    cases c.seatStacks.lookup p <;> rfl
  have hplaces : (seated c.tableSize seats c.button sb bb c.blindValues chips c.deck).seats.length =
      (seated c.tableSize seats c.button sb bb c.blindValues chips c.deck).tableSize.get := hs.length
  have hroom : (seated c.tableSize seats c.button sb bb c.blindValues chips c.deck).deck.index +
      (clockwiseOccupied c.tableSize seats c.button).length ≤
        (seated c.tableSize seats c.button sb bb c.blindValues chips c.deck).deck.cards.length := by
    show c.deck.index + _ ≤ c.deck.cards.length
    omega
  obtain ⟨f1, l1, o1, _⟩ := dealHoleCards_spec hocc hroom
  have hone := dealHoleCards_out hplaces hocc hroom
  have hdealtTo : c.dealtTo seats chips sb bb = dealHoleCards (clockwiseOccupied c.tableSize seats c.button)
      (dealHoleCards (clockwiseOccupied c.tableSize seats c.button)
        (seated c.tableSize seats c.button sb bb c.blindValues chips c.deck)) := rfl
  rw [hunseen, List.nil_append] at hone
  generalize dealHoleCards (clockwiseOccupied c.tableSize seats c.button)
    (seated c.tableSize seats c.button sb bb c.blindValues chips c.deck) = once at *
  have hdeck1 : once.deck = { c.deck with index := c.deck.index + (clockwiseOccupied c.tableSize seats c.button).length } := by
    rw [f1]; rfl
  have hocc1 : ∀ p ∈ clockwiseOccupied c.tableSize seats c.button, occupiedIn once.seats p = true := fun p hp => by
    rw [o1]; exact hocc p hp
  have hroom1 : once.deck.index + (clockwiseOccupied c.tableSize seats c.button).length ≤ once.deck.cards.length := by
    rw [hdeck1]
    show c.deck.index + _ + _ ≤ c.deck.cards.length
    omega
  obtain ⟨f2, _⟩ := dealHoleCards_spec hocc1 hroom1
  have htwice := dealHoleCards_out (by rw [l1, f1]; exact hplaces) hocc1 hroom1
  rw [← hdealtTo] at f2 htwice
  have hdeck2 : (c.dealtTo seats chips sb bb).deck = { c.deck with
      index := c.deck.index + (clockwiseOccupied c.tableSize seats c.button).length +
        (clockwiseOccupied c.tableSize seats c.button).length } := by
    rw [f2, hdeck1]
  have hkept : Draws (c.dealtTo seats chips sb bb) table 0 := (hb.posting hdeck).table.draws (hb.hole_kept hdeck)
  have htwo := hb.twoCards hdeck
  have hall : (c.dealtTo seats chips sb bb).cardsOut.Perm (c.deck.cards.take (c.dealtTo seats chips sb bb).deck.index) := by
    refine htwice.trans ((hone.append_right _).trans ?_)
    rw [hdeck2, hdeck1, Nat.add_assoc, Deck.take_upcoming, hindex, List.take_zero, List.nil_append, Deck.upcoming_add, hindex]
    exact List.Perm.refl _
  have hbase : DealtFrom c.deck.cards (c.dealtTo seats chips sb bb) := by
    refine ⟨fun p hp => ?_, by rw [hdeck2], ?_, hall⟩
    · rw [← hkept.hole]
      exact htwo p (by rw [hkept.occupied]; exact hp)
    · rw [hdeck2]
      show c.deck.index + _ + _ ≤ c.deck.cards.length
      omega
  exact hbase.draws hkept

/-- Opening the betting only draws, even when it goes straight to the showdown. -/
theorem Built.draws (hdeck : c.deck.Shuffled) (hb : Built c seats chips sb bb first table h) :
    (∃ n, Draws table h n) ∧ h.OnStreet := by
  obtain ⟨hd, _⟩ := hb.dealtIn hdeck
  have hpost := hb.posting hdeck
  obtain ⟨hblinds, hcount, _, _, _, _, rfl⟩ := hb
  generalize c.dealtTo seats chips sb bb = base at *
  have hu : (table.started first).UnderWay (table.started first).currentWager := hpost.underWay hd hblinds first
  have htwo : 2 ≤ (table.started first).potEligibleCount := hpost.contested hd hcount
  have hopen : table.openPreflop first =
      { (table.started first).advanceAutomaticallyIfNeeded with pacedShowdown := false } := rfl
  have hstarted : Draws table (table.started first) 0 := (Draws.refl table).rest rfl rfl rfl rfl
  obtain ⟨⟨n, hdraws⟩, hon⟩ : (∃ n, Draws (table.started first) (table.started first).advanceAutomaticallyIfNeeded n) ∧
      (table.started first).advanceAutomaticallyIfNeeded.OnStreet := by
    rw [advanceAutomaticallyIfNeeded, hu.accepts, Bool.true_and]
    generalize table.started first = g at hu htwo
    by_cases hdone : g.bettingRoundComplete = true
    · rw [if_pos hdone, advanceStreet_eq hu htwo]
      split
      · rename_i hend
        exact Proceeds.draws (p := first) hu (.shows htwo hdone hend)
      · rename_i hend
        exact Proceeds.draws (p := first) hu (.deals htwo hdone (fun e => hend (Or.inl e))
          (two_actors hu htwo fun e => hend (Or.inr e)))
    · rw [if_neg hdone]
      exact ⟨⟨0, .refl g⟩, fun _ => hu.board⟩
  rw [hopen]
  exact ⟨⟨_, (hstarted.trans hdraws).rest rfl rfl rfl rfl⟩, hon⟩

/-- So is the hand it opens. -/
theorem build_dealtFrom (hdeck : c.deck.Shuffled) (hb : c.build = .ok h) : DealtFrom c.deck.cards h ∧ h.OnStreet := by
  obtain ⟨seats, chips, sb, bb, first, table, hbuilt⟩ := build_built hb
  obtain ⟨⟨n, hdraws⟩, hon⟩ := hbuilt.draws hdeck
  exact ⟨(hbuilt.dealtFrom hdeck).draws hdraws, hon⟩

/-! ## Runs -/

/-- The cards each phase has on the board. -/
def BoardFits (h : MultiwayHand) : Prop :=
  match h.phase with
  | .preflop => h.board.length = 0
  | .flop => h.board.length = 3
  | .turn => h.board.length = 4
  | .river | .showdown => h.board.length = 5
  | .handComplete => h.board.length ∈ [0, 3, 4, 5]

/-- Two cards a seat, no card twice, a board that fits, and cards left for the rest of it. -/
structure Dealt (c : HandConfig) (h : MultiwayHand) : Prop where
  two : ∀ p ∈ h.occupiedSeats, (h.seat p).holeCards.length = 2
  distinct : h.cardsOut.Nodup
  first : h.cardsOut.Perm (c.deck.cards.take h.deck.index)
  board : h.BoardFits
  room : h.deck.index + (5 - h.board.length) ≤ h.deck.cards.length

theorem boardLength_mem {phase : MultiwayPhase} : phase.boardLength ∈ [0, 3, 4, 5] := by
  cases phase <;> decide

theorem OnStreet.fits (hon : h.OnStreet) (hacc : h.phase.acceptsActions = true) : h.BoardFits := by
  have hboard := hon hacc
  unfold BoardFits
  cases hphase : h.phase with
  | preflop | flop | turn | river => rw [hphase] at hboard; exact hboard
  | showdown | handComplete => rw [hphase] at hacc; cases hacc

theorem Stage.boardFits {posted : Nat} (hs : Stage c posted h) (hon : h.OnStreet) (hroom : h.deck.index ≤ h.deck.cards.length) :
    h.BoardFits ∧ h.deck.index + (5 - h.board.length) ≤ h.deck.cards.length := by
  cases hs with
  | playing _ hp => exact ⟨hon.fits hp.accepts, hp.deck⟩
  | showing _ hsh _ => exact ⟨hon.fits hsh.contest.accepts, hsh.contest.deck⟩
  | @settled _ g _ hg =>
    have hboard : g.settle.board.length = 5 := by
      rw [(settle_draws g).board, Deck.upcoming_zero, List.append_nil]
      exact hg.full
    refine ⟨?_, by rw [hboard, Nat.sub_self, Nat.add_zero]; exact hroom⟩
    unfold BoardFits
    rw [(settle_ends g).2.1]
    exact hboard
  | @folded g _ hu hone =>
    obtain ⟨_, hf⟩ := awardFold_spec hu.balanced hone
    have hboard : g.awardFold.board = g.board := by rw [hf.frame]
    have hdeck : g.awardFold.deck = g.deck := by rw [hf.frame]
    have hphase : g.awardFold.phase = .handComplete := by rw [hf.frame]
    refine ⟨?_, by rw [hboard, hdeck]; exact hu.deck⟩
    unfold BoardFits
    rw [hphase, hboard, hu.board]
    exact boardLength_mem

theorem HandStarts.dealtFrom (hstarts : HandStarts c h) : DealtFrom c.deck.cards h ∧ h.OnStreet := by
  obtain ⟨hdeck, start, paced, hb, rfl⟩ := hstarts
  obtain ⟨hdealt, hon⟩ := build_dealtFrom hdeck hb
  exact ⟨hdealt.draws ((Draws.refl start).rest rfl rfl rfl rfl), hon⟩

theorem HandStarts.dealtFrom_run (hstarts : HandStarts c h) (ops : List HandOp) :
    DealtFrom c.deck.cards (h.run ops) ∧ (h.run ops).OnStreet := by
  obtain ⟨hdealt, hon⟩ := hstarts.dealtFrom
  obtain ⟨⟨n, hdraws⟩, hon'⟩ := hstarts.stage.draws_run hon ops
  exact ⟨hdealt.draws hdraws, hon'⟩

/-- In every run each seat holds two cards, no card is out twice, the board fits its street and
    only grows, and the deck never runs out. -/
theorem run_deals (hstarts : HandStarts c h) (ops : List HandOp) :
    Dealt c (h.run ops) ∧ ∀ op : HandOp, (h.run ops).board <+: (op.apply (h.run ops)).2.board := by
  have hrun := hstarts.stage.run ops
  obtain ⟨hout, hon'⟩ := hstarts.dealtFrom_run ops
  obtain ⟨hfits, hroom⟩ := hrun.boardFits hon' (by rw [hout.deck]; exact hout.room)
  refine ⟨⟨fun p hp => hout.two p (List.mem_filter.mp hp).2, ?_, hout.out, hfits, hroom⟩, fun op => ?_⟩
  · exact hout.out.nodup_iff.mpr (hstarts.1.nodup.sublist (List.take_sublist _ _))
  · obtain ⟨⟨_, hnext⟩, _⟩ := hrun.draws hon' op
    rw [hnext.board]
    exact List.prefix_append _ _

theorem run_deals_three : ∃ h, HandStarts threeHanded h ∧ Dealt threeHanded (h.run threeHandedToShowdown) := by
  obtain ⟨h, hs, _⟩ := threeHanded_starts
  exact ⟨h, hs, (run_deals hs threeHandedToShowdown).1⟩

end out

end MultiwayHand

end OpenFelt
